import PassPipeline.Config.Build
import PassPipeline.Pass.Run
import PassPipeline.Report
import PassPipeline.Target.Platform

/-! Pipelines for many units. Every unit gets a pipeline of its own; the units share the session,
and so the allocator that is selected first. Nothing is reported unless all of them succeed. -/
namespace PassPipeline

/-- How pipelines are reported. -/
inductive Format where
  | table
  | arguments
  deriving DecidableEq, Repr

/-- What is asked for. -/
structure Request where
  target : Target
  level : Level
  options : Options
  units : List String
  /-- Whether each pipeline runs over its unit. -/
  run : Bool := false
  format : Format := .table
  /-- Whether runs are cancelled from the start. -/
  cancelled : Bool := false
  /-- What the writer of diagnostics answers to every text, if it takes none. -/
  diagnosticsFault : Option String := none

inductive GenerateError where
  | unit (name : String) (cause : Failure)
  | run (name : String) (cause : RunError)
  | diagnostics (text : String)
  deriving DecidableEq, Repr

def GenerateError.message : GenerateError → String
  | .unit name cause => name ++ ": " ++ cause.message
  | .run name cause => name ++ ": " ++ cause.message
  | .diagnostics text => text

/-- How the work on a request ended. A defect ends all of it at once. -/
inductive Ending where
  | done
  | failed (e : GenerateError)
  | broken (d : Defect)
  deriving DecidableEq, Repr

namespace Generate

/-- What was made for one unit. -/
structure Product where
  /-- The place of the unit in the request. -/
  index : Nat
  name : String
  passes : List Pass
  run : Option Run

/-- The work on a request so far: the products of the units, and the first error. -/
structure Progress where
  session : Session
  journal : List Entry := []
  products : List Product := []
  error : Option GenerateError := none

def Progress.fail (p : Progress) (e : GenerateError) : Progress :=
  { p with error := p.error <|> some e }

/-- Builds the pipeline of one unit and runs it. Behind an error the runs of further units are
cancelled, but their pipelines are built all the same. -/
def unit (req : Request) (p : Progress) (index : Nat) (name : String) :
    Except Defect Progress × List Entry :=
  match Config.create p.session req.target req.level req.options .collected with
  | (.error (.broken d), entries) => (.error d, entries)
  | (.error cause, entries) => (.ok (p.fail (.unit name cause)), entries)
  | (.ok c, entries) =>
    match c.work p.session (Build.build Build.stages) with
    | (.error d, s) => (.error d, entries ++ s.journal)
    | (.ok (.error r), s) =>
      (.ok ({ p with session := s.session }.fail (.unit name (.refused r))), entries ++ s.journal)
    | (.ok (.ok passes), s) =>
      let p := { p with session := s.session }
      let result :=
        if req.run then
          let start : Run := { unit := { name }, cancelled := req.cancelled || p.error.isSome }
          match start.passes passes with
          | (_, some cause) => p.fail (.run name cause)
          | (r, none) => { p with products := p.products ++ [⟨index, name, passes, some r⟩] }
        else { p with products := p.products ++ [⟨index, name, passes, none⟩] }
      (.ok result, entries ++ s.journal)

/-- Builds the pipelines of units in the order of a schedule of their places. -/
def units (req : Request) (p : Progress) : List Nat → Except (Defect × Progress) Progress
  | [] => .ok p
  | index :: rest =>
    match req.units[index]? with
    | none => units req p rest
    | some name =>
      match unit req p index name with
      | (.error d, entries) => .error (d, { p with journal := p.journal ++ entries })
      | (.ok p', entries) => units req { p' with journal := p.journal ++ entries } rest

/-- The products in the order of the units, whatever the schedule was. -/
def inOrder (req : Request) (p : Progress) : List Product :=
  (List.range req.units.length).filterMap fun i => p.products.find? (·.index = i)

/-- How a product is reported. -/
def report (registry : Registry) (format : Format) (p : Product) : String :=
  (match format with
    | .table => Report.table registry p.name p.passes
    | .arguments => Report.arguments p.passes) ++
  (match p.run with
    | some r => r.unit.summary
    | none => "")

/-- What the printers of a product wrote. -/
def diagnostics (p : Product) : String :=
  match p.run with
  | some r => r.textOf .collected
  | none => ""

end Generate

/-- What is written about one unit: the report first, then what its printers wrote. -/
structure Written where
  report : String
  diagnostics : String
  deriving DecidableEq, Repr

/-- What came of a request. -/
structure Generated where
  ending : Ending
  session : Session
  journal : List Entry
  written : List Written := []

namespace Generated

/-- All reports. -/
def out (g : Generated) : String := String.join (g.written.map Written.report)

/-- All that printers wrote. -/
def diagnostics (g : Generated) : String := String.join (g.written.map Written.diagnostics)

/-- Both, as they follow each other where they go the same way. -/
def merged (g : Generated) : String :=
  String.join (g.written.map fun w => w.report ++ w.diagnostics)

end Generated

/-- Works on a request, with the units built in the order of a schedule. -/
def generateBy (schedule : List Nat) (session : Session) (req : Request) : Generated :=
  match Generate.units req { session } schedule with
  | .error (d, p) => { ending := .broken d, session := p.session, journal := p.journal }
  | .ok p =>
    let written := (Generate.inOrder req p).map fun product =>
      { report := Generate.report p.session.registry req.format product
        diagnostics := Generate.diagnostics product : Written }
    match p.error, req.diagnosticsFault, written with
    | some e, _, _ => { ending := .failed e, session := p.session, journal := p.journal }
    | none, some fault, first :: _ =>
      { ending := .failed (.diagnostics fault)
        session := p.session
        journal := p.journal
        written := [{ first with diagnostics := "" }] }
    | none, _, _ => { ending := .done, session := p.session, journal := p.journal, written }

/-- Works on a request, one unit after the other. -/
def generate (session : Session) (req : Request) : Generated :=
  generateBy (List.range req.units.length) session req

end PassPipeline
