import PassPipeline.Config.Error
import PassPipeline.Pass.Standard
import PassPipeline.Settings.Level
import PassPipeline.Target.Basic

/-! Configurations, and the state in which a pipeline is put together. -/
namespace PassPipeline

/-- What all pipelines of one compilation share. -/
structure Session where
  registry : Registry
  allocators : Selector
  /-- Whether the journal traces how pipelines are put together. -/
  tracing : Bool := false

/-- A session over the standard kinds and allocators. -/
def Session.ofChoice (allocator : String) : Except AllocatorError Session :=
  match Selector.ofChoice .standard allocator with
  | .ok allocators => .ok { registry := Standard.registry, allocators }
  | .error e => .error e

/-- A kind that comes behind every request for another. -/
structure Insertion where
  anchor : PassId
  inserted : PassId
  deriving DecidableEq, Repr

/-- A configuration is changed first, then built, once. A build that
broke off stays in the middle. -/
inductive Phase where
  | configuring
  | building
  | built
  deriving DecidableEq, Repr

structure Config where
  target : Target
  level : Level
  options : Options
  /-- Where printers write. -/
  sink : Sink
  /-- What stands in for a kind; the latest entry counts. -/
  substitutions : List (PassId × PassId) := []
  insertions : List Insertion := []
  disableVerify : Bool := false
  enableTailMerge : Bool := true
  printMachineCode : Bool
  window : Window
  phase : Phase := .configuring
  /-- How many requests are being followed by their insertions. A broken request is never left. -/
  nesting : Nat := 0
  /-- The refusal that the build will end in. -/
  refusal : Option Refusal := none
  /-- The passes handed over so far. -/
  handed : List Pass := []

namespace Config

/-- The kind that stands in for a kind. One step only: what stands in is not looked up again. -/
def substitution (c : Config) (id : PassId) : PassId :=
  match c.substitutions.find? (·.1 = id) with
  | some entry => entry.2
  | none => id

/-- The kind that a request leads to. -/
def resolve (c : Config) (id : PassId) : Except OverrideError PassId :=
  Override.apply c.options id (c.substitution id)

/-- The kinds that come behind a request for `id`, in the order of their insertion. -/
def insertedAfter (c : Config) (id : PassId) : List PassId :=
  (c.insertions.filter (·.anchor = id)).map Insertion.inserted

/-- An option can force either path of register allocation; the level decides otherwise. -/
def optimizedAllocation (c : Config) : Bool :=
  if c.options.optimizeRegAlloc = .on then true
  else if c.options.optimizeRegAlloc = .off then false
  else c.level.optimizing

end Config

def Switch.isOn (o : Options) : Switch → Bool
  | .disableLSR => o.disableLSR
  | .printLSR => o.printLSR
  | .disableCGP => o.disableCGP
  | .printISelInput => o.printISelInput
  | .printGCInfo => o.printGCInfo
  | .strongPHIElim => o.enableStrongPHIElim
  | .earlyLiveIntervals => o.earlyLiveIntervals
  | .disableBlockPlacement => o.disableBlockPlacement
  | .blockPlacementStats => o.enableBlockPlacementStats

def Condition.holds (c : Config) : Condition → Bool
  | .optimizing => c.level.optimizing
  | .optimizedAllocation => c.optimizedAllocation
  | .verifyDisabled => c.disableVerify
  | .switch s => s.isOn c.options

/-- What the journal tells. -/
inductive Entry where
  /-- A line of the trace. -/
  | traced (line : String)
  /-- The answer to a reported request; outside the stages there is no stage. -/
  | granted (stage : Option Stage) (requested scheduled : PassId)
  /-- The answer of a target about allocators. -/
  | allocator (optimized : Bool) (answer : PassId)
  deriving DecidableEq, Repr

/-- The trace in a journal. A line that brings its own end of line gets no second one. -/
def Entry.traceText (lead : String) (journal : List Entry) : String :=
  String.join (journal.map fun
    | .traced line => lead ++ line ++ (if line.toList.getLast? = some '\n' then "" else "\n")
    | _ => "")

structure Construction where
  session : Session
  config : Config
  journal : List Entry := []

/-- Work on a configuration. A defect keeps the state it was met in. -/
abbrev Build := ExceptT Defect (StateM Construction)

namespace Build

def config : Build Config := do return (← get).config

def modifyConfig (f : Config → Config) : Build Unit :=
  modify fun s => { s with config := f s.config }

/-- What the registry of the session calls a kind. -/
def nameOf (id : PassId) : Build String := do return (← get).session.registry.name id

def note (e : Entry) : Build Unit := modify fun s => { s with journal := s.journal ++ [e] }

/-- Adds a line to the trace, if there is one. -/
def trace (text : String) : Build Unit := do
  let s ← get
  if s.session.tracing then
    note (.traced (s.config.target.name ++ "/" ++ s.config.level.text ++ ": " ++ text))

/-- Refuses a change once the build has begun. -/
def requireMutable (change : Change) : Build Unit := do
  if (← config).phase ≠ .configuring then throw (.immutable change)

/-- From now on `target` stands in for `standard`; no pass suppresses it. -/
def substitute (standard target : PassId) : Build Unit := do
  requireMutable (.substitute (← nameOf standard))
  modifyConfig fun c => { c with substitutions := (standard, target) :: c.substitutions }

/-- From now on every request for `anchor` is followed by one for `inserted`. -/
def insert (anchor inserted : PassId) : Build Unit := do
  requireMutable (.insert (← nameOf inserted))
  if inserted = .none then throw (.nullInsertion (← nameOf anchor))
  if anchor = inserted then throw (.selfInsertion (← nameOf anchor))
  modifyConfig fun c => { c with insertions := c.insertions ++ [⟨anchor, inserted⟩] }

def assign (setting : Setting) (value : Bool) : Build Unit :=
  match setting with
  | .disableVerify => do
    requireMutable .disableVerify
    modifyConfig fun c => { c with disableVerify := value }
  | .enableTailMerge => do
    requireMutable .enableTailMerge
    modifyConfig fun c => { c with enableTailMerge := value }
  | .printMachineCode => do
    requireMutable .printMachineCode
    modifyConfig fun c => { c with printMachineCode := value }

end Build

end PassPipeline
