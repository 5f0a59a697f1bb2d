import PassPipeline.CommandLine.Invocation
import PassPipeline.FileTree
import PassPipeline.Generate
import PassPipeline.Text.Column

/-! The command that builds, reports and runs pipelines. -/
namespace PassPipeline

/-- How a command ended. -/
structure Outcome where
  exit : Nat
  stdout : String := ""
  stderr : String := ""
  /-- Help on the flags, behind everything else on the error stream. -/
  help : String := ""
  tree : FileTree := {}
  deriving DecidableEq, Repr

/-- A command line that passed all checks. -/
structure Job where
  invocation : Invocation
  request : Request
  session : Session

/-- What a command line leads to. -/
inductive Plan where
  /-- The command ends without any work. -/
  | done (exit : Nat) (stdout stderr help : String)
  | job (j : Job)

namespace CommandLine

/-- The kinds that can be named, with their descriptions. -/
def passTable (r : Registry) : String :=
  String.join (r.names.map fun name =>
    let description := match (r.lookup? name).bind r.kind? with
      | some k => k.description
      | none => ""
    String.ofList (Text.padRight 32 name.toList) ++ " " ++ description ++ "\n")

/-- Ends with a fault of the user. -/
def refuse (text : String) : Plan := .done 1 "" (text ++ "\n") ""

/-- Checks the values of the flags: the level first, then the target, then the allocator. -/
def check (i : Invocation) (units : List String) : Plan :=
  match Level.ofInt? i.level with
  | none => refuse ("error: " ++ Level.invalidMessage i.level)
  | some level =>
    match Platform.ofName? i.target with
    | none => refuse ("error parsing target: " ++ Platform.unknownMessage i.target)
    | some platform =>
      match Session.ofChoice i.allocator with
      | .error e => refuse ("error: " ++ e.message)
      | .ok session =>
        .job
          { invocation := i
            request :=
              { target := platform.target
                level
                options := i.options
                units
                run := i.run
                format := if i.arguments then .arguments else .table }
            session := { session with tracing := i.tracing } }

/-- Reads a command line. -/
def plan (around : Surroundings) (args : List String) : Plan :=
  let help := Flag.describeAll (Invocation.flags around)
  match Invocation.parse around args with
  | .error e => .done (if e = .help then 0 else 2) "" e.message ("Usage of cgpipe:\n" ++ help)
  | .ok (i, units) =>
    if i.listPasses then .done 0 (passTable Standard.registry) "" ""
    else if units.isEmpty then .done 1 "" "Usage: cgpipe [options] <unit>...\n" help
    else check i units

/-- What is said when the output file cannot be created. -/
def outputFault (path cause : String) : String :=
  "error creating output file: open " ++ path ++ ": " ++ cause ++ "\n"

/-- How the work on a job ended, for the caller of the command. -/
def exitCode : Ending → Nat
  | .done => 0
  | .failed _ => 1
  | .broken _ => 2

/-- What is said at the end about work that failed. -/
def faultText : Ending → String
  | .done => ""
  | .failed e => "error building pipeline: " ++ e.message ++ "\n"
  | .broken d => "panic: " ++ d.message ++ "\n"

/-- The trace of how pipelines were put together. -/
def traceText (g : Generated) : String := Entry.traceText "cgpipe: " g.journal

/-- Does the work. -/
def perform (j : Job) : Generated := generate j.session j.request

/-- The outcome of work whose reports go to the standard output. -/
def onStdout (g : Generated) (tree : FileTree) : Outcome where
  exit := exitCode g.ending
  stdout := g.out
  stderr := traceText g ++ g.diagnostics ++ faultText g.ending
  tree

/-- The outcome of work whose reports go to the error stream. -/
def onStderr (g : Generated) (tree : FileTree) : Outcome where
  exit := exitCode g.ending
  stderr := traceText g ++ g.merged ++ faultText g.ending
  tree

/-- The outcome of work whose reports go to a place. -/
def atPlace (g : Generated) (tree : FileTree) (place : FileTree.Place) : Outcome :=
  match place.device? with
  | some .stdout => onStdout g tree
  | some .stderr => onStderr g tree
  | _ => { onStdout g (tree.writeAt place g.out) with stdout := "" }

/-- Runs the command with its arguments in a working folder. The output file is there, and empty,
before any work is done. -/
def run (around : Surroundings) (args : List String) (tree : FileTree) : Outcome :=
  match plan around args with
  | .done exit stdout stderr help => { exit, stdout, stderr, help, tree }
  | .job j =>
    let output := j.invocation.output
    if output = "-" then onStdout (perform j) tree
    else match tree.place output with
      | .error e => { exit := 1, stderr := outputFault output e.message, tree }
      | .ok place => atPlace (perform j) tree place

end CommandLine

end PassPipeline
