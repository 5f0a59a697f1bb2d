import PassPipeline.Golden

/-! The commands, on the files and streams of this machine. -/
namespace PassPipeline

/-- What keeps this machine from creating a file. -/
def creationFault (e : IO.Error) : String :=
  match e with
  | .noFileOrDirectory .. => FileError.notFound.message
  | .inappropriateType .. => FileError.isFolder.message
  | e => toString e

/-- Does the work of a command line and writes the reports to a stream. -/
def performOn (out : IO.FS.Stream) (j : Job) : IO UInt32 := do
  let g := CommandLine.perform j
  IO.eprint (CommandLine.traceText g)
  for w in g.written do
    out.putStr w.report
    out.flush
    IO.eprint w.diagnostics
  IO.eprint (CommandLine.faultText g.ending)
  return (CommandLine.exitCode g.ending).toUInt32

/-- Does the work of a command line and reports it where the command line says. -/
def performHere (j : Job) : IO UInt32 := do
  let output := j.invocation.output
  if output = "-" then performOn (← IO.getStdout) j
  else
    match ← (IO.FS.Handle.mk output .write).toBaseIO with
    | .ok handle => performOn (IO.FS.Stream.ofHandle handle) j
    | .error e =>
      IO.eprint (CommandLine.outputFault output (creationFault e))
      return 1

/-- The command that builds pipelines. -/
def pipelineHere (args : List String) : IO UInt32 := do
  let verify := (← IO.getEnv "CGPIPE_VERIFY_MACHINEINSTRS").getD ""
  match CommandLine.plan { verify := verify ≠ "" } args with
  | .done exit stdout stderr help =>
    IO.print stdout
    IO.eprint (stderr ++ help)
    return exit.toUInt32
  | .job j => performHere j

/-- Adds what lies at an entry of the folder `here` to a tree. -/
partial def loadEntry (here : Path) (t : FileTree) (e : IO.FS.DirEntry) : IO FileTree := do
  let p := here ++ [e.fileName]
  if ← e.path.isDir then
    (← e.path.readDir).foldlM (loadEntry p) { t with folders := t.folders ++ [p] }
  else
    let bytes := (← IO.FS.readBinFile e.path).data.toList
    return t.write p (String.ofList (Text.decode bytes))

/-- The command that runs golden tests. Files that the tests left behind are written at the end. -/
def goldenHere (args : List String) : IO UInt32 := do
  let t ← (← (← IO.currentDir).readDir).foldlM (loadEntry []) {}
  let o := Golden.run {} args t
  for (p, text) in o.tree.files do
    if t.file? p ≠ some text then IO.FS.writeFile ("/".intercalate p) text
  IO.print o.stdout
  IO.eprint o.stderr
  return o.exit.toUInt32

end PassPipeline

/-- One program under two names: called `testrunner` it runs golden tests. -/
def main (args : List String) : IO UInt32 := do
  if (← IO.appPath).fileStem = some "testrunner" then PassPipeline.goldenHere args
  else PassPipeline.pipelineHere args
