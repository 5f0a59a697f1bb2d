import PassPipeline.CommandLine.Run
import PassPipeline.Sorting.Quick
import PassPipeline.Text.Blank

/-! Golden tests: command lines in files, each with the output it must have. -/
namespace PassPipeline

/-- A command line and the output expected of it. -/
structure Case where
  name : String
  arguments : Path
  expected : Path
  deriving DecidableEq, Repr

namespace Golden

/-- The folder that is searched, with all its subfolders. -/
def folder : String := "tests"

def argumentsSuffix : String := ".args"

/-- Cuts a suffix off, if it is there. -/
def cutSuffix? (suffix s : String) : Option String :=
  if suffix.toList.reverse.isPrefixOf s.toList.reverse then
    some (String.ofList (s.toList.take (s.length - suffix.length)))
  else none

/-- Cuts a lead off, if it is there. -/
def cutLead? (lead s : String) : Option String :=
  if lead.toList.isPrefixOf s.toList then some (String.ofList (s.toList.drop lead.length)) else none

/-- The case of a file with a command line. The expected output lies in the searched folder itself,
wherever below it the command line was found. -/
def case? (t : FileTree) (p : Path) : Option Case :=
  match p.getLast?.bind (cutSuffix? argumentsSuffix) with
  | none => none
  | some name =>
    let expected := [folder, name ++ ".out"]
    if t.exists? expected then some { name, arguments := p, expected } else none

/-- Walks through the folder in the order of the names and finds its cases. -/
def discover (t : FileTree) : Option (List Case) :=
  if t.exists? [folder] then
    let paths := (t.files.map Prod.fst).filter [folder].isPrefixOf
    some ((paths.mergeSort Text.bytewiseList).filterMap (case? t))
  else none

/-- What is said when there is no folder to search. -/
def missingMessage : String := "lstat " ++ folder ++ ": " ++ FileError.notFound.message

/-- The arguments on a line. One that begins with `#` says nothing. -/
def argumentsOn (line : List Text.Piece) : List (List Text.Piece) :=
  let line := Text.trim line
  if line.head? = some (.char '#') then [] else Text.words line

/-- The arguments in a file, which need not be well-formed text. -/
def readArguments (content : List UInt8) : List (List UInt8) :=
  ((Text.splitBy (· = .char '\n') (Text.pieces content)).flatMap argumentsOn).map
    (·.flatMap Text.Piece.source)

/-- Cases by name. Cases of one name follow each other as the sort leaves them. -/
def sortByName (cases : List Case) : List Case :=
  Sorting.quick (fun a b => !Text.bytewise b.name a.name) cases

/-- The case that an identifier means: the path or file of its command line, its name, or the number
that its name begins with. -/
def find (cases : List Case) (identifier : String) : Except String Case :=
  if identifier.toList.contains '/' || (cutSuffix? argumentsSuffix identifier).isSome then
    let name := (cutSuffix? argumentsSuffix identifier).getD identifier
    let name := (cutLead? (folder ++ "/") name).getD name
    match cases.find? (·.name = name) with
    | some c => .ok c
    | none => .error ("test not found: " ++ name)
  else
    match cases.find? fun c =>
        (cutLead? (identifier ++ "_") c.name).isSome || c.name = identifier with
    | some c => .ok c
    | none => .error ("test not found: " ++ identifier)

/-- How much is kept of each end of a long error text, in bytes. -/
def keptBytes : Nat := 32768

/-- The error text of a command. The middle of a very long one is left out. -/
def shorten (s : String) : String :=
  let bytes := s.toUTF8.toList
  if bytes.length ≤ 2 * keptBytes then s
  else
    String.ofList (Text.decode (bytes.take keptBytes)) ++ "\n... omitting " ++
      toString (bytes.length - 2 * keptBytes) ++ " bytes ...\n" ++
      String.ofList (Text.decode (bytes.drop (bytes.length - keptBytes)))

/-- What one case says of itself: nothing if the output is as expected. The
command may leave files behind. -/
def runCase (around : Surroundings) (t : FileTree) (c : Case) : FileTree × Option String :=
  let content := Text.bytes ((t.file? c.arguments).getD "")
  let args := (readArguments content).map fun arg => String.ofList (Text.decode arg)
  let o := CommandLine.run around args t
  if o.exit ≠ 0 then
    (o.tree, some ("cgpipe error: exit status " ++ toString o.exit ++ "\nStderr: " ++
      shorten (o.stderr ++ o.help)))
  else match o.tree.read c.expected with
    | .error e =>
      (o.tree, some ("error reading expected output: read " ++ "/".intercalate c.expected ++ ": " ++
        e.message))
    | .ok expected =>
      (o.tree, if o.stdout = expected then none
        else some ("output mismatch:\nExpected: " ++ Text.quote expected ++ "\nActual:   " ++
          Text.quote o.stdout))

/-- Runs cases one after the other: what is printed, and how many passed and failed. -/
def runCases (around : Surroundings) (t : FileTree) : List Case → FileTree × String × Nat × Nat
  | [] => (t, "", 0, 0)
  | c :: rest =>
    let (t, fault) := runCase around t c
    let (t, text, passed, failed) := runCases around t rest
    let line := "Running test " ++ c.name ++ "... "
    match fault with
    | none => (t, line ++ "PASS\n" ++ text, passed + 1, failed)
    | some fault => (t, line ++ "FAIL - " ++ fault ++ "\n" ++ text, passed, failed + 1)

/-- Runs the chosen cases under a heading and counts the results. -/
def report (around : Surroundings) (heading : String) (t : FileTree) (cases : List Case) :
    Outcome :=
  let (tree, text, passed, failed) := runCases around t cases
  let results := "Test Results: " ++ toString passed ++ " passed" ++
    (if failed = 0 then ". All good!" else ", " ++ toString failed ++ " failed") ++ "\n"
  { exit := if failed = 0 then 0 else 1, stdout := heading ++ text ++ results, tree }

/-- Runs all cases, or the one that the first argument means. -/
def run (around : Surroundings) (args : List String) (t : FileTree) : Outcome :=
  match discover t with
  | none =>
    { exit := 1, stderr := "Error discovering tests: " ++ missingMessage ++ "\n", tree := t }
  | some [] => { exit := 0, stdout := "No tests found in tests/ directory\n", tree := t }
  | some found =>
    let cases := sortByName found
    match args with
    | [] =>
      let heading := if cases.length = 1 then "Found 1 test\n"
        else "Found " ++ toString cases.length ++ " tests\n"
      report around heading t cases
    | identifier :: _ =>
      match find cases identifier with
      | .error e => { exit := 1, stderr := "Error: " ++ e ++ "\n", tree := t }
      | .ok c => report around ("Running specific test: " ++ c.name ++ "\n") t [c]

end Golden

end PassPipeline
