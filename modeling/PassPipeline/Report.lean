import PassPipeline.Pass.Registry
import PassPipeline.Text.Column
import PassPipeline.Text.Escape

/-! Lists of passes as text. -/
namespace PassPipeline.Report

/-- All passes on one line, the way they would be given to an optimizer. -/
def arguments (ps : List Pass) : String :=
  "Pass Arguments: " ++ " ".intercalate (ps.map ("-" ++ ·.name)) ++ "\n"

/-- One row: position, name, description, and the banner in brackets. No row ends in a space. -/
def row (registry : Registry) (index : Nat) (p : Pass) : List Char :=
  let description := match registry.kind? p.id with
    | some k => k.description.toList
    | none => []
  let banner := if p.banner = "" then []
    else " [".toList ++ Text.escapeChars p.banner.toList ++ "]".toList
  Text.trimSpacesRight
    (Text.padLeft 4 (toString index).toList ++ "  ".toList ++ Text.padRight 28 p.name.toList ++
      " ".toList ++ description ++ banner)

def rowsFrom (registry : Registry) (index : Nat) : List Pass → List Char
  | [] => []
  | p :: rest => row registry index p ++ '\n' :: rowsFrom registry (index + 1) rest

/-- One pass a row, with the description that `registry` has of it. -/
def table (registry : Registry) (unit : String) (ps : List Pass) : String :=
  "Pipeline for " ++ Text.escape unit ++ " (" ++ toString ps.length ++ " passes):\n" ++
    String.ofList (rowsFrom registry 0 ps)

end PassPipeline.Report
