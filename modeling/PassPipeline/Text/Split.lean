/-! Cutting text at separators. -/
namespace PassPipeline.Text

/-- The parts of a list between the elements that separate: always one more
than there are such elements. -/
def splitBy {α : Type} (separates : α → Bool) : List α → List (List α)
  | [] => [[]]
  | c :: rest =>
    match splitBy separates rest with
    | [] => [[]]
    | part :: parts => if separates c then [] :: part :: parts else (c :: part) :: parts

def split (sep : Char) (cs : List Char) : List (List Char) := splitBy (· = sep) cs

def splitString (sep : Char) (s : String) : List String := (split sep s.toList).map String.ofList

end PassPipeline.Text
