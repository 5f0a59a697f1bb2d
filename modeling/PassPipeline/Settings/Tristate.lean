import PassPipeline.Text.LowerCase
import PassPipeline.Text.Quoted

/-! A switch that can be left alone, forced on or forced off. -/
namespace PassPipeline

/-- The state of such a switch; a number beyond `2` is kept as it is and has no meaning. -/
structure Tristate where
  number : Int
  deriving DecidableEq, Repr

namespace Tristate

def unset : Tristate := ⟨0⟩
def on : Tristate := ⟨1⟩
def off : Tristate := ⟨2⟩

def text (t : Tristate) : String :=
  if t = on then "true" else if t = off then "false" else "unset"

/-- The words that set a switch, in lower case. -/
def words : List (String × Tristate) :=
  [("", unset), ("unset", unset), ("default", unset),
    ("1", on), ("t", on), ("true", on), ("on", on),
    ("0", off), ("f", off), ("false", off), ("off", off)]

/-- The switch that a text sets, without regard to case. -/
def ofPieces? (ps : List Text.Piece) : Option Tristate :=
  (words.find? (·.1.toList = Text.lowerCase ps)).map Prod.snd

/-- What is said of a text that sets nothing. -/
def invalidMessage (ps : List Text.Piece) : String :=
  "invalid tri-state value " ++ Text.quotePieces ps

/-- A text either sets the switch or leaves it as it was and is refused. -/
def set (t : Tristate) (ps : List Text.Piece) : Tristate × Option String :=
  match ofPieces? ps with
  | some new => (new, none)
  | none => (t, some (invalidMessage ps))

end Tristate

end PassPipeline
