/-! How a target unwinds the stack. -/
namespace PassPipeline

/-- An exception model; the numbers beyond `4` have no name of their own. -/
structure ExceptionModel where
  number : Int
  deriving DecidableEq, Repr

namespace ExceptionModel

def none : ExceptionModel := ⟨0⟩
def sjlj : ExceptionModel := ⟨1⟩
def dwarf : ExceptionModel := ⟨2⟩
def arm : ExceptionModel := ⟨3⟩
def win64 : ExceptionModel := ⟨4⟩

/-- The models that have a name. -/
def named : List (ExceptionModel × String) :=
  [(none, "none"), (sjlj, "sjlj"), (dwarf, "dwarf-cfi"), (arm, "arm"), (win64, "win64")]

def text (m : ExceptionModel) : String :=
  match named.find? (·.1 = m) with
  | some entry => entry.2
  | Option.none => "ExceptionModel(" ++ toString m.number ++ ")"

def ofName? (name : String) : Option ExceptionModel :=
  (named.find? (·.2 = name)).map Prod.fst

/-- What is said of a name that no model has. -/
def unknownMessage (name : String) : String := "unknown exception model: " ++ name

end ExceptionModel

end PassPipeline
