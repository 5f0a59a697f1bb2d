/-! Optimization levels. The pipeline only asks whether a level is zero. -/
namespace PassPipeline

/-- A level of optimization; the numbers beyond `3` have no name of their own. -/
structure Level where
  number : Int
  deriving DecidableEq, Repr

namespace Level

/-- No optimization. -/
def none : Level := ⟨0⟩

def optimizing (l : Level) : Bool := l ≠ none

def text (l : Level) : String :=
  if 0 ≤ l.number && l.number ≤ 3 then "O" ++ toString l.number
  else "OptLevel(" ++ toString l.number ++ ")"

/-- The levels that can be asked for by number are `0` to `3`. -/
def ofInt? (n : Int) : Option Level := if 0 ≤ n ∧ n ≤ 3 then some ⟨n⟩ else Option.none

/-- What is said of a number that is no level. -/
def invalidMessage (n : Int) : String := "invalid optimization level: " ++ toString n

end Level

end PassPipeline
