import PassPipeline.Text.Escape

/-! Compilation units: all that a pipeline sees of the code it runs over. -/
namespace PassPipeline

/-- A unit keeps the names of the passes that ran over it, and may be marked broken. A bare unit has
only a name: it keeps no trace, cannot be verified and prints no more than a header. -/
structure CompilationUnit where
  name : String
  trace : List String := []
  broken : Option String := none
  bare : Bool := false
  deriving DecidableEq, Repr

namespace CompilationUnit

/-- Leaves the name of a pass on the unit. -/
def record (u : CompilationUnit) (pass : String) : CompilationUnit :=
  if u.bare then u else { u with trace := u.trace ++ [pass] }

/-- Why the unit does not verify. -/
def fault? (u : CompilationUnit) : Option String := if u.bare then none else u.broken

/-- What the unit prints of itself. -/
def dump (u : CompilationUnit) : String :=
  let last := match u.trace.getLast? with
    | some pass => ", last: " ++ pass
    | none => ""
  "  " ++ toString u.trace.length ++ " passes so far" ++ last ++ "\n"

/-- How many passes ran over the unit. -/
def summary (u : CompilationUnit) : String :=
  "Ran " ++ toString u.trace.length ++ " passes over " ++ Text.escape u.name ++ "\n"

end CompilationUnit

end PassPipeline
