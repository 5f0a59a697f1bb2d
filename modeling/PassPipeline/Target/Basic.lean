import PassPipeline.Allocator.Selector
import PassPipeline.Stage.Standard

/-! What a target says about its pipeline. -/
namespace PassPipeline

/-- A target configures a fresh configuration by a script, replaces the stages it has a script for,
and picks an allocator when none was chosen by name. -/
structure Target where
  name : String
  exceptions : ExceptionModel
  configure : Script := .skip
  replaced : Stage → Option Script := fun _ => none
  allocators : AllocatorAnswers := .standard
  /-- Whether the journal notes each answer of the target about allocators. -/
  reportsAllocators : Bool := false

namespace Target

def standardScript (t : Target) (s : Stage) : Script := s.standardScript t.exceptions

/-- The stage as the target has it. -/
def script (t : Target) (s : Stage) : Script := (t.replaced s).getD (t.standardScript s)

end Target

end PassPipeline
