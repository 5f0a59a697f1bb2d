import PassPipeline.Target.Basic

/-! The x86-64 target. -/
namespace PassPipeline.X86

open Script

/-- Penalties between vector extensions are avoided at every level. -/
def configure : Script := run (.insert Standard.expandPostRAPseudos Standard.x86VZeroUpper)

def replaced : Stage → Option Script
  | .irPasses => some (block [ask .standard skip skip, call .exceptions])
  | .instSelector => some (block [add Standard.x86ISel, add Standard.x86GlobalBaseReg, claim])
  | .preEmit => some (when .optimizing (addAndClaim Standard.x86FixupBWInsts))
  | _ => none

def target (name : String) : Target where
  name
  exceptions := .dwarf
  configure
  replaced

end PassPipeline.X86
