import PassPipeline.Target.Basic

/-! The AArch64 targets. -/
namespace PassPipeline.AArch64

open Script

/-- What the AArch64 platforms differ in. -/
structure Features where
  /-- Collects hints for the linker before code is emitted. -/
  collectLOH : Bool := false
  /-- Takes the basic allocator instead of the greedy one on the optimized path. -/
  basicRegAlloc : Bool := false
  noTailMerge : Bool := false
  deriving DecidableEq, Repr

/-- Early if-conversion is there, but has to be asked for by an option. -/
def configure (f : Features) : Script := block [
  run (.substitute Standard.earlyIfConverter Standard.earlyIfConverter),
  if f.noTailMerge then run (.set .enableTailMerge false) else skip]

def replaced (f : Features) : Stage → Option Script
  | .irPasses => some (block [ask .standard skip skip, call .exceptions])
  | .instSelector => some (block [add Standard.aarch64ISel, claim])
  | .preRegAlloc =>
    some (when .optimizing (addAndClaim Standard.aarch64ConditionalCompares))
  | .preEmit => some (if f.collectLOH then addAndClaim Standard.aarch64CollectLOH else skip)
  | _ => none

def target (name : String) (f : Features) : Target where
  name
  exceptions := .dwarf
  configure := configure f
  replaced := replaced f
  allocators :=
    if f.basicRegAlloc then ⟨Standard.regAllocBasic, Standard.regAllocFast⟩ else .standard

end PassPipeline.AArch64
