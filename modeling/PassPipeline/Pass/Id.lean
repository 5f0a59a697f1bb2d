/-! Identities of pass kinds, and those of the kinds every pipeline knows. -/
namespace PassPipeline

/-- The identity of a pass kind. Any number is one, whether or not a registry knows it. -/
structure PassId where
  number : Int
  deriving DecidableEq, Repr, Inhabited

/-- No pass: what a suppressed request resolves to. -/
def PassId.none : PassId := ⟨0⟩

/-! ## Passes over the intermediate representation -/

namespace Standard

def typeBasedAliasAnalysis : PassId := ⟨1⟩
def basicAliasAnalysis : PassId := ⟨2⟩
def irVerifier : PassId := ⟨3⟩
def loopStrengthReduce : PassId := ⟨4⟩
def irPrinter : PassId := ⟨5⟩
def gcLowering : PassId := ⟨6⟩
def unreachableBlockElim : PassId := ⟨7⟩
def sjljPrepare : PassId := ⟨8⟩
def dwarfPrepare : PassId := ⟨9⟩
def lowerInvoke : PassId := ⟨10⟩
def codeGenPrepare : PassId := ⟨11⟩
def stackProtector : PassId := ⟨12⟩

/-! ## Passes over machine code -/

def machinePrinter : PassId := ⟨13⟩
def machineVerifier : PassId := ⟨14⟩
def expandISelPseudos : PassId := ⟨15⟩
def earlyTailDuplicate : PassId := ⟨16⟩
def optimizePHIs : PassId := ⟨17⟩
def stackColoring : PassId := ⟨18⟩
def localStackSlots : PassId := ⟨19⟩
def deadInstructionElim : PassId := ⟨20⟩
def earlyIfConverter : PassId := ⟨21⟩
def machineLICM : PassId := ⟨22⟩
def machineCSE : PassId := ⟨23⟩
def machineSinking : PassId := ⟨24⟩
def peepholeOptimizer : PassId := ⟨25⟩
def processImplicitDefs : PassId := ⟨26⟩
def liveVariables : PassId := ⟨27⟩
def machineLoopInfo : PassId := ⟨28⟩
def phiElimination : PassId := ⟨29⟩
def liveIntervals : PassId := ⟨30⟩
def twoAddressInstruction : PassId := ⟨31⟩
def strongPHIElimination : PassId := ⟨32⟩
def registerCoalescer : PassId := ⟨33⟩
def machineScheduler : PassId := ⟨34⟩
def virtRegMapping : PassId := ⟨35⟩
def stackSlotColoring : PassId := ⟨36⟩
def postRAMachineLICM : PassId := ⟨37⟩
def prologEpilogInserter : PassId := ⟨38⟩
def branchFolder : PassId := ⟨39⟩
def tailDuplicate : PassId := ⟨40⟩
def machineCopyPropagation : PassId := ⟨41⟩
def expandPostRAPseudos : PassId := ⟨42⟩
def postRAScheduler : PassId := ⟨43⟩
def gcAnalysis : PassId := ⟨44⟩
def gcInfoPrinter : PassId := ⟨45⟩
def blockPlacement : PassId := ⟨46⟩
def codePlacement : PassId := ⟨47⟩
def blockPlacementStats : PassId := ⟨48⟩

/-! ## Register allocators -/

def regAllocBasic : PassId := ⟨49⟩
def regAllocFast : PassId := ⟨50⟩
def regAllocGreedy : PassId := ⟨51⟩
def regAllocPBQP : PassId := ⟨52⟩

/-! ## Passes of single targets -/

def aarch64ISel : PassId := ⟨53⟩
def aarch64ConditionalCompares : PassId := ⟨54⟩
def aarch64CollectLOH : PassId := ⟨55⟩
def x86ISel : PassId := ⟨56⟩
def x86GlobalBaseReg : PassId := ⟨57⟩
def x86VZeroUpper : PassId := ⟨58⟩
def x86FixupBWInsts : PassId := ⟨59⟩

end Standard

end PassPipeline
