import PassPipeline.Settings.Exceptions
import PassPipeline.Stage.Script

/-! The standard form of every stage. -/
namespace PassPipeline

namespace Stage

open Script

/-- What runs over the intermediate representation. Type based alias analysis goes first, so that
basic alias analysis wins where they disagree; no unreachable block may reach the selection. -/
def irPassesScript : Script := block [
  add Standard.typeBasedAliasAnalysis,
  add Standard.basicAliasAnalysis,
  whenNot .verifyDisabled (add Standard.irVerifier),
  when .optimizing (whenNot (.switch .disableLSR) (block [
    add Standard.loopStrengthReduce,
    when (.switch .printLSR) (run (.print .ir "\n\n*** Code after LSR ***\n"))])),
  add Standard.gcLowering,
  add Standard.unreachableBlockElim]

/-- Lowers exceptions by the model of the target. DWARF preparation runs behind that of SjLj;
lowered invokes can leave unreachable code behind. A model without a name needs nothing. -/
def exceptionsScript (m : ExceptionModel) : Script :=
  if m = .sjlj then block [add Standard.sjljPrepare, add Standard.dwarfPrepare]
  else if m = .dwarf ∨ m = .arm ∨ m = .win64 then add Standard.dwarfPrepare
  else if m = .none then block [add Standard.lowerInvoke, add Standard.unreachableBlockElim]
  else skip

/-- The last passes before instructions are selected. -/
def iselPrepareScript : Script := block [
  when .optimizing (whenNot (.switch .disableCGP) (add Standard.codeGenPrepare)),
  add Standard.stackProtector,
  call .preISel,
  when (.switch .printISelInput) (run (.print .ir "\n\n*** Final IR input to ISel ***\n")),
  whenNot .verifyDisabled (add Standard.irVerifier)]

/-- All that runs over machine code. -/
def machinePassesScript : Script := block [
  printAndVerify "After Instruction Selection",
  addAndPrint Standard.expandISelPseudos "After ExpandISelPseudos",
  ask (.holds .optimizing) (call .ssaOptimization) (add Standard.localStackSlots),
  callAndPrint .preRegAlloc "After PreRegAlloc passes",
  ask (.holds .optimizedAllocation) (run (.allocate true)) (run (.allocate false)),
  callAndPrint .postRegAlloc "After PostRegAlloc passes",
  add Standard.prologEpilogInserter,
  printAndVerify "After PrologEpilogCodeInserter",
  when .optimizing (call .lateOptimization),
  add Standard.expandPostRAPseudos,
  printAndVerify "After ExpandPostRAPseudos",
  callAndPrint .preSched2 "After PreSched2 passes",
  when .optimizing (block [
    add Standard.postRAScheduler,
    printAndVerify "After PostRAScheduler"]),
  add Standard.gcAnalysis,
  when (.switch .printGCInfo) (run (.print .gcRoots "")),
  when .optimizing (call .blockPlacement),
  callAndPrint .preEmit "After PreEmit passes"]

/-- Optimizations in SSA form. Dead cycles are removed before dead instructions, for that may leave
more of them; spill slots are merged much later. -/
def ssaOptimizationScript : Script := block [
  addAndPrint Standard.earlyTailDuplicate "After Pre-RegAlloc TailDuplicate",
  add Standard.optimizePHIs,
  add Standard.stackColoring,
  add Standard.localStackSlots,
  add Standard.deadInstructionElim,
  printAndVerify "After codegen DCE pass",
  add Standard.earlyIfConverter,
  add Standard.machineLICM,
  add Standard.machineCSE,
  add Standard.machineSinking,
  printAndVerify "After Machine LICM, CSE and Sinking passes",
  add Standard.peepholeOptimizer,
  printAndVerify "After codegen peephole optimization pass"]

/-- The least that register allocation needs. -/
def fastRegAllocScript : Script := block [
  add Standard.phiElimination,
  add Standard.twoAddressInstruction,
  run .placeAllocator,
  printAndVerify "After Register Allocation"]

/-- Register allocation with coalescing and scheduling. Live variables need pure SSA form; strong
elimination leaves it later than the ordinary one. -/
def optimizedRegAllocScript : Script := block [
  add Standard.processImplicitDefs,
  add Standard.liveVariables,
  whenNot (.switch .strongPHIElim) (block [
    add Standard.machineLoopInfo,
    add Standard.phiElimination]),
  when (.switch .earlyLiveIntervals) (add Standard.liveIntervals),
  add Standard.twoAddressInstruction,
  when (.switch .strongPHIElim) (add Standard.strongPHIElimination),
  add Standard.registerCoalescer,
  addAndPrint Standard.machineScheduler "After Machine Scheduling",
  run .placeAllocator,
  printAndVerify "After Register Allocation, before rewriter",
  callAndPrint .preVirtRegs "After pre-rewrite passes",
  add Standard.virtRegMapping,
  printAndVerify "After Virtual Register Rewriter",
  callAndPrint .finalizeRegAlloc "After RegAlloc finalization",
  add Standard.stackSlotColoring,
  add Standard.postRAMachineLICM,
  printAndVerify "After StackSlotColoring and postra Machine LICM"]

/-- Optimizations behind register allocation, in the final frame. -/
def lateOptimizationScript : Script := block [
  addAndPrint Standard.branchFolder "After BranchFolding",
  addAndPrint Standard.tailDuplicate "After TailDuplicate",
  addAndPrint Standard.machineCopyPropagation "After copy propagation pass"]

/-- What follows a pass that placed blocks. -/
def afterPlacement : Script := block [
  when (.switch .blockPlacementStats) (add Standard.blockPlacementStats),
  printAndVerify "After machine block placement."]

def blockPlacementScript : Script :=
  ask (.holds (.switch .disableBlockPlacement))
    (ask (.schedules Standard.codePlacement false) afterPlacement skip)
    (ask (.schedules Standard.blockPlacement false) afterPlacement skip)

/-- The standard form of a stage for a target with a given exception model. The stages that are
there for targets to extend add nothing. -/
def standardScript (m : ExceptionModel) : Stage → Script
  | .irPasses => irPassesScript
  | .exceptions => exceptionsScript m
  | .iselPrepare => iselPrepareScript
  | .machinePasses => machinePassesScript
  | .ssaOptimization => ssaOptimizationScript
  | .fastRegAlloc => fastRegAllocScript
  | .optimizedRegAlloc => optimizedRegAllocScript
  | .lateOptimization => lateOptimizationScript
  | .blockPlacement => blockPlacementScript
  | .preISel | .instSelector | .preRegAlloc | .preVirtRegs | .finalizeRegAlloc | .postRegAlloc
  | .preSched2 | .preEmit => skip

end Stage

end PassPipeline
