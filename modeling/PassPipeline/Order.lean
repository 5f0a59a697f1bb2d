import PassPipeline.Pass.Id

/-! The order of passes in a finished list. It holds of the standard stages, and
catches targets that break it. -/
namespace PassPipeline

/-- Every pass of the kind `first` comes before every pass of the kind `second`. -/
structure Constraint where
  first : PassId
  second : PassId
  deriving DecidableEq, Repr

namespace Order

def constraints : List Constraint := [
  -- Alias analysis comes before what asks it.
  ⟨Standard.basicAliasAnalysis, Standard.loopStrengthReduce⟩,
  -- Exceptions are lowered before there is machine code.
  ⟨Standard.dwarfPrepare, Standard.expandISelPseudos⟩,
  ⟨Standard.sjljPrepare, Standard.dwarfPrepare⟩,
  ⟨Standard.stackProtector, Standard.expandISelPseudos⟩,
  -- Dead cycles go before dead instructions.
  ⟨Standard.expandISelPseudos, Standard.optimizePHIs⟩,
  ⟨Standard.optimizePHIs, Standard.deadInstructionElim⟩,
  -- Leaving SSA form.
  ⟨Standard.liveVariables, Standard.twoAddressInstruction⟩,
  ⟨Standard.machineLoopInfo, Standard.phiElimination⟩,
  ⟨Standard.phiElimination, Standard.twoAddressInstruction⟩,
  ⟨Standard.twoAddressInstruction, Standard.strongPHIElimination⟩,
  ⟨Standard.twoAddressInstruction, Standard.registerCoalescer⟩,
  ⟨Standard.strongPHIElimination, Standard.registerCoalescer⟩,
  ⟨Standard.registerCoalescer, Standard.machineScheduler⟩,
  ⟨Standard.registerCoalescer, Standard.virtRegMapping⟩,
  ⟨Standard.virtRegMapping, Standard.stackSlotColoring⟩,
  -- Branches are folded in the final frame.
  ⟨Standard.prologEpilogInserter, Standard.branchFolder⟩,
  ⟨Standard.prologEpilogInserter, Standard.expandPostRAPseudos⟩,
  ⟨Standard.expandPostRAPseudos, Standard.postRAScheduler⟩,
  ⟨Standard.gcAnalysis, Standard.blockPlacement⟩,
  ⟨Standard.gcAnalysis, Standard.codePlacement⟩,
  ⟨Standard.blockPlacement, Standard.blockPlacementStats⟩,
  ⟨Standard.codePlacement, Standard.blockPlacementStats⟩]

/-- The first position of a kind. -/
def firstIndex? (id : PassId) (ids : List PassId) : Option Nat := ids.findIdx? (· = id)

/-- Whether there is a last position that is not before a first one. -/
def meets (last first : Option Nat) : Bool :=
  match last, first with
  | some i, some j => j ≤ i
  | _, _ => false

/-- Where the kinds of a list were met first and last. The newest row of a table is in front. -/
structure Positions where
  next : Nat := 0
  first : List (PassId × Nat) := []
  last : List (PassId × Nat) := []

namespace Positions

def visit (p : Positions) (id : PassId) : Positions where
  next := p.next + 1
  first := if (p.first.lookup id).isSome then p.first else (id, p.next) :: p.first
  last := (id, p.next) :: p.last

/-- The positions of all kinds, in one pass over the list. -/
def ofList (ids : List PassId) : Positions := ids.foldl visit {}

/-- It is enough to compare the last pass of the first kind with the first pass of the second. -/
def breaks (p : Positions) (c : Constraint) : Bool :=
  meets (p.last.lookup c.first) (p.first.lookup c.second)

end Positions

/-- The first constraint that a list breaks. -/
def broken? (ids : List PassId) : Option Constraint :=
  let positions := Positions.ofList ids
  constraints.find? positions.breaks

end Order

end PassPipeline
