import PassPipeline.Pass.Id
import PassPipeline.Settings.Options

/-! Options that suppress or force a standard kind, whoever asks for it. A rule belongs to the kind
that is asked for, not to the one a target puts in its place. -/
namespace PassPipeline

inductive OverrideError where
  /-- A kind is forced on for which neither the target nor the rule has a pass. -/
  | cannotEnable
  | invalidTristate (number : Int)
  deriving DecidableEq, Repr

def OverrideError.message : OverrideError → String
  | .cannotEnable => "target cannot enable pass"
  | .invalidTristate n => "invalid tri-state value " ++ toString n

/-- How options govern a kind. -/
inductive OverrideRule where
  /-- Suppressed when the option says so. -/
  | disable (flag : Options → Bool)
  /-- As the target has it when unset, suppressed when off, and forced on otherwise. -/
  | enable (flag : Options → Tristate) (fallback : PassId)

namespace Override

/-- The rules, by the kind that is asked for. -/
def rules : List (PassId × OverrideRule) := [
  (Standard.postRAScheduler, .disable Options.disablePostRA),
  (Standard.branchFolder, .disable Options.disableBranchFold),
  (Standard.tailDuplicate, .disable Options.disableTailDuplicate),
  (Standard.earlyTailDuplicate, .disable Options.disableEarlyTailDup),
  (Standard.blockPlacement, .disable Options.disableCodePlace),
  (Standard.codePlacement, .disable Options.disableCodePlace),
  (Standard.stackSlotColoring, .disable Options.disableSSC),
  (Standard.deadInstructionElim, .disable Options.disableMachineDCE),
  (Standard.earlyIfConverter, .disable fun o => !o.enableEarlyIfConversion),
  (Standard.machineLICM, .disable Options.disableMachineLICM),
  (Standard.machineCSE, .disable Options.disableMachineCSE),
  (Standard.machineScheduler, .enable Options.enableMachineSched Standard.machineScheduler),
  (Standard.postRAMachineLICM, .disable Options.disablePostRAMachineLICM),
  (Standard.machineSinking, .disable Options.disableMachineSink),
  (Standard.machineCopyPropagation, .disable Options.disableCopyProp)]

def rule? (standard : PassId) : Option OverrideRule :=
  (rules.find? (·.1 = standard)).map Prod.snd

/-- A tri-state leaves `target`, suppresses it, or forces it on with `fallback` in reserve. -/
def force (target : PassId) (t : Tristate) (fallback : PassId) : Except OverrideError PassId :=
  if t = .unset then .ok target
  else if t = .on then
    if target ≠ .none then .ok target
    else if fallback = .none then .error .cannotEnable
    else .ok fallback
  else if t = .off then .ok .none
  else .error (.invalidTristate t.number)

/-- What options make of a request for `standard` that the target turned into `target`. -/
def apply (o : Options) (standard target : PassId) : Except OverrideError PassId :=
  match rule? standard with
  | none => .ok target
  | some (.disable flag) => .ok (if flag o then .none else target)
  | some (.enable flag fallback) => force target (flag o) fallback

end Override

end PassPipeline
