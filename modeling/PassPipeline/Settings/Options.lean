import PassPipeline.Settings.Tristate

/-! The switches of a user that influence how a pipeline is put together. -/
namespace PassPipeline

/-- Without any switch the standard pipeline is built. -/
structure Options where
  disablePostRA : Bool := false
  disableBranchFold : Bool := false
  disableTailDuplicate : Bool := false
  disableEarlyTailDup : Bool := false
  /-- Places code by the older pass instead. -/
  disableBlockPlacement : Bool := false
  enableBlockPlacementStats : Bool := false
  disableCodePlace : Bool := false
  disableSSC : Bool := false
  disableMachineDCE : Bool := false
  enableEarlyIfConversion : Bool := false
  disableMachineLICM : Bool := false
  disableMachineCSE : Bool := false
  optimizeRegAlloc : Tristate := .unset
  enableMachineSched : Tristate := .unset
  enableStrongPHIElim : Bool := false
  disablePostRAMachineLICM : Bool := false
  disableMachineSink : Bool := false
  disableLSR : Bool := false
  disableCGP : Bool := false
  disableCopyProp : Bool := false
  printLSR : Bool := false
  printISelInput : Bool := false
  printGCInfo : Bool := false
  verifyMachineCode : Bool := false
  earlyLiveIntervals : Bool := false
  /-- Prints machine code after every major step. -/
  printMachineCode : Bool := false
  /-- The pass after which machine code is printed, or nothing. -/
  printAfter : String := ""
  startAfter : String := ""
  stopAfter : String := ""
  deriving DecidableEq, Repr

end PassPipeline
