import PassPipeline.Allocator.Registry
import PassPipeline.Override
import PassPipeline.Pass.Registry
import PassPipeline.Window

/-! What can go wrong with a pipeline. A refusal is the fault of the user and ends only the pipeline
at hand; a defect means that a target is badly written, and ends the work where it stands. -/
namespace PassPipeline

/-- The options that name a pass. -/
inductive PassOption where
  | startAfter
  | stopAfter
  | printAfter
  deriving DecidableEq, Repr

def PassOption.text : PassOption → String
  | .startAfter => "start-after"
  | .stopAfter => "stop-after"
  | .printAfter => "print-machineinstrs"

inductive Refusal where
  | unknownPass (option : PassOption) (name : String)
  | stopBeforeStart (stop : String)
  deriving DecidableEq, Repr

def Refusal.message : Refusal → String
  | .unknownPass option name => option.text ++ ": unknown pass name: " ++ name
  | .stopBeforeStart stop => Window.invertedMessage ++ ": " ++ stop

/-- Changes that come too late once a build has begun. -/
inductive Change where
  | substitute (name : String)
  | insert (name : String)
  | disableVerify
  | enableTailMerge
  | printMachineCode
  | add (name : String)
  | build
  deriving DecidableEq, Repr

def Change.text : Change → String
  | .substitute name => "substitute " ++ name
  | .insert name => "insert " ++ name
  | .disableVerify => "DisableVerify"
  | .enableTailMerge => "EnableTailMerge"
  | .printMachineCode => "PrintMachineCode"
  | .add name => "add " ++ name
  | .build => "pipeline already built"

inductive Defect where
  | immutable (change : Change)
  | outsideBuild (pass : String)
  | nullInsertion (anchor : String)
  | selfInsertion (anchor : String)
  | insertionCycle (kind : String)
  | override (cause : OverrideError) (kind : String)
  | registry (cause : RegistryError)
  | allocator (cause : AllocatorError)
  | order (first second : String)
  /-- A stage placed the allocator it was handed, and was handed none. -/
  | noAllocator
  /-- A stage was called before the target had its stages. -/
  | stagesMissing
  /-- Stages call each other without end. -/
  | stagesEndless
  deriving DecidableEq, Repr

def Defect.message : Defect → String
  | .immutable change =>
    "pass configuration is immutable once construction has begun: " ++ change.text
  | .outsideBuild pass => "pass " ++ pass ++ " scheduled outside of Build"
  | .nullInsertion anchor => "cannot insert the null pass after " ++ anchor
  | .selfInsertion anchor => "cannot insert a pass after itself: " ++ anchor
  | .insertionCycle kind => "pass insertions form a cycle at " ++ kind
  | .override cause kind => cause.message ++ ": " ++ kind
  | .registry cause => cause.message
  | .allocator cause => cause.message
  | .order first second => "passes out of order: " ++ first ++ " must run before " ++ second
  | .noAllocator => "no register allocator was handed to the stage"
  | .stagesMissing => "the stages are not there yet"
  | .stagesEndless => "the stages call each other without end"

/-- Why there is no pipeline. -/
inductive Failure where
  | refused (r : Refusal)
  | broken (d : Defect)
  deriving DecidableEq, Repr

def Failure.message : Failure → String
  | .refused r => r.message
  | .broken d => d.message

end PassPipeline
