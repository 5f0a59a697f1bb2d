import PassPipeline.Pass.Basic

/-! Stages of a pipeline and what they are written in. A stage is a script: it asks for passes, asks
questions and takes one of two ways by the answer. A script sees the level only as zero or not, and
sees nothing of the window. -/
namespace PassPipeline

/-- The steps that a pipeline is composed of. -/
inductive Stage where
  | irPasses
  | exceptions
  | iselPrepare
  | preISel
  | instSelector
  | machinePasses
  | ssaOptimization
  | preRegAlloc
  | fastRegAlloc
  | optimizedRegAlloc
  | preVirtRegs
  | finalizeRegAlloc
  | postRegAlloc
  | lateOptimization
  | preSched2
  | blockPlacement
  | preEmit
  deriving DecidableEq, Repr

/-- The stages of register allocation are handed the allocator. -/
def Stage.takesAllocator : Stage → Bool
  | .fastRegAlloc | .optimizedRegAlloc => true
  | _ => false

/-- The options that stages consult. -/
inductive Switch where
  | disableLSR
  | printLSR
  | disableCGP
  | printISelInput
  | printGCInfo
  | strongPHIElim
  | earlyLiveIntervals
  | disableBlockPlacement
  | blockPlacementStats
  deriving DecidableEq, Repr

/-- What can be asked about a configuration without changing it. -/
inductive Condition where
  | optimizing
  | optimizedAllocation
  | verifyDisabled
  | switch (s : Switch)
  deriving DecidableEq, Repr

/-- What can be set before a build. -/
inductive Setting where
  | disableVerify
  | enableTailMerge
  | printMachineCode
  deriving DecidableEq, Repr

/-- A pass to be placed: a fresh one of a registered kind, or one that was made before. -/
inductive Supply where
  | registered (id : PassId)
  | ready (p : Pass)
  deriving DecidableEq, Repr

/-- What a script can do. -/
inductive Command where
  /-- Places a pass without substitution, override or insertions. -/
  | place (s : Supply)
  /-- Places a printer that writes where the configuration says. -/
  | print (subject : Subject) (banner : String)
  /-- Places a printer and a verifier of machine code, where they are asked for. -/
  | printAndVerify (banner : String)
  | substitute (standard target : PassId)
  | insert (anchor inserted : PassId)
  | set (s : Setting) (value : Bool)
  /-- Chooses the allocator and runs the stage that uses it. -/
  | allocate (optimized : Bool)
  /-- Places the allocator that was handed to the stage. -/
  | placeAllocator
  /-- Builds the pipeline and forgets it. -/
  | build
  deriving DecidableEq, Repr

/-- What a script can ask. Asking for a pass or for a stage is also what brings it about. -/
inductive Query where
  | holds (c : Condition)
  /-- Whether a request for a kind leads to a pass; a reported request is noted in the journal. -/
  | schedules (kind : PassId) (reported : Bool)
  /-- Whether a stage, as the target has it, says that it added passes. -/
  | stage (s : Stage)
  /-- Whether the standard form of the stage that is running says so. -/
  | standard
  deriving DecidableEq, Repr

/-- A script answers whether it claimed to have added passes. -/
inductive Script where
  | skip
  | claim
  | run (c : Command)
  | seq (first second : Script)
  | ask (q : Query) (yes no : Script)
  deriving DecidableEq, Repr, Inhabited

namespace Script

/-- Scripts one after the other. -/
def block : List Script → Script
  | [] => skip
  | s :: rest => seq s (block rest)

/-- Asks for a pass, whatever comes of it. -/
def add (kind : PassId) : Script := ask (.schedules kind false) skip skip

/-- Runs a stage, whatever it answers. -/
def call (s : Stage) : Script := ask (.stage s) skip skip

def when (c : Condition) (s : Script) : Script := ask (.holds c) s skip

def whenNot (c : Condition) (s : Script) : Script := ask (.holds c) skip s

def printAndVerify (banner : String) : Script := run (.printAndVerify banner)

/-- Asks for a pass and prints behind it, if it is there. -/
def addAndPrint (kind : PassId) (banner : String) : Script :=
  ask (.schedules kind false) (printAndVerify banner) skip

/-- Runs a stage and prints behind it, if it says that it added passes. -/
def callAndPrint (s : Stage) (banner : String) : Script :=
  ask (.stage s) (printAndVerify banner) skip

/-- Asks for a pass and claims it, if it is there. -/
def addAndClaim (kind : PassId) : Script := ask (.schedules kind false) claim skip

end Script

end PassPipeline
