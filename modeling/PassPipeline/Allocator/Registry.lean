import PassPipeline.Pass.Id
import PassPipeline.Text.Bytewise

/-! Register allocators by name. The name `default` is always there and stands for the choice of the
target; every other name stands for a pass. -/
namespace PassPipeline

/-- A named allocator. -/
structure Allocator where
  name : String
  description : String
  pass : PassId
  deriving DecidableEq, Repr

/-- The name that leaves the choice to the target. -/
def Allocator.defaultName : String := "default"

inductive AllocatorError where
  /-- An allocator was registered without a pass. -/
  | noPass (name : String)
  | duplicate (name : String)
  | unknown (name : String)
  /-- The target was asked and gave no allocator. -/
  | noneProvided (optimized : Bool)
  deriving DecidableEq, Repr

def AllocatorError.message : AllocatorError → String
  | .noPass name => "register allocator " ++ name ++ ": pass ID not registered"
  | .duplicate name => "pass registered twice: register allocator " ++ name
  | .unknown name => "unknown register allocator: " ++ name
  | .noneProvided optimized =>
    "target did not provide a register allocator (optimized=" ++ toString optimized ++ ")"

/-- Allocators in the order of their registration, behind the entry for the target's choice. -/
structure AllocatorRegistry where
  registered : List Allocator
  deriving DecidableEq, Repr

namespace AllocatorRegistry

def empty : AllocatorRegistry := ⟨[]⟩

def targetChoice : Allocator :=
  ⟨Allocator.defaultName, "pick register allocator based on -O option", .none⟩

def entries (r : AllocatorRegistry) : List Allocator := targetChoice :: r.registered

def lookup? (r : AllocatorRegistry) (name : String) : Option Allocator :=
  r.entries.find? (·.name = name)

/-- All names in the order of their bytes. -/
def names (r : AllocatorRegistry) : List String :=
  (r.entries.map Allocator.name).mergeSort Text.bytewise

/-- Adds an allocator. One without a pass is refused first, then one whose name is taken. -/
def register (r : AllocatorRegistry) (a : Allocator) : Except AllocatorError AllocatorRegistry :=
  if a.pass = .none then .error (.noPass a.name)
  else if (r.lookup? a.name).isSome then .error (.duplicate a.name)
  else .ok ⟨r.registered ++ [a]⟩

/-- The allocators that come with the library. -/
def standard : AllocatorRegistry := ⟨[
  ⟨"basic", "basic register allocator", Standard.regAllocBasic⟩,
  ⟨"fast", "fast register allocator", Standard.regAllocFast⟩,
  ⟨"greedy", "greedy register allocator", Standard.regAllocGreedy⟩,
  ⟨"pbqp", "PBQP register allocator", Standard.regAllocPBQP⟩]⟩

end AllocatorRegistry

end PassPipeline
