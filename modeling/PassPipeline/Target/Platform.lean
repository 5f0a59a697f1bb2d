import PassPipeline.Target.AArch64
import PassPipeline.Target.X86

/-! The targets that come with the library. -/
namespace PassPipeline

inductive Platform where
  | aarch64Darwin
  | aarch64Linux
  | x86Linux
  deriving DecidableEq, Repr

namespace Platform

def all : List Platform := [aarch64Darwin, aarch64Linux, x86Linux]

def name : Platform → String
  | .aarch64Darwin => "aarch64-darwin"
  | .aarch64Linux => "aarch64-linux"
  | .x86Linux => "x86_64-linux"

def number : Platform → Int
  | .aarch64Darwin => 0
  | .aarch64Linux => 1
  | .x86Linux => 2

def ofName? (name : String) : Option Platform := all.find? (·.name = name)

def ofNumber? (n : Int) : Option Platform := all.find? (·.number = n)

/-- What is said of a name or number that no target has. -/
def unknownMessage (what : String) : String := "unknown target: " ++ what

/-- Only Mach-O takes linker optimization hints. -/
def features? : Platform → Option AArch64.Features
  | .aarch64Darwin => some { collectLOH := true }
  | .aarch64Linux => some {}
  | .x86Linux => none

def target (p : Platform) : Target :=
  match p.features? with
  | some f => AArch64.target p.name f
  | none => X86.target p.name

end Platform

end PassPipeline
