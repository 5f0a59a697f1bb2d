import PassPipeline.Pass.Registry

/-! The registry of the kinds that come with the library. -/
namespace PassPipeline

namespace Standard

private def ordinary (name description : String) : Kind := ⟨name, description, some .ordinary⟩

private def pseudo (name description : String) : Kind := ⟨name, description, none⟩

private def printer (subject : Subject) (description : String) : Kind :=
  ⟨subject.name, description, some (.printer subject)⟩

/-- The kinds in the order of their numbers. -/
def kinds : List Kind := [
  ordinary "tbaa" "Type-Based Alias Analysis",
  ordinary "basicaa" "Basic Alias Analysis (stateless AA impl)",
  ordinary "verify" "Module Verifier",
  ordinary "loop-reduce" "Loop Strength Reduction",
  printer .ir "Print function to stderr",
  ordinary "gc-lowering" "Lower Garbage Collection Instructions",
  ordinary "unreachableblockelim" "Remove unreachable blocks from the CFG",
  ordinary "sjljehprepare" "Prepare SjLj exceptions",
  ordinary "dwarfehprepare" "Prepare DWARF exceptions",
  ordinary "lowerinvoke" "Lower invoke and unwind, for unwindless code generators",
  ordinary "codegenprepare" "Optimize for code generation",
  ordinary "stack-protector" "Insert stack protectors",
  printer .machineCode "Machine Function Printer",
  ⟨"machineverifier", "Verify generated machine code", some .verifier⟩,
  ordinary "expand-isel-pseudos" "Expand ISel Pseudo-instructions",
  pseudo "early-tailduplication" "Pre-RegAlloc Tail Duplication",
  ordinary "opt-phis" "Optimize machine instruction PHIs",
  ordinary "stack-coloring" "Merge disjoint stack slots",
  ordinary "localstackalloc" "Local Stack Slot Allocation",
  ordinary "dead-mi-elimination" "Remove dead machine instructions",
  ordinary "early-ifcvt" "Early If Converter",
  ordinary "machinelicm" "Machine Loop Invariant Code Motion",
  ordinary "machine-cse" "Machine Common Subexpression Elimination",
  ordinary "machine-sink" "Machine code sinking",
  ordinary "peephole-opts" "Peephole Optimizations",
  ordinary "processimpdefs" "Process Implicit Definitions",
  ordinary "livevars" "Live Variable Analysis",
  ordinary "machine-loops" "Machine Natural Loop Construction",
  ordinary "phi-node-elimination" "Eliminate PHI nodes for register allocation",
  ordinary "liveintervals" "Live Interval Analysis",
  ordinary "twoaddressinstruction" "Two-Address instruction pass",
  ordinary "strong-phi-node-elimination"
    "Eliminate PHI nodes for register allocation, intelligently",
  ordinary "simple-register-coalescing" "Simple Register Coalescing",
  ordinary "misched" "Machine Instruction Scheduler",
  ordinary "virtregrewriter" "Virtual Register Rewriter",
  ordinary "stack-slot-coloring" "Stack Slot Coloring",
  pseudo "postra-machine-licm" "Post-RegAlloc Machine LICM",
  ordinary "prologepilog" "Prologue/Epilogue Insertion & Frame Finalization",
  ordinary "branch-folder" "Control Flow Optimizer",
  ordinary "tailduplication" "Tail Duplication",
  ordinary "machine-cp" "Machine Copy Propagation Pass",
  ordinary "postrapseudos" "Post-RA pseudo instruction expansion pass",
  ordinary "post-RA-sched" "Post RA top-down list latency scheduler",
  ordinary "gc-analysis" "Analyze Machine Code For Garbage Collection",
  printer .gcRoots "Print Garbage Collector Information",
  ordinary "block-placement2" "Branch Probability Basic Block Placement",
  ordinary "code-placement" "Code Placement Optimizer",
  ordinary "block-placement-stats" "Basic Block Placement Stats",
  ordinary "regalloc-basic" "Basic Register Allocator",
  ordinary "regalloc-fast" "Fast Register Allocator",
  ordinary "regalloc-greedy" "Greedy Register Allocator",
  ordinary "regalloc-pbqp" "PBQP Register Allocator",
  ordinary "aarch64-isel" "AArch64 Instruction Selection",
  ordinary "aarch64-ccmp" "AArch64 CCMP Pass",
  ordinary "aarch64-collect-loh" "AArch64 Collect Linker Optimization Hints",
  ordinary "x86-isel" "X86 DAG->DAG Instruction Selection",
  ordinary "x86-global-base-reg" "X86 PIC Global Base Reg Initialization",
  ordinary "x86-vzeroupper" "X86 vzeroupper inserter",
  ordinary "x86-fixup-bw-insts" "X86 Byte/Word Instruction Fixup"]

def registry : Registry := .ofKinds kinds (by decide +kernel)

end Standard

end PassPipeline
