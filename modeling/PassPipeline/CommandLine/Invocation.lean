import PassPipeline.Allocator.Registry
import PassPipeline.CommandLine.Flag
import PassPipeline.Settings.Options
import PassPipeline.Text.Integer

/-! What the command line asks for. -/
namespace PassPipeline

/-- What the command finds around it. -/
structure Surroundings where
  /-- Machine code is verified unless a flag says otherwise. -/
  verify : Bool := false
  /-- The target for code of this machine. -/
  homeTarget : String := "x86_64-linux"
  /-- How many pipelines are built at once unless a flag says otherwise. -/
  processors : String := "1"
  deriving DecidableEq, Repr

/-- The values of all flags. -/
structure Invocation where
  output : String := "-"
  level : Int := 2
  target : String
  allocator : String := Allocator.defaultName
  run : Bool := false
  arguments : Bool := false
  tracing : Bool := false
  listPasses : Bool := false
  options : Options := {}
  deriving DecidableEq, Repr

namespace Invocation

def initial (around : Surroundings) : Invocation :=
  { target := around.homeTarget, options := { verifyMachineCode := around.verify } }

/-- The truth values that a switch can be given. -/
def readBool (value : String) : Except String Bool :=
  if value ∈ ["1", "t", "T", "TRUE", "true", "True"] then .ok true
  else if value ∈ ["0", "f", "F", "FALSE", "false", "False"] then .ok false
  else .error "parse error"

def text (name help : String) (shown : Option String) (set : String → Invocation → Invocation) :
    Flag Invocation where
  name
  kind := .text
  help
  shown := shown.map Text.quote
  assign value i := .ok (set value i)

def number (name help shown : String) (set : Int → Invocation → Invocation) : Flag Invocation where
  name
  kind := .number
  help
  shown := some shown
  assign value i :=
    match Text.readInteger value with
    | .ok n => .ok (set n i)
    | .error e => .error e.message

def switch (name help : String) (set : Bool → Invocation → Invocation) (shown : Bool := false) :
    Flag Invocation where
  name
  kind := .switch
  help
  shown := if shown then some "true" else none
  assign value i :=
    match readBool value with
    | .ok b => .ok (set b i)
    | .error e => .error e

/-- A switch of the pipeline. -/
def option (name help : String) (set : Bool → Options → Options) : Flag Invocation :=
  switch name help (fun b i => { i with options := set b i.options })

def tristate (name help : String) (set : Tristate → Options → Options) : Flag Invocation where
  name
  kind := .switch
  help
  assign value i :=
    match Tristate.ofPieces? (Text.piecesOf value) with
    | some t => .ok { i with options := set t i.options }
    | none => .error (Tristate.invalidMessage (Text.piecesOf value))

/-- Machine code is printed after every step, or after one pass if the value names it. -/
def printMachineCode : Flag Invocation where
  name := "print-machineinstrs"
  kind := .switch
  help := "print machine instrs after every step, or with =<pass> after the named pass"
  assign value i :=
    .ok { i with options :=
      if value = "true" || value = "" then { i.options with printMachineCode := true }
      else { i.options with printAfter := value } }

def flags (around : Surroundings) : List (Flag Invocation) := [
  text "o" "output file name" (some "-") fun v i => { i with output := v },
  number "O" "optimization level (0-3)" "2" fun n i => { i with level := n },
  text "t" "target architecture" (some around.homeTarget) fun v i => { i with target := v },
  text "regalloc"
    ("register allocator to use: " ++ ", ".intercalate AllocatorRegistry.standard.names)
    (some Allocator.defaultName) fun v i => { i with allocator := v },
  switch "run" "run the pipeline over each unit after building it" fun b i => { i with run := b },
  switch "arguments" "print each pipeline as a single line of pass arguments"
    fun b i => { i with arguments := b },
  switch "debug-pass" "trace pipeline construction on stderr" fun b i => { i with tracing := b },
  switch "list-passes" "list registered passes and exit" fun b i => { i with listPasses := b },
  -- The order of the reports does not depend on how many pipelines are built at once.
  number "j" "number of pipelines to build in parallel" around.processors fun _ i => i,
  option "disable-post-ra" "disable post regalloc scheduling"
    fun b o => { o with disablePostRA := b },
  option "disable-branch-fold" "disable branch folding"
    fun b o => { o with disableBranchFold := b },
  option "disable-tail-duplicate" "disable tail duplication"
    fun b o => { o with disableTailDuplicate := b },
  option "disable-early-taildup" "disable pre-register allocation tail duplication"
    fun b o => { o with disableEarlyTailDup := b },
  option "disable-block-placement"
    "disable probability-driven block placement and use the old code placement pass"
    fun b o => { o with disableBlockPlacement := b },
  option "enable-block-placement-stats" "collect probability-driven block placement stats"
    fun b o => { o with enableBlockPlacementStats := b },
  option "disable-code-place" "disable code placement" fun b o => { o with disableCodePlace := b },
  option "disable-ssc" "disable stack slot coloring" fun b o => { o with disableSSC := b },
  option "disable-machine-dce" "disable machine dead code elimination"
    fun b o => { o with disableMachineDCE := b },
  option "enable-early-ifcvt" "enable early if-conversion"
    fun b o => { o with enableEarlyIfConversion := b },
  option "disable-machine-licm" "disable machine LICM"
    fun b o => { o with disableMachineLICM := b },
  option "disable-machine-cse" "disable machine common subexpression elimination"
    fun b o => { o with disableMachineCSE := b },
  tristate "optimize-regalloc" "enable the optimized register allocation path (true/false)"
    fun t o => { o with optimizeRegAlloc := t },
  tristate "enable-misched" "enable the machine instruction scheduling pass (true/false)"
    fun t o => { o with enableMachineSched := t },
  option "strong-phi-elim" "use strong PHI elimination"
    fun b o => { o with enableStrongPHIElim := b },
  option "disable-postra-machine-licm" "disable post-RA machine LICM"
    fun b o => { o with disablePostRAMachineLICM := b },
  option "disable-machine-sink" "disable machine sinking"
    fun b o => { o with disableMachineSink := b },
  option "disable-lsr" "disable loop strength reduction" fun b o => { o with disableLSR := b },
  option "disable-cgp" "disable codegen prepare" fun b o => { o with disableCGP := b },
  option "disable-copyprop" "disable copy propagation" fun b o => { o with disableCopyProp := b },
  option "print-lsr-output" "print IR produced by loop strength reduction"
    fun b o => { o with printLSR := b },
  option "print-isel-input" "print IR input to instruction selection"
    fun b o => { o with printISelInput := b },
  option "print-gc" "dump garbage collector data" fun b o => { o with printGCInfo := b },
  switch "verify-machineinstrs" "verify generated machine code"
    (fun b i => { i with options := { i.options with verifyMachineCode := b } }) around.verify,
  option "early-live-intervals" "run live interval analysis earlier in the pipeline"
    fun b o => { o with earlyLiveIntervals := b },
  printMachineCode,
  text "start-after" "resume compilation after the named pass" none
    fun v i => { i with options := { i.options with startAfter := v } },
  text "stop-after" "stop compilation after the named pass" none
    fun v i => { i with options := { i.options with stopAfter := v } }]

/-- The values of the flags on a command line, and its operands. -/
def parse (around : Surroundings) (args : List String) :
    Except FlagError (Invocation × List String) :=
  Flag.parse (flags around) (initial around) args

end Invocation

end PassPipeline
