import PassPipeline.Config.Request
import PassPipeline.Order

/-! Running scripts and building pipelines. -/
namespace PassPipeline

/-- A stage as it can be called: as the target has it, or in its standard form. -/
structure StageCall where
  stage : Stage
  standard : Bool := false
  deriving DecidableEq, Repr

/-- What is around a script that runs: the stage it belongs to and the allocator it was handed. -/
structure Frame where
  stage : Option Stage := none
  allocator : Option Pass := none
  deriving DecidableEq, Repr

/-- How a script calls stages. The answer is whether the stage claims to have added passes. -/
abbrev Caller := StageCall → Option Pass → Build Bool

namespace Build

/-- Runs the stages and hands over the passes inside the window. A configuration is built once. -/
def buildInto (call : Caller) : Build (Option Refusal) := do
  requireMutable .build
  modifyConfig fun c => { c with phase := .building }
  let s ← get
  trace ("building pipeline (exceptions=" ++ s.config.target.exceptions.text ++ ", regalloc=" ++
    s.session.allocators.choice ++ ")")
  discard (call { stage := .irPasses } none)
  discard (call { stage := .iselPrepare } none)
  if ← call { stage := .instSelector } none then trace "instruction selector added"
  discard (call { stage := .machinePasses } none)
  modifyConfig fun c => { c with phase := .built }
  return (← config).refusal

/-- Builds a list and checks its order. -/
def build (call : Caller) : Build (Except Refusal (List Pass)) := do
  match ← buildInto call with
  | some r => return .error r
  | none =>
    let handed := (← config).handed
    match Order.broken? (handed.map Pass.id) with
    | some c => throw (.order (Standard.registry.name c.first) (Standard.registry.name c.second))
    | none => return .ok handed

/-- A pass from a supply. If it prints, it writes where the configuration says. -/
def take (supply : Supply) : Build Pass := do
  let p ← match supply with
    | .registered id => instantiate id
    | .ready p => pure p
  return p.withSink (← config).sink

def perform (call : Caller) (frame : Frame) : Command → Build Unit
  | .place supply => do place (← take supply)
  | .print subject banner => do place (.printer subject (← config).sink banner)
  | .printAndVerify banner => printAndVerify banner
  | .substitute standard target => substitute standard target
  | .insert anchor inserted => insert anchor inserted
  | .set setting value => assign setting value
  | .allocate optimized => do
    let p ← allocatorPass optimized
    discard (call { stage := if optimized then .optimizedRegAlloc else .fastRegAlloc } (some p))
  | .placeAllocator => placeHanded frame.allocator
  | .build => discard (build call)

def answer (call : Caller) (frame : Frame) : Query → Build Bool
  | .holds condition => do return condition.holds (← config)
  | .schedules kind reported => do
    let scheduled ← request kind
    if reported then note (.granted frame.stage kind scheduled)
    return scheduled ≠ .none
  | .stage stage => call { stage } frame.allocator
  | .standard =>
    match frame.stage with
    | some stage => call { stage, standard := true } frame.allocator
    | none => return false

/-- Runs a script. The answer is whether it claimed, anywhere on its way, to have added passes. -/
def exec (call : Caller) (frame : Frame) : Script → Build Bool
  | .skip => return false
  | .claim => return true
  | .run command => do
    perform call frame command
    return false
  | .seq first second => do
    let a ← exec call frame first
    let b ← exec call frame second
    return a || b
  | .ask query yes no => do
    if ← answer call frame query then exec call frame yes else exec call frame no

/-- Calls a stage, with `depth` bounding how many calls are inside one another. -/
def callStage : (depth : Nat) → Caller
  | 0, _, _ => throw .stagesEndless
  | depth + 1, c, allocator => do
    let target := (← config).target
    let frame : Frame := ⟨some c.stage, if c.stage.takesAllocator then allocator else none⟩
    let script := if c.standard then target.standardScript c.stage else target.script c.stage
    exec (callStage depth) frame script

/-- Configurations do not change during a build, so a stage that calls itself does so
for ever; before a build, what a stage changes can stop it the second time. So no
finite work is cut off here. -/
def depthLimit : Nat := 128

/-- Calls stages as deep as anything but endless work needs. -/
def stages : Caller := callStage depthLimit

/-- Runs a script outside the stages. -/
def execute (s : Script) : Build Unit := discard (exec stages {} s)

/-- The stages of a target are there only after it was configured. -/
def stagesMissing : Caller := fun _ _ => throw .stagesMissing

/-- Sets up a fresh configuration. Two pseudo kinds stand for real ones; early if-conversion is for
targets that are ready for it, and machine scheduling is an experiment. -/
def setUp (printAfter : Option PassId) (target : Target) : Build Unit := do
  substitute Standard.earlyTailDuplicate Standard.tailDuplicate
  substitute Standard.postRAMachineLICM Standard.machineLICM
  substitute Standard.earlyIfConverter .none
  substitute Standard.machineScheduler .none
  if let some id := printAfter then insert id Standard.machinePrinter
  discard (exec stagesMissing {} target.configure)

end Build

namespace Config

/-- The kind that an option names; the empty name names none. -/
def boundary (r : Registry) (option : PassOption) (name : String) :
    Except Refusal (Option PassId) :=
  if name = "" then .ok none
  else match r.lookup? name with
    | some id => .ok (some id)
    | none => .error (.unknownPass option name)

/-- The configuration that scripts start from. -/
def fresh (target : Target) (level : Level) (options : Options) (sink : Sink) (window : Window) :
    Config where
  target
  level
  options
  sink
  printMachineCode := options.printMachineCode
  window

/-- A configuration for a target, and what the journal tells about setting it up. -/
def create (session : Session) (target : Target) (level : Level) (options : Options) (sink : Sink) :
    Except Failure Config × List Entry :=
  let bounds := do
    let start ← boundary session.registry .startAfter options.startAfter
    let stop ← boundary session.registry .stopAfter options.stopAfter
    let print ← boundary session.registry .printAfter options.printAfter
    return (start, stop, print)
  match bounds with
  | .error r => (.error (.refused r), [])
  | .ok (start, stop, print) =>
    let window := Window.ofBounds (start.getD .none) (stop.getD .none)
    let c := fresh target level options sink window
    match (Build.setUp print target).run { session, config := c } with
    | (.ok _, s) => (.ok s.config, s.journal)
    | (.error d, s) => (.error (.broken d), s.journal)

/-- Works on a configuration in a session. -/
def work {α : Type} (session : Session) (c : Config) (m : Build α) :
    Except Defect α × Construction :=
  m.run { session, config := c }

end Config

end PassPipeline
