import PassPipeline.Config.Basic

/-! Requests for passes: substitution, override, window and insertions. -/
namespace PassPipeline.Build

/-- Moves the window past a pass and hands the pass over if it is inside. -/
def handOver (p : Pass) : Build Unit := do
  let w := (← config).window
  let moved := w.advance p.id
  if w.isOpen then
    modifyConfig fun c => { c with window := moved, handed := c.handed ++ [p] }
    trace ("add " ++ p.name)
  else
    modifyConfig fun c => { c with window := moved }
    trace ("skip " ++ p.name ++ " (outside start/stop window)")
  if moved.isInverted then
    let stop ← nameOf moved.stopAfter
    modifyConfig fun c => { c with refusal := some (.stopBeforeStart stop) }

/-- Places a pass. Behind a refusal nothing is placed any more, and nothing is said about it. -/
def place (p : Pass) : Build Unit := do
  let c ← config
  match c.phase with
  | .built => throw (.immutable (.add p.name))
  | .configuring => throw (.outsideBuild p.name)
  | .building => if c.refusal.isNone then handOver p

/-- A fresh pass of a registered kind. -/
def instantiate (id : PassId) : Build Pass := do
  match (← get).session.registry.instantiate id with
  | .ok p => return p
  | .error e => throw (.registry e)

/-- Schedules the kind that a request leads to, without what comes behind it. -/
def schedule (id : PassId) : Build PassId := do
  let c ← config
  match c.resolve id with
  | .error e => throw (.override e (← nameOf id))
  | .ok final =>
    if final = .none then trace ("suppress " ++ (← nameOf id))
    else place ((← instantiate final).withSink c.sink)
    return final

/-- Requests what was inserted behind a kind, by `inner`. Without it there is no room for one more
request inside the others. -/
def follow (inner : Option (PassId → Build PassId)) (id : PassId) : Build Unit := do
  let inserted := (← config).insertedAfter id
  if !inserted.isEmpty then
    modifyConfig fun c => { c with nesting := c.nesting + 1 }
    match inner with
    | none => throw (.insertionCycle (← nameOf id))
    | some request => inserted.forM fun kind => discard (request kind)
    modifyConfig fun c => { c with nesting := c.nesting - 1 }

/-- Requests a kind, and by `inner` what was inserted behind it. The answer is the kind that was
scheduled. Insertions belong to the kind that was asked for, and follow it only if it is there. -/
def requestBy (inner : Option (PassId → Build PassId)) (id : PassId) : Build PassId := do
  let final ← schedule id
  if final ≠ .none then follow inner id
  return final

/-- Requests a kind, with room for `room` more requests inside one another. -/
def requestWithin : (room : Nat) → PassId → Build PassId
  | 0 => requestBy none
  | room + 1 => requestBy (some (requestWithin room))

/-- Requests a kind. Requests are inside one another at most as often as there are insertions:
deeper ones have come back to a kind they began with. -/
def request (id : PassId) : Build PassId := do
  let c ← config
  requestWithin (c.insertions.length - c.nesting) id

/-- Places a printer and a verifier of machine code, where they are asked for. -/
def printAndVerify (banner : String) : Build Unit := do
  let c ← config
  if c.printMachineCode then place (.printer .machineCode c.sink banner)
  if c.options.verifyMachineCode then place (.verifier banner)

/-- Asks the target for an allocator, and notes that if the target reports it. -/
def askAllocator (target : Target) (optimized : Bool) : Build PassId := do
  let id := target.allocators.answer optimized
  if target.reportsAllocators then note (.allocator optimized id)
  return id

/-- A pass of the allocator that the session selects. What it prints goes to the console. -/
def allocatorPass (optimized : Bool) : Build Pass := do
  let s ← get
  match ← s.session.allocators.selectBy optimized (askAllocator s.config.target) with
  | .error e => throw (.allocator e)
  | .ok (id, selector) =>
    modify fun s => { s with session := { s.session with allocators := selector } }
    trace ("register allocator " ++ (← nameOf id))
    instantiate id

/-- Places the allocator that a stage was handed. -/
def placeHanded : Option Pass → Build Unit
  | some p => place p
  | none => do if (← config).refusal.isNone then throw .noAllocator

end PassPipeline.Build
