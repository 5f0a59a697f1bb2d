import PassPipeline.Allocator.Registry

/-! The choice of an allocator for all pipelines of a session. The first answer is remembered: later
pipelines get the same allocator, whatever their level and target. -/
namespace PassPipeline

/-- What a target answers on the optimized path and on the fast one. -/
structure AllocatorAnswers where
  optimized : PassId
  fast : PassId
  deriving DecidableEq, Repr

namespace AllocatorAnswers

def answer (a : AllocatorAnswers) (optimized : Bool) : PassId :=
  if optimized then a.optimized else a.fast

/-- An answer with a record of what was asked. -/
def recorded (a : AllocatorAnswers) (optimized : Bool) : StateM (List Bool) PassId := do
  modify (· ++ [optimized])
  return a.answer optimized

/-- The allocators a target gets unless it says otherwise. -/
def standard : AllocatorAnswers := ⟨Standard.regAllocGreedy, Standard.regAllocFast⟩

end AllocatorAnswers

structure Selector where
  registry : AllocatorRegistry
  choice : String
  resolved : Option PassId := none
  deriving DecidableEq, Repr

namespace Selector

/-- A selector that honors a name. The empty name leaves the choice to the target. -/
def ofChoice (registry : AllocatorRegistry) (name : String) : Except AllocatorError Selector :=
  let choice := if name = "" then Allocator.defaultName else name
  if (registry.lookup? choice).isSome then .ok { registry, choice } else .error (.unknown choice)

/-- The allocator for a pipeline, which is then remembered. The target is asked only if nothing was
chosen by name and nothing is remembered; `ask` is how. -/
def selectBy {m : Type → Type} [Monad m] (s : Selector) (optimized : Bool)
    (ask : Bool → m PassId) : m (Except AllocatorError (PassId × Selector)) :=
  match s.resolved with
  | some id => return .ok (id, s)
  | none =>
    if s.choice = Allocator.defaultName then do
      let id ← ask optimized
      if id = .none then return .error (.noneProvided optimized)
      else return .ok (id, { s with resolved := some id })
    else match s.registry.lookup? s.choice with
      | some a => return .ok (a.pass, { s with resolved := some a.pass })
      | none => return .error (.unknown s.choice)

/-- A selection with a target that gives these answers. -/
def select (s : Selector) (optimized : Bool) (answers : AllocatorAnswers) :
    Except AllocatorError (PassId × Selector) :=
  Id.run (s.selectBy optimized fun path => return answers.answer path)

/-- The same selection, and the paths that the target was asked about. -/
def selectAsked (s : Selector) (optimized : Bool) (answers : AllocatorAnswers) :
    Except AllocatorError (PassId × Selector) × List Bool :=
  (s.selectBy optimized answers.recorded).run []

def reset (s : Selector) : Selector := { s with resolved := none }

end Selector

end PassPipeline
