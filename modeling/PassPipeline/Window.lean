import PassPipeline.Pass.Id

/-! The window of a pipeline. Passes outside it are asked for all the same, so that the stages run
to their end, but they are not part of the list that is built. -/
namespace PassPipeline

/-- A window opens behind one kind and closes with another. A boundary
that is no pass is not set. -/
structure Window where
  startAfter : PassId
  stopAfter : PassId
  started : Bool
  stopped : Bool
  deriving DecidableEq, Repr

namespace Window

def ofBounds (startAfter stopAfter : PassId) : Window :=
  ⟨startAfter, stopAfter, startAfter = .none, false⟩

/-- Whether the next pass is part of the list. -/
def isOpen (w : Window) : Bool := w.started && !w.stopped

/-- Moves past a pass. The start boundary itself stays outside, the stop boundary inside. -/
def advance (w : Window) (id : PassId) : Window :=
  { w with
    started := w.started || (w.startAfter ≠ .none && id = w.startAfter)
    stopped := w.stopped || (w.stopAfter ≠ .none && id = w.stopAfter) }

/-- The stop boundary came before the start boundary. -/
def isInverted (w : Window) : Bool := w.stopped && !w.started

end Window

/-- What is said of an inverted window. -/
def Window.invertedMessage : String := "cannot stop compilation after pass that is not run"

end PassPipeline
