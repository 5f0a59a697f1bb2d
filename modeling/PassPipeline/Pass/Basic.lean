import PassPipeline.Pass.Id

/-! Runnable passes. What an ordinary pass does to the code happens elsewhere: here it only leaves
its name on the unit. Printers, verifiers and passes that end a run act on the run itself. -/
namespace PassPipeline

/-- Where a printer writes: to the text collected for its caller, or straight to the console. -/
inductive Sink where
  | collected
  | console
  deriving DecidableEq, Repr

/-- What a printer prints. -/
inductive Subject where
  | ir
  | machineCode
  | gcRoots
  deriving DecidableEq, Repr

namespace Subject

/-- How a print begins. -/
def header : Subject → String
  | .ir => "IR for"
  | .machineCode => "Machine code for"
  | .gcRoots => "GC roots for"

def id : Subject → PassId
  | .ir => Standard.irPrinter
  | .machineCode => Standard.machinePrinter
  | .gcRoots => Standard.gcInfoPrinter

def name : Subject → String
  | .ir => "print-function"
  | .machineCode => "print-machineinstrs"
  | .gcRoots => "gc-info-printer"

end Subject

/-- What a pass does when it runs. -/
inductive Work where
  /-- Leaves a trace. -/
  | ordinary
  /-- Leaves a trace and prints the unit under a banner. -/
  | print (subject : Subject) (banner : String) (sink : Sink)
  /-- Leaves a trace and fails on a broken unit. -/
  | verify (banner : String)
  /-- Fails with a text. -/
  | fail (text : String)
  /-- Cancels the run it is part of, and succeeds. -/
  | cancel
  deriving DecidableEq, Repr

structure Pass where
  id : PassId
  name : String
  work : Work
  deriving DecidableEq, Repr

namespace Pass

/-- The banner of a printer or verifier. -/
def banner? (p : Pass) : Option String :=
  match p.work with
  | .print _ banner _ => some banner
  | .verify banner => some banner
  | _ => none

/-- The banner, where a pass without one has an empty one. -/
def banner (p : Pass) : String := p.banner?.getD ""

def isPrinter (p : Pass) : Bool :=
  match p.work with
  | .print .. => true
  | _ => false

/-- Sends what a printer writes to `sink`. -/
def withSink (sink : Sink) (p : Pass) : Pass :=
  match p.work with
  | .print subject banner _ => { p with work := .print subject banner sink }
  | _ => p

/-- A printer under its standard name, whatever a registry calls it. -/
def printer (subject : Subject) (sink : Sink) (banner : String) : Pass :=
  ⟨subject.id, subject.name, .print subject banner sink⟩

/-- A verifier under its standard name, whatever a registry calls it. -/
def verifier (banner : String) : Pass :=
  ⟨Standard.machineVerifier, "machineverifier", .verify banner⟩

end Pass

end PassPipeline
