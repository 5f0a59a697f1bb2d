import PassPipeline.CompilationUnit
import PassPipeline.Pass.Basic

/-! Running passes over a unit. A run ends at the first pass that fails, and before the first pass
that finds it cancelled. -/
namespace PassPipeline

/-- Why a pass failed. -/
inductive PassError where
  /-- A verifier met a broken unit. -/
  | badCode (unit banner fault : String)
  | failed (text : String)
  deriving DecidableEq, Repr

def PassError.message : PassError → String
  | .badCode unit banner fault =>
    "bad machine code in " ++ unit ++ (if banner = "" then "" else " (" ++ banner ++ ")") ++ ": " ++
      fault
  | .failed text => text

inductive RunError where
  | cancelled
  | pass (index : Nat) (name : String) (cause : PassError)
  deriving DecidableEq, Repr

def RunError.message : RunError → String
  | .cancelled => "context canceled"
  | .pass index name cause =>
    "pass #" ++ toString index ++ " " ++ name ++ ": " ++ cause.message

/-- A run in progress: the unit, what was written to which sink, and whether it was cancelled. -/
structure Run where
  unit : CompilationUnit
  written : List (Sink × String) := []
  cancelled : Bool := false
  deriving DecidableEq, Repr

namespace Run

/-- The text written to one sink. -/
def textOf (sink : Sink) (r : Run) : String :=
  String.join ((r.written.filter (·.1 = sink)).map Prod.snd)

def record (name : String) (r : Run) : Run := { r with unit := r.unit.record name }

/-- The header of a print, on one line whatever the unit and the banner are called. -/
def headerLine (subject : Subject) (unit banner : String) : String :=
  "# " ++ subject.header ++ " " ++ Text.escape unit ++
    (if banner = "" then "" else " (" ++ Text.escape banner ++ ")") ++ "\n"

/-- What a printer writes about a unit. -/
def print (subject : Subject) (banner : String) (u : CompilationUnit) : String :=
  headerLine subject u.name banner ++ (if u.bare then "" else u.dump)

/-- Runs one pass. A verifier leaves its trace before it fails. -/
def step (p : Pass) (r : Run) : Run × Option PassError :=
  match p.work with
  | .ordinary => (r.record p.name, none)
  | .print subject banner sink =>
    let r := r.record p.name
    ({ r with written := r.written ++ [(sink, print subject banner r.unit)] }, none)
  | .verify banner =>
    let r := r.record p.name
    match r.unit.fault? with
    | some fault => (r, some (.badCode r.unit.name banner fault))
    | none => (r, none)
  | .fail text => (r, some (.failed text))
  | .cancel => ({ r with cancelled := true }, none)

/-- Runs passes of which the first has the given index. -/
def stepsFrom (index : Nat) : List Pass → Run → Run × Option RunError
  | [], r => (r, none)
  | p :: rest, r =>
    if r.cancelled then (r, some .cancelled)
    else match r.step p with
      | (r, some cause) => (r, some (.pass index p.name cause))
      | (r, none) => stepsFrom (index + 1) rest r

/-- Runs a list of passes over a unit. -/
def passes (ps : List Pass) (r : Run) : Run × Option RunError := stepsFrom 0 ps r

end Run

end PassPipeline
