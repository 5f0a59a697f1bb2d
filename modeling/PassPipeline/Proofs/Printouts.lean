import PassPipeline.Proofs.Execution
import PassPipeline.Proofs.Lines

/-! What printers leave to read. A printer tells how many passes came before it, itself included, so
that what it wrote can be found again in the list that ran: the trace of a unit is as long as the
list is up to the pass that runs. -/
namespace PassPipeline

/-- Passes that a registry makes, printers and verifiers, with all that
they print sent to one sink. -/
inductive Pass.Stock (sink : Sink) : Pass → Prop
  | registered {registry : Registry} {id : PassId} {p : Pass}
    (h : registry.instantiate id = .ok p) : Stock sink (p.withSink sink)
  | printer (subject : Subject) (banner : String) : Stock sink (.printer subject sink banner)
  | verifier (banner : String) : Stock sink (.verifier banner)

/-- The lines that a printer writes at a place of a list: what is printed, and where. -/
def Pass.printout (unit : String) (place : Nat) (p : Pass) : List String :=
  match p.work with
  | .print subject banner _ =>
    ["# " ++ subject.header ++ " " ++ Text.escape unit ++
        (if banner = "" then "" else " (" ++ Text.escape banner ++ ")") ++ "\n",
      "  " ++ toString (place + 1) ++ " passes so far, last: " ++ p.name ++ "\n"]
  | _ => []

/-- What the printers of a list write, of which the first pass has the given place. -/
def printoutsFrom (unit : String) (place : Nat) (ps : List Pass) : List String :=
  (ps.zipIdx place).flatMap fun entry => entry.1.printout unit entry.2

def Pass.printsTo (sink : Sink) (p : Pass) : Bool :=
  match p.work with
  | .print _ _ other => other = sink
  | _ => false

/-- The part of it that goes to one sink. -/
def printoutsTo (sink : Sink) (unit : String) (place : Nat) (ps : List Pass) : List String :=
  (ps.zipIdx place).flatMap fun entry =>
    if entry.1.printsTo sink then entry.1.printout unit entry.2 else []

namespace Pass

variable {sink : Sink} {p : Pass} {unit : String} {place : Nat}

theorem Stock.runs (h : p.Stock sink) : p.runs := by
  cases h with
  | registered h => simpa using Registry.runs_of_instantiate h
  | printer subject banner => rfl
  | verifier banner => rfl

@[simp] theorem printsTo_withSink (sink other : Sink) (p : Pass) :
    (p.withSink sink).printsTo other = (p.isPrinter && decide (sink = other)) := by
  obtain ⟨id, name, work⟩ := p
  cases work <;> simp [withSink, printsTo, isPrinter]

@[simp] theorem isPrinter_withSink (sink : Sink) (p : Pass) :
    (p.withSink sink).isPrinter = p.isPrinter := by
  obtain ⟨id, name, work⟩ := p
  cases work <;> rfl

theorem isPrinter_of_printsTo (h : p.printsTo sink) : p.isPrinter := by
  unfold printsTo at h
  unfold isPrinter
  cases hw : p.work <;> simp_all

theorem Stock.printsTo (h : p.Stock sink) : p.printsTo sink = p.isPrinter := by
  cases h with
  | registered h => simp
  | printer subject banner => simp [Pass.printsTo, isPrinter, Pass.printer]
  | verifier banner => rfl

theorem newline_not_mem_header (subject : Subject) : '\n' ∉ subject.header.toList := by
  cases subject <;> decide

theorem isLine_of_mem_printout (hname : '\n' ∉ p.name.toList) {line : String}
    (h : line ∈ p.printout unit place) : Text.IsLine line := by
  unfold printout at h
  split at h
  · rename_i subject banner _ _
    have hunit := Text.newline_not_mem_escape unit
    have hbanner := Text.newline_not_mem_escape banner
    have hsubject := newline_not_mem_header subject
    have hplace := Text.newline_not_mem_natural (place + 1)
    rcases List.mem_pair.mp h with rfl | rfl
    · refine ⟨_, rfl, ?_⟩
      split <;> simp [hsubject, hunit, hbanner]
    · exact ⟨_, rfl, by simpa [hname] using hplace⟩
  · cases h

theorem length_printout (unit : String) (place : Nat) (p : Pass) :
    (p.printout unit place).length = if p.isPrinter then 2 else 0 := by
  unfold printout isPrinter
  cases p.work <;> rfl

end Pass

section lists

variable {unit : String} {place : Nat} {ps : List Pass}

@[simp] theorem printoutsFrom_nil (unit : String) (place : Nat) :
    printoutsFrom unit place [] = [] := rfl

theorem printoutsFrom_cons (unit : String) (place : Nat) (p : Pass) (ps : List Pass) :
    printoutsFrom unit place (p :: ps) =
      p.printout unit place ++ printoutsFrom unit (place + 1) ps := by
  simp [printoutsFrom, List.zipIdx_cons]

theorem printoutsTo_cons (sink : Sink) (unit : String) (place : Nat) (p : Pass) (ps : List Pass) :
    printoutsTo sink unit place (p :: ps) =
      (if p.printsTo sink then p.printout unit place else []) ++
        printoutsTo sink unit (place + 1) ps := by
  simp [printoutsTo, List.zipIdx_cons]

/-- Where all printers of a list write to one sink, that sink has it all. -/
theorem printoutsTo_eq_printoutsFrom {sink : Sink} (h : ∀ p ∈ ps, p.printsTo sink = p.isPrinter) :
    printoutsTo sink unit place ps = printoutsFrom unit place ps := by
  induction ps generalizing place with
  | nil => rfl
  | cons p ps ih =>
    have hp : (if p.printsTo sink then p.printout unit place else []) = p.printout unit place := by
      rw [h p List.mem_cons_self]
      unfold Pass.isPrinter Pass.printout
      cases p.work <;> rfl
    rw [printoutsTo_cons, printoutsFrom_cons, hp, ih fun q hq => h q (List.mem_cons_of_mem p hq)]

theorem length_printoutsFrom (unit : String) (place : Nat) (ps : List Pass) :
    (printoutsFrom unit place ps).length = 2 * ps.countP Pass.isPrinter := by
  induction ps generalizing place with
  | nil => rfl
  | cons p ps ih =>
    rw [printoutsFrom_cons, List.length_append, ih, p.length_printout, List.countP_cons]
    split <;> omega

theorem isLine_of_mem_printoutsFrom (hnames : ∀ p ∈ ps, '\n' ∉ p.name.toList) {line : String}
    (h : line ∈ printoutsFrom unit place ps) : Text.IsLine line := by
  obtain ⟨⟨p, i⟩, hp, hline⟩ := List.mem_flatMap.mp h
  exact Pass.isLine_of_mem_printout (hnames p (List.fst_mem_of_mem_zipIdx hp)) hline

end lists

namespace Run

variable {ps : List Pass} {p : Pass} {r : Run} {sink : Sink}

theorem Ends.isPrefix {executed : List Pass} {ending : Option RunError}
    (h : Ends ps r executed ending) : executed <+: ps := by
  cases h with
  | done => exact List.prefix_rfl
  | cancelled => exact List.take_prefix _ _
  | failed => exact List.take_prefix _ _

/-- A unit that was just passed tells how many passes there were and which one was the last. -/
theorem dump_record (u : CompilationUnit) (hbare : u.bare = false) (name : String) :
    (u.record name).dump =
      "  " ++ toString (u.trace.length + 1) ++ " passes so far, last: " ++ name ++ "\n" := by
  have hwords : " passes so far, last: " = " passes so far" ++ ", last: " := by decide
  have hdump : (u.record name).dump = "  " ++ toString (u.trace.length + 1) ++ " passes so far" ++
      (", last: " ++ name) ++ "\n" := by
    simp [CompilationUnit.dump, CompilationUnit.record, hbare]
  rw [hdump, hwords]
  simp only [String.append_assoc]

theorem textOf_step (hp : p.runs) (sink : Sink) (hbare : r.unit.bare = false) :
    (r.step p).1.textOf sink = r.textOf sink ++
      String.join (if p.printsTo sink then p.printout r.unit.name r.unit.trace.length else []) := by
  cases hw : p.work with
  | ordinary => simp [step, hw, Pass.printsTo, textOf, record]
  | print subject banner other =>
    have hname : (r.unit.record p.name).name = r.unit.name := by
      simp [CompilationUnit.record, hbare]
    have hstill : (r.unit.record p.name).bare = false := by
      simp [CompilationUnit.record, hbare]
    by_cases hsink : other = sink
    · simp [step, hw, Pass.printsTo, hsink, Pass.printout, textOf, record, print, headerLine, hname,
        hstill, dump_record _ hbare, List.filter_append, String.append_assoc]
    · simp [step, hw, Pass.printsTo, hsink, textOf, record, List.filter_append]
  | verify banner =>
    have hwritten : (r.step p).1.written = r.written := by
      simp only [step, hw]
      split <;> rfl
    simp [textOf, hwritten, Pass.printsTo, hw]
  | fail text => simp [Pass.runs, hw] at hp
  | cancel => simp [Pass.runs, hw] at hp

/-- Passes add their printouts one after the other. The place of each is told
by the length of the trace. -/
theorem textOf_after (hps : ∀ p ∈ ps, p.runs) (sink : Sink) (hbare : r.unit.bare = false) :
    (r.after ps).textOf sink =
      r.textOf sink ++ String.join (printoutsTo sink r.unit.name r.unit.trace.length ps) := by
  induction ps generalizing r with
  | nil => simp [printoutsTo]
  | cons p ps ih =>
    have hp := hps p List.mem_cons_self
    have hunit : (r.step p).1.unit = { r.unit with trace := r.unit.trace ++ [p.name] } := by
      rw [step_unit, if_pos hp]
      simp [CompilationUnit.record, hbare]
    rw [after_cons, ih (fun q hq => hps q (List.mem_cons_of_mem _ hq)) (by rw [hunit]; exact hbare),
      textOf_step hp sink hbare, hunit, printoutsTo_cons, String.join_append,
      String.append_assoc, List.length_append]
    rfl

theorem textOf_passes_of_runs (hps : ∀ p ∈ ps, p.runs) (name : String) (sink : Sink) :
    (passes ps { unit := { name } }).1.textOf sink = String.join (printoutsTo sink name 0 ps) := by
  obtain ⟨written, hrun⟩ := passes_of_runs hps name
  obtain ⟨executed, ending, hpasses, hends⟩ := exists_ends ps { unit := { name } }
  obtain rfl : ending = none := congrArg Prod.snd (hpasses.symm.trans hrun)
  cases hends
  rw [hpasses, textOf_after hps sink rfl]
  exact String.empty_append

/-- Printer output locates each printer in the run, over a fresh unit that may be broken. It has two
lines for every printer, if no name of a pass has an end of line in it. -/
theorem textOf_passes (hps : ∀ p ∈ ps, p.Stock sink) (name : String) (broken : Option String)
    (cancelled : Bool) :
    ∃ executed, Ends ps { unit := { name, broken }, cancelled } executed
        (passes ps { unit := { name, broken }, cancelled }).2 ∧
      executed <+: ps ∧
      (passes ps { unit := { name, broken }, cancelled }).1.unit.trace = executed.map Pass.name ∧
      (passes ps { unit := { name, broken }, cancelled }).1.textOf sink =
        String.join (printoutsFrom name 0 executed) ∧
      ((∀ p ∈ ps, '\n' ∉ p.name.toList) →
        (∀ line ∈ printoutsFrom name 0 executed, Text.IsLine line) ∧
        ((passes ps { unit := { name, broken }, cancelled }).1.textOf sink).toList.count '\n' =
          2 * executed.countP Pass.isPrinter) := by
  obtain ⟨executed, ending, hpasses, hends⟩ :=
    exists_ends ps { unit := { name, broken }, cancelled }
  have hmem : ∀ p ∈ executed, p ∈ ps := fun p hp => hends.isPrefix.subset hp
  have htext := textOf_after (r := { unit := { name, broken }, cancelled })
    (fun p hp => (hps p (hmem p hp)).runs) sink rfl
  rw [printoutsTo_eq_printoutsFrom fun p hp => (hps p (hmem p hp)).printsTo] at htext
  have htrace := after_unit { unit := { name, broken }, cancelled } executed
  have hall : executed.filter Pass.runs = executed :=
    List.filter_eq_self.mpr fun p hp => (hps p (hmem p hp)).runs
  rw [hall] at htrace
  rw [hpasses]
  have houtput : (after { unit := { name, broken }, cancelled } executed).textOf sink =
      String.join (printoutsFrom name 0 executed) := by
    rw [htext]
    exact String.empty_append
  refine ⟨executed, hends, hends.isPrefix, by rw [htrace]; rfl, houtput, fun hnames => ?_⟩
  have hlines : ∀ line ∈ printoutsFrom name 0 executed, Text.IsLine line := fun line hline =>
    isLine_of_mem_printoutsFrom (fun p hp => hnames p (hmem p hp)) hline
  refine ⟨hlines, ?_⟩
  rw [houtput, Text.count_join hlines, length_printoutsFrom]

/-- A printer with a banner of several lines before a check, and another printer behind it. -/
def narrated : List Pass :=
  [⟨Standard.loopStrengthReduce, "loop-reduce", .ordinary⟩,
    .printer .ir .collected "\n\n*** Code after LSR ***\n", .verifier "After LSR",
    .printer .machineCode .collected ""]

/-- A broken unit is printed once by that list, in two lines. -/
theorem textOf_passes_broken :
    (∀ p ∈ narrated, p.Stock .collected) ∧
      (passes narrated { unit := { name := "f\ng", broken := some "bad" } }).1.textOf .collected =
        "# IR for f\\ng (\\n\\n*** Code after LSR ***\\n)\n  2 passes so far, last: print-function\n" ∧
      ((passes narrated { unit := { name := "f\ng", broken := some "bad" } }).1.textOf
        .collected).toList.count '\n' = 2 := by
  have hstock : ∀ p ∈ narrated, p.Stock .collected := by
    intro p hp
    simp only [narrated, List.mem_cons, List.not_mem_nil, or_false] at hp
    rcases hp with rfl | rfl | rfl | rfl
    · exact .registered (show Standard.registry.instantiate Standard.loopStrengthReduce =
        .ok _ from rfl)
    · exact .printer _ _
    · exact .verifier _
    · exact .printer _ _
  have hfirst : FirstStop narrated { unit := { name := "f\ng", broken := some "bad" } } 2 := by
    refine ⟨⟨_, rfl, .inr rfl⟩, fun j hj => ?_⟩
    rintro ⟨p, hp, hor⟩
    obtain rfl | rfl : j = 0 ∨ j = 1 := by omega
    all_goals
      cases hp
      simp [narrated, step, record, Pass.printer] at hor
  obtain ⟨executed, hends, -, -, htext, hlines⟩ := textOf_passes hstock "f\ng" (some "bad") false
  obtain ⟨rfl, -⟩ := hends.unique (.failed hfirst rfl rfl rfl)
  refine ⟨hstock, by rw [htext]; decide +kernel, ?_⟩
  exact (hlines (by decide)).2

end Run

end PassPipeline
