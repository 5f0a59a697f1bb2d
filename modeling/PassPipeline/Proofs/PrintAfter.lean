import PassPipeline.Proofs.Disabling
import PassPipeline.Proofs.RegisterAllocation

/-! Printing behind a kind. The printer that a user asks for is inserted behind the kind, and so
comes with every request for it. One pass of a pipeline is not requested: the allocator. It is
placed as it is, and what was inserted behind its kind does not come with it. -/
namespace PassPipeline

/-- Kinds among which `p` only comes with the printer right behind it. -/
inductive Attended (p : PassId) : List PassId → Prop
  | nil : Attended p []
  | other {id : PassId} {ids : List PassId} (h : id ≠ p) (rest : Attended p ids) :
    Attended p (id :: ids)
  | printed {ids : List PassId} (rest : Attended p ids) :
    Attended p (p :: Standard.machinePrinter :: ids)

namespace Attended

variable {p : PassId} {l m : List PassId}

theorem append (hl : Attended p l) (hm : Attended p m) : Attended p (l ++ m) := by
  induction hl with
  | nil => exact hm
  | other h _ ih => exact .other h ih
  | printed _ ih => exact .printed ih

theorem of_not_mem (h : p ∉ l) : Attended p l := by
  induction l with
  | nil => exact .nil
  | cons id ids ih =>
    rw [List.mem_cons, not_or] at h
    exact .other (Ne.symm h.1) (ih h.2)

theorem tail_of_printer (hne : p ≠ Standard.machinePrinter)
    (h : Attended p (Standard.machinePrinter :: l)) : Attended p l := by
  cases h with
  | other _ rest => exact rest
  | printed => exact absurd rfl hne

theorem getElem?_succ (hne : p ≠ Standard.machinePrinter) (h : Attended p l) {i : Nat}
    (hi : l[i]? = some p) : l[i + 1]? = some Standard.machinePrinter := by
  induction h generalizing i with
  | nil => simp at hi
  | other hid _ ih =>
    cases i with
    | zero => exact absurd (by simpa using hi) hid
    | succ i => exact ih hi
  | printed _ ih =>
    match i with
    | 0 => rfl
    | 1 => exact absurd (by simpa using hi.symm) hne
    | i + 2 => exact ih hi

end Attended

/-- Kinds among which `p` only comes with the printer behind it, and that do not begin with a
printer, unless code is printed at every step anyway. -/
structure Tended (printing : Bool) (p : PassId) (ids : List PassId) : Prop where
  attended : Attended p ids
  opening : printing = false → ids.head? ≠ some Standard.machinePrinter

theorem Tended.nil (printing : Bool) (p : PassId) : Tended printing p [] := ⟨.nil, by simp⟩

theorem Tended.append {printing : Bool} {p : PassId} {l m : List PassId} (hl : Tended printing p l)
    (hm : Tended printing p m) : Tended printing p (l ++ m) := by
  refine ⟨hl.attended.append hm.attended, fun hp => ?_⟩
  cases l with
  | nil => exact hm.opening hp
  | cons id ids => exact hl.opening hp

/-- Such kinds as they come behind the allocator: they begin with a printer just if
code is printed at every step. -/
structure Showing (printing : Bool) (p : PassId) (ids : List PassId) : Prop
    extends Tended printing p ids where
  printer : printing = true → ids.head? = some Standard.machinePrinter

theorem Showing.append {printing : Bool} {p : PassId} {l m : List PassId}
    (hl : Showing printing p l) (hm : Tended printing p m) : Showing printing p (l ++ m) := by
  refine ⟨hl.toTended.append hm, fun hp => ?_⟩
  rw [List.head?_append, hl.printer hp]
  rfl

/-- Kinds with the allocator `a` among them. -/
def Divided (printing : Bool) (p a : PassId) (ids : List PassId) : Prop :=
  ∃ before behind, ids = before ++ a :: behind ∧ Attended p before ∧ Showing printing p behind

namespace Divided

variable {printing : Bool} {p a : PassId} {l m : List PassId}

theorem append_left (hl : Tended printing p l) (hm : Divided printing p a m) :
    Divided printing p a (l ++ m) := by
  obtain ⟨before, behind, rfl, hbefore, hbehind⟩ := hm
  exact ⟨l ++ before, behind, by simp, hl.attended.append hbefore, hbehind⟩

theorem append_right (hl : Divided printing p a l) (hm : Tended printing p m) :
    Divided printing p a (l ++ m) := by
  obtain ⟨before, behind, rfl, hbefore, hbehind⟩ := hl
  exact ⟨before, behind ++ m, by simp, hbefore, hbehind.append hm⟩

/-- The allocator is the one place where the printer can be missing. -/
theorem getElem?_succ_iff (hne : p ≠ Standard.machinePrinter) (h : Divided printing p a l) :
    ∃ k : Nat, l[k]? = some a ∧ ∀ i : Nat, l[i]? = some p →
      (l[i + 1]? = some Standard.machinePrinter ↔ i ≠ k ∨ printing = true) := by
  obtain ⟨before, behind, rfl, hbefore, hbehind⟩ := h
  refine ⟨before.length, by simp, fun i hi => ?_⟩
  rcases Nat.lt_trichotomy i before.length with hlt | rfl | hlt
  · rw [List.getElem?_append_left hlt] at hi
    have hnext := hbefore.getElem?_succ hne hi
    have hlt' : i + 1 < before.length := (List.getElem?_eq_some_iff.mp hnext).1
    rw [List.getElem?_append_left hlt', hnext]
    simp [Nat.ne_of_lt hlt]
  · have hnext : (before ++ a :: behind)[before.length + 1]? = behind.head? := by
      rw [List.getElem?_append_right (by omega), List.head?_eq_getElem?]
      simp
    rw [hnext]
    cases printing with
    | true => simp [hbehind.printer rfl]
    | false => simp [hbehind.opening rfl]
  · obtain ⟨j, rfl⟩ : ∃ j, i = before.length + (j + 1) := ⟨i - before.length - 1, by omega⟩
    rw [List.getElem?_append_right (by omega)] at hi
    rw [List.getElem?_append_right (by omega)]
    have hj : behind[j]? = some p := by simpa using hi
    have hnext := hbehind.attended.getElem?_succ hne hj
    have hsub : before.length + (j + 1) + 1 - before.length = j + 2 := by omega
    rw [hsub]
    simpa using hnext

end Divided

/-! ## What stages leave -/

namespace Unfolding

variable {α β : Type} {x : Unfolding α} {Q R S : List PassId → Prop}

/-- What can be said of the kinds that some work places, if it ends well. -/
def Leaves (x : Unfolding α) (Q : List PassId → Prop) : Prop :=
  ∀ a, x.ending = .ok a → Q (x.passes.map Pass.id)

theorem leaves_answer (h : Q []) (ending : Except Defect α) : Leaves { ending } Q := fun _ _ => h

theorem Leaves.bind {g : α → Unfolding β} (hx : x.Leaves Q)
    (hg : ∀ a, x.ending = .ok a → (g a).Leaves R) (h : ∀ ⦃l m⦄, Q l → R m → S (l ++ m)) :
    (x.bind g).Leaves S := by
  intro b hb
  rcases ha : x.ending with d | a
  · rw [bind_error ha] at hb
    cases hb
  · rw [bind_ok ha] at hb ⊢
    rw [List.map_append]
    exact h (hx a ha) (hg a ha b hb)

theorem Leaves.map {g : α → Unfolding β} (hx : x.Leaves Q) (hg : ∀ a, (g a).passes = []) :
    (x.bind g).Leaves Q := by
  refine hx.bind (R := fun m => m = []) (fun a _ b _ => by simp [hg]) ?_
  rintro l _ hl rfl
  simpa using hl

theorem leaves_bind_answer {ending : Except Defect α} {g : α → Unfolding β}
    (hg : ∀ a, ending = .ok a → (g a).Leaves Q) : (Unfolding.bind { ending } g).Leaves Q := by
  cases ending with
  | error d =>
    intro _ hb
    cases hb
  | ok a => exact hg a rfl

end Unfolding

/-- The stages on the way to the allocator. -/
def Stage.allocates : Stage → Bool
  | .machinePasses | .fastRegAlloc | .optimizedRegAlloc => true
  | _ => false

namespace Script

/-- Whether a script has nothing to do with the allocator, places its passes by requests, and prints
machine code only where it is printed at every step. -/
def plain (standard : Bool) : Script → Bool
  | .skip | .claim | .run (.printAndVerify _) => true
  | .run (.print subject _) => subject ≠ .machineCode
  | .run _ => false
  | .seq first second => plain standard first && plain standard second
  | .ask (.holds _) yes no => plain standard yes && plain standard no
  | .ask (.schedules kind _) yes no =>
    kind ≠ Standard.machinePrinter && plain standard yes && plain standard no
  | .ask (.stage stage) yes no => !stage.allocates && plain standard yes && plain standard no
  | .ask .standard yes no => standard && plain standard yes && plain standard no

theorem plain_ask {standard : Bool} {q : Query} {yes no : Script}
    (h : (Script.ask q yes no).plain standard) :
    (Script.ask q .skip .skip).plain standard ∧ yes.plain standard ∧ no.plain standard := by
  cases q with
  | holds condition => exact ⟨rfl, Bool.and_eq_true_iff.mp h⟩
  | schedules | stage | standard =>
    simpa only [plain, Bool.and_eq_true, and_true, and_assoc] using h

/-- Whether a script is plain but for the allocator, which it has placed by a stage of its own, or
places with a look at the code right behind it. -/
def allocating : Script → Bool
  | .seq (.run .placeAllocator) (.seq (.run (.printAndVerify _)) rest) => rest.plain false
  | .seq (.ask (.holds .optimizedAllocation) (.run (.allocate _)) (.run (.allocate _))) rest =>
    rest.plain false
  | .seq first rest => first.plain false && allocating rest
  | _ => false

end Script

/-- A target whose stages are plain but for the allocator. -/
def Target.Arranged (t : Target) : Prop :=
  ∀ call, if call.stage.allocates then (t.called call).allocating else (t.called call).plain true

theorem Target.Bundled.arranged {target : Target} (ht : target.Bundled) : target.Arranged := by
  rintro ⟨stage, standard⟩
  rcases ht.called_cases with he | ⟨loh, he⟩ <;> rw [he]
  · cases standard <;> cases stage <;> rfl
  · cases loh <;> cases standard <;> cases stage <;> rfl

namespace Config

/-- A configuration in which the printer comes first behind a kind, and in which nothing else leads
to the kind or to the printer. -/
structure PrintsAfter (c : Config) (p : PassId) : Prop where
  diagnostic : p.isDiagnostic = false
  inserted : ∃ rest, c.insertedAfter p = Standard.machinePrinter :: rest
  printer : c.resolve Standard.machinePrinter = .ok Standard.machinePrinter
  kind_of_resolve : ∀ id, c.resolve id = .ok p → id = p
  printer_of_resolve : ∀ id, c.resolve id = .ok Standard.machinePrinter →
    id = Standard.machinePrinter

variable {c : Config} {r : Registry} {p a : PassId} {allocator : Except Defect Pass}

namespace PrintsAfter

variable (h : c.PrintsAfter p)
include h

theorem ne_of_isDiagnostic {id : PassId} (hid : id.isDiagnostic) : id ≠ p := by
  rintro rfl
  rw [h.diagnostic] at hid
  cases hid

/-- A pass of the kind comes from a request for it, which brings the printer. -/
theorem attended_of_expands {ids : List PassId} {l : List Pass} (hl : c.Expands r ids l) :
    Attended p (l.map Pass.id) := by
  induction hl with
  | nil => exact .nil
  | suppressed _ _ ih => exact ih
  | @scheduled id final ids q inserted l hres _ hq behind _ ihb ihr =>
    have hqid : (q.withSink c.sink).id = final :=
      (Pass.withSink_id _ _).trans (Registry.instantiate_id hq)
    rw [List.cons_append, List.map_cons, List.map_append, hqid]
    by_cases hfinal : final = p
    · subst hfinal
      obtain rfl := h.kind_of_resolve id hres
      obtain ⟨rest, hrest⟩ := h.inserted
      rw [hrest] at behind
      cases behind with
      | suppressed hsup => cases h.printer.symm.trans hsup
      | @scheduled _ final' _ q' inserted' l' hres' _ hq' _ _ =>
        cases h.printer.symm.trans hres'
        have hq'id : (q'.withSink c.sink).id = Standard.machinePrinter :=
          (Pass.withSink_id _ _).trans (Registry.instantiate_id hq')
        rw [List.cons_append, List.map_cons, hq'id] at ihb ⊢
        have hne : id ≠ Standard.machinePrinter := (h.ne_of_isDiagnostic rfl).symm
        exact .printed ((ihb.tail_of_printer hne).append ihr)
    · exact .other hfinal (ihb.append ihr)

theorem tended_unfold {id : PassId} (hid : id ≠ Standard.machinePrinter) (room : Nat) :
    (c.unfold r room id).Leaves (Tended c.printMachineCode p) := by
  intro final hfinal
  obtain ⟨-, hexp⟩ := expands_of_unfold hfinal
  refine ⟨h.attended_of_expands hexp, fun _ => ?_⟩
  generalize (c.unfold r room id).passes = passes at hexp
  cases hexp with
  | suppressed _ rest =>
    cases rest
    simp
  | @scheduled _ final' _ q inserted _ hres _ hq _ _ =>
    have hne : final' ≠ Standard.machinePrinter := by
      rintro rfl
      exact hid (h.printer_of_resolve id hres)
    simpa [Registry.instantiate_id hq] using hne

theorem tended_shown (banner : String) :
    Tended c.printMachineCode p ((c.shown banner).map Pass.id) := by
  rw [map_id_shown]
  constructor
  · have hprinter : p ≠ Standard.machinePrinter := (h.ne_of_isDiagnostic rfl).symm
    have hverifier : p ≠ Standard.machineVerifier := (h.ne_of_isDiagnostic rfl).symm
    refine .of_not_mem fun hmem => ?_
    rcases List.mem_append.mp hmem with hmem | hmem
    · split at hmem
      · exact hprinter (List.mem_singleton.mp hmem)
      · cases hmem
    · split at hmem
      · exact hverifier (List.mem_singleton.mp hmem)
      · cases hmem
  · intro hprinting
    rw [hprinting]
    cases c.options.verifyMachineCode <;> decide

section scripts

variable {courses : Courses} {frame : Frame}

theorem tended_command {standard : Bool} {command : Command}
    (hs : (Script.run command).plain standard) :
    (c.commandCourse r allocator courses frame command).Leaves (Tended c.printMachineCode p) := by
  cases command with
  | print subject banner =>
    intro _ _
    have hsubject : subject ≠ .machineCode := by simpa [Script.plain] using hs
    have hne : (Pass.printer subject c.sink banner).id ≠ p := h.ne_of_isDiagnostic (by simp)
    refine ⟨.other hne .nil, fun _ => ?_⟩
    cases subject with
    | machineCode => exact absurd rfl hsubject
    | ir | gcRoots =>
      simp only [commandCourse, Pass.printer, List.map_cons, List.head?_cons]
      decide
  | printAndVerify banner => exact fun _ _ => h.tended_shown banner
  | place | substitute | insert | set | allocate | placeAllocator | build => cases hs

variable (hplain : ∀ ⦃call q⦄, call.stage.allocates = false →
  (courses call q).Leaves (Tended c.printMachineCode p))
include hplain

theorem tended_query {standard : Bool} {q : Query} (hq : (Script.ask q .skip .skip).plain standard)
    (hframe : standard = true → ∀ stage ∈ frame.stage, stage.allocates = false) :
    (c.queryCourse r courses frame q).Leaves (Tended c.printMachineCode p) := by
  cases q with
  | holds condition => exact Unfolding.leaves_answer (.nil _ _) _
  | schedules kind reported =>
    have hkind : kind ≠ Standard.machinePrinter := by simpa [Script.plain] using hq
    exact (h.tended_unfold hkind _).map fun _ => rfl
  | stage stage =>
    have hstage : stage.allocates = false := by simpa [Script.plain] using hq
    exact hplain hstage
  | standard =>
    have hstandard : standard = true := by simpa [Script.plain] using hq
    rw [queryCourse]
    cases hs : frame.stage with
    | none => exact Unfolding.leaves_answer (.nil _ _) _
    | some stage => exact hplain (hframe hstandard stage hs)

theorem tended_script {standard : Bool} {script : Script} (hs : script.plain standard)
    (hframe : standard = true → ∀ stage ∈ frame.stage, stage.allocates = false) :
    (c.scriptCourse r allocator courses frame script).Leaves (Tended c.printMachineCode p) := by
  induction script with
  | skip | claim => exact Unfolding.leaves_answer (.nil _ _) _
  | run command => exact (h.tended_command hs).map fun _ => rfl
  | seq first second ih₁ ih₂ =>
    obtain ⟨h₁, h₂⟩ := Bool.and_eq_true_iff.mp hs
    exact (ih₁ h₁).bind (fun a _ => (ih₂ h₂).map fun _ => rfl) fun _ _ => Tended.append
  | ask q yes no ihy ihn =>
    obtain ⟨hq, hy, hn⟩ := Script.plain_ask hs
    refine (h.tended_query hplain hq hframe).bind (fun a _ => ?_) fun _ _ => Tended.append
    cases a with
    | true => exact ihy hy
    | false => exact ihn hn

variable
  (hallocates : ∀ ⦃call q⦄, call.stage.allocates = true → (∀ x ∈ q, Pass.id x = a) →
    (courses call q).Leaves (Divided c.printMachineCode p a))
  (hallocator : ∀ q, allocator = .ok q → q.id = a)

omit h hplain in
include hallocates hallocator in
/-- The allocator is handed to the stage that is called for it. -/
theorem divided_allocate (optimized : Bool) :
    (c.commandCourse r allocator courses frame (.allocate optimized)).Leaves
      (Divided c.printMachineCode p a) := by
  rw [commandCourse]
  split
  · have hstage :
        (if optimized then Stage.optimizedRegAlloc else .fastRegAlloc).allocates = true := by
      cases optimized <;> rfl
    refine Unfolding.leaves_bind_answer fun q hq => (hallocates hstage ?_).map fun _ => rfl
    rintro _ ⟨⟩
    exact hallocator q hq
  · intro _ hend
    cases hend

variable (hframe : ∀ q ∈ frame.allocator, Pass.id q = a)

omit h hplain in
include hframe in
theorem leaves_placeAllocator :
    (c.commandCourse r allocator courses frame .placeAllocator).Leaves (· = [a]) := by
  intro _ hend
  cases hf : frame.allocator with
  | none =>
    rw [commandCourse, hf] at hend
    cases hend
  | some q =>
    rw [commandCourse, hf]
    exact congrArg (fun id => [id]) (hframe q hf)

omit hplain in
theorem leaves_printAndVerify (banner : String) :
    (c.commandCourse r allocator courses frame (.printAndVerify banner)).Leaves
      (Showing c.printMachineCode p) := by
  intro _ _
  refine ⟨h.tended_shown banner, fun hprinting => ?_⟩
  rw [commandCourse, map_id_shown, hprinting]
  rfl

include hallocates hallocator hframe in
theorem divided_script {script : Script} (hs : script.allocating) :
    (c.scriptCourse r allocator courses frame script).Leaves (Divided c.printMachineCode p a) := by
  have htended {rest : Script} (hrest : rest.plain false) :
      (c.scriptCourse r allocator courses frame rest).Leaves (Tended c.printMachineCode p) :=
    h.tended_script hplain hrest (by simp)
  fun_induction Script.allocating script with
  | case1 banner rest =>
    have hbehind : (c.scriptCourse r allocator courses frame
        (.seq (.run (.printAndVerify banner)) rest)).Leaves (Showing c.printMachineCode p) :=
      ((h.leaves_printAndVerify banner).map fun _ => rfl).bind
        (fun _ _ => (htended hs).map fun _ => rfl) fun _ _ => Showing.append
    refine ((leaves_placeAllocator hframe).map fun _ => rfl).bind
      (fun _ _ => hbehind.map fun _ => rfl) ?_
    rintro _ behind rfl hshowing
    exact ⟨[], behind, rfl, .nil, hshowing⟩
  | case2 yes no rest =>
    refine Unfolding.Leaves.bind (Unfolding.leaves_bind_answer fun b _ => ?_)
      (fun _ _ => (htended hs).map fun _ => rfl) fun _ _ => Divided.append_right
    cases b with
    | true => exact (divided_allocate hallocates hallocator yes).map fun _ => rfl
    | false => exact (divided_allocate hallocates hallocator no).map fun _ => rfl
  | case3 first rest _ _ ih =>
    obtain ⟨h₁, h₂⟩ := Bool.and_eq_true_iff.mp hs
    exact (htended h₁).bind (fun _ _ => (ih h₂).map fun _ => rfl) fun _ _ => Divided.append_left
  | case4 => cases hs

end scripts

/-- What stages leave, to any depth: the allocator on the way to it, and
only attended kinds elsewhere. -/
theorem leaves_stage (ht : c.target.Arranged) (hallocator : ∀ q, allocator = .ok q → q.id = a)
    (depth : Nat) (call : StageCall) (q : Option Pass) :
    (call.stage.allocates = false →
      (c.stageCourse r allocator depth call q).Leaves (Tended c.printMachineCode p)) ∧
    (call.stage.allocates = true → (∀ x ∈ q, x.id = a) →
      (c.stageCourse r allocator depth call q).Leaves (Divided c.printMachineCode p a)) := by
  induction depth generalizing call q with
  | zero =>
    constructor
    · intro _ _ hend
      cases hend
    · intro _ _ _ hend
      cases hend
  | succ depth ih =>
    have hcalled := ht call
    constructor
    · intro hstage
      rw [hstage] at hcalled
      refine h.tended_script (fun call q => (ih call q).1) hcalled fun _ => ?_
      rintro _ ⟨⟩
      exact hstage
    · intro hstage hq
      rw [hstage] at hcalled
      refine h.divided_script (fun call q => (ih call q).1) (fun call q => (ih call q).2)
        hallocator ?_ hcalled
      dsimp only
      split
      · exact hq
      · simp

theorem divided_course (ht : c.target.Arranged) (hallocator : ∀ q, allocator = .ok q → q.id = a) :
    (c.course r allocator).Leaves (Divided c.printMachineCode p a) := by
  have hstage (stage : Stage) (hs : stage.allocates = false) :=
    (h.leaves_stage (r := r) ht hallocator Build.depthLimit { stage } none).1 hs
  have hlast :=
    (h.leaves_stage (r := r) ht hallocator Build.depthLimit { stage := .machinePasses } none).2 rfl
      (by simp)
  exact (hstage .irPasses rfl).bind (fun _ _ => (hstage .iselPrepare rfl).bind (fun _ _ =>
    (hstage .instSelector rfl).bind (fun _ _ => hlast.map fun _ => rfl)
      fun _ _ => Divided.append_left) fun _ _ => Divided.append_left) fun _ _ => Divided.append_left

end PrintsAfter

theorem Outfit.standIn_cases {target : Target} {l : List (PassId × PassId)} {more : List Insertion}
    (h : Outfit target l more) : ∀ e ∈ l,
      e.2 = .none ∨ e.2 = Standard.tailDuplicate ∨ e.2 = Standard.machineLICM ∨ e.1 = e.2 := by
  cases h with
  | x86 name => decide
  | aarch64 name f => decide

/-- All other kinds come only from requests for themselves. -/
theorem Outfitted.eq_of_resolve {target : Target} {level : Level} {options : Options} {id : PassId}
    (h : Outfitted target level options c) (hres : c.resolve id = .ok p) (hnone : p ≠ .none)
    (hdup : p ≠ Standard.tailDuplicate) (hlicm : p ≠ Standard.machineLICM) : id = p := by
  obtain ⟨print, more, -, ho, -⟩ := h.outfit
  rcases cases_of_resolve hres with hfinal | hfinal | ⟨hfinal, -⟩
  · exact absurd hfinal hnone
  · unfold substitution at hfinal
    cases he : c.substitutions.find? (·.1 = id) with
    | none =>
      rw [he] at hfinal
      exact hfinal.symm
    | some e =>
      rw [he] at hfinal
      have hid : e.1 = id := by simpa using List.find?_some he
      rcases ho.standIn_cases e (List.mem_of_find?_eq_some he) with hn | hn | hn | hn
      · exact absurd (hfinal.trans hn) hnone
      · exact absurd (hfinal.trans hn) hdup
      · exact absurd (hfinal.trans hn) hlicm
      · exact hid.symm.trans (hn.trans hfinal.symm)
  · exact hfinal.symm

section creation

variable {session : Session} {target : Target} {level : Level} {options : Options} {sink : Sink}
  {entries : List Entry}

theorem insertedAfter_of_first {id : PassId} {more : List Insertion}
    (h : c.insertions = ⟨p, id⟩ :: more) : ∃ rest, c.insertedAfter p = id :: rest := by
  rw [insertedAfter, h, List.filter_cons_of_pos (by simp)]
  exact ⟨_, rfl⟩

theorem inserted_of_create (ht : target.Bundled)
    (h : create session target level options sink = (.ok c, entries))
    (hname : options.printAfter ≠ "") (hp : session.registry.lookup? options.printAfter = some p) :
    (∃ rest, c.insertedAfter p = Standard.machinePrinter :: rest) ∧
      c.printMachineCode = options.printMachineCode := by
  obtain ⟨start, stop, print, s, -, -, hprint, -, hu, rfl, -⟩ := create_prepared_inv h
  obtain rfl : print = some p := by simpa [boundary, hname, hp, eq_comm] using hprint
  cases ht with
  | x86 name =>
    rw [Build.outcome_configure_x86 rfl] at hu
    cases hu
    exact ⟨insertedAfter_of_first rfl, rfl⟩
  | aarch64 name f =>
    rw [Build.outcome_configure_aarch64 rfl] at hu
    cases hu
    exact ⟨insertedAfter_of_first rfl, rfl⟩

theorem printsAfter_of_create (ht : target.Bundled)
    (h : create session target level options sink = (.ok c, entries))
    (hname : options.printAfter ≠ "") (hp : session.registry.lookup? options.printAfter = some p)
    (hd : p.isDiagnostic = false)
    (hdup : p ≠ Standard.tailDuplicate) (hlicm : p ≠ Standard.machineLICM) :
    { c with phase := .building }.PrintsAfter p := by
  have ho := outfitted_of_create ht h
  exact
    { diagnostic := hd
      inserted := (inserted_of_create ht h hname hp).1
      printer := ho.tidy.printer
      kind_of_resolve := fun id hres =>
        ho.eq_of_resolve hres (Registry.lookup?_ne_none hp) hdup hlicm
      printer_of_resolve := fun id hres =>
        ho.eq_of_resolve hres (by decide) (by decide) (by decide) }

end creation

end Config

namespace Session

variable {s : Session} {b : Blueprint} {p : PassId}

theorem Ordinary.configure_of_lookup? (hs : s.Ordinary) (ht : b.target.Bundled)
    (hstart : b.options.startAfter = "") (hstop : b.options.stopAfter = "")
    (hp : s.registry.lookup? b.options.printAfter = some p) (hne : p ≠ Standard.machinePrinter) :
    ∃ c entries, s.configure b = (.ok c, entries) := by
  refine Config.create_of_known hs.registry ht b.level b.sink ?_ ?_
  · rintro (_ | _ | _) ⟨hname, hnone⟩
    · exact hname hstart
    · exact hname hstop
    · cases hp.symm.trans hnone
  · intro hname
    rw [hs.registry, hname] at hp
    exact hne (Option.some.inj hp).symm

/-- A pass of the kind to print behind has a printer right behind it. The one exception is the
allocator, which has it just if code is printed at every step. -/
theorem pipeline_prints_after (ht : b.target.Bundled) (hstart : b.options.startAfter = "")
    (hstop : b.options.stopAfter = "") (hname : b.options.printAfter ≠ "")
    (hp : s.registry.lookup? b.options.printAfter = some p) (hd : p.isDiagnostic = false)
    (hdup : p ≠ Standard.tailDuplicate) (hlicm : p ≠ Standard.machineLICM) :
    (s.Ordinary → b.options.enableMachineSched.Valid → ∃ passes, (s.pipeline b).1 = .ok passes) ∧
    ∀ passes, (s.pipeline b).1 = .ok passes → ∃ (k : Nat) (a : PassId),
      (s.pipeline b).2.allocators.resolved = some a ∧ (passes.map Pass.id)[k]? = some a ∧
      ∀ i : Nat, (passes.map Pass.id)[i]? = some p →
        ((passes.map Pass.id)[i + 1]? = some Standard.machinePrinter ↔
          i ≠ k ∨ b.options.printMachineCode = true) := by
  have hne : p ≠ Standard.machinePrinter := by
    rintro rfl
    cases hd
  constructor
  · intro hs hsched
    obtain ⟨c, entries, hc⟩ := hs.configure_of_lookup? ht hstart hstop hp hne
    exact exists_pipeline hs ht hc hstart hstop hsched
  · intro passes hpasses
    obtain ⟨c, entries, hc⟩ := configure_of_pipeline hpasses
    obtain ⟨hresult, hsettles⟩ := pipeline_bundled ht hc
    have htarget : c.target = b.target := configure_target hc
    have hremembers := remembers_of_pipeline ht hc hpasses
    obtain ⟨a, ha⟩ := Option.isSome_iff_exists.mp hremembers
    -- The allocator of the course is the one that is remembered.
    have hallocator : ∀ q,
        s.allocatorFor c.target.allocators c.optimizedAllocation = .ok q → q.id = a := by
      intro q hq
      obtain ⟨id, selector, hsel, hi⟩ := allocatorFor_ok hq
      rw [htarget] at hsel
      cases ha.symm.trans (hsettles.resolved_eq hsel hremembers)
      exact Registry.instantiate_id hi
    rw [hresult, result_eq_ok_iff (Config.placement_of_create ht hc hstart hstop)] at hpasses
    obtain ⟨hend, rfl, -⟩ := hpasses
    have harranged : c.target.Arranged := htarget ▸ ht.arranged
    have hprints := Config.printsAfter_of_create ht hc hname hp hd hdup hlicm
    have hdivided := hprints.divided_course harranged hallocator () hend
    obtain ⟨k, hk, hnext⟩ := hdivided.getElem?_succ_iff hne
    rw [← (Config.inserted_of_create ht hc hname hp).2]
    exact ⟨k, a, ha, hk, hnext⟩

/-- On x86-64, where a kind of the target is inserted behind the same kind. -/
def crowded : Blueprint where
  target := Platform.x86Linux.target
  level := ⟨2⟩
  options := { printAfter := "postrapseudos" }

/-- The printer comes first, before what the target inserted. -/
theorem pipeline_prints_after_crowded :
    ∃ passes, (Session.standard.pipeline crowded).1 = .ok passes ∧
    ∃ i : Nat, (passes.map Pass.id)[i]? = some Standard.expandPostRAPseudos ∧
      (passes.map Pass.id)[i + 1]? = some Standard.machinePrinter ∧
      (passes.map Pass.id)[i + 2]? = some Standard.x86VZeroUpper := by
  obtain ⟨-, hlaw⟩ := pipeline_prints_after (s := .standard) (b := crowded)
    (Platform.bundled .x86Linux) rfl rfl (by decide) (p := Standard.expandPostRAPseudos)
    (by decide +kernel) (by decide) (by decide) (by decide)
  have hrun : ∃ passes ∈ (Session.standard.pipeline crowded).1.toOption,
      (passes.map Pass.id)[36]? = some Standard.expandPostRAPseudos ∧
      (passes.map Pass.id)[38]? = some Standard.x86VZeroUpper ∧
      (Session.standard.pipeline crowded).2.allocators.resolved = some Standard.regAllocGreedy := by
    decide +kernel
  obtain ⟨passes, hpasses, hkind, hvzero, hresolved⟩ := hrun
  have hpasses := congrArg Prod.fst (eq_of_mem_toOption hpasses)
  obtain ⟨k, a, ha, hk, hnext⟩ := hlaw passes hpasses
  cases hresolved.symm.trans ha
  have hne : 36 ≠ k := by
    rintro rfl
    cases hkind.symm.trans hk
  exact ⟨passes, hpasses, 36, hkind, (hnext 36 hkind).mpr (.inl hne), hvzero⟩

/-- On x86-64, where the greedy allocator is selected. -/
def inquisitive : Blueprint where
  target := Platform.x86Linux.target
  level := ⟨2⟩
  options := { printAfter := "regalloc-greedy" }

/-- A user who asks for code behind the allocator gets none: the allocator
is there, and no printer is. -/
theorem no_print_after_allocator :
    ∃ passes, (Session.standard.pipeline inquisitive).1 = .ok passes ∧
      Standard.registry.lookup? inquisitive.options.printAfter = some Standard.regAllocGreedy ∧
      Standard.regAllocGreedy ∈ passes.map Pass.id ∧
      Standard.machinePrinter ∉ passes.map Pass.id := by
  have hrun : ∃ passes ∈ (Session.standard.pipeline inquisitive).1.toOption,
      Standard.registry.lookup? inquisitive.options.printAfter = some Standard.regAllocGreedy ∧
      Standard.regAllocGreedy ∈ passes.map Pass.id ∧
        Standard.machinePrinter ∉ passes.map Pass.id := by
    decide +kernel
  obtain ⟨passes, hpasses, hfacts⟩ := hrun
  exact ⟨passes, congrArg Prod.fst (eq_of_mem_toOption hpasses), hfacts⟩

end Session

end PassPipeline
