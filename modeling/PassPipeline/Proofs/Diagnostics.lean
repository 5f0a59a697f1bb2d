import Mathlib.Data.List.Find
import PassPipeline.Proofs.PassOrder
import PassPipeline.Proofs.Resolution
import PassPipeline.Proofs.Unfolding

/-! Passes that only show or check what is there. They move no window, no constraint is about them,
and what is asked for besides them does not depend on the options that bring them in. -/
namespace PassPipeline

/-- Whether passes of a kind leave the code as it is: the printers and
the verifier of machine code. -/
def PassId.isDiagnostic (id : PassId) : Bool :=
  id = Standard.irPrinter || id = Standard.machinePrinter || id = Standard.machineVerifier ||
    id = Standard.gcInfoPrinter

/-- A list without its diagnostic passes. -/
def substance (l : List Pass) : List Pass := l.filter (!·.id.isDiagnostic)

@[simp] theorem substance_append (l l' : List Pass) :
    substance (l ++ l') = substance l ++ substance l' := by
  simp [substance]

theorem substance_cons (p : Pass) (l : List Pass) :
    substance (p :: l) = if p.id.isDiagnostic then substance l else p :: substance l := by
  cases h : p.id.isDiagnostic <;> simp [substance, h]

theorem substance_eq_nil {l : List Pass} (h : ∀ p ∈ l, p.id.isDiagnostic) : substance l = [] := by
  simpa [substance, List.filter_eq_nil_iff] using h

@[simp] theorem isDiagnostic_printer (subject : Subject) (sink : Sink) (banner : String) :
    (Pass.printer subject sink banner).id.isDiagnostic := by
  cases subject <;> rfl

@[simp] theorem isDiagnostic_verifier (banner : String) :
    (Pass.verifier banner).id.isDiagnostic := rfl

/-! ## The order -/

namespace Order

/-- A constraint between two kinds is about pairs of passes in the wrong order. -/
theorem respected_iff_pairwise {c : Constraint} (hne : c.first ≠ c.second) {ids : List PassId} :
    c.Respected ids ↔ ids.Pairwise fun a b => ¬ (a = c.second ∧ b = c.first) := by
  rw [List.pairwise_iff_getElem]
  constructor
  · rintro h i j hi hj hij ⟨hs, hf⟩
    have :=
      h j i (by rw [List.getElem?_eq_getElem hj, hf]) (by rw [List.getElem?_eq_getElem hi, hs])
    omega
  · intro h i j hf hs
    obtain ⟨hi, hf⟩ := List.getElem?_eq_some_iff.mp hf
    obtain ⟨hj, hs⟩ := List.getElem?_eq_some_iff.mp hs
    by_contra hij
    have hne' : j ≠ i := by
      rintro rfl
      exact hne (hf.symm.trans hs)
    exact h j i hj hi (by omega) ⟨hs, hf⟩

theorem respected_filter {c : Constraint} (hne : c.first ≠ c.second) {keep : PassId → Bool}
    (hf : keep c.first) (hs : keep c.second) (ids : List PassId) :
    c.Respected (ids.filter keep) ↔ c.Respected ids := by
  rw [respected_iff_pairwise hne, respected_iff_pairwise hne, List.pairwise_filter]
  refine List.Pairwise.iff fun {a b} => ?_
  constructor
  · rintro h ⟨rfl, rfl⟩
    exact h hs hf ⟨rfl, rfl⟩
  · exact fun h _ _ => h

theorem constraints_undiagnostic : ∀ c ∈ constraints,
    c.first ≠ c.second ∧ !c.first.isDiagnostic ∧ !c.second.isDiagnostic := by
  decide

theorem broken?_substance (l : List Pass) :
    broken? ((substance l).map Pass.id) = broken? (l.map Pass.id) := by
  have hids : (substance l).map Pass.id = (l.map Pass.id).filter (!·.isDiagnostic) := by
    rw [List.filter_map]
    rfl
  rw [hids, broken?_eq, broken?_eq]
  refine List.find?_congr fun c hc => ?_
  obtain ⟨hne, hf, hs⟩ := constraints_undiagnostic c hc
  rw [Bool.eq_iff_iff, ← not_iff_not, Bool.not_eq_true, Bool.not_eq_true, isBroken_eq_false_iff,
    isBroken_eq_false_iff]
  exact respected_filter hne hf hs _

end Order

/-! ## The window -/

/-- A placement in which neither boundary is diagnostic, and in which an
inverted window is refused. -/
structure Placement.Plain (x : Placement) : Prop where
  start : x.window.startAfter.isDiagnostic = false
  stop : x.window.stopAfter.isDiagnostic = false
  settled : x.refusal = none → x.window.isInverted = false

namespace Placement

/-- A placement without its diagnostic passes. -/
def quiet (x : Placement) : Placement := { x with handed := substance x.handed }

variable {r : Registry} {x : Placement} {p : Pass}

theorem Plain.take (h : x.Plain) (r : Registry) (p : Pass) : (x.take r p).Plain := by
  cases hr : x.refusal with
  | some refusal => simpa [Placement.take, hr] using h
  | none =>
    refine ⟨?_, ?_, ?_⟩
    · simpa [Placement.take, hr, Window.advance] using h.start
    · simpa [Placement.take, hr, Window.advance] using h.stop
    · simp [Placement.take, hr]

theorem Plain.advance (h : x.Plain) (hp : p.id.isDiagnostic) :
    x.window.advance p.id = x.window := by
  have hstart : p.id ≠ x.window.startAfter := by
    intro he
    rw [he, h.start] at hp
    cases hp
  have hstop : p.id ≠ x.window.stopAfter := by
    intro he
    rw [he, h.stop] at hp
    cases hp
  simp [Window.advance, hstart, hstop]

/-- What is taken of a list without its diagnostic passes is the same but for these. -/
theorem Plain.quiet_take (h : x.Plain) (r : Registry) (p : Pass) :
    (x.take r p).quiet = if p.id.isDiagnostic then x.quiet else x.quiet.take r p := by
  cases hr : x.refusal with
  | some refusal => simp [Placement.take, quiet, hr]
  | none =>
    cases hp : p.id.isDiagnostic with
    | true =>
      have hinv := h.settled hr
      simp only [Placement.take, quiet, hr, h.advance hp, hinv]
      cases x.window.isOpen <;> simp [hp, substance]
    | false =>
      simp only [Placement.take, quiet, hr]
      cases x.window.isOpen <;> simp [substance, hp]

theorem Plain.takeAll (h : x.Plain) (r : Registry) (l : List Pass) :
    (x.takeAll r l).Plain ∧ (x.takeAll r l).quiet = x.quiet.takeAll r (substance l) := by
  induction l generalizing x with
  | nil => exact ⟨h, rfl⟩
  | cons p l ih =>
    obtain ⟨hplain, hquiet⟩ := ih (h.take r p)
    refine ⟨hplain, hquiet.trans ?_⟩
    rw [h.quiet_take, substance_cons]
    cases p.id.isDiagnostic <;> rfl

end Placement

/-! ## The options -/

/-- Options without the switches that bring in diagnostic passes. -/
def Options.quiet (o : Options) : Options :=
  { o with
    printMachineCode := false
    verifyMachineCode := false
    printLSR := false
    printISelInput := false
    printGCInfo := false
    printAfter := "" }

/-- Whether a condition looks at such a switch. -/
def Condition.isDiagnostic : Condition → Bool
  | .switch .printLSR | .switch .printISelInput | .switch .printGCInfo => true
  | _ => false

theorem Override.apply_quiet (o : Options) (standard target : PassId) :
    Override.apply o.quiet standard target = Override.apply o standard target :=
  apply_congr (by simp [rules, agree, Options.quiet]) standard target

namespace Config

/-- A configuration with switches of its own for diagnostic passes, with `extra`
insertions, and with another list. -/
def louder (c : Config) (o : Options) (print : Bool) (extra : List Insertion) (l : List Pass) :
    Config :=
  { c with
    options := o, printMachineCode := print, insertions := extra ++ c.insertions, handed := l }

section louder

variable (c : Config) {o : Options} (print : Bool) (extra : List Insertion) (l : List Pass)
  (ho : o.quiet = c.options.quiet)
include ho

theorem resolve_louder (id : PassId) : (c.louder o print extra l).resolve id = c.resolve id := by
  unfold resolve
  rw [← Override.apply_quiet, ← Override.apply_quiet c.options, ← ho]
  rfl

theorem scheduled_louder (r : Registry) (id : PassId) :
    (c.louder o print extra l).scheduled r id = c.scheduled r id := by
  unfold scheduled
  rw [resolve_louder c print extra l ho]
  rfl

theorem holds_louder {q : Condition} (hq : !q.isDiagnostic) :
    q.holds (c.louder o print extra l) = q.holds c := by
  have h :
      q.holds { c with options := o.quiet } = q.holds { c with options := c.options.quiet } := by
    rw [ho]
  cases q with
  | optimizing => rfl
  | optimizedAllocation => exact h
  | verifyDisabled => rfl
  | switch s =>
    cases s with
    | printLSR | printISelInput | printGCInfo => cases hq
    | disableLSR | disableCGP | strongPHIElim | earlyLiveIntervals | disableBlockPlacement
    | blockPlacementStats => exact h

end louder

theorem insertedAfter_louder (c : Config) (o : Options) (print : Bool) (extra : List Insertion)
    (l : List Pass) (id : PassId) :
    (c.louder o print extra l).insertedAfter id =
      (extra.filter (·.anchor = id)).map Insertion.inserted ++ c.insertedAfter id := by
  simp [insertedAfter, louder]

end Config

/-! ## Requests -/

namespace Unfolding

variable {α : Type} {f g : PassId → Unfolding PassId} {ids : List PassId}

/-- An unfolding without its diagnostic passes. -/
def quiet (x : Unfolding α) : Unfolding α := { x with passes := substance x.passes }

theorem quiet_eq_iff {x y : Unfolding α} :
    x.quiet = y.quiet ↔ substance x.passes = substance y.passes ∧ x.ending = y.ending := by
  simp [quiet]

theorem lacksRoom_of_quiet {x y : Unfolding α} (h : x.quiet = y.quiet) :
    x.lacksRoom = y.lacksRoom := by
  rw [lacksRoom, lacksRoom, (quiet_eq_iff.mp h).2]

/-- Where `f` has room, `g` unfolds the same but for diagnostic passes, one kind after the other. -/
theorem quiet_all (hfg : ∀ id, (f id).lacksRoom = false → (g id).quiet = (f id).quiet)
    (h : (all f ids).lacksRoom = false) : (all g ids).quiet = (all f ids).quiet := by
  induction ids with
  | nil => rfl
  | cons id ids ih =>
    rcases hf : (f id).ending with d | a
    · rw [all, lacksRoom_bind_error hf] at h
      obtain ⟨hp, he⟩ := quiet_eq_iff.mp (hfg id h)
      simp [quiet_eq_iff, all, bind_error hf, bind_error (he.trans hf), hp]
    · rw [all, lacksRoom_bind_ok hf] at h
      obtain ⟨hp, he⟩ := quiet_eq_iff.mp (hfg id (lacksRoom_of_ok hf))
      obtain ⟨hrp, hre⟩ := quiet_eq_iff.mp (ih h)
      simp [quiet_eq_iff, all, bind_ok hf, bind_ok (he.trans hf), hp, hrp, hre]

theorem quiet_all_append {more : List PassId}
    (h : ∀ id ∈ more, ∃ a, (f id).ending = .ok a ∧ substance (f id).passes = []) :
    (all f (more ++ ids)).quiet = (all f ids).quiet := by
  induction more with
  | nil => rfl
  | cons id more ih =>
    obtain ⟨a, ha, hp⟩ := h id (by simp)
    have hrest := ih fun id' hid' => h id' (List.mem_cons_of_mem id hid')
    rw [← hrest, List.cons_append, all, bind_ok ha]
    simp [quiet, hp]

end Unfolding

namespace Config

variable {c : Config} {r : Registry} {o : Options} {print : Bool} {extra : List Insertion}
  {l : List Pass} {room : Nat} {id : PassId}

/-- What becomes of a request, and of what follows it, without the diagnostic passes. -/
theorem quiet_unfoldBy {x y : Unfolding Unit} (h : (c.unfoldBy r id x).lacksRoom = false)
    (hxy : x.lacksRoom = false → y.quiet = x.quiet) :
    (c.unfoldBy r id y).quiet = (c.unfoldBy r id x).quiet := by
  by_cases hs : c.Schedules r id
  · have hx : x.lacksRoom = false := by
      by_contra hx
      rw [lacksRoom_unfoldBy.mpr ⟨hs, by simpa using hx⟩] at h
      cases h
    obtain ⟨final, hf, hn⟩ := hs
    obtain ⟨hp, he⟩ := Unfolding.quiet_eq_iff.mp (hxy hx)
    rw [unfoldBy_of_schedules hf hn, unfoldBy_of_schedules hf hn]
    simp [Unfolding.quiet_eq_iff, hp, he]
  · rw [unfoldBy_of_not_schedules hs, unfoldBy_of_not_schedules hs]

/-- A printer of machine code that nothing stands in for and that nothing follows. -/
structure PlainPrinter (c : Config) : Prop where
  stands : c.substitution Standard.machinePrinter = Standard.machinePrinter
  alone : c.insertedAfter Standard.machinePrinter = []

theorem PlainPrinter.substitute (h : c.PlainPrinter) {standard : PassId}
    (hs : standard ≠ Standard.machinePrinter) (target : PassId) :
    PlainPrinter { c with substitutions := (standard, target) :: c.substitutions } := by
  refine ⟨?_, h.alone⟩
  rw [substitution, List.find?_cons_of_neg (by simpa using hs)]
  exact h.stands

theorem PlainPrinter.insert (h : c.PlainPrinter) {anchor : PassId}
    (ha : anchor ≠ Standard.machinePrinter) (inserted : PassId) :
    PlainPrinter { c with insertions := c.insertions ++ [⟨anchor, inserted⟩] } := by
  refine ⟨h.stands, ?_⟩
  have halone := h.alone
  simp only [insertedAfter, List.map_eq_nil_iff] at halone ⊢
  simp [List.filter_append, halone, ha]

theorem PlainPrinter.unfold (h : c.PlainPrinter) (room : Nat) :
    ∃ a, (c.unfold Standard.registry room Standard.machinePrinter).ending = .ok a ∧
      substance (c.unfold Standard.registry room Standard.machinePrinter).passes = [] := by
  have hres : c.resolve Standard.machinePrinter = .ok Standard.machinePrinter := by
    unfold resolve
    rw [h.stands]
    rfl
  have hs : (c.scheduled Standard.registry Standard.machinePrinter).ending =
      .ok Standard.machinePrinter := by
    rw [scheduled, hres]
    rfl
  have hp : substance (c.scheduled Standard.registry Standard.machinePrinter).passes = [] := by
    rw [scheduled, hres]
    rfl
  refine ⟨Standard.machinePrinter, ?_⟩
  cases room with
  | zero => simp [Config.unfold, unfoldBy_of_schedules hs (by decide), h.alone, hp, Except.map]
  | succ room =>
    simp [Config.unfold, unfoldBy_of_schedules hs (by decide), h.alone, hp, Except.map,
      Unfolding.all]

theorem unfoldBy_louder (ho : o.quiet = c.options.quiet) (x : Unfolding Unit) :
    (c.louder o print extra l).unfoldBy r id x = c.unfoldBy r id x := by
  unfold unfoldBy
  rw [scheduled_louder c print extra l ho]

theorem unfold_louder_zero (ho : o.quiet = c.options.quiet) :
    (c.louder o print extra l).unfold r 0 id =
      c.unfoldBy r id
        { ending := if ((c.louder o print extra l).insertedAfter id).isEmpty then .ok ()
            else .error (.insertionCycle (r.name id)) } :=
  unfoldBy_louder ho _

theorem unfold_louder_succ (ho : o.quiet = c.options.quiet) :
    (c.louder o print extra l).unfold r (room + 1) id =
      c.unfoldBy r id (.all ((c.louder o print extra l).unfold r room)
        ((extra.filter (·.anchor = id)).map Insertion.inserted ++ c.insertedAfter id)) := by
  rw [← insertedAfter_louder c o print extra l]
  exact unfoldBy_louder ho _

section printers

variable (hc : c.PlainPrinter)
  (he : ∀ i ∈ extra, i.anchor ≠ Standard.machinePrinter ∧ i.inserted = Standard.machinePrinter)
include hc he

theorem PlainPrinter.louder : (c.louder o print extra l).PlainPrinter := by
  refine ⟨hc.stands, ?_⟩
  rw [insertedAfter_louder, hc.alone, List.append_nil, List.map_eq_nil_iff, List.filter_eq_nil_iff]
  intro i hi
  simpa using (he i hi).1

variable (o print l) in
/-- Behind a request, the extra insertions only bring printers. -/
theorem quiet_all_louder (room : Nat) (ids : List PassId) (id : PassId) :
    (Unfolding.all ((c.louder o print extra l).unfold Standard.registry room)
        ((extra.filter (·.anchor = id)).map Insertion.inserted ++ ids)).quiet =
      (Unfolding.all ((c.louder o print extra l).unfold Standard.registry room) ids).quiet := by
  refine Unfolding.quiet_all_append fun x hx => ?_
  obtain ⟨i, hi, rfl⟩ := List.mem_map.mp hx
  rw [(he i (List.mem_filter.mp hi).1).2]
  exact (hc.louder he).unfold room

variable (ho : o.quiet = c.options.quiet)
include ho

/-- A request with diagnostic passes leaves room enough for the same request without. -/
theorem quiet_unfold_of_louder
    (h : ((c.louder o print extra l).unfold Standard.registry room id).lacksRoom = false) :
    (c.unfold Standard.registry room id).quiet =
      ((c.louder o print extra l).unfold Standard.registry room id).quiet := by
  induction room generalizing id with
  | zero =>
    rw [unfold_louder_zero ho, insertedAfter_louder] at h ⊢
    refine quiet_unfoldBy h fun hx => ?_
    cases hi : c.insertedAfter id with
    | nil =>
      cases hp : (extra.filter (·.anchor = id)).map Insertion.inserted with
      | nil => rfl
      | cons => simp [hp, Unfolding.lacksRoom, Defect.isCycle] at hx
    | cons => simp [hi, Unfolding.lacksRoom, Defect.isCycle] at hx
  | succ room ih =>
    rw [unfold_louder_succ ho] at h ⊢
    refine quiet_unfoldBy h fun hx => ?_
    have hq := quiet_all_louder o print l hc he room (c.insertedAfter id) id
    rw [hq]
    rw [Unfolding.lacksRoom_of_quiet hq] at hx
    exact Unfolding.quiet_all (fun x => ih) hx

variable (print l) in
/-- A request without diagnostic passes needs room for one more request to be made with them. -/
theorem quiet_unfold_louder (h : (c.unfold Standard.registry room id).lacksRoom = false) :
    ((c.louder o print extra l).unfold Standard.registry (room + 1) id).quiet =
      (c.unfold Standard.registry room id).quiet := by
  induction room generalizing id with
  | zero =>
    rw [unfold_louder_succ ho]
    refine quiet_unfoldBy h fun hx => ?_
    rw [quiet_all_louder o print l hc he]
    cases hi : c.insertedAfter id with
    | nil => rfl
    | cons => simp [hi, Unfolding.lacksRoom, Defect.isCycle] at hx
  | succ room ih =>
    rw [unfold_louder_succ ho]
    refine quiet_unfoldBy h fun hx => ?_
    rw [quiet_all_louder o print l hc he]
    exact Unfolding.quiet_all (fun x => ih) hx

/-- In the end requests unfold into the same but for diagnostic passes, or lack
room with and without them. -/
theorem quiet_unfold_length :
    ((c.louder o print extra l).unfold Standard.registry
        (c.louder o print extra l).insertions.length id).quiet =
      (c.unfold Standard.registry c.insertions.length id).quiet ∨
    ((c.louder o print extra l).unfold Standard.registry
        (c.louder o print extra l).insertions.length id).lacksRoom ∧
      (c.unfold Standard.registry c.insertions.length id).lacksRoom := by
  cases hl : ((c.louder o print extra l).unfold Standard.registry
      (c.louder o print extra l).insertions.length id).lacksRoom with
  | false =>
    have hq := quiet_unfold_of_louder hc he ho hl
    rw [unfold_length_of_room ((Unfolding.lacksRoom_of_quiet hq).trans hl)]
    exact .inl hq.symm
  | true =>
    refine .inr ⟨rfl, ?_⟩
    by_contra hroom
    have hq := quiet_unfold_louder print l hc he ho (Bool.eq_false_iff.mpr hroom)
    have hroom' := (Unfolding.lacksRoom_of_quiet hq).trans (Bool.eq_false_iff.mpr hroom)
    rw [unfold_length_of_room hroom', hroom'] at hl
    cases hl

end printers

end Config

end PassPipeline
