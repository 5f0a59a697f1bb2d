import Mathlib.Data.Nat.Find
import PassPipeline.Proofs.Running

/-! Where a run ends. A pass can fail, and can cancel the run that it is part of, which shows only
before the next pass. The first place of a list at which one of the two is met decides over the
whole run: what was executed, what is left of it, and how it is told. -/
namespace PassPipeline

namespace Run

variable {ps : List Pass} {p : Pass} {r : Run} {k : Nat}

/-- A run behind some passes that were executed one after the other, whatever they answered. -/
def after (r : Run) (ps : List Pass) : Run := ps.foldl (fun r p => (r.step p).1) r

@[simp] theorem after_nil (r : Run) : r.after [] = r := rfl

@[simp] theorem after_cons (r : Run) (p : Pass) (ps : List Pass) :
    r.after (p :: ps) = (r.step p).1.after ps := rfl

theorem after_concat (r : Run) (ps : List Pass) (p : Pass) :
    r.after (ps ++ [p]) = ((r.after ps).step p).1 := by
  simp [after]

theorem after_take_succ (hp : ps[k]? = some p) :
    r.after (ps.take (k + 1)) = ((r.after (ps.take k)).step p).1 := by
  rw [List.take_add_one, hp]
  exact after_concat r _ p

/-- A run cannot go on at a place of a list: it was cancelled before the
pass there, or the pass fails. -/
def StopsAt (ps : List Pass) (r : Run) (k : Nat) : Prop :=
  ∃ p, ps[k]? = some p ∧
    ((r.after (ps.take k)).cancelled ∨ ((r.after (ps.take k)).step p).2.isSome)

/-- The first such place. -/
structure FirstStop (ps : List Pass) (r : Run) (k : Nat) : Prop where
  stops : StopsAt ps r k
  first : ∀ j < k, ¬ StopsAt ps r j

theorem exists_firstStop (h : ∃ k, StopsAt ps r k) : ∃ k, FirstStop ps r k := by
  classical
  exact ⟨Nat.find h, Nat.find_spec h, fun j hj => Nat.find_min h hj⟩

theorem FirstStop.unique {k' : Nat} (h : FirstStop ps r k) (h' : FirstStop ps r k') : k' = k := by
  by_contra hne
  rcases Nat.lt_or_gt_of_ne hne with hlt | hlt
  · exact h.first k' hlt h'.stops
  · exact h'.first k hlt h.stops

/-- What a run executes of a list, and how it ends. -/
inductive Ends (ps : List Pass) (r : Run) : List Pass → Option RunError → Prop
  | done (h : ∀ k, ¬ StopsAt ps r k) : Ends ps r ps none
  | cancelled {k : Nat} (h : FirstStop ps r k) (hc : (r.after (ps.take k)).cancelled = true) :
    Ends ps r (ps.take k) (some .cancelled)
  | failed {k : Nat} {p : Pass} {cause : PassError} (h : FirstStop ps r k)
    (hc : (r.after (ps.take k)).cancelled = false) (hp : ps[k]? = some p)
    (hf : ((r.after (ps.take k)).step p).2 = some cause) :
    Ends ps r (ps.take (k + 1)) (some (.pass k p.name cause))

theorem Ends.unique {executed executed' : List Pass} {ending ending' : Option RunError}
    (h : Ends ps r executed ending) (h' : Ends ps r executed' ending') :
    executed' = executed ∧ ending' = ending := by
  cases h with
  | done hnone =>
    cases h' with
    | done => exact ⟨rfl, rfl⟩
    | cancelled hk => exact absurd hk.stops (hnone _)
    | failed hk => exact absurd hk.stops (hnone _)
  | cancelled hk hc =>
    cases h' with
    | done hnone => exact absurd hk.stops (hnone _)
    | cancelled hk' =>
      obtain rfl := hk.unique hk'
      exact ⟨rfl, rfl⟩
    | failed hk' hc' =>
      obtain rfl := hk.unique hk'
      simp [hc] at hc'
  | failed hk hc hp hf =>
    cases h' with
    | done hnone => exact absurd hk.stops (hnone _)
    | cancelled hk' hc' =>
      obtain rfl := hk.unique hk'
      simp [hc] at hc'
    | failed hk' _ hp' hf' =>
      obtain rfl := hk.unique hk'
      cases hp.symm.trans hp'
      cases hf.symm.trans hf'
      exact ⟨rfl, rfl⟩

theorem stepsFrom_of_not_stopsAt (index : Nat) (hk : k ≤ ps.length)
    (h : ∀ j < k, ¬ StopsAt ps r j) :
    stepsFrom index ps r = stepsFrom (index + k) (ps.drop k) (r.after (ps.take k)) := by
  induction k with
  | zero => simp
  | succ k ih =>
    have hlt : k < ps.length := by omega
    have hp : ps[k]? = some ps[k] := List.getElem?_eq_getElem hlt
    have hgoes : ¬ StopsAt ps r k := h k (by omega)
    rw [ih (by omega) fun j hj => h j (by omega), List.drop_eq_getElem_cons hlt, after_take_succ hp]
    -- Neither of the two things that could stop the run at `k` is the case.
    have hcancelled : (r.after (ps.take k)).cancelled = false := by
      rw [← Bool.not_eq_true]
      intro hc
      exact hgoes ⟨_, hp, .inl hc⟩
    have hfine : ((r.after (ps.take k)).step ps[k]).2 = none := by
      rw [← Option.not_isSome_iff_eq_none]
      intro hf
      exact hgoes ⟨_, hp, .inr hf⟩
    rw [stepsFrom, hcancelled]
    generalize (r.after (ps.take k)).step ps[k] = x at hfine
    obtain ⟨r', cause⟩ := x
    cases hfine
    rw [if_neg (by simp), Nat.add_assoc]

theorem passes_of_not_stopsAt (h : ∀ k, ¬ StopsAt ps r k) : passes ps r = (r.after ps, none) := by
  rw [passes, stepsFrom_of_not_stopsAt 0 le_rfl fun j _ => h j, List.drop_length, List.take_length]
  rfl

/-- At its first stop a run is over. -/
theorem passes_of_firstStop (h : FirstStop ps r k) (hp : ps[k]? = some p) :
    passes ps r =
      if (r.after (ps.take k)).cancelled then (r.after (ps.take k), some .cancelled)
      else (r.after (ps.take (k + 1)), ((r.after (ps.take k)).step p).2.map (.pass k p.name)) := by
  obtain ⟨hlt, rfl⟩ := List.getElem?_eq_some_iff.mp hp
  rw [passes, stepsFrom_of_not_stopsAt 0 (Nat.le_of_lt hlt) h.first, List.drop_eq_getElem_cons hlt,
    Nat.zero_add, after_take_succ hp, stepsFrom]
  obtain ⟨p, hp', hstop⟩ := h.stops
  cases hp.symm.trans hp'
  cases hc : (r.after (ps.take k)).cancelled with
  | true => rfl
  | false =>
    have hfails := hstop.resolve_left (by simp [hc])
    generalize (r.after (ps.take k)).step ps[k] = x at hfails
    obtain ⟨r', cause⟩ := x
    obtain ⟨cause, rfl⟩ := Option.isSome_iff_exists.mp hfails
    rfl

theorem exists_ends (ps : List Pass) (r : Run) :
    ∃ executed ending, passes ps r = (r.after executed, ending) ∧ Ends ps r executed ending := by
  by_cases hstop : ∃ k, StopsAt ps r k
  · obtain ⟨k, hfirst⟩ := exists_firstStop hstop
    obtain ⟨p, hp, hor⟩ := hfirst.stops
    have hpasses := passes_of_firstStop hfirst hp
    cases hc : (r.after (ps.take k)).cancelled with
    | true =>
      rw [hc, if_pos rfl] at hpasses
      exact ⟨_, _, hpasses, .cancelled hfirst hc⟩
    | false =>
      obtain ⟨cause, hcause⟩ := Option.isSome_iff_exists.mp (hor.resolve_left (by simp [hc]))
      rw [hc, if_neg (by simp), hcause] at hpasses
      exact ⟨_, _, hpasses, .failed hfirst hc hp hcause⟩
  · exact ⟨ps, none, passes_of_not_stopsAt (not_exists.mp hstop), .done (not_exists.mp hstop)⟩

/-! What passes leave on a unit, and what they find on it. -/

/-- One pass leaves its name, unless it is one of those that act on the run alone. -/
theorem step_unit (p : Pass) (r : Run) :
    (r.step p).1.unit = if p.runs then r.unit.record p.name else r.unit := by
  unfold step Pass.runs
  cases p.work with
  | ordinary => rfl
  | print subject banner sink => rfl
  | verify banner =>
    dsimp only
    split <;> rfl
  | fail text => rfl
  | cancel => rfl

theorem after_unit (r : Run) (ps : List Pass) :
    (r.after ps).unit =
      if r.unit.bare then r.unit
      else { r.unit with trace := r.unit.trace ++ (ps.filter Pass.runs).map Pass.name } := by
  induction ps generalizing r with
  | nil => simp
  | cons p ps ih =>
    rw [after_cons, ih, step_unit]
    cases hb : r.unit.bare <;> cases hp : p.runs <;> simp [CompilationUnit.record, hb, hp]

theorem after_fault? (r : Run) (ps : List Pass) : (r.after ps).unit.fault? = r.unit.fault? := by
  rw [after_unit]
  cases hb : r.unit.bare <;> simp [CompilationUnit.fault?, hb]

/-- A verifier finds what was wrong with the unit before the run. -/
theorem step_verify {banner : String} (hp : p.work = .verify banner) (r : Run) :
    (r.step p).2.isSome ↔ r.unit.fault?.isSome := by
  have hfault : (r.unit.record p.name).fault? = r.unit.fault? := by
    cases hb : r.unit.bare <;> simp [CompilationUnit.record, CompilationUnit.fault?, hb]
  simp only [step, hp, record, hfault]
  cases r.unit.fault? <;> simp

theorem after_cancelled (r : Run) (ps : List Pass) :
    (r.after ps).cancelled = (r.cancelled || ps.any (·.work = .cancel)) := by
  have hstep (p : Pass) (r : Run) :
      (r.step p).1.cancelled = (r.cancelled || decide (p.work = .cancel)) := by
    unfold step
    cases p.work with
    | verify banner =>
      dsimp only
      split <;> simp [record]
    | ordinary | print | fail | cancel => simp [record]
  induction ps generalizing r with
  | nil => simp
  | cons p ps ih => rw [after_cons, ih, hstep, List.any_cons, Bool.or_assoc]

/-- A pass that cancels its run and comes last does so without any effect on how the run ends. -/
theorem passes_concat_cancel (hp : p.work = .cancel) (h : ∀ k, ¬ StopsAt ps r k)
    (hc : (r.after ps).cancelled = false) :
    passes (ps ++ [p]) r = ({ r.after ps with cancelled := true }, none) := by
  have hnone : ∀ k, ¬ StopsAt (ps ++ [p]) r k := by
    rintro k ⟨q, hq, hstop⟩
    rcases Nat.lt_trichotomy k ps.length with hlt | rfl | hlt
    · rw [List.getElem?_append_left hlt] at hq
      rw [List.take_append_of_le_length (Nat.le_of_lt hlt)] at hstop
      exact h k ⟨q, hq, hstop⟩
    · obtain rfl : p = q := by simpa using hq
      rw [List.take_left, hc] at hstop
      simp [step, hp] at hstop
    · have hnone : (ps ++ [p])[k]? = none := by
        rw [List.getElem?_eq_none_iff, List.length_append, List.length_singleton]
        omega
      cases hnone.symm.trans hq
  rw [passes_of_not_stopsAt hnone, after_concat]
  simp [step, hp]

/-- A run stops at the first place at which it is cancelled or a pass fails, and ends accordingly. A
pass that cancels it comes too late in the last place. -/
theorem passes_stop_first (ps : List Pass) (r : Run) :
    ∃ executed ending, passes ps r = (r.after executed, ending) ∧
      (∀ executed' ending', Ends ps r executed' ending' ↔ executed' = executed ∧ ending' = ending) ∧
      (r.after executed).unit =
        (if r.unit.bare then r.unit
          else { r.unit with trace := r.unit.trace ++ (executed.filter Pass.runs).map Pass.name }) ∧
      (r.after executed).cancelled = (r.cancelled || executed.any (·.work = .cancel)) ∧
      (∀ k p banner, ps[k]? = some p → p.work = .verify banner →
        (((r.after (ps.take k)).step p).2.isSome ↔ r.unit.bare = false ∧ r.unit.broken.isSome)) ∧
      (∀ p, p.work = .cancel → ending = none → r.cancelled = false → (∀ q ∈ ps, q.work ≠ .cancel) →
        passes (ps ++ [p]) r = ({ r.after ps with cancelled := true }, none)) ∧
      (ending = some .cancelled → ending.map RunError.message = some "context canceled") ∧
      ∀ k name cause, ending = some (.pass k name cause) → ending.map RunError.message =
        some ("pass #" ++ toString k ++ " " ++ name ++ ": " ++ cause.message) := by
  obtain ⟨executed, ending, hpasses, hends⟩ := exists_ends ps r
  refine ⟨executed, ending, hpasses, fun executed' ending' => ?_, after_unit r executed,
    after_cancelled r executed, ?_, ?_, ?_, ?_⟩
  · constructor
    · exact hends.unique
    · rintro ⟨rfl, rfl⟩
      exact hends
  · intro k p banner _ hp
    rw [step_verify hp, after_fault?, CompilationUnit.fault?]
    cases r.unit.bare <;> simp
  · rintro p hp rfl hc hall
    cases hends with
    | done hnone =>
      refine passes_concat_cancel hp hnone ?_
      rw [after_cancelled, hc]
      simpa using hall
  · rintro rfl
    rfl
  · rintro k name cause rfl
    rfl

/-- A verifier between passes that would come to an end otherwise. -/
def checked : List Pass :=
  [⟨Standard.basicAliasAnalysis, "basicaa", .ordinary⟩, .verifier "After Register Allocation",
    ⟨.none, "stop", .cancel⟩, ⟨Standard.prologEpilogInserter, "prologepilog", .ordinary⟩]

/-- Over a broken unit such a list fails at its second pass, before it is cancelled. -/
theorem passes_stop_first_broken :
    ∃ cause, passes checked { unit := { name := "f", broken := some "dangling vreg" } } =
        ({ unit := { name := "f", trace := ["basicaa", "machineverifier"],
                     broken := some "dangling vreg" } },
          some (.pass 1 "machineverifier" cause)) ∧
      (RunError.pass 1 "machineverifier" cause).message =
        "pass #1 machineverifier: bad machine code in f (After Register Allocation): dangling vreg" := by
  obtain ⟨executed, ending, hpasses, hends, -⟩ :=
    passes_stop_first checked { unit := { name := "f", broken := some "dangling vreg" } }
  have hfirst :
      FirstStop checked { unit := { name := "f", broken := some "dangling vreg" } } 1 := by
    refine ⟨⟨_, rfl, .inr rfl⟩, fun j hj => ?_⟩
    obtain rfl : j = 0 := by omega
    rintro ⟨p, hp, hor⟩
    cases hp
    simp [step, record] at hor
  obtain ⟨rfl, rfl⟩ := (hends _ _).mp (.failed hfirst rfl rfl rfl)
  exact ⟨_, hpasses, rfl⟩

end Run

end PassPipeline
