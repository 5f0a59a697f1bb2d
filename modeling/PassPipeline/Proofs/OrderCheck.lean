import PassPipeline.Proofs.Creation
import PassPipeline.Proofs.PassOrder

/-! What the check of the order says of a list: nothing if all constraints are respected, and
otherwise the first one of the table that two passes of the list break. -/
namespace PassPipeline

/-- A pass of the second kind that does not come behind a pass of the first. -/
def Constraint.BrokenAt (c : Constraint) (ids : List PassId) (i j : Nat) : Prop :=
  ids[i]? = some c.first ∧ ids[j]? = some c.second ∧ j ≤ i

instance (c : Constraint) (ids : List PassId) (i j : Nat) : Decidable (c.BrokenAt ids i j) :=
  inferInstanceAs (Decidable (_ ∧ _ ∧ _))

/-- What is said of a list that breaks a constraint. -/
def Constraint.defect (c : Constraint) : Defect :=
  .order (Standard.registry.name c.first) (Standard.registry.name c.second)

theorem Constraint.not_respected_iff {c : Constraint} {ids : List PassId} :
    ¬ c.Respected ids ↔ ∃ i j, c.BrokenAt ids i j := by
  constructor
  · intro h
    refine Classical.byContradiction fun hno => h ?_
    intro i j hi hj
    refine Nat.lt_of_not_le fun hle => hno ?_
    exact ⟨i, j, hi, hj, hle⟩
  · rintro ⟨i, j, hi, hj, hle⟩ h
    have hlt := h i j hi hj
    omega

namespace Order

variable {ids : List PassId} {c : Constraint}

/-- A constraint of the table that a list breaks, behind constraints that it respects. -/
def FirstBroken (ids : List PassId) (c : Constraint) : Prop :=
  (∃ before behind, constraints = before ++ c :: behind ∧ ∀ e ∈ before, e.Respected ids) ∧
    ∃ i j, c.BrokenAt ids i j

theorem isBroken_iff : isBroken ids c ↔ ∃ i j, c.BrokenAt ids i j := by
  rw [← Constraint.not_respected_iff, ← isBroken_eq_false_iff, Bool.not_eq_false]

theorem broken?_eq_some_iff : broken? ids = some c ↔ FirstBroken ids c := by
  rw [broken?_eq, List.find?_eq_some_iff_append, isBroken_iff, and_comm]
  refine and_congr_left fun _ => exists_congr fun before => ?_
  refine exists_congr fun behind => and_congr_right fun _ => forall_congr' fun e => ?_
  simp [isBroken_eq_false_iff]

/-- The kinds of a constraint have names of their own: what is said tells which constraint it is. -/
theorem eq_of_defect_eq : ∀ c ∈ constraints, ∀ e ∈ constraints, c.defect = e.defect → c = e := by
  decide +kernel

end Order

namespace Build

variable {s t : Construction}

theorem outcome_build_of_unrefused {call : Caller}
    (h : (buildInto call).outcome s = (.ok none, t)) : (build call).outcome s =
      match Order.broken? (t.config.handed.map Pass.id) with
      | some c => (.error c.defect, t)
      | none => (.ok (.ok t.config.handed), t) := by
  rw [outcome_build, h]
  rfl

end Build

namespace Order

/-- The check of the order is exact, and names the first constraint of the table that two passes
break. It is what a build ends in that handed the list over. -/
theorem check_exact (ids : List PassId) :
    (broken? ids = none ↔ ∀ c ∈ constraints, ∀ i j : Nat,
      ids[i]? = some c.first → ids[j]? = some c.second → i < j) ∧
    (∀ c, broken? ids = some c ↔ FirstBroken ids c) ∧
    (∀ c, broken? ids = some c →
      c.defect.message = "passes out of order: " ++ Standard.registry.name c.first ++
        " must run before " ++ Standard.registry.name c.second ∧
      ∀ e ∈ constraints, e.defect = c.defect → e = c) ∧
    ∀ (call : Caller) (s t : Construction), (Build.buildInto call).outcome s = (.ok none, t) →
      t.config.handed.map Pass.id = ids →
      (Build.build call).outcome s =
        match broken? ids with
        | some c => (.error c.defect, t)
        | none => (.ok (.ok t.config.handed), t) := by
  refine ⟨broken?_eq_none_iff, fun c => broken?_eq_some_iff, ?_, ?_⟩
  · intro c hc
    have hmem : c ∈ constraints := List.mem_of_find?_eq_some hc
    exact ⟨rfl, fun e he heq => eq_of_defect_eq e he c hmem heq⟩
  · rintro call s t hb rfl
    exact Build.outcome_build_of_unrefused hb

open Script in
/-- A target that eliminates PHIs a second time, behind what needs it
done, and looks for loops last. -/
def belated : Target where
  name := "belated"
  exceptions := .none
  replaced
    | .irPasses => some (block [add Standard.phiElimination, add Standard.twoAddressInstruction,
        add Standard.phiElimination, add Standard.machineLoopInfo])
    | .machinePasses => some skip
    | _ => none

/-- Two constraints are broken. The one that is named comes first in the table, not in the list. -/
theorem check_exact_belated : ∃ s t,
    (Build.build Build.stages).outcome s =
      (.error (.order "machine-loops" "phi-node-elimination"), t) ∧
    FirstBroken (t.config.handed.map Pass.id) ⟨Standard.machineLoopInfo, Standard.phiElimination⟩ ∧
    Constraint.BrokenAt ⟨Standard.phiElimination, Standard.twoAddressInstruction⟩
      (t.config.handed.map Pass.id) 2 1 := by
  let s : Construction :=
    { session := .standard
      config := .fresh belated .none {} .collected (.ofBounds .none .none) }
  let t : Construction := ((Build.buildInto Build.stages).outcome s).2
  have hanswer : none ∈ ((Build.buildInto Build.stages).outcome s).1.toOption := by decide +kernel
  have hrun : (Build.buildInto Build.stages).outcome s = (.ok none, t) := eq_of_mem_toOption hanswer
  have hbroken : broken? (t.config.handed.map Pass.id) =
      some ⟨Standard.machineLoopInfo, Standard.phiElimination⟩ := by decide +kernel
  obtain ⟨-, hfirst, -, hbuild⟩ := check_exact (t.config.handed.map Pass.id)
  have hb := hbuild Build.stages s t hrun rfl
  rw [hbroken] at hb
  exact ⟨s, t, hb, (hfirst _).mp hbroken, by decide +kernel⟩

end Order

end PassPipeline
