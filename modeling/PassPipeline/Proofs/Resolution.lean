import PassPipeline.Config.Basic

/-! Where a request leads: what stands in for the kind, as far as the options leave it. -/
namespace PassPipeline

/-- A tri-state that means something. -/
def Tristate.Valid (t : Tristate) : Prop := t = .unset ∨ t = .on ∨ t = .off

instance (t : Tristate) : Decidable t.Valid := inferInstanceAs (Decidable (_ ∨ _))

namespace Override

variable {standard : PassId} {rule : OverrideRule} {flag : Options → Tristate} {fallback : PassId}

theorem mem_of_rule? (h : rule? standard = some rule) : (standard, rule) ∈ rules := by
  obtain ⟨⟨id, rule'⟩, he, rfl⟩ := Option.map_eq_some_iff.mp h
  have hid := List.find?_some he
  simp only [decide_eq_true_eq] at hid
  exact hid ▸ List.mem_of_find?_eq_some he

/-- Whether options say the same to a rule. -/
def agree (o o' : Options) : OverrideRule → Prop
  | .disable flag => flag o = flag o'
  | .enable flag _ => flag o = flag o'

/-- Options that say the same to the rule for a kind make the same of a request for it. -/
theorem apply_eq_of_agree {o o' : Options}
    (h : ∀ rule, rule? standard = some rule → agree o o' rule) (target : PassId) :
    apply o standard target = apply o' standard target := by
  unfold apply
  cases hr : rule? standard with
  | none => rfl
  | some rule =>
    have hrule := h rule hr
    cases rule with
    | disable flag => simp only [show flag o = flag o' from hrule]
    | enable flag fallback => simp only [show flag o = flag o' from hrule]

theorem apply_congr {o o' : Options} (h : ∀ entry ∈ rules, agree o o' entry.2)
    (standard target : PassId) : apply o standard target = apply o' standard target :=
  apply_eq_of_agree (fun _ hr => h _ (mem_of_rule? hr)) target

theorem rule?_enable (h : rule? standard = some (.enable flag fallback)) :
    standard = Standard.machineScheduler ∧ flag = Options.enableMachineSched ∧
      fallback = Standard.machineScheduler := by
  simpa [rules] using mem_of_rule? h

@[simp] theorem force_unset (target fallback : PassId) :
    force target .unset fallback = .ok target := rfl

@[simp] theorem force_off (target fallback : PassId) :
    force target .off fallback = .ok .none := rfl

theorem force_on (target : PassId) (h : fallback ≠ .none) :
    force target .on fallback = .ok (if target = .none then fallback else target) := by
  unfold force
  rw [if_neg (by decide), if_pos rfl]
  by_cases ht : target = .none <;> simp [ht, h]

/-- A tri-state that means something leads somewhere: to nothing, to what
was there, or to the reserve. -/
theorem force_cases {t : Tristate} {target fallback final : PassId}
    (h : force target t fallback = .ok final) :
    final = .none ∨ final = target ∨ final = fallback := by
  unfold force at h
  split at h
  · cases h
    exact .inr (.inl rfl)
  · split at h
    · split at h
      · cases h
        exact .inr (.inl rfl)
      · split at h <;> cases h
        exact .inr (.inr rfl)
    · split at h <;> cases h
      exact .inl rfl

end Override

namespace Config

variable {c : Config} {id final : PassId}

theorem resolve_of_rule? (c : Config) (h : (Override.rule? id).isNone) :
    c.resolve id = .ok (c.substitution id) := by
  simp [resolve, Override.apply, Option.isNone_iff_eq_none.mp h]

/-- A request leads to nothing, to what stands in for the kind, or to the scheduler forced on. -/
theorem cases_of_resolve (h : c.resolve id = .ok final) :
    final = .none ∨ final = c.substitution id ∨ final = id ∧ id = Standard.machineScheduler := by
  unfold resolve Override.apply at h
  cases hr : Override.rule? id with
  | none =>
    simp only [hr] at h
    cases h
    exact .inr (.inl rfl)
  | some rule =>
    cases rule with
    | disable flag =>
      simp only [hr] at h
      cases h
      split
      · exact .inl rfl
      · exact .inr (.inl rfl)
    | enable flag fallback =>
      obtain ⟨rfl, rfl, rfl⟩ := Override.rule?_enable hr
      simp only [hr] at h
      rcases Override.force_cases h with hf | hf | hf
      · exact .inl hf
      · exact .inr (.inl hf)
      · exact .inr (.inr ⟨hf, rfl⟩)

theorem resolve_cases (hv : c.options.enableMachineSched.Valid) (id : PassId) :
    ∃ final, c.resolve id = .ok final ∧
      (final = .none ∨ final = c.substitution id ∨
        final = id ∧ id = Standard.machineScheduler) := by
  have hres : ∃ final, c.resolve id = .ok final := by
    unfold resolve Override.apply
    cases hr : Override.rule? id with
    | none => exact ⟨_, rfl⟩
    | some rule =>
      cases rule with
      | disable flag => exact ⟨_, rfl⟩
      | enable flag fallback =>
        obtain ⟨rfl, rfl, rfl⟩ := Override.rule?_enable hr
        dsimp only
        rcases hv with hu | hu | hu
        · exact ⟨_, by rw [hu, Override.force_unset]⟩
        · exact ⟨_, by rw [hu, Override.force_on _ (by decide)]⟩
        · exact ⟨_, by rw [hu, Override.force_off]⟩
  obtain ⟨final, h⟩ := hres
  exact ⟨final, h, cases_of_resolve h⟩

end Config

end PassPipeline
