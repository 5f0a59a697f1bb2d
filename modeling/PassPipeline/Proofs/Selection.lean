import PassPipeline.Allocator.Selector

/-! How a selector remembers: one selection decides all that follow. -/
namespace PassPipeline

theorem AllocatorRegistry.mem_registered_of_lookup? {r : AllocatorRegistry} {name : String}
    {a : Allocator} (h : r.lookup? name = some a) (hne : name ≠ Allocator.defaultName) :
    a ∈ r.registered := by
  have hname : a.name = name := by simpa using List.find?_some h
  rcases List.mem_cons.mp (List.mem_of_find?_eq_some h) with rfl | hmem
  · exact absurd hname.symm hne
  · exact hmem

namespace Selector

variable {s s' t : Selector} {optimized : Bool} {answers : AllocatorAnswers} {id : PassId}

/-- Nothing was chosen by name, and nothing is remembered. -/
def asksTarget (s : Selector) : Bool := s.resolved.isNone && s.choice = Allocator.defaultName

theorem select_eq (s : Selector) (optimized : Bool) (answers : AllocatorAnswers) :
    s.select optimized answers =
      match s.resolved with
      | some id => .ok (id, s)
      | none =>
        if s.choice = Allocator.defaultName then
          if answers.answer optimized = .none then .error (.noneProvided optimized)
          else .ok (answers.answer optimized,
            { s with resolved := some (answers.answer optimized) })
        else match s.registry.lookup? s.choice with
          | some a => .ok (a.pass, { s with resolved := some a.pass })
          | none => .error (.unknown s.choice) := by
  unfold select selectBy
  cases s.resolved with
  | some id => rfl
  | none =>
    dsimp only
    split
    · simp only [pure_bind]
      split <;> rfl
    · cases s.registry.lookup? s.choice <;> rfl

/-- Asking the target may have an effect. A selection has it once, or never. -/
theorem selectBy_eq {m : Type → Type} [Monad m] [LawfulMonad m] {ask : Bool → m PassId}
    {effect : m Unit} (h : ask optimized = effect >>= fun _ => pure (answers.answer optimized))
    (s : Selector) :
    s.selectBy optimized ask =
      (if s.asksTarget then effect else pure ()) >>= fun _ =>
        pure (s.select optimized answers) := by
  rw [select_eq]
  unfold selectBy asksTarget
  cases s.resolved with
  | some id => simp
  | none =>
    by_cases hc : s.choice = Allocator.defaultName
    · simp only [hc, if_true, h, bind_assoc, pure_bind, Option.isNone_none, Bool.true_and,
        decide_true]
      refine bind_congr fun _ => ?_
      split <;> rfl
    · simp only [hc, if_false, Option.isNone_none, Bool.true_and, decide_false, pure_bind,
        Bool.false_eq_true]
      cases s.registry.lookup? s.choice <;> rfl

/-- The target is asked about the path of the pipeline, and only if there is no other way. -/
theorem selectAsked_eq (s : Selector) (optimized : Bool) (answers : AllocatorAnswers) :
    s.selectAsked optimized answers =
      (s.select optimized answers, if s.asksTarget then [optimized] else []) := by
  have hask : answers.recorded optimized =
      modify (· ++ [optimized]) >>= fun _ => pure (answers.answer optimized) := rfl
  rw [selectAsked, selectBy_eq hask]
  split <;> rfl

theorem lookup?_of_ofChoice {r : AllocatorRegistry} {name : String}
    (h : Selector.ofChoice r name = .ok s) :
    s.registry = r ∧ (r.lookup? s.choice).isSome ∧ s.resolved = none := by
  unfold ofChoice at h
  generalize (if name = "" then Allocator.defaultName else name) = choice at h
  dsimp only at h
  split at h
  · rename_i hl
    cases h
    exact ⟨rfl, hl, rfl⟩
  · cases h

/-- A selection remembers its answer. If something was remembered before, that is the answer. -/
theorem select_ok (h : s.select optimized answers = .ok (id, s')) :
    s' = { s with resolved := some id } ∧ ∀ old ∈ s.resolved, old = id := by
  rw [select_eq] at h
  cases hr : s.resolved with
  | some old =>
    simp only [hr] at h
    cases h
    refine ⟨by rw [← hr], ?_⟩
    rintro _ ⟨⟩
    rfl
  | none =>
    refine ⟨?_, by simp⟩
    simp only [hr] at h
    split at h
    · split at h <;> cases h
      rfl
    · split at h <;> cases h
      rfl

theorem select_select (h : s.select optimized answers = .ok (id, s')) (again : Bool)
    (others : AllocatorAnswers) : s'.select again others = .ok (id, s') := by
  obtain ⟨rfl, -⟩ := select_ok h
  rfl

theorem select_default (hc : s.choice = Allocator.defaultName) (hr : s.resolved = none)
    (h : s.select optimized answers = .ok (id, s')) : id = answers.answer optimized := by
  simp only [select_eq, hr, hc, if_true] at h
  split at h <;> cases h
  rfl

/-- A selector that was told to use `a`, and remembers nothing else. -/
structure Named (a : Allocator) (s : Selector) : Prop where
  chosen : s.choice ≠ Allocator.defaultName
  found : s.registry.lookup? s.choice = some a
  resolved : ∀ id ∈ s.resolved, id = a.pass

theorem Named.select {a : Allocator} (h : Named a s) (optimized : Bool)
    (answers : AllocatorAnswers) :
    s.select optimized answers = .ok (a.pass, { s with resolved := some a.pass }) := by
  rw [select_eq]
  cases hr : s.resolved with
  | some id =>
    obtain rfl := h.resolved id hr
    have hsame : { s with resolved := some a.pass } = s := by rw [← hr]
    rw [hsame]
  | none => simp [h.chosen, h.found]

/-- `t` remembers no more than `s` would select in any case, because it was chosen by name. -/
inductive Foresees (s : Selector) : Selector → Prop
  | refl : Foresees s s
  | named {a : Allocator} (hc : s.choice ≠ Allocator.defaultName)
    (hl : s.registry.lookup? s.choice = some a) (hr : s.resolved = none) :
    Foresees s { s with resolved := some a.pass }

theorem foresees_of_select (hc : s.choice ≠ Allocator.defaultName) (hr : s.resolved = none)
    (h : s.select optimized answers = .ok (id, s')) : s.Foresees s' := by
  simp only [select_eq, hr, hc, if_false] at h
  split at h <;> cases h
  rename_i a hl
  exact .named hc hl hr

namespace Foresees

theorem choice (h : s.Foresees t) : t.choice = s.choice := by
  cases h <;> rfl

theorem asksTarget (h : s.Foresees t) : t.asksTarget = s.asksTarget := by
  cases h with
  | refl => rfl
  | named hc hl hr => simp [Selector.asksTarget, hc]

theorem select (h : s.Foresees t) (optimized : Bool) (answers : AllocatorAnswers) :
    t.select optimized answers = s.select optimized answers := by
  cases h with
  | refl => rfl
  | named hc hl hr => simp [select_eq, hr, hc, hl]

end Foresees

end Selector

end PassPipeline
