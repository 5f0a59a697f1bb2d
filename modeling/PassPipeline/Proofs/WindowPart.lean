import PassPipeline.Proofs.Outcome

/-! What a window makes of a list of passes: the part behind the first pass of its start boundary,
up to and with the first pass of its stop boundary, or a refusal. -/
namespace PassPipeline

namespace Window

variable {start stop : Option PassId} {a b : PassId} {p : Pass} {l : List Pass}

/-- What follows the first pass of a kind. Without a kind, all passes do. -/
def behind : Option PassId → List Pass → List Pass
  | none, l => l
  | some a, l => (l.dropWhile (·.id ≠ a)).tail

/-- The passes up to the first one of a kind, with it. Without a kind
or such a pass, all of them. -/
def upTo : Option PassId → List Pass → List Pass
  | none, l => l
  | some b, l => l.takeWhile (·.id ≠ b) ++ (l.dropWhile (·.id ≠ b)).take 1

/-- The passes behind the first one of the kind `start`, up to the first one of the kind `stop`. -/
def part (start stop : Option PassId) (l : List Pass) : List Pass := behind start (upTo stop l)

/-- The stop boundary is met, and the start boundary, another kind, is not met before it. -/
def Inverts : Option PassId → Option PassId → List Pass → Prop
  | some a, some b, l =>
    a ≠ b ∧ b ∈ l.map Pass.id ∧ a ∉ (l.takeWhile (·.id ≠ b)).map Pass.id
  | _, _, _ => False

instance : (start stop : Option PassId) → (l : List Pass) → Decidable (Inverts start stop l)
  | some _, some _, _ => inferInstanceAs (Decidable (_ ∧ _ ∧ _))
  | some _, none, _ => inferInstanceAs (Decidable False)
  | none, _, _ => inferInstanceAs (Decidable False)

theorem upTo_cons_of_ne (h : some p.id ≠ stop) : upTo stop (p :: l) = p :: upTo stop l := by
  cases stop with
  | none => rfl
  | some b =>
    have hb : p.id ≠ b := fun he => h (congrArg some he)
    simp [upTo, hb]

theorem upTo_cons_self : upTo (some p.id) (p :: l) = [p] := by
  simp [upTo]

theorem behind_cons_of_ne (h : p.id ≠ a) : behind (some a) (p :: l) = behind (some a) l := by
  simp [behind, h]

theorem behind_cons_self : behind (some p.id) (p :: l) = l := by
  simp [behind]

theorem part_cons_of_ne (ha : p.id ≠ a) (hb : some p.id ≠ stop) :
    part (some a) stop (p :: l) = part (some a) stop l := by
  rw [part, upTo_cons_of_ne hb, behind_cons_of_ne ha, part]

theorem part_cons_self (hb : some p.id ≠ stop) : part (some p.id) stop (p :: l) = upTo stop l := by
  rw [part, upTo_cons_of_ne hb, behind_cons_self]

theorem part_same (a : PassId) (l : List Pass) : part (some a) (some a) l = [] := by
  induction l with
  | nil => rfl
  | cons p l ih =>
    by_cases h : p.id = a
    · subst h
      rw [part, upTo_cons_self, behind_cons_self]
    · rw [part_cons_of_ne h (fun he => h (Option.some.inj he))]
      exact ih

theorem not_inverts_nil : ¬ Inverts start stop [] := by
  cases start <;> cases stop <;> simp [Inverts]

theorem inverts_cons (ha : some p.id ≠ start) (hb : some p.id ≠ stop) :
    Inverts start stop (p :: l) ↔ Inverts start stop l := by
  cases start with
  | none => exact Iff.rfl
  | some a =>
    cases stop with
    | none => exact Iff.rfl
    | some b =>
      have hpa : a ≠ p.id := fun he => ha (congrArg some he.symm)
      have hpb : p.id ≠ b := fun he => hb (congrArg some he)
      simp [Inverts, hpa, hpb, hpb.symm]

theorem not_inverts_cons_self : ¬ Inverts (some p.id) stop (p :: l) := by
  cases stop with
  | none => exact id
  | some b =>
    rintro ⟨hne, -, hp⟩
    simp [hne] at hp

theorem inverts_cons_stop (h : p.id ≠ a) : Inverts (some a) (some p.id) (p :: l) :=
  ⟨h.symm, by simp, by simp⟩

end Window

namespace Placement

variable {r : Registry} {x : Placement} {start stop : Option PassId} {p : Pass} {l : List Pass}

theorem takeAll_cons (r : Registry) (x : Placement) (p : Pass) (l : List Pass) :
    x.takeAll r (p :: l) = (x.take r p).takeAll r l := rfl

theorem take_window (hr : x.refusal = none) : (x.take r p).window = x.window.advance p.id := by
  simp [take, hr]

theorem take_refusal_none (hr : x.refusal = none)
    (hi : (x.window.advance p.id).isInverted = false) : (x.take r p).refusal = none := by
  simp [take, hr, hi]

theorem take_handed (hr : x.refusal = none) :
    (x.take r p).handed = if x.window.isOpen then x.handed ++ [p] else x.handed := by
  simp [take, hr]

theorem advance_stopped_of_ne {w : Window} (ht : w.stopped = false)
    (hb : w.stopAfter = stop.getD .none) (hp : some p.id ≠ stop) :
    (w.advance p.id).stopped = false := by
  cases stop with
  | none => simp [Window.advance, ht, hb]
  | some b =>
    have hpb : p.id ≠ b := fun he => hp (congrArg some he)
    simp [Window.advance, ht, hb, hpb]

theorem takeAll_refused (h : x.refusal.isSome) : x.takeAll r l = x := by
  induction l with
  | nil => rfl
  | cons p l ih => simpa [takeAll, take, h] using ih

theorem takeAll_closed (hs : x.window.started) (ht : x.window.stopped) (hr : x.refusal = none) :
    (x.takeAll r l).refusal = none ∧ (x.takeAll r l).handed = x.handed := by
  induction l generalizing x with
  | nil => exact ⟨hr, rfl⟩
  | cons p l ih =>
    have hx : (x.take r p).handed = x.handed := by simp [take_handed hr, Window.isOpen, ht]
    have hw := take_window (r := r) (p := p) hr
    have hi : (x.window.advance p.id).isInverted = false := by
      simp [Window.isInverted, Window.advance, hs]
    rw [takeAll_cons, ← hx]
    exact ih (by simp [hw, Window.advance, hs]) (by simp [hw, Window.advance, ht])
      (take_refusal_none hr hi)

theorem takeAll_open (hs : x.window.started) (ht : x.window.stopped = false) (hr : x.refusal = none)
    (hb : x.window.stopAfter = stop.getD .none) (hne : ∀ b ∈ stop, b ≠ .none) :
    (x.takeAll r l).refusal = none ∧ (x.takeAll r l).handed = x.handed ++ Window.upTo stop l := by
  induction l generalizing x with
  | nil => cases stop <;> exact ⟨hr, by simp [takeAll, Window.upTo]⟩
  | cons p l ih =>
    have hx : (x.take r p).handed = x.handed ++ [p] := by
      simp [take_handed hr, Window.isOpen, hs, ht]
    have hw := take_window (r := r) (p := p) hr
    have hs' : (x.take r p).window.started := by simp [hw, Window.advance, hs]
    have hr' : (x.take r p).refusal = none :=
      take_refusal_none hr (by simp [Window.isInverted, Window.advance, hs])
    rw [takeAll_cons]
    by_cases hp : some p.id = stop
    · subst hp
      have ht' : (x.take r p).window.stopped := by
        simp [hw, Window.advance, hb, hne p.id rfl]
      rw [Window.upTo_cons_self, ← hx]
      exact takeAll_closed hs' ht' hr'
    · have ht' : (x.take r p).window.stopped = false := by
        rw [hw]
        exact advance_stopped_of_ne ht hb hp
      have hrest := ih hs' ht' hr' (by rw [hw]; exact hb)
      rw [hx, List.append_assoc] at hrest
      rw [Window.upTo_cons_of_ne hp]
      exact hrest

/-- A window that waits for its start boundary is refused if the stop boundary comes first. -/
theorem takeAll_waiting {a : PassId} (hs : x.window.started = false)
    (ht : x.window.stopped = false) (hr : x.refusal = none) (ha : x.window.startAfter = a)
    (hna : a ≠ .none) (hb : x.window.stopAfter = stop.getD .none) (hne : ∀ b ∈ stop, b ≠ .none) :
    (Window.Inverts (some a) stop l →
      (x.takeAll r l).refusal = some (.stopBeforeStart (r.name (stop.getD .none))) ∧
        (x.takeAll r l).handed = x.handed) ∧
    (¬ Window.Inverts (some a) stop l →
      (x.takeAll r l).refusal = none ∧
        (x.takeAll r l).handed = x.handed ++ Window.part (some a) stop l) := by
  induction l generalizing x with
  | nil =>
    refine ⟨fun h => absurd h Window.not_inverts_nil, fun _ => ⟨hr, ?_⟩⟩
    cases stop <;> simp [takeAll, Window.part, Window.upTo, Window.behind]
  | cons p l ih =>
    have hx : (x.take r p).handed = x.handed := by simp [take_handed hr, Window.isOpen, hs]
    have hw := take_window (r := r) (p := p) hr
    have hb' : (x.take r p).window.stopAfter = stop.getD .none := by rw [hw]; exact hb
    rw [takeAll_cons, ← hx]
    by_cases hpa : p.id = a
    · subst hpa
      have hs' : (x.take r p).window.started := by simp [hw, Window.advance, ha, hna]
      have hr' : (x.take r p).refusal = none :=
        take_refusal_none hr (by simp [Window.isInverted, Window.advance, ha, hna])
      refine ⟨fun h => absurd h Window.not_inverts_cons_self, fun _ => ?_⟩
      by_cases hpb : some p.id = stop
      · -- One pass is both boundaries: the window opens and closes at once.
        subst hpb
        have ht' : (x.take r p).window.stopped := by simp [hw, Window.advance, hb, hna]
        rw [Window.part_same, List.append_nil]
        exact takeAll_closed hs' ht' hr'
      · have ht' : (x.take r p).window.stopped = false := by
          rw [hw]
          exact advance_stopped_of_ne ht hb hpb
        rw [Window.part_cons_self hpb]
        exact takeAll_open hs' ht' hr' hb' hne
    · by_cases hpb : some p.id = stop
      · -- The stop boundary comes first.
        subst hpb
        have hr' : (x.take r p).refusal = some (.stopBeforeStart (r.name p.id)) := by
          simp [take, hr, Window.advance, Window.isInverted, hs, ha, hpa, hb, hne p.id rfl]
        refine ⟨fun _ => ?_, fun h => absurd (Window.inverts_cons_stop hpa) h⟩
        rw [takeAll_refused (by simp [hr'])]
        exact ⟨hr', rfl⟩
      · have hs' : (x.take r p).window.started = false := by
          simp [hw, Window.advance, hs, ha, hpa]
        have ht' := advance_stopped_of_ne ht hb hpb
        have hr' : (x.take r p).refusal = none :=
          take_refusal_none hr (by simp [Window.isInverted, ht'])
        rw [Window.inverts_cons (fun he => hpa (Option.some.inj he)) hpb,
          Window.part_cons_of_ne hpa hpb]
        exact ih hs' (by rw [hw]; exact ht') hr' (by rw [hw]; exact ha) hb'

/-- The law of a window on a list: all of it is decided by where the boundaries first occur. -/
theorem takeAll_ofBounds (hs : ∀ a ∈ start, a ≠ .none) (ht : ∀ b ∈ stop, b ≠ .none)
    (l₀ l : List Pass) :
    let y := takeAll r ⟨.ofBounds (start.getD .none) (stop.getD .none), none, l₀⟩ l
    (Window.Inverts start stop l →
      y.refusal = some (.stopBeforeStart (r.name (stop.getD .none))) ∧ y.handed = l₀) ∧
    (¬ Window.Inverts start stop l →
      y.refusal = none ∧ y.handed = l₀ ++ Window.part start stop l) := by
  cases start with
  | none =>
    refine ⟨False.elim, fun _ => ?_⟩
    exact takeAll_open (by simp [Window.ofBounds]) rfl rfl rfl ht
  | some a =>
    have hna := hs a rfl
    exact takeAll_waiting (by simp [Window.ofBounds, hna]) rfl rfl rfl hna rfl ht

end Placement

end PassPipeline
