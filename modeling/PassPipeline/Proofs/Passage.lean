import PassPipeline.Proofs.Outcome

/-! How kinds pass through a window. A window goes by what came before a kind when it
admits the kind, and by what came up to the kind when it refuses. Both flags of a window
are raised by the kinds of its boundaries and never lowered, so that an inverted window has
admitted nothing and never will. -/
namespace PassPipeline

namespace Window

variable {w : Window} {ids : List PassId} {i : Nat}

/-- What a window answers to a kind that moves it. -/
structure Answer where
  /-- The kind is inside. -/
  admitted : Bool
  /-- Behind the kind the window is inverted. -/
  refused : Bool
  deriving DecidableEq, Repr

def answer (w : Window) (id : PassId) : Answer := ⟨w.isOpen, (w.advance id).isInverted⟩

/-- The answers to kinds one after the other. A refusal does not end them. -/
def answers (w : Window) : List PassId → List Answer
  | [] => []
  | id :: ids => w.answer id :: (w.advance id).answers ids

/-- The window behind kinds that moved it one after the other. -/
def past (w : Window) (ids : List PassId) : Window := ids.foldl advance w

theorem past_append (w : Window) (ids later : List PassId) :
    w.past (ids ++ later) = (w.past ids).past later :=
  List.foldl_append

/-- The answer to a kind is that of the window behind the kinds before it. -/
theorem getElem?_answers (w : Window) (ids : List PassId) (i : Nat) :
    (w.answers ids)[i]? = ids[i]?.map fun id => (w.past (ids.take i)).answer id := by
  induction ids generalizing w i with
  | nil => simp [answers]
  | cons id ids ih =>
    cases i with
    | zero => rfl
    | succ i => exact ih (w.advance id) i

theorem length_answers (w : Window) (ids : List PassId) : (w.answers ids).length = ids.length := by
  induction ids generalizing w with
  | nil => rfl
  | cons id ids ih => exact congrArg (· + 1) (ih (w.advance id))

theorem getElem?_answers_inv {a : Answer} (h : (w.answers ids)[i]? = some a) :
    a.admitted = (w.past (ids.take i)).isOpen ∧
    a.refused = (w.past (ids.take (i + 1))).isInverted := by
  rw [getElem?_answers] at h
  obtain ⟨id, hid, rfl⟩ := Option.map_eq_some_iff.mp h
  have htake : ids.take (i + 1) = ids.take i ++ [id] := by rw [List.take_add_one, hid]; rfl
  refine ⟨rfl, ?_⟩
  rw [htake, past_append]
  rfl

/-! ## The flags -/

/-- Kinds leave the boundaries alone and raise a flag if its boundary is among them. -/
theorem past_eq (w : Window) (ids : List PassId) :
    w.past ids =
      { w with
        started := w.started || (w.startAfter ≠ .none && w.startAfter ∈ ids)
        stopped := w.stopped || (w.stopAfter ≠ .none && w.stopAfter ∈ ids) } := by
  induction ids generalizing w with
  | nil => simp [past]
  | cons id ids ih =>
    have hstep : w.past (id :: ids) = (w.advance id).past ids := rfl
    rw [hstep, ih]
    simp only [advance, List.mem_cons, Bool.decide_or, Bool.and_or_distrib_left, Bool.or_assoc,
      eq_comm (a := id)]

theorem past_keeps_started (h : w.started) (ids : List PassId) : (w.past ids).started := by
  simp [past_eq, h]

theorem past_keeps_stopped (h : w.stopped) (ids : List PassId) : (w.past ids).stopped := by
  simp [past_eq, h]

theorem ofBounds_past_started (start stop : PassId) (ids : List PassId) :
    ((ofBounds start stop).past ids).started ↔ start = .none ∨ start ∈ ids := by
  by_cases h : start = .none <;> simp [past_eq, ofBounds, h]

theorem ofBounds_past_stopped (start stop : PassId) (ids : List PassId) :
    ((ofBounds start stop).past ids).stopped ↔ stop ≠ .none ∧ stop ∈ ids := by
  simp [past_eq, ofBounds]

theorem isOpen_iff (w : Window) : w.isOpen ↔ w.started ∧ ¬ w.stopped := by
  simp [isOpen]

theorem isInverted_iff (w : Window) : w.isInverted ↔ w.stopped ∧ ¬ w.started := by
  simp [isInverted]

theorem ofBounds_past_isOpen (start stop : PassId) (ids : List PassId) :
    ((ofBounds start stop).past ids).isOpen ↔
      (start = .none ∨ start ∈ ids) ∧ (stop = .none ∨ stop ∉ ids) := by
  rw [isOpen_iff, ofBounds_past_started, ofBounds_past_stopped, Decidable.not_and_iff_not_or_not,
    Decidable.not_not]

/-! ## Inverted windows -/

/-- Behind an inverted window the stop boundary stays behind, and before it the start boundary was
not there yet: it admits nothing on either side. -/
theorem isOpen_of_isInverted (h : (w.past (ids.take i)).isInverted) (j : Nat) :
    (w.past (ids.take j)).isOpen = false := by
  obtain ⟨hstopped, hstarted⟩ := (isInverted_iff _).mp h
  refine Bool.eq_false_iff.mpr fun hopen => ?_
  rw [isOpen_iff] at hopen
  rcases Nat.le_total j i with hle | hle
  · obtain ⟨between, hb⟩ := List.take_prefix_take_left (l := ids) hle
    rw [← hb, past_append] at hstarted
    exact hstarted (past_keeps_started hopen.1 between)
  · obtain ⟨between, hb⟩ := List.take_prefix_take_left (l := ids) hle
    rw [← hb, past_append] at hopen
    exact hopen.2 (past_keeps_stopped hstopped between)

end Window

namespace Build

/-- A build takes a pass as the window answers: it hands the pass over if the kind is admitted, and
refuses the pipeline if the window refuses. -/
theorem outcome_handOver_answer (p : Pass) (s : Construction) :
    ∃ t, (handOver p).outcome s = (.ok (), t) ∧ t.config.window = s.config.window.advance p.id ∧
      t.config.handed =
        (if (s.config.window.answer p.id).admitted then s.config.handed ++ [p]
          else s.config.handed) ∧
      t.config.refusal =
        if (s.config.window.answer p.id).refused
        then some (.stopBeforeStart (s.session.registry.name s.config.window.stopAfter))
        else s.config.refusal := by
  unfold handOver Window.answer
  simp only [outcome_bind, outcome_config]
  cases ho : s.config.window.isOpen <;> cases hi : (s.config.window.advance p.id).isInverted <;>
    simp [outcome_bind] <;> rfl

end Build

namespace Window

/-- The law of a window, whatever kinds pass through it and whichever boundaries it has. These are
the answers by which a build takes its passes. -/
theorem passage_law (start stop : PassId) (ids : List PassId) :
    (∀ n, ((ofBounds start stop).past (ids.take n)).started ↔ start = .none ∨ start ∈ ids.take n) ∧
    (∀ n, ((ofBounds start stop).past (ids.take n)).stopped ↔ stop ≠ .none ∧ stop ∈ ids.take n) ∧
    ((ofBounds start stop).answers ids).length = ids.length ∧
    (∀ i a, ((ofBounds start stop).answers ids)[i]? = some a →
      (a.admitted ↔ (start = .none ∨ start ∈ ids.take i) ∧ (stop = .none ∨ stop ∉ ids.take i)) ∧
      (a.refused ↔ ((ofBounds start stop).past (ids.take (i + 1))).stopped ∧
        ¬ ((ofBounds start stop).past (ids.take (i + 1))).started)) ∧
    ((∃ a ∈ (ofBounds start stop).answers ids, a.refused) →
      ∀ a ∈ (ofBounds start stop).answers ids, a.admitted = false) ∧
    ∀ (p : Pass) (s : Construction), ∃ t, (Build.handOver p).outcome s = (.ok (), t) ∧
      t.config.window = s.config.window.advance p.id ∧
      t.config.handed =
        (if (s.config.window.answer p.id).admitted then s.config.handed ++ [p]
          else s.config.handed) ∧
      t.config.refusal =
        if (s.config.window.answer p.id).refused
        then some (.stopBeforeStart (s.session.registry.name s.config.window.stopAfter))
        else s.config.refusal := by
  refine ⟨fun n => ofBounds_past_started start stop _, fun n => ofBounds_past_stopped start stop _,
    length_answers _ ids, ?_, ?_, Build.outcome_handOver_answer⟩
  · intro i a ha
    obtain ⟨hadmitted, hrefused⟩ := getElem?_answers_inv ha
    rw [hadmitted, hrefused]
    exact ⟨ofBounds_past_isOpen start stop _, isInverted_iff _⟩
  · rintro ⟨r, hr, hrefused⟩ a ha
    obtain ⟨i, hi⟩ := List.mem_iff_getElem?.mp hr
    obtain ⟨j, hj⟩ := List.mem_iff_getElem?.mp ha
    rw [(getElem?_answers_inv hi).2] at hrefused
    rw [(getElem?_answers_inv hj).1]
    exact isOpen_of_isInverted hrefused j

/-- A window whose stop boundary comes first refuses there and at the kind behind. Its start
boundary then ends the refusals, and nothing is admitted all the same. -/
theorem passage_law_belated :
    let w := ofBounds Standard.gcLowering Standard.basicAliasAnalysis
    let ids := [Standard.typeBasedAliasAnalysis, Standard.basicAliasAnalysis, .none,
      Standard.gcLowering, Standard.stackProtector]
    (w.answers ids).map Answer.refused = [false, true, true, false, false] ∧
      (w.past (ids.take 2)).stopped ∧ ¬ (w.past (ids.take 2)).started ∧
      ∀ a ∈ w.answers ids, a.admitted = false := by
  intro w ids
  obtain ⟨-, -, -, hanswer, hnone, -⟩ :=
    passage_law Standard.gcLowering Standard.basicAliasAnalysis ids
  have hrefused : (w.answers ids)[1]? = some ⟨false, true⟩ := by decide
  obtain ⟨hstopped, hstarted⟩ := (hanswer 1 _ hrefused).2.mp rfl
  exact ⟨by decide, hstopped, hstarted, hnone ⟨_, List.mem_of_getElem? hrefused, rfl⟩⟩

end Window

end PassPipeline
