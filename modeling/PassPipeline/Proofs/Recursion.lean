import PassPipeline.Proofs.Unfolding

/-! Requests inside requests. A request is followed by requests for what was inserted behind it,
and those by others in turn. What holds them is a counter of the requests around, which is compared
with the number of insertions. Here the requests are told by that counter alone, as a relation that
knows of no bound: what it relates are recursions that came to their end. During a build there is
just one for every request. -/
namespace PassPipeline

namespace Construction

/-- The state inside one more request. -/
def nested (s : Construction) : Construction :=
  { s with config := { s.config with nesting := s.config.nesting + 1 } }

/-- The state outside again. -/
def unnested (s : Construction) : Construction :=
  { s with config := { s.config with nesting := s.config.nesting - 1 } }

theorem nested_nesting (s : Construction) : s.nested.config.nesting = s.config.nesting + 1 := rfl

theorem unnested_nesting (s : Construction) : s.unnested.config.nesting = s.config.nesting - 1 :=
  rfl

theorem room_nested (s : Construction) :
    s.nested.config.insertions.length - s.nested.config.nesting =
      s.config.insertions.length - s.config.nesting - 1 :=
  (Nat.sub_sub _ _ _).symm

end Construction

namespace Build

variable {s t : Construction} {id : PassId} {ids : List PassId}

/-- Requests for kinds, one after the other, with the answers and the state they end in. -/
inductive Answers : Construction → List PassId → Except Defect (List PassId) → Construction → Prop
  | nil (s : Construction) : Answers s [] (.ok []) s
  /-- The kind that was asked for cannot be scheduled. -/
  | broken {s t : Construction} {id : PassId} {ids : List PassId} {d : Defect}
    (h : (schedule id).outcome s = (.error d, t)) : Answers s (id :: ids) (.error d) t
  /-- Nothing follows the request: it is suppressed, or nothing was inserted behind it. -/
  | alone {s t u : Construction} {id final : PassId} {ids : List PassId}
    {answers : Except Defect (List PassId)} (h : (schedule id).outcome s = (.ok final, t))
    (hf : final = .none ∨ t.config.insertedAfter id = []) (rest : Answers t ids answers u) :
    Answers s (id :: ids) (answers.map (final :: ·)) u
  /-- There would be more requests inside one another than insertions. -/
  | cut {s t : Construction} {id final : PassId} {ids : List PassId}
    (h : (schedule id).outcome s = (.ok final, t))
    (hf : ¬ (final = .none ∨ t.config.insertedAfter id = []))
    (hc : t.config.insertions.length < t.nested.config.nesting) :
    Answers s (id :: ids) (.error (.insertionCycle (t.session.registry.name id))) t.nested
  /-- One of the requests that follow breaks off. -/
  | interrupted {s t u : Construction} {id final : PassId} {ids : List PassId} {d : Defect}
    (h : (schedule id).outcome s = (.ok final, t))
    (hf : ¬ (final = .none ∨ t.config.insertedAfter id = []))
    (hc : ¬ t.config.insertions.length < t.nested.config.nesting)
    (inside : Answers t.nested (t.config.insertedAfter id) (.error d) u) :
    Answers s (id :: ids) (.error d) u
  | followed {s t u v : Construction} {id final : PassId} {ids finals : List PassId}
    {answers : Except Defect (List PassId)} (h : (schedule id).outcome s = (.ok final, t))
    (hf : ¬ (final = .none ∨ t.config.insertedAfter id = []))
    (hc : ¬ t.config.insertions.length < t.nested.config.nesting)
    (inside : Answers t.nested (t.config.insertedAfter id) (.ok finals) u)
    (rest : Answers u.unnested ids answers v) : Answers s (id :: ids) (answers.map (final :: ·)) v

/-- A kind is scheduled without regard to the requests around, and never found to be on a cycle. -/
theorem schedule_spec (id : PassId) (s : Construction) :
    (∃ y, ((schedule id).outcome s).2.config = s.config.withPlacement y) ∧
      ∀ d, ((schedule id).outcome s).1 = .error d → d.isCycle = false := by
  have hstays : s.config = s.config.withPlacement s.config.placement := rfl
  rw [schedule_eq, outcome_bind_ok (outcome_view _ s)]
  cases s.config.resolve id with
  | error e => exact ⟨⟨_, hstays⟩, fun d hd => by cases hd; rfl⟩
  | ok final =>
    by_cases hn : final = .none
    · simp only [hn, if_true]
      rw [outcome_bind_ok (outcome_nameOf id s), outcome_bind_ok (outcome_trace _ s)]
      exact ⟨⟨_, (s.traced_config _).trans hstays⟩, fun d hd => by cases hd⟩
    · simp only [hn, if_false]
      rw [outcome_bind, outcome_instantiate]
      cases s.session.registry.instantiate final with
      | error e => exact ⟨⟨_, hstays⟩, fun d hd => by cases hd; rfl⟩
      | ok p =>
        dsimp only [Except.mapError]
        by_cases hp : s.config.phase = .building
        · rw [outcome_bind_ok (outcome_place _ hp)]
          exact ⟨⟨_, placed_config s _⟩, fun d hd => by cases hd⟩
        · rw [outcome_bind_error (outcome_place_of_ne _ hp)]
          refine ⟨⟨_, hstays⟩, fun d hd => ?_⟩
          cases hd
          split <;> rfl

theorem schedule_keeps {x : Except Defect PassId} (h : (schedule id).outcome s = (x, t)) :
    t.config.phase = s.config.phase ∧ t.config.insertions = s.config.insertions ∧
      t.config.nesting = s.config.nesting := by
  obtain ⟨⟨y, hy⟩, -⟩ := schedule_spec id s
  rw [h] at hy
  have hc : t.config = s.config.withPlacement y := hy
  rw [hc]
  exact ⟨rfl, rfl, rfl⟩

theorem request_keeps {a : PassId} (hp : s.config.phase = .building)
    (h : (request id).outcome s = (.ok a, t)) :
    t.config.phase = .building ∧ t.config.insertions = s.config.insertions ∧
      t.config.nesting = s.config.nesting := by
  have hstart : s.config = s.config.during s.config.nesting s.config.placement := rfl
  obtain ⟨u, k, ho, -, hu, hk⟩ := Yields.request_nested hp id rfl hstart
  rw [h] at ho
  cases hx : (s.config.unfold s.session.registry
      (s.config.insertions.length - s.config.nesting) id).ending with
  | error d => simp [hx] at ho
  | ok b =>
    obtain rfl : u = t := (Prod.ext_iff.mp ho).2.symm
    rw [hu, hk (by rw [hx]; rfl)]
    exact ⟨hp, rfl, rfl⟩

theorem outcome_request_room (id : PassId) (s : Construction) :
    (request id).outcome s =
      (requestWithin (s.config.insertions.length - s.config.nesting) id).outcome s := by
  rw [request_eq, outcome_bind_ok (outcome_view _ s)]

theorem mapM_discard (f : PassId → Build PassId) (ids : List PassId) :
    (ids.forM fun id => discard (f id)) = ids.mapM f >>= fun _ => pure () := by
  induction ids with
  | nil => simp
  | cons id ids ih =>
    simp only [List.forM_eq_forM, List.forM_cons, discard_eq, List.mapM_cons, bind_assoc,
      pure_bind] at ih ⊢
    rw [ih]

theorem mapM_request_ok {final : PassId} {u : Construction} {answers : Except Defect (List PassId)}
    (h : (request id).outcome s = (.ok final, t))
    (hrest : (ids.mapM request).outcome t = (answers, u)) :
    ((id :: ids).mapM request).outcome s = (answers.map (final :: ·), u) := by
  rw [List.mapM_cons, outcome_bind_ok h, outcome_bind, hrest]
  cases answers <;> rfl

theorem mapM_request_error {d : Defect} (h : (request id).outcome s = (.error d, t)) :
    ((id :: ids).mapM request).outcome s = (.error d, t) := by
  rw [List.mapM_cons, outcome_bind_error h]

/-- Bounded requests one after the other are requests one after the other: each of them finds as
much room as the one before. -/
theorem mapM_requestWithin {room : Nat} (hp : s.config.phase = .building)
    (hr : s.config.insertions.length - s.config.nesting = room) (ids : List PassId) :
    (ids.mapM (requestWithin room)).outcome s = (ids.mapM request).outcome s := by
  induction ids generalizing s with
  | nil => rfl
  | cons id ids ih =>
    have hid : (requestWithin room id).outcome s = (request id).outcome s := by
      rw [outcome_request_room, hr]
    rw [List.mapM_cons, List.mapM_cons, outcome_bind, outcome_bind, hid]
    rcases ho : (request id).outcome s with ⟨d | a, t⟩
    · rfl
    · obtain ⟨hpt, hit, hnt⟩ := request_keeps hp ho
      have hrest := ih hpt (by rw [hit, hnt, hr])
      simp only [outcome_bind, hrest]

/-- A request is followed by requests that are counted in and, if they end well, counted out. -/
theorem outcome_requestBy (inner : Option (PassId → Build PassId)) (id : PassId)
    (s : Construction) : (requestBy inner id).outcome s =
      match (schedule id).outcome s with
      | (.error d, t) => (.error d, t)
      | (.ok final, t) =>
        if final = .none ∨ t.config.insertedAfter id = [] then (.ok final, t)
        else match inner with
          | none => (.error (.insertionCycle (t.session.registry.name id)), t.nested)
          | some request =>
            match ((t.config.insertedAfter id).mapM request).outcome t.nested with
            | (.error d, u) => (.error d, u)
            | (.ok _, u) => (.ok final, u.unnested) := by
  rw [requestBy, outcome_bind]
  rcases (schedule id).outcome s with ⟨d | final, t⟩
  · rfl
  · dsimp only
    by_cases hn : final = .none
    · simp [hn]
    · rw [if_pos hn, follow_eq, bind_assoc, outcome_bind_ok (outcome_view _ t)]
      by_cases hi : t.config.insertedAfter id = []
      · simp [hi]
      · have hempty : ¬ (t.config.insertedAfter id).isEmpty = true := by simpa using hi
        have hstop : ¬ (final = .none ∨ t.config.insertedAfter id = []) := by simp [hn, hi]
        rw [if_neg hempty, if_neg hstop, bind_assoc, outcome_bind_ok (outcome_modifyConfig _ t)]
        cases inner with
        | none => rfl
        | some request =>
          simp only [mapM_discard, bind_assoc, pure_bind]
          rcases ho : ((t.config.insertedAfter id).mapM request).outcome t.nested with
            ⟨d | finals, u⟩
          · exact outcome_bind_error ho
          · exact (outcome_bind_ok ho).trans rfl

theorem outcome_request (hp : s.config.phase = .building) (id : PassId) :
    (request id).outcome s =
      match (schedule id).outcome s with
      | (.error d, t) => (.error d, t)
      | (.ok final, t) =>
        if final = .none ∨ t.config.insertedAfter id = [] then (.ok final, t)
        else if t.config.insertions.length < t.nested.config.nesting then
          (.error (.insertionCycle (t.session.registry.name id)), t.nested)
        else
          match ((t.config.insertedAfter id).mapM request).outcome t.nested with
          | (.error d, u) => (.error d, u)
          | (.ok _, u) => (.ok final, u.unnested) := by
  rw [outcome_request_room]
  cases hroom : s.config.insertions.length - s.config.nesting with
  | zero =>
    rw [requestWithin, outcome_requestBy]
    rcases hs : (schedule id).outcome s with ⟨d | final, t⟩
    · rfl
    · obtain ⟨-, hi, hn⟩ := schedule_keeps hs
      have hcut : t.config.insertions.length < t.nested.config.nesting := by
        rw [t.nested_nesting, hi, hn]
        omega
      dsimp only
      rw [if_pos hcut]
  | succ room =>
    rw [requestWithin, outcome_requestBy]
    rcases hs : (schedule id).outcome s with ⟨d | final, t⟩
    · rfl
    · obtain ⟨hphase, hi, hn⟩ := schedule_keeps hs
      have hcut : ¬ t.config.insertions.length < t.nested.config.nesting := by
        rw [t.nested_nesting, hi, hn]
        omega
      have hleft : t.nested.config.insertions.length - t.nested.config.nesting = room := by
        rw [t.room_nested, hi, hn]
        omega
      dsimp only
      rw [if_neg hcut, mapM_requestWithin (s := t.nested) (hphase.trans hp) hleft]

namespace Answers

variable {x : Except Defect (List PassId)}

/-- What requests keep, whether they end well or not. A request that breaks off
behind another one stays counted. -/
theorem keeps (h : Answers s ids x t) :
    t.config.phase = s.config.phase ∧ t.config.insertions = s.config.insertions ∧
      s.config.nesting ≤ t.config.nesting ∧ (x.isOk → t.config.nesting = s.config.nesting) := by
  induction h with
  | nil s => exact ⟨rfl, rfl, Nat.le_refl _, fun _ => rfl⟩
  | broken h =>
    obtain ⟨hp, hi, hn⟩ := schedule_keeps h
    exact ⟨hp, hi, Nat.le_of_eq hn.symm, fun hx => by cases hx⟩
  | @alone s t u id final ids answers h _ _ ih =>
    obtain ⟨hp, hi, hn⟩ := schedule_keeps h
    obtain ⟨hp', hi', hle, hok⟩ := ih
    refine ⟨hp'.trans hp, hi'.trans hi, by omega, fun hx => ?_⟩
    cases answers with
    | error d => cases hx
    | ok finals => rw [hok rfl, hn]
  | @cut s t id final ids h =>
    obtain ⟨hp, hi, hn⟩ := schedule_keeps h
    have hin := t.nested_nesting
    exact ⟨hp, hi, by omega, fun hx => by cases hx⟩
  | @interrupted s t u id final ids d h _ _ _ ih =>
    obtain ⟨hp, hi, hn⟩ := schedule_keeps h
    obtain ⟨hp', hi', hle, -⟩ := ih
    have hin := t.nested_nesting
    exact ⟨hp'.trans hp, hi'.trans hi, by omega, fun hx => by cases hx⟩
  | @followed s t u v id final ids finals answers h _ _ _ _ ihi ihr =>
    obtain ⟨hp, hi, hn⟩ := schedule_keeps h
    obtain ⟨hpi, hii, -, hin⟩ := ihi
    obtain ⟨hpr, hir, hle, hok⟩ := ihr
    have hout : u.unnested.config.nesting = t.config.nesting := by
      rw [u.unnested_nesting, hin rfl, t.nested_nesting, Nat.add_sub_cancel]
    refine ⟨hpr.trans (hpi.trans hp), hir.trans (hii.trans hi), by omega, fun hx => ?_⟩
    cases answers with
    | error d => cases hx
    | ok finals => rw [hok rfl, hout, hn]

theorem nesting_lt {d : Defect} {final : PassId} {u : Construction}
    (h : Answers s [id] (.error d) t) (hs : (schedule id).outcome s = (.ok final, u)) :
    s.config.nesting < t.config.nesting := by
  generalize hx : (Except.error d : Except Defect (List PassId)) = x at h
  cases h with
  | broken h => cases hs.symm.trans h
  | alone h hf rest =>
    cases rest
    cases hx
  | @cut _ v _ final' _ h =>
    have hn := (schedule_keeps h).2.2
    have hin := v.nested_nesting
    omega
  | @interrupted _ v _ _ final' _ d' h hf hc inside =>
    have hn := (schedule_keeps h).2.2
    have hin := v.nested_nesting
    have hle := inside.keeps.2.2.1
    omega
  | followed h hf hc inside rest =>
    cases rest
    cases hx

/-- Requests come to an end. The induction is on the room that the counter leaves of the
insertions, and within it on the requests: those that follow one have less room, and
those after it have the same. -/
theorem exists_of_building (hp : s.config.phase = .building) (ids : List PassId) :
    ∃ x t, Answers s ids x t := by
  induction hroom : s.config.insertions.length - s.config.nesting using Nat.strongRecOn
    generalizing s ids with
  | ind room ihroom =>
  induction ids generalizing s with
  | nil => exact ⟨_, _, .nil s⟩
  | cons id ids ih =>
    rcases hs : (schedule id).outcome s with ⟨d | final, t⟩
    · exact ⟨_, _, .broken hs⟩
    obtain ⟨hphase, hi, hn⟩ := schedule_keeps hs
    have hpt : t.config.phase = .building := hphase.trans hp
    have ht : t.config.insertions.length - t.config.nesting = room := by rw [hi, hn, hroom]
    by_cases hf : final = .none ∨ t.config.insertedAfter id = []
    · obtain ⟨x, u, hrest⟩ := ih hpt ht
      exact ⟨_, _, .alone hs hf hrest⟩
    by_cases hc : t.config.insertions.length < t.nested.config.nesting
    · exact ⟨_, _, .cut hs hf hc⟩
    have hleft : t.nested.config.insertions.length - t.nested.config.nesting < room := by
      have hin := t.nested_nesting
      rw [t.room_nested]
      omega
    obtain ⟨x, u, hinside⟩ := ihroom _ hleft (s := t.nested) hpt (t.config.insertedAfter id) rfl
    cases x with
    | error d => exact ⟨_, _, .interrupted hs hf hc hinside⟩
    | ok finals =>
      obtain ⟨hpu, hiu, -, hnu⟩ := hinside.keeps
      have hout : u.unnested.config.insertions.length - u.unnested.config.nesting = room := by
        have hin : u.config.nesting = t.config.nesting + 1 := hnu rfl
        rw [u.unnested_nesting, hin, Nat.add_sub_cancel, ← ht]
        exact congrArg (·.length - t.config.nesting) hiu
      obtain ⟨y, v, hrest⟩ := ih (s := u.unnested) (hpu.trans hpt) hout
      exact ⟨_, _, .followed hs hf hc hinside hrest⟩

theorem outcome_mapM (h : Answers s ids x t) (hp : s.config.phase = .building) :
    (ids.mapM request).outcome s = (x, t) := by
  induction h with
  | nil s => rfl
  | broken h => exact mapM_request_error (by rw [outcome_request hp, h])
  | alone h hf _ ih =>
    refine mapM_request_ok ?_ (ih ((schedule_keeps h).1.trans hp))
    rw [outcome_request hp, h]
    exact if_pos hf
  | cut h hf hc =>
    refine mapM_request_error ?_
    rw [outcome_request hp, h]
    dsimp only
    rw [if_neg hf, if_pos hc]
  | interrupted h hf hc _ ih =>
    refine mapM_request_error ?_
    rw [outcome_request hp, h]
    dsimp only
    rw [if_neg hf, if_neg hc, ih ((schedule_keeps h).1.trans hp)]
  | followed h hf hc inside _ ihi ihr =>
    have hin := (schedule_keeps h).1.trans hp
    refine mapM_request_ok ?_ (ihr (inside.keeps.1.trans hin))
    rw [outcome_request hp, h]
    dsimp only
    rw [if_neg hf, if_neg hc, ihi hin]

end Answers

/-- During a build a request is a recursion that comes to its end, in one way only. -/
theorem answers_iff {answer : Except Defect PassId} (hp : s.config.phase = .building) :
    Answers s [id] (answer.map ([·])) t ↔ (request id).outcome s = (answer, t) := by
  have hone : ([id].mapM request).outcome s =
      (((request id).outcome s).1.map ([·]), ((request id).outcome s).2) := by
    rw [List.mapM_cons, outcome_bind]
    rcases (request id).outcome s with ⟨d | final, u⟩ <;> rfl
  constructor
  · intro h
    have heq := h.outcome_mapM hp
    rw [hone] at heq
    rcases ho : (request id).outcome s with ⟨d | final, u⟩
    all_goals
      rw [ho] at heq
      cases answer <;> cases heq
      rfl
  · intro h
    obtain ⟨x, u, hx⟩ := Answers.exists_of_building hp [id]
    have heq := hx.outcome_mapM hp
    rw [hone, h] at heq
    cases heq
    exact hx

end Build

end PassPipeline
