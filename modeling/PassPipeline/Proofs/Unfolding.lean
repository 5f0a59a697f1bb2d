import Mathlib.Data.List.Perm.Subperm
import PassPipeline.Proofs.Pervasive

/-! What a request unfolds into. During a build a request depends on the configuration only, not on
the passes before it: which passes it places, one after the other, and how it ends. Room for
requests inside one another only matters up to the number of insertions. -/
namespace PassPipeline

/-- Whether insertions were found to lead back to where they began. -/
def Defect.isCycle : Defect → Bool
  | .insertionCycle _ => true
  | _ => false

/-- The passes that some work places, and how it ends. -/
structure Unfolding (α : Type) where
  passes : List Pass := []
  ending : Except Defect α

namespace Unfolding

variable {α β : Type}

/-- One after the other. Behind a defect there is nothing more. -/
def bind (x : Unfolding α) (f : α → Unfolding β) : Unfolding β :=
  match x.ending with
  | .ok a => { passes := x.passes ++ (f a).passes, ending := (f a).ending }
  | .error d => { passes := x.passes, ending := .error d }

theorem bind_ok {x : Unfolding α} {f : α → Unfolding β} {a : α} (h : x.ending = .ok a) :
    x.bind f = { passes := x.passes ++ (f a).passes, ending := (f a).ending } := by
  simp [bind, h]

theorem bind_error {x : Unfolding α} {f : α → Unfolding β} {d : Defect} (h : x.ending = .error d) :
    x.bind f = { passes := x.passes, ending := .error d } := by
  simp [bind, h]

/-- Whether the work broke off because requests were too deep inside one another. -/
def lacksRoom (x : Unfolding α) : Bool :=
  match x.ending with
  | .error d => d.isCycle
  | .ok _ => false

theorem lacksRoom_of_ok {x : Unfolding α} {a : α} (h : x.ending = .ok a) : x.lacksRoom = false := by
  simp [lacksRoom, h]

theorem error_of_lacksRoom {x : Unfolding α} (h : x.lacksRoom) :
    ∃ d, x.ending = .error d ∧ d.isCycle := by
  unfold lacksRoom at h
  split at h
  · exact ⟨_, ‹_›, h⟩
  · cases h

theorem lacksRoom_of_error {x : Unfolding α} {d : Defect} (h : x.ending = .error d)
    (hd : d.isCycle) : x.lacksRoom := by
  simpa [lacksRoom, h] using hd

theorem lacksRoom_bind_ok {x : Unfolding α} {f : α → Unfolding β} {a : α} (h : x.ending = .ok a) :
    (x.bind f).lacksRoom = (f a).lacksRoom := by
  simp [lacksRoom, bind_ok h]

theorem lacksRoom_bind_error {x : Unfolding α} {f : α → Unfolding β} {d : Defect}
    (h : x.ending = .error d) : (x.bind f).lacksRoom = x.lacksRoom := by
  simp [lacksRoom, bind_error h, h]

/-- Unfoldings of kinds one after the other. -/
def all (f : PassId → Unfolding PassId) : List PassId → Unfolding Unit
  | [] => { ending := .ok () }
  | id :: ids => (f id).bind fun _ => all f ids

variable {f g : PassId → Unfolding PassId} {ids : List PassId}

/-- What does not lack room with `f` is the same with every `g` that has more room. -/
theorem all_eq_of_room (hfg : ∀ id, (f id).lacksRoom = false → g id = f id)
    (h : (all f ids).lacksRoom = false) : all g ids = all f ids := by
  induction ids with
  | nil => rfl
  | cons id ids ih =>
    rcases hf : (f id).ending with d | a
    · rw [all, lacksRoom_bind_error hf] at h
      simp [all, hfg id h, bind_error hf]
    · rw [all, lacksRoom_bind_ok hf] at h
      simp [all, hfg id (lacksRoom_of_ok hf), bind_ok hf, ih h]

theorem exists_of_lacksRoom_all (hfg : ∀ id, (f id).lacksRoom = false → g id = f id)
    (hf : (all f ids).lacksRoom) (hg : (all g ids).lacksRoom = false) :
    ∃ id ∈ ids, (f id).lacksRoom ∧ (g id).lacksRoom = false := by
  induction ids with
  | nil => cases hf
  | cons id ids ih =>
    rcases he : (f id).ending with d | a
    · rw [all, lacksRoom_bind_error he] at hf
      refine ⟨id, by simp, hf, ?_⟩
      rcases he' : (g id).ending with d' | b
      · rwa [all, lacksRoom_bind_error he'] at hg
      · exact lacksRoom_of_ok he'
    · have hg' : (g id).ending = .ok a := by rw [hfg id (lacksRoom_of_ok he), he]
      rw [all, lacksRoom_bind_ok he] at hf
      rw [all, lacksRoom_bind_ok hg'] at hg
      obtain ⟨y, hy, h⟩ := ih hf hg
      exact ⟨y, List.mem_cons_of_mem id hy, h⟩

end Unfolding

namespace Config

variable (c : Config) (r : Registry)

/-- What a request places before what follows it. -/
def scheduled (id : PassId) : Unfolding PassId :=
  match c.resolve id with
  | .error e => { ending := .error (.override e (r.name id)) }
  | .ok final =>
    if final = .none then { ending := .ok final }
    else match r.instantiate final with
      | .error e => { ending := .error (.registry e) }
      | .ok p => { passes := [p.withSink c.sink], ending := .ok final }

/-- A request and what follows it. Nothing follows a request that was suppressed. -/
def unfoldBy (id : PassId) (followed : Unfolding Unit) : Unfolding PassId :=
  (c.scheduled r id).bind fun final =>
    if final = .none then { ending := .ok final }
    else followed.bind fun _ => { ending := .ok final }

/-- What a request unfolds into, with room for `room` more requests inside one another. -/
def unfold : (room : Nat) → PassId → Unfolding PassId
  | 0, id => c.unfoldBy r id
    { ending := if (c.insertedAfter id).isEmpty then .ok ()
      else .error (.insertionCycle (r.name id)) }
  | room + 1, id => c.unfoldBy r id (.all (unfold room) (c.insertedAfter id))

/-- A request that leads to a pass. -/
def Schedules (id : PassId) : Prop := ∃ final, (c.scheduled r id).ending = .ok final ∧ final ≠ .none

variable {c r} {id : PassId} {x y : Unfolding Unit} {room more : Nat}

theorem lacksRoom_scheduled : (c.scheduled r id).lacksRoom = false := by
  unfold scheduled
  split
  · rfl
  · split
    · rfl
    · split <;> rfl

theorem unfoldBy_of_schedules {final : PassId} (h : (c.scheduled r id).ending = .ok final)
    (hn : final ≠ .none) (x : Unfolding Unit) :
    c.unfoldBy r id x =
      { passes := (c.scheduled r id).passes ++ x.passes,
        ending := x.ending.map fun _ => final } := by
  rw [unfoldBy, Unfolding.bind_ok h, if_neg hn]
  rcases hx : x.ending with d | _
  · simp [Unfolding.bind_error hx, Except.map]
  · simp [Unfolding.bind_ok hx, Except.map]

theorem unfoldBy_of_not_schedules (h : ¬ c.Schedules r id) (x : Unfolding Unit) :
    c.unfoldBy r id x = c.scheduled r id := by
  rw [unfoldBy]
  rcases hs : (c.scheduled r id).ending with d | final
  · rw [Unfolding.bind_error hs, ← hs]
  · have hn : final = .none := by_contra fun hn => h ⟨final, hs, hn⟩
    rw [Unfolding.bind_ok hs, if_pos hn, List.append_nil, ← hs]

/-- Only what follows a request can lack room, and only if the request leads to a pass. -/
theorem lacksRoom_unfoldBy :
    (c.unfoldBy r id x).lacksRoom ↔ c.Schedules r id ∧ x.lacksRoom := by
  by_cases h : c.Schedules r id
  · obtain ⟨final, hf, hn⟩ := h
    rw [unfoldBy_of_schedules hf hn]
    rcases hx : x.ending with d | _
    · simp [Unfolding.lacksRoom, hx, Except.map, show c.Schedules r id from ⟨final, hf, hn⟩]
    · simp [Unfolding.lacksRoom, hx, Except.map]
  · rw [unfoldBy_of_not_schedules h, lacksRoom_scheduled]
    simp [h]

theorem unfoldBy_eq_of_room (h : (c.unfoldBy r id x).lacksRoom = false)
    (hxy : x.lacksRoom = false → y = x) : c.unfoldBy r id y = c.unfoldBy r id x := by
  by_cases hs : c.Schedules r id
  · rw [hxy]
    by_contra hx
    rw [lacksRoom_unfoldBy.mpr ⟨hs, by simpa using hx⟩] at h
    cases h
  · rw [unfoldBy_of_not_schedules hs, unfoldBy_of_not_schedules hs]

theorem unfold_succ_of_room (h : (c.unfold r room id).lacksRoom = false) :
    c.unfold r (room + 1) id = c.unfold r room id := by
  induction room generalizing id with
  | zero =>
    refine unfoldBy_eq_of_room h fun hx => ?_
    cases hi : c.insertedAfter id with
    | nil => rfl
    | cons => simp [hi, Unfolding.lacksRoom, Defect.isCycle] at hx
  | succ room ih =>
    exact unfoldBy_eq_of_room h fun hx => Unfolding.all_eq_of_room (fun id => ih) hx

theorem unfold_of_le (h : (c.unfold r room id).lacksRoom = false) (hle : room ≤ more) :
    c.unfold r more id = c.unfold r room id := by
  induction hle with
  | refl => rfl
  | step _ ih => rw [unfold_succ_of_room (by rwa [ih]), ih]

theorem exists_follower (h : (c.unfold r (room + 1) id).lacksRoom)
    (h' : (c.unfold r (room + 2) id).lacksRoom = false) :
    ∃ y ∈ c.insertedAfter id,
      (c.unfold r room y).lacksRoom ∧ (c.unfold r (room + 1) y).lacksRoom = false := by
  obtain ⟨hs, hx⟩ := lacksRoom_unfoldBy.mp h
  refine Unfolding.exists_of_lacksRoom_all (fun id => unfold_succ_of_room) hx ?_
  by_contra hx'
  rw [unfold, lacksRoom_unfoldBy.mpr ⟨hs, by simpa using hx'⟩] at h'
  cases h'

theorem mem_anchors_of_lacksRoom (h : (c.unfold r room id).lacksRoom) :
    id ∈ c.insertions.map Insertion.anchor := by
  by_contra hn
  have hi : c.insertedAfter id = [] := by
    simp only [insertedAfter, List.map_eq_nil_iff, List.filter_eq_nil_iff]
    intro i hi ha
    exact hn (List.mem_map.mpr ⟨i, hi, by simpa using ha⟩)
  cases room with
  | zero => simpa [hi, Unfolding.lacksRoom] using (lacksRoom_unfoldBy.mp h).2
  | succ room => simpa [hi, Unfolding.lacksRoom, Unfolding.all] using (lacksRoom_unfoldBy.mp h).2

/-- Room just lacks only up to the number of insertions: the kinds on the way down, each with its
own depth, are different anchors. -/
theorem room_lt_of_just_lacking (h : (c.unfold r room id).lacksRoom)
    (h' : (c.unfold r (room + 1) id).lacksRoom = false) : room < c.insertions.length := by
  have hpath : ∃ path : List PassId, path.length = room + 1 ∧ path.Nodup ∧
      path ⊆ c.insertions.map Insertion.anchor ∧
      ∀ z ∈ path, (c.unfold r (room + 1) z).lacksRoom = false := by
    induction room generalizing id with
    | zero =>
      exact ⟨[id], rfl, by simp, by simpa using mem_anchors_of_lacksRoom h, by simpa using h'⟩
    | succ room ih =>
      obtain ⟨y, -, hy, hy'⟩ := exists_follower h h'
      obtain ⟨path, hlen, hnodup, hsub, hroom⟩ := ih hy hy'
      refine ⟨id :: path, by simp [hlen], List.nodup_cons.mpr ⟨?_, hnodup⟩,
        List.cons_subset.mpr ⟨mem_anchors_of_lacksRoom h, hsub⟩, ?_⟩
      · intro hid
        rw [hroom id hid] at h
        cases h
      · intro z hz
        rcases List.mem_cons.mp hz with rfl | hz
        · exact h'
        · rw [unfold_succ_of_room (hroom z hz)]
          exact hroom z hz
  obtain ⟨path, hlen, hnodup, hsub, -⟩ := hpath
  have hle := (List.subperm_of_subset hnodup hsub).length_le
  rw [List.length_map] at hle
  omega

/-- What unfolds with any room at all unfolds with as much as there are insertions. -/
theorem unfold_length_of_room (h : (c.unfold r room id).lacksRoom = false) :
    c.unfold r c.insertions.length id = c.unfold r room id := by
  rcases Nat.le_total room c.insertions.length with hle | hle
  · exact unfold_of_le h hle
  · have hdown : (c.unfold r c.insertions.length id).lacksRoom = false := by
      induction hle with
      | refl => exact h
      | step hle ih =>
        refine ih ?_
        by_contra hl
        have hlt := room_lt_of_just_lacking (by simpa using hl) h
        exact absurd hlt (Nat.not_lt.mpr hle)
    exact (unfold_of_le hdown hle).symm

end Config

namespace Build

variable {α β : Type} {r : Registry} {c : Config} {k : Nat}

/-- During a build of `c`, with `k` requests around it, some work comes to an unfolding. -/
def Yields (r : Registry) (c : Config) (k : Nat) (m : Build α) (x : Unfolding α) : Prop :=
  ∀ ⦃s y⦄, s.session.registry = r → s.config = c.during k y →
    ∃ t k', m.outcome s = (x.ending, t) ∧ t.session = s.session ∧
      t.config = c.during k' (y.takeAll r x.passes) ∧ (x.ending.isOk → k' = k)

namespace Yields

theorem pure (a : α) : Yields r c k (pure a) { ending := .ok a } :=
  fun s _ _ hc => ⟨s, k, rfl, rfl, hc, fun _ => rfl⟩

theorem bind {m : Build α} {f : α → Build β} {x : Unfolding α} {g : α → Unfolding β}
    (hm : Yields r c k m x) (hf : ∀ a, x.ending = .ok a → Yields r c k (f a) (g a)) :
    Yields r c k (m >>= f) (x.bind g) := by
  intro s y hr hc
  obtain ⟨t, k', ho, ht, htc, hk⟩ := hm hr hc
  rcases hx : x.ending with d | a
  · rw [hx] at ho
    rw [Unfolding.bind_error hx]
    exact ⟨t, k', outcome_bind_error ho, ht, htc, fun h => by cases h⟩
  · rw [hx] at ho hk
    obtain rfl := hk rfl
    obtain ⟨u, k'', ho', hu, huc, hk'⟩ := hf a hx (by rw [ht, hr]) htc
    rw [Unfolding.bind_ok hx]
    refine ⟨u, k'', (outcome_bind_ok ho).trans ho', hu.trans ht, ?_, hk'⟩
    rw [huc, Placement.takeAll, Placement.takeAll, Placement.takeAll, List.foldl_append]

theorem view_bind {g : Config → α} {f : α → Build β} {x : Unfolding β}
    (h : Yields r c k (f (g (c.during k c.placement))) x)
    (hg : ∀ y, g (c.during k y) = g (c.during k c.placement)) : Yields r c k (view g >>= f) x := by
  intro s y hr hc
  obtain ⟨t, k', ho, h⟩ := h hr hc
  exact ⟨t, k', by rw [outcome_bind_ok (outcome_view g s), hc, hg, ho], h⟩

theorem place (hc : c.phase = .building) (p : Pass) :
    Yields r c k (place p) { passes := [p], ending := .ok () } := by
  intro s y hr hs
  have hp : s.config.phase = .building := by rw [hs]; exact hc
  refine ⟨placed s p, k, outcome_place p hp, placed_session s p, ?_, fun _ => rfl⟩
  rw [placed_config, hr, hs]
  rfl

theorem schedule (hc : c.phase = .building) (id : PassId) :
    Yields r c k (schedule id) (c.scheduled r id) := by
  rw [schedule_eq]
  refine view_bind ?_ fun _ => rfl
  have hres : (c.during k c.placement).resolve id = c.resolve id := rfl
  dsimp only
  rw [hres]
  unfold Config.scheduled
  cases c.resolve id with
  | error e =>
    intro s y hr hs
    exact ⟨s, k, by rw [← hr]; rfl, rfl, hs, fun _ => rfl⟩
  | ok final =>
    dsimp only
    split
    · intro s y hr hs
      rw [outcome_bind_ok (outcome_nameOf id s), outcome_bind_ok (outcome_trace _ s)]
      exact ⟨_, k, rfl, s.traced_session _, (s.traced_config _).trans hs, fun _ => rfl⟩
    · intro s y hr hs
      rw [outcome_bind, outcome_instantiate, hr]
      cases r.instantiate final with
      | error e => exact ⟨s, k, rfl, rfl, hs, fun _ => rfl⟩
      | ok p => exact (place hc _).bind (fun _ _ => pure final) hr hs

theorem nested {m : Build Unit} {x : Unfolding Unit} (h : Yields r c (k + 1) m x) :
    Yields r c k (modifyConfig (fun c => { c with nesting := c.nesting + 1 }) >>= fun _ =>
      m >>= fun _ => modifyConfig fun c => { c with nesting := c.nesting - 1 }) x := by
  intro s y hr hs
  have hin : { s.config with nesting := s.config.nesting + 1 } = c.during (k + 1) y := by
    rw [hs]
    rfl
  obtain ⟨t, k', ho, ht, htc, hk⟩ := h (s := { s with
    config := { s.config with nesting := s.config.nesting + 1 } }) hr hin
  rw [outcome_bind_ok (outcome_modifyConfig _ s)]
  rcases hx : x.ending with d | _
  · rw [hx] at ho
    exact ⟨t, k', outcome_bind_error ho, ht, htc, fun h => by cases h⟩
  · rw [hx] at ho hk
    refine ⟨_, k, (outcome_bind_ok ho).trans (outcome_modifyConfig _ t), ht, ?_, fun _ => rfl⟩
    rw [htc, hk rfl]
    rfl

section requests

variable {request : PassId → Build PassId} {f : PassId → Unfolding PassId} {id : PassId}

theorem forM_discard (h : ∀ id, Yields r c k (request id) (f id)) (ids : List PassId) :
    Yields r c k (ids.forM fun id => discard (request id)) (.all f ids) := by
  induction ids with
  | nil => exact pure ()
  | cons id ids ih =>
    have heq : ((id :: ids).forM fun id => discard (request id)) =
        request id >>= fun _ => ids.forM fun id => discard (request id) := by
      simp [discard_eq]
    rw [heq]
    exact (h id).bind fun _ _ => ih

theorem follow_some (h : ∀ id, Yields r c (k + 1) (request id) (f id)) :
    Yields r c k (follow (some request) id) (.all f (c.insertedAfter id)) := by
  rw [follow_eq]
  refine view_bind ?_ fun _ => rfl
  have hi : (c.during k c.placement).insertedAfter id = c.insertedAfter id := rfl
  rw [hi]
  by_cases he : c.insertedAfter id = []
  · simpa [he, Unfolding.all] using pure ()
  · rw [if_neg (by simpa using he)]
    exact nested (forM_discard h _)

theorem follow_none :
    Yields r c k (follow none id)
      { ending := if (c.insertedAfter id).isEmpty then .ok ()
          else .error (.insertionCycle (r.name id)) } := by
  rw [follow_eq]
  refine view_bind ?_ fun _ => rfl
  have hi : (c.during k c.placement).insertedAfter id = c.insertedAfter id := rfl
  rw [hi]
  split
  · exact pure ()
  · refine nested fun s y hr hs => ?_
    exact ⟨s, k + 1, by rw [← hr]; rfl, rfl, hs, fun _ => rfl⟩

theorem requestBy (hc : c.phase = .building) {inner : Option (PassId → Build PassId)}
    {x : Unfolding Unit} (h : Yields r c k (follow inner id) x) :
    Yields r c k (requestBy inner id) (c.unfoldBy r id x) := by
  refine (schedule hc id).bind fun final _ => ?_
  by_cases hn : final = .none
  · simpa [hn] using pure final
  · simpa [hn] using h.bind fun _ _ => pure final

end requests

/-- The bounded requests of a build are just the bounded unfoldings. -/
theorem requestWithin (hc : c.phase = .building) (room : Nat) (id : PassId) :
    Yields r c k (requestWithin room id) (c.unfold r room id) := by
  induction room generalizing id k with
  | zero => exact requestBy hc follow_none
  | succ room ih => exact requestBy hc (follow_some ih)

/-- The room that is left is what the counter leaves of the insertions. -/
theorem request_nested (hc : c.phase = .building) (id : PassId) :
    Yields r c k (Build.request id) (c.unfold r (c.insertions.length - k) id) := by
  rw [request_eq]
  exact view_bind (requestWithin hc (c.insertions.length - k) id) fun _ => rfl

theorem request (hc : c.phase = .building) (id : PassId) :
    Yields r c 0 (Build.request id) (c.unfold r c.insertions.length id) :=
  request_nested hc id

end Yields

end Build

end PassPipeline
