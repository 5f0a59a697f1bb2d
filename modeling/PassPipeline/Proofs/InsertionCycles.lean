import PassPipeline.Proofs.Expansion
import PassPipeline.Proofs.Recursion

/-! When insertions are said to form a cycle. A request raises this alarm where it finds more
requests inside one another than there are insertions. During a build in which none was broken off,
that is just where the insertions lead back to a kind. -/
namespace PassPipeline

theorem Unfolding.all_error {f : PassId → Unfolding PassId} {ids : List PassId} {id : PassId}
    {d : Defect} (hid : id ∈ ids) (h : (f id).ending = .error d) :
    ∃ d', (all f ids).ending = .error d' := by
  induction ids with
  | nil => cases hid
  | cons y ids ih =>
    rcases hy : (f y).ending with d' | a
    · exact ⟨d', by rw [all, bind_error hy]⟩
    · rcases List.mem_cons.mp hid with rfl | hid
      · cases hy.symm.trans h
      · obtain ⟨d', hd⟩ := ih hid
        exact ⟨d', by rw [all, bind_ok hy, hd]⟩

namespace Config

variable {c : Config} {r : Registry} {id : PassId} {room : Nat}

/-- A way down of so many insertions. -/
def Descends (c : Config) : Nat → PassId → Prop
  | 0, _ => True
  | n + 1, id => ∃ y, c.Follows id y ∧ c.Descends n y

/-- From a kind that comes back behind itself one can go down for ever. -/
theorem descends_of_recurs {x : PassId} (hx : c.Recurs x) (h : c.Reaches id x) (n : Nat) :
    c.Descends n id := by
  induction n generalizing id with
  | zero => trivial
  | succ n ih =>
    rcases Relation.ReflTransGen.cases_head h with rfl | ⟨y, hy, hreach⟩
    · obtain ⟨y, hy, hreach⟩ := Relation.TransGen.head'_iff.mp hx
      exact ⟨y, hy, ih hreach⟩
    · exact ⟨y, hy, ih hreach⟩

theorem descends_of_lacksRoom (h : (c.unfold r room id).lacksRoom) : c.Descends (room + 1) id := by
  induction room generalizing id with
  | zero =>
    obtain ⟨hs, hx⟩ := lacksRoom_unfoldBy.mp h
    cases hi : c.insertedAfter id with
    | nil => simp [hi, Unfolding.lacksRoom] at hx
    | cons y ys => exact ⟨y, hs.follows (by simp [hi]), trivial⟩
  | succ room ih =>
    obtain ⟨hs, hx⟩ := lacksRoom_unfoldBy.mp h
    obtain ⟨d, hd, hcycle⟩ := Unfolding.error_of_lacksRoom hx
    obtain ⟨y, hy, hyd⟩ := Unfolding.exists_of_all_error hd
    exact ⟨y, hs.follows hy, ih (Unfolding.lacksRoom_of_error hyd hcycle)⟩

theorem Follows.schedules {y : PassId} (h : c.Follows id y) (hm : c.Met r id) :
    c.Schedules r id := by
  obtain ⟨final, hres, hn⟩ := h.1
  rcases hs : (c.scheduled r id).ending with d | final'
  · exact absurd hm (not_met_of_scheduled hs)
  · cases hres.symm.trans (resolve_of_scheduled hs)
    exact ⟨final, hs, hn⟩

/-- Where all kinds on the way are met, nothing else stops the requests before room is lacking. -/
theorem lacksRoom_of_descends (hm : ∀ x, c.Reaches id x → c.Met r x)
    (h : c.Descends (room + 1) id) : (c.unfold r room id).lacksRoom := by
  induction room generalizing id with
  | zero =>
    obtain ⟨y, hy, -⟩ := h
    refine lacksRoom_unfoldBy.mpr ⟨hy.schedules (hm id .refl), ?_⟩
    cases hi : c.insertedAfter id with
    | nil => simpa [hi] using hy.2
    | cons => rfl
  | succ room ih =>
    obtain ⟨y, hy, hdown⟩ := h
    refine lacksRoom_unfoldBy.mpr ⟨hy.schedules (hm id .refl), ?_⟩
    have hroom := ih (fun x hx => hm x (.head hy hx)) hdown
    obtain ⟨d, hd, -⟩ := Unfolding.error_of_lacksRoom hroom
    obtain ⟨d', hd'⟩ := Unfolding.all_error hy.2 hd
    -- Another kind may come first, but it can only break off for the same reason.
    obtain ⟨z, hz, hzd⟩ := Unfolding.exists_of_all_error hd'
    refine Unfolding.lacksRoom_of_error hd' ?_
    by_contra hcycle
    obtain ⟨x, hx, hnot⟩ := exists_not_met hzd (by simpa using hcycle)
    exact hnot (hm x (.head ⟨hy.1, hz⟩ hx))

end Config

namespace Build

variable {s : Construction} {id : PassId}

/-- A request that says that insertions form a cycle. -/
def Alarm (s : Construction) (id : PassId) : Prop :=
  ∃ name t, (request id).outcome s = (.error (.insertionCycle name), t)

theorem alarm_iff_lacksRoom (hp : s.config.phase = .building) :
    Alarm s id ↔ (s.config.unfold s.session.registry
      (s.config.insertions.length - s.config.nesting) id).lacksRoom := by
  have hstart : s.config = s.config.during s.config.nesting s.config.placement := rfl
  obtain ⟨t, k, ho, -⟩ := Yields.request_nested hp id rfl hstart
  constructor
  · rintro ⟨name, u, hu⟩
    have hending := (Prod.ext_iff.mp (ho.symm.trans hu)).1
    exact Unfolding.lacksRoom_of_error hending rfl
  · intro h
    obtain ⟨d, hd, hcycle⟩ := Unfolding.error_of_lacksRoom h
    rw [hd] at ho
    cases d with
    | insertionCycle name => exact ⟨name, t, ho⟩
    | _ => cases hcycle

theorem nesting_of_ok {final : PassId} {t : Construction}
    (h : (request id).outcome s = (.ok final, t)) : t.config.nesting = s.config.nesting := by
  by_cases hp : s.config.phase = .building
  · exact (request_keeps hp h).2.2
  · have hidle := request_idle hp id
    rw [h] at hidle
    exact congrArg Config.nesting hidle

/-- Requests end, in just one way. Where all kinds are met, insertions are said to form a cycle just
if a kind comes back behind itself. -/
theorem request_finds_cycles (hp : s.config.phase = .building) (hn : s.config.nesting = 0)
    (id : PassId) :
    (∃ answer t, Answers s [id] (answer.map ([·])) t ∧ (request id).outcome s = (answer, t) ∧
      ∀ answers u, Answers s [id] answers u → answers = answer.map ([·]) ∧ u = t) ∧
    ((∀ x, s.config.Reaches id x → s.config.Met s.session.registry x) →
      (Alarm s id ↔ ∃ x, s.config.Reaches id x ∧ s.config.Recurs x) ∧
      ((¬ ∃ x, s.config.Reaches id x ∧ s.config.Recurs x) →
        ∃ final t, s.config.resolve id = .ok final ∧ (request id).outcome s = (.ok final, t) ∧
          t.config.nesting = 0)) := by
  refine ⟨?_, fun hm => ⟨?_, fun hno => ?_⟩⟩
  · rcases ho : (request id).outcome s with ⟨answer, t⟩
    have hrun : Answers s [id] (answer.map ([·])) t := (answers_iff hp).mpr ho
    refine ⟨answer, t, hrun, rfl, fun answers u hu => ?_⟩
    have heq := (hu.outcome_mapM hp).symm.trans (hrun.outcome_mapM hp)
    exact ⟨congrArg Prod.fst heq, congrArg Prod.snd heq⟩
  · rw [alarm_iff_lacksRoom hp, hn, Nat.sub_zero]
    constructor
    · exact Config.exists_recurs_of_lacksRoom
    · rintro ⟨x, hx, hrec⟩
      exact Config.lacksRoom_of_descends hm (Config.descends_of_recurs hrec hx _)
  · have hstart : s.config = s.config.during 0 s.config.placement := by
      rw [← hn]
      rfl
    obtain ⟨final, hf⟩ := Config.unfold_of_met (fun x hx hrec => hno ⟨x, hx, hrec⟩) hm
    obtain ⟨t, k, ho, -⟩ := Yields.request hp id rfl hstart
    rw [hf] at ho
    exact ⟨final, t, (Config.expands_of_unfold hf).1, ho, (nesting_of_ok ho).trans hn⟩

/-- Two kinds that are inserted behind each other, on the way from a kind with a substitute, and
apart from them a kind that is inserted behind another one. -/
def roundabout : Config :=
  { Config.prepared (X86.target "x86") ⟨2⟩ {} .collected (.ofBounds .none .none) none with
    phase := .building
    insertions :=
      [⟨Standard.earlyTailDuplicate, Standard.machineCSE⟩,
        ⟨Standard.machineCSE, Standard.machineSinking⟩,
        ⟨Standard.machineSinking, Standard.machineCSE⟩,
        ⟨Standard.stackProtector, Standard.x86VZeroUpper⟩] }

/-- The cycle is found from a kind that is not part of it, and does not matter to a
kind that does not lead there. -/
theorem request_finds_cycles_roundabout :
    Alarm { session := .standard, config := roundabout } Standard.earlyTailDuplicate ∧
      ∃ t, (request Standard.stackProtector).outcome
          { session := .standard, config := roundabout } =
        (.ok Standard.stackProtector, t) ∧ t.config.nesting = 0 := by
  let s : Construction := { session := .standard, config := roundabout }
  have hinserted : ∀ i ∈ s.config.insertions, s.config.Met s.session.registry i.inserted := by
    decide +kernel
  have hmet {id x : PassId} (hid : s.config.Met s.session.registry id)
    (hx : s.config.Reaches id x) :
      s.config.Met s.session.registry x := by
    rcases hx.cases with rfl | ⟨i, hi, rfl⟩
    · exact hid
    · exact hinserted i hi
  have hfirst : s.config.Follows Standard.earlyTailDuplicate Standard.machineCSE :=
    ⟨⟨Standard.tailDuplicate, rfl, by decide⟩, by decide⟩
  have hthere : s.config.Follows Standard.machineCSE Standard.machineSinking :=
    ⟨⟨Standard.machineCSE, rfl, by decide⟩, by decide⟩
  have hback : s.config.Follows Standard.machineSinking Standard.machineCSE :=
    ⟨⟨Standard.machineSinking, rfl, by decide⟩, by decide⟩
  constructor
  · refine ((request_finds_cycles rfl rfl Standard.earlyTailDuplicate).2
      fun x => hmet (by decide +kernel)).1.mpr ?_
    exact ⟨Standard.machineCSE, .single hfirst, .tail (.single hthere) hback⟩
  · have hno : ¬ ∃ x, s.config.Reaches Standard.stackProtector x ∧ s.config.Recurs x := by
      rintro ⟨x, hx, hrec⟩
      obtain ⟨y, hy, z, hz, -⟩ := Config.descends_of_recurs hrec hx 2
      have honly : y ∈ [Standard.x86VZeroUpper] := hy.2
      obtain rfl := List.mem_singleton.mp honly
      have hnothing : z ∈ ([] : List PassId) := hz.2
      cases hnothing
    obtain ⟨final, t, hres, ho, hn⟩ := ((request_finds_cycles rfl rfl Standard.stackProtector).2
      fun x => hmet (by decide +kernel)).2 hno
    have hfinal : s.config.resolve Standard.stackProtector = .ok Standard.stackProtector := rfl
    cases hres.symm.trans hfinal
    exact ⟨t, ho, hn⟩

end Build

end PassPipeline
