import PassPipeline.Proofs.Analysis
import PassPipeline.Proofs.PassOrder
import PassPipeline.Proofs.Resolution
import PassPipeline.Proofs.Selection

/-! Builds that come to their end. Where every kind that a script asks for can be made,
where insertions have room and where there is always an allocator, no step of a build meets
a defect; and where the constrained kinds are asked for in the order of their numbers, they
are handed over in that order. -/
namespace PassPipeline

namespace Registry

variable {r : Registry} {id : PassId} {p : Pass}

/-- Whether there is a pass of a kind. -/
def canMake (r : Registry) (id : PassId) : Bool := (r.instantiate id).isOk

theorem instantiate_of_canMake (h : r.canMake id) : ∃ p, r.instantiate id = .ok p := by
  cases hp : r.instantiate id with
  | error e => simp [canMake, hp, Except.isOk, Except.toBool] at h
  | ok p => exact ⟨p, rfl⟩

theorem instantiate_id (h : r.instantiate id = .ok p) : p.id = id := by
  unfold instantiate at h
  split at h
  · cases h
  · split at h <;> cases h <;> rfl

end Registry

@[simp] theorem Pass.withSink_id (sink : Sink) (p : Pass) : (p.withSink sink).id = p.id := by
  unfold withSink
  split <;> rfl

/-- A selector that always has an allocator, and one that the order says nothing about. -/
def Selector.Supplies (r : Registry) (answers : AllocatorAnswers) (s : Selector) : Prop :=
  ∀ optimized, ∃ id s', s.select optimized answers = .ok (id, s') ∧ r.canMake id ∧
    Order.constrained id = false

/-- What stands in for a kind by a list of substitutions. -/
def standIn (l : List (PassId × PassId)) (id : PassId) : PassId :=
  match l.find? (·.1 = id) with
  | some entry => entry.2
  | none => id

/-- Whether a request can be met, and by no constrained kind but the one that is asked for. -/
def Registry.meets (r : Registry) (l : List (PassId × PassId)) (id : PassId) : Bool :=
  (standIn l id = .none || r.canMake (standIn l id)) &&
    (standIn l id = id || !Order.constrained (standIn l id)) &&
    (id ≠ Standard.machineScheduler || r.canMake id)

namespace Config

/-- Requests for what follows a kind are inside one another at most `room` times. -/
def Fits (c : Config) : (room : Nat) → PassId → Prop
  | 0, id => c.insertedAfter id = []
  | room + 1, id => ∀ kind ∈ c.insertedAfter id, Fits c room kind

/-- Where insertions only lead to kinds of a lower height, the height of a kind is room enough. -/
theorem fits_of_height {c : Config} (height : PassId → Nat)
    (h : ∀ i ∈ c.insertions, height i.inserted < height i.anchor) {room : Nat} {id : PassId}
    (hid : height id ≤ room) : c.Fits room id := by
  have hlower (id kind : PassId) (hkind : kind ∈ c.insertedAfter id) : height kind < height id := by
    obtain ⟨i, hi, rfl⟩ := List.mem_map.mp hkind
    obtain ⟨hmem, ha⟩ := List.mem_filter.mp hi
    simp only [decide_eq_true_eq] at ha
    exact ha ▸ h i hmem
  induction room generalizing id with
  | zero =>
    refine List.eq_nil_iff_forall_not_mem.mpr fun kind hkind => ?_
    have := hlower id kind hkind
    omega
  | succ room ih =>
    intro kind hkind
    have := hlower id kind hkind
    exact ih (by omega)

/-- A configuration in its build that has all its requests need. -/
structure Furnished (r : Registry) (c : Config) : Prop where
  phase : c.phase = .building
  nesting : c.nesting = 0
  scheduler : c.options.enableMachineSched.Valid
  inserted : ∀ i ∈ c.insertions,
    r.meets c.substitutions i.inserted ∧ Order.constrained i.inserted = false
  fits : ∀ id, c.Fits c.insertions.length id

variable {r : Registry} {c : Config} {id : PassId} {m n : Int}

/-- What a request leads to is missing or can be made, and keeps to
the order where the kind does. -/
theorem resolve_of_meets (hv : c.options.enableMachineSched.Valid) (h : r.meets c.substitutions id)
    (hn : Order.climb id m = some n) :
    ∃ final, c.resolve id = .ok final ∧
      (final = .none ∨ r.canMake final ∧ ∃ k ≤ n, Order.climb final m = some k) := by
  simp only [Registry.meets, Bool.and_eq_true, Bool.or_eq_true, decide_eq_true_eq,
    Bool.not_eq_true'] at h
  obtain ⟨⟨hmake, hsame⟩, hsched⟩ := h
  obtain ⟨final, hfinal, hcases⟩ := resolve_cases hv id
  refine ⟨final, hfinal, ?_⟩
  rcases hcases with rfl | rfl | ⟨rfl, rfl⟩
  · exact .inl rfl
  · refine hmake.imp_right fun hmake => ⟨hmake, ?_⟩
    rcases hsame with hsame | hsame
    · have hid : c.substitution id = id := hsame
      exact ⟨n, Int.le_refl n, by rw [hid, hn]⟩
    · exact ⟨m, (Order.climb_bounds hn).1, Order.climb_of_not_constrained hsame m⟩
  · exact .inr ⟨by simpa using hsched, n, Int.le_refl n, hn⟩

end Config

namespace Build

variable {α β : Type} {I : Construction → Prop} {r : Registry} {c : Config} {k : Nat} {m n : Int}
  {id : PassId}

/-- From every state in `I` work comes to its end, with an answer and a state in `O`. -/
def Leads (I : Construction → Prop) (O : α → Construction → Prop) (work : Build α) : Prop :=
  ∀ ⦃s⦄, I s → ∃ a t, work.outcome s = (.ok a, t) ∧ O a t

namespace Leads

variable {O P : α → Construction → Prop} {Q : β → Construction → Prop} {work : Build α}
  {f : α → Build β}

theorem pure (a : α) : Leads I (fun _ => I) (pure a : Build α) := fun s hs => ⟨a, s, rfl, hs⟩

theorem bind (hm : Leads I O work) (hf : ∀ a, Leads (O a) Q (f a)) : Leads I Q (work >>= f) := by
  intro s hs
  obtain ⟨a, t, hma, ht⟩ := hm hs
  obtain ⟨b, u, hfb, hu⟩ := hf a ht
  exact ⟨b, u, by rw [outcome_bind_ok hma, hfb], hu⟩

theorem weaken (hm : Leads I O work) (h : ∀ a s, O a s → P a s) : Leads I P work := by
  intro s hs
  obtain ⟨a, t, hma, ht⟩ := hm hs
  exact ⟨a, t, hma, h a t ht⟩

theorem assuming {q : Prop} (h : q → Leads I O work) : Leads (fun s => q ∧ I s) O work :=
  fun _ hs => h hs.1 hs.2

theorem discarded {J : Construction → Prop} (hm : Leads I (fun _ => J) work) :
    Leads I (fun _ => J) (discard work) := by
  rw [discard_eq]
  exact hm.bind fun _ => .pure ()

theorem forM_discard {request : PassId → Build PassId} {ids : List PassId}
    (h : ∀ id ∈ ids, Leads I (fun _ => I) (request id)) :
    Leads I (fun _ => I) (ids.forM fun id => discard (request id)) := by
  induction ids with
  | nil => exact .pure ()
  | cons id ids ih =>
    refine (h id (by simp)).discarded.bind fun _ => ih fun id' hid' => h id' ?_
    exact List.mem_cons_of_mem id hid'

end Leads

/-- A state of a build of `c`, with `k` requests around it and constrained kinds up to `n`. -/
structure Steady (r : Registry) (c : Config) (k : Nat) (n : Int) (s : Construction) : Prop where
  registry : s.session.registry = r
  allocators : s.session.allocators.Supplies r c.target.allocators
  config : ∃ x, s.config = c.during k x
  refusal : ∀ refusal ∈ s.config.refusal, ∃ stop, refusal = .stopBeforeStart stop
  climbs : Order.Climbs n (s.config.handed.map Pass.id)

namespace Steady

variable {s : Construction}

theorem mono (h : Steady r c k m s) (hle : m ≤ n) : Steady r c k n s :=
  { h with climbs := h.climbs.mono hle }

theorem traced (h : Steady r c k n s) (text : String) : Steady r c k n (s.traced text) where
  registry := by simpa using h.registry
  allocators := by simpa using h.allocators
  config := by simpa using h.config
  refusal := by simpa using h.refusal
  climbs := by simpa using h.climbs

theorem placed (h : Steady r c k m s) {p : Pass} (hp : Order.climb p.id m = some n) :
    Steady r c k n (placed s p) := by
  obtain ⟨x, hx⟩ := h.config
  obtain ⟨hrefusal, hhanded⟩ := s.config.placement.take_cases s.session.registry p
  refine ⟨by simpa using h.registry, by simpa using h.allocators,
    ⟨s.config.placement.take s.session.registry p, ?_⟩, ?_, ?_⟩
  · rw [placed_config, hx]
    rfl
  · rw [placed_config]
    intro q hq
    change q ∈ (s.config.placement.take s.session.registry p).refusal at hq
    rcases hrefusal with he | ⟨stop, he⟩
    · exact h.refusal q (by rwa [he] at hq)
    · exact ⟨stop, (Option.some.inj (he.symm.trans hq)).symm⟩
  · rw [placed_config]
    change Order.Climbs n ((s.config.placement.take s.session.registry p).handed.map Pass.id)
    rcases hhanded with he | he
    · rw [he]
      exact h.climbs.mono (Order.climb_bounds hp).1
    · rw [he, List.map_append]
      exact h.climbs.concat hp

theorem leads_view_bind {g : Config → α} {a : α} {f : α → Build β} {Q : β → Construction → Prop}
    (hg : ∀ x, g (c.during k x) = a) (hf : Leads (Steady r c k n) Q (f a)) :
    Leads (Steady r c k n) Q (view g >>= f) := by
  intro s hs
  obtain ⟨x, hx⟩ := hs.config
  obtain ⟨b, u, hfb, hu⟩ := hf hs
  exact ⟨b, u, by rw [outcome_bind_ok (outcome_view g s), hx, hg, hfb], hu⟩

theorem leads_trace (text : String) :
    Leads (Steady r c k n) (fun _ => Steady r c k n) (trace text) :=
  fun s hs => ⟨(), _, outcome_trace text s, hs.traced text⟩

theorem leads_note (e : Entry) : Leads (Steady r c k n) (fun _ => Steady r c k n) (note e) :=
  fun s hs => ⟨(), _, outcome_note e s, { hs with }⟩

theorem leads_nameOf (id : PassId) :
    Leads (Steady r c k n) (fun _ => Steady r c k n) (nameOf id) :=
  fun s hs => ⟨_, s, outcome_nameOf id s, hs⟩

theorem leads_instantiate (h : r.canMake id) :
    Leads (Steady r c k n) (fun p s => p.id = id ∧ Steady r c k n s) (instantiate id) := by
  intro s hs
  obtain ⟨p, hp⟩ := Registry.instantiate_of_canMake h
  refine ⟨p, s, ?_, Registry.instantiate_id hp, hs⟩
  rw [outcome_instantiate, hs.registry, hp]
  rfl

theorem leads_place (hc : c.phase = .building) {p : Pass} (hp : Order.climb p.id m = some n) :
    Leads (Steady r c k m) (fun _ => Steady r c k n) (place p) := by
  intro s hs
  obtain ⟨x, hx⟩ := hs.config
  have hphase : s.config.phase = .building := by
    rw [hx]
    exact hc
  exact ⟨(), _, outcome_place p hphase, hs.placed hp⟩

theorem leads_follow_nil (inner : Option (PassId → Build PassId)) (h : c.insertedAfter id = []) :
    Leads (Steady r c k n) (fun _ => Steady r c k n) (follow inner id) := by
  rw [follow_eq]
  exact leads_view_bind (fun _ => h) (.pure ())

theorem leads_follow {request : PassId → Build PassId}
    (h : ∀ kind ∈ c.insertedAfter id,
      Leads (Steady r c (k + 1) n) (fun _ => Steady r c (k + 1) n) (request kind)) :
    Leads (Steady r c k n) (fun _ => Steady r c k n) (follow (some request) id) := by
  by_cases hi : c.insertedAfter id = []
  · exact leads_follow_nil _ hi
  · rw [follow_eq]
    refine leads_view_bind (a := c.insertedAfter id) (fun _ => rfl) ?_
    rw [if_neg (by simpa using hi)]
    refine Leads.bind (O := fun _ => Steady r c (k + 1) n) ?_ fun _ =>
      (Leads.forM_discard h).bind fun _ => ?_
    · intro s hs
      obtain ⟨x, hx⟩ := hs.config
      refine ⟨(), _, outcome_modifyConfig _ s, { hs with config := ⟨x, ?_⟩ }⟩
      exact congrArg (fun c => { c with nesting := c.nesting + 1 }) hx
    · intro s hs
      obtain ⟨x, hx⟩ := hs.config
      refine ⟨(), _, outcome_modifyConfig _ s, { hs with config := ⟨x, ?_⟩ }⟩
      exact congrArg (fun c => { c with nesting := c.nesting - 1 }) hx

section requests

variable (hc : c.Furnished r)
include hc

theorem leads_schedule (hm : r.meets c.substitutions id) (hn : Order.climb id m = some n) :
    Leads (Steady r c k m) (fun _ => Steady r c k n) (schedule id) := by
  obtain ⟨final, hfinal, hcases⟩ := Config.resolve_of_meets hc.scheduler hm hn
  have hview (x : Placement) :
      ((c.during k x).resolve id, (c.during k x).sink) = (.ok final, c.sink) := by
    rw [← hfinal]
    rfl
  rw [schedule_eq]
  refine leads_view_bind hview ?_
  by_cases hnone : final = .none
  · simp only [hnone, if_true]
    refine (leads_nameOf id).bind fun name => (leads_trace _).bind fun _ => ?_
    exact (Leads.pure _).weaken fun _ _ hs => hs.mono (Order.climb_bounds hn).1
  · obtain ⟨hmake, n', hle, hn'⟩ := hcases.resolve_left hnone
    simp only [hnone, if_false]
    refine (leads_instantiate hmake).bind fun p => .assuming fun hp => ?_
    have hplace : Order.climb (p.withSink c.sink).id m = some n' := by
      rw [Pass.withSink_id, hp, hn']
    refine (leads_place hc.phase hplace).bind fun _ => ?_
    exact (Leads.pure _).weaken fun _ _ hs => hs.mono hle

theorem leads_requestBy {inner : Option (PassId → Build PassId)} (hm : r.meets c.substitutions id)
    (hn : Order.climb id m = some n)
    (hf : Leads (Steady r c k n) (fun _ => Steady r c k n) (follow inner id)) :
    Leads (Steady r c k m) (fun _ => Steady r c k n) (requestBy inner id) := by
  refine (leads_schedule hc hm hn).bind fun final => ?_
  split
  · exact hf.bind fun _ => .pure final
  · exact .pure final

/-- A request with enough room is met, and all that follows it. The induction is on the room; what
is inserted is not constrained, so it leaves the bound where it is. -/
theorem leads_requestWithin {room : Nat} (hfits : c.Fits room id) (hm : r.meets c.substitutions id)
    (hn : Order.climb id m = some n) :
    Leads (Steady r c k m) (fun _ => Steady r c k n) (requestWithin room id) := by
  induction room generalizing id k m n with
  | zero => exact leads_requestBy hc hm hn (leads_follow_nil none hfits)
  | succ room ih =>
    refine leads_requestBy hc hm hn (leads_follow fun kind hkind => ?_)
    obtain ⟨i, hi, rfl⟩ := List.mem_map.mp hkind
    obtain ⟨hmeets, hfree⟩ := hc.inserted i (List.mem_filter.mp hi).1
    exact ih (hfits _ hkind) hmeets (Order.climb_of_not_constrained hfree n)

theorem leads_request (hm : r.meets c.substitutions id) (hn : Order.climb id m = some n) :
    Leads (Steady r c 0 m) (fun _ => Steady r c 0 n) (request id) := by
  rw [request_eq]
  exact leads_view_bind (fun _ => rfl) (leads_requestWithin hc (hc.fits id) hm hn)

end requests

/-- The bound behind a script that asks only for what can be met, and in order. -/
def climbing (r : Registry) (l : List (PassId × PassId)) : Analysis Int where
  request id n := if r.meets l id then Order.climb id n else none
  place supply n :=
    match supply with
    | .registered id => if r.canMake id then Order.climb id n else none
    | .ready p => Order.climb p.id n
  select := some
  placeHanded handed n := if handed then some n else none
  change _ := none
  join := max

theorem leads_take {supply : Supply}
    (h : (climbing r c.substitutions).place supply m = some n) :
    Leads (Steady r c k m) (fun p s => Order.climb p.id m = some n ∧ Steady r c k m s)
      (take supply) := by
  have hsink (p : Pass) (hp : Order.climb p.id m = some n) :
      Leads (Steady r c k m) (fun p s => Order.climb p.id m = some n ∧ Steady r c k m s)
        (view Config.sink >>= fun sink => pure (p.withSink sink)) := by
    intro s hs
    exact ⟨_, s, rfl, by rwa [Pass.withSink_id], hs⟩
  rw [take_eq]
  cases supply with
  | ready p =>
    rw [pure_bind]
    exact hsink p h
  | registered id =>
    obtain ⟨hmake, hn⟩ := Option.ite_none_right_eq_some.mp h
    refine (leads_instantiate hmake).bind fun p => .assuming fun hp => hsink p ?_
    rw [hp, hn]

theorem leads_place_printer (hc : c.phase = .building) (subject : Subject) (sink : Sink)
    (banner : String) :
    Leads (Steady r c k n) (fun _ => Steady r c k n) (place (.printer subject sink banner)) := by
  refine leads_place hc (Order.climb_of_not_constrained ?_ n)
  cases subject <;> rfl

theorem leads_place_verifier (hc : c.phase = .building) (banner : String) :
    Leads (Steady r c k n) (fun _ => Steady r c k n) (place (.verifier banner)) :=
  leads_place hc (Order.climb_of_not_constrained rfl n)

theorem leads_printAndVerify (hc : c.phase = .building) (banner : String) :
    Leads (Steady r c k n) (fun _ => Steady r c k n) (printAndVerify banner) := by
  rw [printAndVerify_eq]
  refine leads_view_bind (a := (c.printMachineCode, c.sink, c.options.verifyMachineCode))
    (fun _ => rfl) (Leads.bind (O := fun _ => Steady r c k n) ?_ fun _ => ?_)
  · split
    · exact leads_place_printer hc _ _ _
    · exact .pure ()
  · split
    · exact leads_place_verifier hc _
    · exact .pure ()

/-- There is always an allocator, and the next choice will find it too. -/
theorem leads_selectAllocator (optimized : Bool) :
    Leads (Steady r c k n)
      (fun id s => (r.canMake id ∧ Order.constrained id = false) ∧ Steady r c k n s)
      (selectAllocator optimized) := by
  intro s hs
  obtain ⟨id, s', hsel, hid⟩ := hs.allocators optimized
  obtain ⟨x, hx⟩ := hs.config
  have htarget : s.config.target = c.target := by
    rw [hx]
    rfl
  refine ⟨id, { asked optimized s with session := { s.session with allocators := s' } },
    ?_, hid, ?_⟩
  · rw [outcome_selectAllocator, htarget, hsel]
  · refine ⟨hs.registry, ?_, by simpa using hs.config, by simpa using hs.refusal,
      by simpa using hs.climbs⟩
    exact fun again => ⟨id, s', Selector.select_select hsel again _, hid⟩

theorem leads_allocatorPass (optimized : Bool) :
    Leads (Steady r c k n) (fun p s => Order.constrained p.id = false ∧ Steady r c k n s)
      (allocatorPass optimized) := by
  rw [allocatorPass_eq]
  refine (leads_selectAllocator optimized).bind fun id => .assuming fun ⟨hmake, hfree⟩ => ?_
  refine (leads_nameOf id).bind fun name => (leads_trace _).bind fun _ => ?_
  exact (leads_instantiate hmake).weaken fun p s h => ⟨h.1 ▸ hfree, h.2⟩

theorem climbing_sound (hc : c.Furnished r) :
    (climbing r c.substitutions).Sound c.target (fun p => Order.constrained p.id = false)
      (fun a b work => Leads (Steady r c 0 a) (fun _ => Steady r c 0 b) work) where
  pure a x := .pure x
  bind hm hf := hm.bind hf
  left d h := h.weaken fun _ _ hs => hs.mono (Int.le_max_left _ _)
  right d h := h.weaken fun _ _ hs => hs.mono (Int.le_max_right _ _)
  target {α a b k} h := by
    rw [config_bind_eq_view]
    exact leads_view_bind (fun _ => rfl) h
  holds a q s hs := ⟨_, s, rfl, hs⟩
  trace a text := leads_trace text
  announce a s hs := ⟨(), _, outcome_announce s, hs.traced _⟩
  note a e := leads_note e
  request h := by
    obtain ⟨hm, hn⟩ := Option.ite_none_right_eq_some.mp h
    exact leads_request hc hm hn
  place h := (leads_take h).bind fun p => .assuming fun hp => leads_place hc.phase hp
  print a subject banner := by
    rw [config_bind_eq_view Config.sink fun sink => place (.printer subject sink banner)]
    exact leads_view_bind (fun _ => rfl) (leads_place_printer hc.phase subject c.sink banner)
  printAndVerify a banner := leads_printAndVerify hc.phase banner
  allocatorPass optimized h hf := by
    cases h
    exact (leads_allocatorPass optimized).bind fun p => .assuming (hf p)
  placeHanded p hp h := by
    cases p with
    | none => cases h
    | some p =>
      cases h
      exact leads_place hc.phase (Order.climb_of_not_constrained (hp p rfl) _)
  substitute _ _ h := by cases h
  insert _ _ h := by cases h
  assign _ _ h := by cases h
  build _ h := by cases h

end Steady

/-- A build of a configuration with all it needs, over scripts that keep to the order, ends with a
list that respects every constraint or with an inverted window. -/
theorem build_of_climbing {session : Session} (hp : c.phase = .configuring)
    (hc : { c with phase := .building }.Furnished session.registry)
    (hs : session.allocators.Supplies session.registry c.target.allocators)
    (hrefusal : c.refusal = none) (hhanded : c.handed = [])
    (hclimb : (Steady.climbing session.registry c.substitutions).stages c.target.called
      depthLimit 0 = some n) :
    ∃ result s, c.work session (build stages) = (.ok result, s) ∧
      (∀ passes, result = .ok passes →
        ∀ x ∈ Order.constraints, x.Respected (passes.map Pass.id)) ∧
      ∀ refusal, result = .error refusal → ∃ stop, refusal = .stopBeforeStart stop := by
  have hstart : Steady session.registry { c with phase := .building } 0 0
      (Construction.inPhase { session, config := c } .building) := by
    refine ⟨rfl, hs, ⟨c.placement, ?_⟩, ?_, ?_⟩
    · simp only [Config.during, Config.withPlacement, Config.placement, Construction.inPhase,
        ← hc.nesting]
    · simp [Construction.inPhase, hrefusal]
    · simp [Construction.inPhase, hhanded, Order.climbs_nil]
  obtain ⟨_, t, hrun, ht⟩ := (Steady.climbing_sound hc).runStages hclimb hstart
  have hinto : (buildInto stages).outcome { session, config := c } =
      (.ok t.config.refusal, t.inPhase .built) := by
    rw [outcome_buildInto stages hp, stages, hrun]
  have horder : Order.broken? ((t.inPhase .built).config.handed.map Pass.id) = none :=
    ht.climbs.broken?_eq_none
  rw [work_eq, outcome_build, hinto]
  cases hr : t.config.refusal with
  | some refusal =>
    refine ⟨_, _, rfl, by simp, ?_⟩
    rintro _ ⟨⟩
    exact ht.refusal refusal hr
  | none =>
    refine ⟨.ok (t.inPhase .built).config.handed, t.inPhase .built, ?_, ?_, by simp⟩
    · simp only [horder]
    · rintro _ ⟨⟩ x hx
      exact ht.climbs.respected hx

end Build

end PassPipeline
