import PassPipeline.Proofs.Scripted
import PassPipeline.Proofs.Selection

/-! Everything that a script can do is put together from a few basic steps. A property of work that
these steps have, and that composition keeps, is therefore a property of all scripts and stages. -/
namespace PassPipeline.Build

variable {α β : Type}

theorem requireMutable_eq (change : Change) :
    requireMutable change = view Config.phase >>= fun phase =>
      if phase ≠ .configuring then throw (.immutable change) else pure () := by
  simp [requireMutable, view]

theorem schedule_eq (id : PassId) :
    schedule id = view (fun c => (c.resolve id, c.sink)) >>= fun x =>
      match x.1 with
      | .error e => nameOf id >>= fun name => throw (.override e name)
      | .ok final =>
        if final = .none then
          nameOf id >>= fun name => trace ("suppress " ++ name) >>= fun _ => pure final
        else instantiate final >>= fun p => place (p.withSink x.2) >>= fun _ => pure final := by
  rw [← config_bind_eq_view]
  rfl

theorem follow_eq (inner : Option (PassId → Build PassId)) (id : PassId) :
    follow inner id = view (·.insertedAfter id) >>= fun inserted =>
      if inserted.isEmpty then pure ()
      else
        modifyConfig (fun c => { c with nesting := c.nesting + 1 }) >>= fun _ =>
          (match inner with
            | none => nameOf id >>= fun name => throw (.insertionCycle name)
            | some request => inserted.forM fun kind => discard (request kind)) >>= fun _ =>
            modifyConfig fun c => { c with nesting := c.nesting - 1 } := by
  simp [follow, view]
  cases inner <;> simp

theorem request_eq (id : PassId) :
    request id = view (fun c => c.insertions.length - c.nesting) >>= fun room =>
      requestWithin room id := by
  simp [request, view]

theorem printAndVerify_eq (banner : String) :
    printAndVerify banner =
      view (fun c => (c.printMachineCode, c.sink, c.options.verifyMachineCode)) >>= fun x =>
        (if x.1 then place (.printer .machineCode x.2.1 banner) else pure ()) >>= fun _ =>
          if x.2.2 then place (.verifier banner) else pure () := by
  simp only [printAndVerify, view, bind_assoc, pure_bind]
  refine bind_congr fun c => ?_
  split <;> simp

theorem take_eq (supply : Supply) :
    take supply =
      (match supply with
        | .registered id => instantiate id
        | .ready p => pure p) >>= fun p => view Config.sink >>= fun sink =>
          pure (p.withSink sink) := by
  cases supply <;> simp [take, view]

theorem build_eq (call : Caller) :
    build call = buildInto call >>= fun refusal =>
      match refusal with
      | some r => pure (.error r)
      | none => view Config.handed >>= fun handed =>
        match Order.broken? (handed.map Pass.id) with
        | some c =>
          throw (.order (Standard.registry.name c.first) (Standard.registry.name c.second))
        | none => pure (.ok handed) := by
  refine bind_congr fun refusal => ?_
  cases refusal with
  | some r => rfl
  | none =>
    refine Eq.trans ?_ (config_bind_eq_view Config.handed _)
    rfl

theorem askAllocator_eq (target : Target) (optimized : Bool) :
    askAllocator target optimized =
      (if target.reportsAllocators then
        note (.allocator optimized (target.allocators.answer optimized))
      else pure ()) >>= fun _ => pure (target.allocators.answer optimized) := by
  unfold askAllocator
  split <;> rfl

/-- The part of the choice of an allocator that changes the session. -/
def selectAllocator (optimized : Bool) : Build PassId := do
  let s ← get
  match ← s.session.allocators.selectBy optimized (askAllocator s.config.target) with
  | .error e => throw (.allocator e)
  | .ok (id, selector) =>
    modify fun s => { s with session := { s.session with allocators := selector } }
    return id

/-- The state in which a target was asked for an allocator, if it is asked and that is noted. -/
def asked (optimized : Bool) (s : Construction) : Construction :=
  if s.session.allocators.asksTarget && s.config.target.reportsAllocators then
    { s with journal := s.journal ++
        [.allocator optimized (s.config.target.allocators.answer optimized)] }
  else s

@[simp] theorem asked_session (optimized : Bool) (s : Construction) :
    (asked optimized s).session = s.session := by
  unfold asked
  split <;> rfl

@[simp] theorem asked_config (optimized : Bool) (s : Construction) :
    (asked optimized s).config = s.config := by
  unfold asked
  split <;> rfl

theorem outcome_selectAllocator (optimized : Bool) (s : Construction) :
    (selectAllocator optimized).outcome s =
      match s.session.allocators.select optimized s.config.target.allocators with
      | .error e => (.error (.allocator e), asked optimized s)
      | .ok (id, selector) =>
        (.ok id, { asked optimized s with
          session := { s.session with allocators := selector } }) := by
  simp only [selectAllocator, asked, outcome_bind, outcome_get,
    Selector.selectBy_eq (askAllocator_eq s.config.target optimized)]
  cases s.session.allocators.asksTarget <;> cases s.config.target.reportsAllocators <;>
    cases s.session.allocators.select optimized s.config.target.allocators <;> rfl

theorem allocatorPass_eq (optimized : Bool) :
    allocatorPass optimized =
      selectAllocator optimized >>= fun id =>
        nameOf id >>= fun name => trace ("register allocator " ++ name) >>= fun _ =>
          instantiate id := by
  unfold allocatorPass selectAllocator
  simp only [bind_assoc]
  refine bind_congr fun s => bind_congr fun selected => ?_
  cases selected <;> simp

/-! What does not touch the configuration. -/

theorem allocatorPass_config (optimized : Bool) (s : Construction) :
    ((allocatorPass optimized).outcome s).2.config = s.config := by
  rw [allocatorPass_eq, outcome_bind, outcome_selectAllocator]
  cases s.session.allocators.select optimized s.config.target.allocators <;> simp [outcome_bind]

theorem take_config (supply : Supply) (s : Construction) :
    ((take supply).outcome s).2.config = s.config := by
  rw [take_eq, outcome_bind]
  cases supply with
  | registered id =>
    rw [outcome_instantiate]
    cases s.session.registry.instantiate id <;> rfl
  | ready p => rfl

theorem placeHanded_none_config (s : Construction) :
    ((placeHanded none).outcome s).2.config = s.config := by
  cases hr : s.config.refusal <;> simp [placeHanded, outcome_bind, hr]

/-- Behind a selection that goes well, only a kind that cannot be made stands in the way. -/
theorem allocatorPass_error {optimized : Bool} {id : PassId} {selector : Selector} {d : Defect}
    {s t : Construction}
    (hs : s.session.allocators.select optimized s.config.target.allocators = .ok (id, selector))
    (h : (allocatorPass optimized).outcome s = (.error d, t)) : ∃ e, d = .registry e := by
  rw [allocatorPass_eq] at h
  rcases bind_outcome_error h with h | ⟨id', u, hsel, h⟩
  · rw [outcome_selectAllocator, hs] at h
    cases h
  · rw [outcome_bind_ok (outcome_nameOf id' u), outcome_bind_ok (outcome_trace _ u),
      outcome_instantiate] at h
    cases hi : (u.traced ("register allocator " ++ u.session.registry.name id')).session.registry
      |>.instantiate id' with
    | error e =>
      rw [hi] at h
      cases h
      exact ⟨e, rfl⟩
    | ok p =>
      rw [hi] at h
      cases h

/-- Work that cannot tell related states apart, and leaves related states. -/
def Congruent (R : Construction → Construction → Prop) (m : Build α) : Prop :=
  ∀ ⦃s t⦄, R s t → (m.outcome t).1 = (m.outcome s).1 ∧ R (m.outcome s).2 (m.outcome t).2

namespace Congruent

variable {R : Construction → Construction → Prop}

theorem pure (a : α) : Congruent R (pure a) := fun _ _ h => ⟨rfl, h⟩

theorem throw (d : Defect) : Congruent R (throw d : Build α) := fun _ _ h => ⟨rfl, h⟩

theorem bind {m : Build α} {f : α → Build β} (hm : Congruent R m) (hf : ∀ a, Congruent R (f a)) :
    Congruent R (m >>= f) := by
  intro s t h
  obtain ⟨hanswer, hstate⟩ := hm h
  rw [outcome_bind, outcome_bind]
  rcases hs : m.outcome s with ⟨d | a, s'⟩ <;> rcases ht : m.outcome t with ⟨d' | a', t'⟩ <;>
    rw [hs, ht] at hanswer hstate <;> cases hanswer
  · exact ⟨rfl, hstate⟩
  · exact hf a hstate

theorem view {f : Config → α} (h : ∀ ⦃s t⦄, R s t → f t.config = f s.config) :
    Congruent R (view f) := by
  intro s t hst
  rw [outcome_view, outcome_view, h hst]
  exact ⟨rfl, hst⟩

theorem place {p : Pass} (hphase : ∀ ⦃s t⦄, R s t → t.config.phase = s.config.phase)
    (hplaced : ∀ ⦃s t⦄, R s t → R (placed s p) (placed t p)) : Congruent R (place p) := by
  intro s t h
  by_cases hp : s.config.phase = .building
  · rw [outcome_place p hp, outcome_place p ((hphase h).trans hp)]
    exact ⟨rfl, hplaced h⟩
  · have hp' : t.config.phase ≠ .building := fun he => hp ((hphase h).symm.trans he)
    rw [outcome_place_of_ne p hp, outcome_place_of_ne p hp', hphase h]
    exact ⟨rfl, h⟩

theorem placeHanded (hplace : ∀ p, Congruent R (Build.place p))
    (hrefusal : ∀ ⦃s t⦄, R s t → t.config.refusal = s.config.refusal) (p : Option Pass) :
    Congruent R (placeHanded p) := by
  cases p with
  | some p => exact hplace p
  | none =>
    intro s t h
    simp only [Build.placeHanded, outcome_bind, outcome_config, hrefusal h]
    cases s.config.refusal <;> exact ⟨rfl, h⟩

end Congruent

section idle

variable {s : Construction} (h : s.config.phase ≠ .building)
include h

/-- Outside a build nothing is scheduled: a request is suppressed or breaks off. -/
theorem schedule_idle (id : PassId) :
    ((schedule id).outcome s).2.config = s.config ∧
      ∀ final ∈ ((schedule id).outcome s).1.toOption, final = .none := by
  rw [schedule_eq, outcome_bind_ok (outcome_view _ s)]
  cases s.config.resolve id with
  | error e => simp [outcome_bind, Except.toOption]
  | ok final =>
    by_cases hn : final = .none
    · simp only [hn, if_true]
      rw [outcome_bind_ok (outcome_nameOf id s), outcome_bind_ok (outcome_trace _ s)]
      simp [Except.toOption]
    · simp only [hn, if_false]
      cases hi : s.session.registry.instantiate final with
      | error e =>
        have hm : (instantiate final).outcome s = (.error (.registry e), s) := by
          rw [outcome_instantiate, hi]
          rfl
        rw [outcome_bind_error hm]
        simp [Except.toOption]
      | ok p =>
        have hm : (instantiate final).outcome s = (.ok p, s) := by
          rw [outcome_instantiate, hi]
          rfl
        rw [outcome_bind_ok hm, outcome_bind_error (outcome_place_of_ne _ h)]
        simp [Except.toOption]

theorem outcome_request_idle (id : PassId) : (request id).outcome s = (schedule id).outcome s := by
  have hby (inner : Option (PassId → Build PassId)) :
      (requestBy inner id).outcome s = (schedule id).outcome s := by
    have hf := (schedule_idle h id).2
    rw [requestBy, outcome_bind]
    rcases hs : (schedule id).outcome s with ⟨d | final, t⟩
    · rfl
    · obtain rfl : final = .none := hf final (by rw [hs]; rfl)
      rfl
  rw [request_eq, outcome_bind_ok (outcome_view _ s)]
  cases s.config.insertions.length - s.config.nesting with
  | zero => exact hby none
  | succ room => exact hby (some (requestWithin room))

theorem request_idle (id : PassId) : ((request id).outcome s).2.config = s.config := by
  rw [outcome_request_idle h]
  exact (schedule_idle h id).1

theorem place_idle (p : Pass) : ((place p).outcome s).2.config = s.config := by
  rw [outcome_place_of_ne p h]

theorem printAndVerify_idle (banner : String) :
    ((printAndVerify banner).outcome s).2.config = s.config := by
  rw [printAndVerify_eq, outcome_bind_ok (outcome_view _ s)]
  cases s.config.printMachineCode <;> cases s.config.options.verifyMachineCode <;>
    simp [outcome_bind, outcome_place_of_ne _ h]

end idle

/-- A property that pure answers, composition and the basic steps of a request have. -/
structure Requesting (P : {α : Type} → Build α → Prop) : Prop where
  pure {α : Type} (a : α) : P (pure a)
  bind {α β : Type} {m : Build α} {f : α → Build β} : P m → (∀ a, P (f a)) → P (m >>= f)
  throw {α : Type} (d : Defect) : P (throw d : Build α)
  trace (text : String) : P (trace text)
  nameOf (id : PassId) : P (nameOf id)
  instantiate (id : PassId) : P (instantiate id)
  place (p : Pass) : P (place p)
  resolve (id : PassId) : P (view fun c => (c.resolve id, c.sink))
  insertedAfter (id : PassId) : P (view (·.insertedAfter id))
  room : P (view fun c => c.insertions.length - c.nesting)
  printing : P (view fun c => (c.printMachineCode, c.sink, c.options.verifyMachineCode))
  enter : P (modifyConfig fun c => { c with nesting := c.nesting + 1 })
  leave : P (modifyConfig fun c => { c with nesting := c.nesting - 1 })

/-- A property that pure answers, composition and all basic steps have. -/
structure Pervasive (P : {α : Type} → Build α → Prop) : Prop extends Requesting P where
  announce : P announce
  note (e : Entry) : P (note e)
  placeHanded (p : Option Pass) : P (placeHanded p)
  selectAllocator (optimized : Bool) : P (selectAllocator optimized)
  phase : P (view Config.phase)
  target : P (view Config.target)
  sink : P (view Config.sink)
  holds (q : Condition) : P (view (Condition.holds · q))
  substitution (e : PassId × PassId) :
    P (modifyConfig fun c => { c with substitutions := e :: c.substitutions })
  insertion (i : Insertion) :
    P (modifyConfig fun c => { c with insertions := c.insertions ++ [i] })
  disableVerify (value : Bool) : P (modifyConfig fun c => { c with disableVerify := value })
  enableTailMerge (value : Bool) : P (modifyConfig fun c => { c with enableTailMerge := value })
  printMachineCode (value : Bool) : P (modifyConfig fun c => { c with printMachineCode := value })

namespace Requesting

variable {P : {α : Type} → Build α → Prop} (h : Requesting P)
include h

theorem discarded {m : Build α} (hm : P m) : P (discard m) := by
  rw [discard_eq]
  exact h.bind hm fun _ => h.pure ()

theorem schedule (id : PassId) : P (schedule id) := by
  rw [schedule_eq]
  refine h.bind (h.resolve id) ?_
  rintro ⟨e | final, sink⟩
  · exact h.bind (h.nameOf id) fun _ => h.throw _
  · dsimp only
    split
    · exact h.bind (h.nameOf id) fun _ => h.bind (h.trace _) fun _ => h.pure final
    · exact h.bind (h.instantiate final) fun _ => h.bind (h.place _) fun _ => h.pure final

theorem forM_discard {request : PassId → Build PassId} (hr : ∀ id, P (request id))
    (ids : List PassId) : P (ids.forM fun id => discard (request id)) := by
  induction ids with
  | nil => exact h.pure ()
  | cons id ids ih => exact h.bind (h.discarded (hr id)) fun _ => ih

theorem follow {inner : Option (PassId → Build PassId)}
    (hi : ∀ request ∈ inner, ∀ id, P (request id)) (id : PassId) : P (follow inner id) := by
  rw [follow_eq]
  refine h.bind (h.insertedAfter id) fun inserted => ?_
  split
  · exact h.pure ()
  · refine h.bind h.enter fun _ => h.bind ?_ fun _ => h.leave
    cases inner with
    | none => exact h.bind (h.nameOf id) fun _ => h.throw _
    | some request => exact h.forM_discard (hi request rfl) inserted

theorem requestBy {inner : Option (PassId → Build PassId)}
    (hi : ∀ request ∈ inner, ∀ id, P (request id)) (id : PassId) : P (requestBy inner id) := by
  refine h.bind (h.schedule id) fun final => ?_
  split
  · exact h.bind (h.follow hi id) fun _ => h.pure final
  · exact h.pure final

theorem requestWithin (room : Nat) (id : PassId) : P (requestWithin room id) := by
  induction room generalizing id with
  | zero => exact h.requestBy (by simp) id
  | succ room ih => exact h.requestBy (by simpa using ih) id

theorem request (id : PassId) : P (request id) := by
  rw [request_eq]
  exact h.bind h.room fun room => h.requestWithin room id

theorem printAndVerify (banner : String) : P (printAndVerify banner) := by
  rw [printAndVerify_eq]
  refine h.bind h.printing fun x => h.bind ?_ fun _ => ?_
  · split
    · exact h.place _
    · exact h.pure ()
  · split
    · exact h.place _
    · exact h.pure ()

end Requesting

namespace Pervasive

variable {P : {α : Type} → Build α → Prop} (h : Pervasive P)
include h

theorem config_bind (f : Config → α) {k : α → Build β} (hf : P (view f)) (hk : ∀ a, P (k a)) :
    P (config >>= fun c => k (f c)) := by
  rw [config_bind_eq_view]
  exact h.bind hf hk

theorem requireMutable (change : Change) : P (requireMutable change) := by
  rw [requireMutable_eq]
  refine h.bind h.phase fun phase => ?_
  split
  · exact h.throw _
  · exact h.pure ()

theorem substitute (standard target : PassId) : P (substitute standard target) := by
  refine h.bind (h.nameOf standard) fun name => ?_
  exact h.bind (h.requireMutable _) fun _ => h.substitution _

theorem insert (anchor inserted : PassId) : P (insert anchor inserted) := by
  refine h.bind (h.nameOf inserted) fun name => h.bind (h.requireMutable _) fun _ => ?_
  dsimp only
  split
  · exact h.bind (h.nameOf anchor) fun _ => h.bind (h.throw _) fun _ => by
      split
      · exact h.bind (h.nameOf anchor) fun _ => h.bind (h.throw _) fun _ => h.insertion _
      · exact h.insertion _
  · split
    · exact h.bind (h.nameOf anchor) fun _ => h.bind (h.throw _) fun _ => h.insertion _
    · exact h.insertion _

theorem assign (setting : Setting) (value : Bool) : P (assign setting value) := by
  cases setting with
  | disableVerify => exact h.bind (h.requireMutable _) fun _ => h.disableVerify value
  | enableTailMerge => exact h.bind (h.requireMutable _) fun _ => h.enableTailMerge value
  | printMachineCode => exact h.bind (h.requireMutable _) fun _ => h.printMachineCode value

theorem allocatorPass (optimized : Bool) : P (allocatorPass optimized) := by
  rw [allocatorPass_eq]
  exact h.bind (h.selectAllocator optimized) fun id => h.bind (h.nameOf id) fun _ =>
    h.bind (h.trace _) fun _ => h.instantiate id

theorem take (supply : Supply) : P (take supply) := by
  rw [take_eq]
  refine h.bind ?_ fun p => h.bind h.sink fun sink => h.pure (p.withSink sink)
  cases supply with
  | registered id => exact h.instantiate id
  | ready p => exact h.pure p

/-- What the basic steps have, every script has. -/
theorem scripted : Scripted {} (fun _ => True) P where
  pure := h.pure
  bind := h.bind
  throw := h.throw
  target hk := h.config_bind Config.target h.target fun t => hk t trivial
  trace := h.trace
  announce := h.announce
  note := h.note
  holds {q} _ := h.holds q
  shown hq := by cases hq
  request := h.request
  place {supply} _ := h.bind (h.take supply) h.place
  print {subject banner} _ := by
    rw [placePrinter_eq]
    exact h.bind h.sink fun _ => h.place _
  printAndVerify {banner} _ := h.printAndVerify banner
  substitute {standard target} _ := h.substitute standard target
  insert {anchor inserted} _ := h.insert anchor inserted
  assign {setting value} _ := h.assign setting value
  allocatorPass := h.allocatorPass
  placeHanded := h.placeHanded

theorem exec {call : Caller} (hc : ∀ c p, P (call c p)) (hb : P (build call)) (frame : Frame)
    (script : Script) : P (exec call frame script) :=
  h.scripted.exec hc frame hb script.within_all

theorem runStages {call : Caller} (hc : ∀ c p, P (call c p)) : P (runStages call) :=
  h.scripted.runStages hc

theorem callStage (hb : ∀ call : Caller, (∀ c p, P (call c p)) → P (build call)) (depth : Nat)
    (c : StageCall) (allocator : Option Pass) : P (callStage depth c allocator) :=
  h.scripted.callStage (fun t _ c => (t.called c).within_all) hb depth c allocator

theorem setUp (hb : P (build stagesMissing)) (printAfter : Option PassId) (target : Target) :
    P (setUp printAfter target) := by
  have hc : P (discard (Build.exec stagesMissing {} target.configure)) :=
    h.discarded (h.exec (fun _ _ => h.throw _) hb {} target.configure)
  refine h.bind (h.substitute _ _) fun _ => h.bind (h.substitute _ _) fun _ =>
    h.bind (h.substitute _ _) fun _ => h.bind (h.substitute _ _) fun _ => ?_
  cases printAfter with
  | none => exact hc
  | some id => exact h.bind (h.insert id _) fun _ => hc

section builds

variable (hp : ∀ now, P (modifyConfig fun c => { c with phase := now }))
  (hr : P (view Config.refusal))
include hp hr

/-- Where the phase may change, builds have the property too. -/
theorem buildInto {call : Caller} (hc : ∀ c p, P (call c p)) : P (buildInto call) := by
  rw [buildInto_eq]
  refine h.bind (h.requireMutable _) fun _ => h.bind (hp _) fun _ =>
    h.bind (h.runStages hc) fun _ =>
    h.bind (hp _) fun _ => ?_
  exact h.config_bind Config.refusal (k := Pure.pure) hr h.pure

theorem build (hh : P (view Config.handed)) {call : Caller} (hc : ∀ c p, P (call c p)) :
    P (build call) := by
  rw [build_eq]
  refine h.bind (h.buildInto hp hr hc) fun refusal => ?_
  cases refusal with
  | some r => exact h.pure _
  | none =>
    refine h.bind hh fun handed => ?_
    cases Order.broken? (handed.map Pass.id) with
    | some c => exact h.throw _
    | none => exact h.pure _

end builds

end Pervasive

end PassPipeline.Build
