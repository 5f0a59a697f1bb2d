import PassPipeline.Proofs.Analysis
import PassPipeline.Proofs.Selection

/-! What work has to do with the session. It can leave nothing there but the first
selection of an allocator, and it can learn nothing from it but the registry, the choice
and what a selection would answer. -/
namespace PassPipeline

/-- What a session becomes if at most an allocator is selected. -/
inductive Session.Selects (answers : AllocatorAnswers) (s : Session) : Session → Prop
  | none : Selects answers s s
  | first {optimized : Bool} {id : PassId} {selector : Selector}
    (hr : s.allocators.resolved = Option.none)
    (h : s.allocators.select optimized answers = .ok (id, selector)) :
    Selects answers s { s with allocators := selector }

namespace Session.Selects

variable {answers : AllocatorAnswers} {s t u : Session}

theorem of_select {optimized : Bool} {id : PassId} {selector : Selector}
    (h : s.allocators.select optimized answers = .ok (id, selector)) :
    Selects answers s { s with allocators := selector } := by
  cases hr : s.allocators.resolved with
  | none => exact .first hr h
  | some old =>
    obtain ⟨rfl, hold⟩ := Selector.select_ok h
    obtain rfl := hold old hr
    have hs : { s with allocators := { s.allocators with resolved := some old } } = s := by
      rw [← hr]
    rw [hs]
    exact .none

theorem resolved_isSome (h : Selects answers s t) (hs : s.allocators.resolved.isSome) :
    t.allocators.resolved.isSome := by
  cases h with
  | none => exact hs
  | first hr _ => simp [hr] at hs

theorem trans (h : Selects answers s t) (h' : Selects answers t u) : Selects answers s u := by
  cases h with
  | none => exact h'
  | first hr hsel =>
    cases h' with
    | none => exact .first hr hsel
    | first hr' _ =>
      obtain ⟨rfl, -⟩ := Selector.select_ok hsel
      simp at hr'

end Session.Selects

namespace Build

variable {α β : Type}

/-- Work that leaves the target, and at most selects an allocator. -/
def Modest (m : Build α) : Prop :=
  ∀ s, (m.outcome s).2.config.target = s.config.target ∧
    s.session.Selects s.config.target.allocators (m.outcome s).2.session

namespace Modest

theorem left_behind {m : Build α} (h : Modest m) {s t : Construction} {answer : Except Defect α}
    (hm : m.outcome s = (answer, t)) :
    t.config.target = s.config.target ∧ s.session.Selects s.config.target.allocators t.session := by
  have hs := h s
  rwa [hm] at hs

theorem of_session {m : Build α}
    (h : ∀ s, (m.outcome s).2.config.target = s.config.target ∧
      (m.outcome s).2.session = s.session) : Modest m := by
  intro s
  refine ⟨(h s).1, ?_⟩
  rw [(h s).2]
  exact .none

theorem bind {m : Build α} {f : α → Build β} (hm : Modest m) (hf : ∀ a, Modest (f a)) :
    Modest (m >>= f) := by
  intro s
  obtain ⟨htarget, hselects⟩ := hm s
  rw [outcome_bind]
  rcases he : m.outcome s with ⟨d | a, t⟩
  · rw [he] at htarget hselects
    exact ⟨htarget, hselects⟩
  · rw [he] at htarget hselects
    obtain ⟨htarget', hselects'⟩ := hf a t
    rw [htarget] at htarget' hselects'
    exact ⟨htarget', hselects.trans hselects'⟩

theorem modifyConfig {f : Config → Config} (hf : ∀ c, (f c).target = c.target) :
    Modest (modifyConfig f) :=
  of_session fun s => ⟨hf s.config, rfl⟩

theorem view (f : Config → α) : Modest (view f) := of_session fun _ => ⟨rfl, rfl⟩

theorem place (p : Pass) : Modest (place p) := by
  refine of_session fun s => ?_
  by_cases hp : s.config.phase = .building
  · rw [outcome_place p hp, placed_config]
    exact ⟨rfl, placed_session s p⟩
  · rw [outcome_place_of_ne p hp]
    exact ⟨rfl, rfl⟩

theorem placeHanded (p : Option Pass) : Modest (placeHanded p) := by
  cases p with
  | some p => exact place p
  | none =>
    refine of_session fun s => ?_
    cases hr : s.config.refusal <;> simp [Build.placeHanded, outcome_bind, hr]

theorem selectAllocator (optimized : Bool) : Modest (selectAllocator optimized) := by
  intro s
  rw [outcome_selectAllocator]
  cases hsel : s.session.allocators.select optimized s.config.target.allocators with
  | error e =>
    refine ⟨by simp, ?_⟩
    rw [asked_session]
    exact .none
  | ok x => exact ⟨by simp, .of_select hsel⟩

theorem pervasive : Pervasive Modest where
  pure _ := of_session fun _ => ⟨rfl, rfl⟩
  bind := bind
  throw _ := of_session fun _ => ⟨rfl, rfl⟩
  trace _ := of_session fun _ => by simp
  announce := of_session fun _ => by simp
  note _ := of_session fun _ => ⟨rfl, rfl⟩
  nameOf _ := of_session fun _ => ⟨rfl, rfl⟩
  instantiate _ := of_session fun _ => by simp
  place := place
  placeHanded := placeHanded
  selectAllocator := selectAllocator
  phase := view _
  target := view _
  sink := view _
  holds _ := view _
  resolve _ := view _
  insertedAfter _ := view _
  room := view _
  printing := view _
  enter := modifyConfig fun _ => rfl
  leave := modifyConfig fun _ => rfl
  substitution _ := modifyConfig fun _ => rfl
  insertion _ := modifyConfig fun _ => rfl
  disableVerify _ := modifyConfig fun _ => rfl
  enableTailMerge _ := modifyConfig fun _ => rfl
  printMachineCode _ := modifyConfig fun _ => rfl

theorem build {call : Caller} (hc : ∀ c p, Modest (call c p)) : Modest (build call) :=
  pervasive.build (fun _ => modifyConfig fun _ => rfl) (view _) (view _) hc

theorem stages (c : StageCall) (p : Option Pass) : Modest (stages c p) :=
  pervasive.callStage (fun _ hc => build hc) depthLimit c p

theorem buildInto_stages : Modest (buildInto Build.stages) :=
  pervasive.buildInto (fun _ => modifyConfig fun _ => rfl) (view _) stages

theorem setUp (printAfter : Option PassId) (target : Target) : Modest (setUp printAfter target) :=
  pervasive.setUp (build fun _ _ => pervasive.throw _) printAfter target

end Modest

/-- Where work succeeds from a state in which an allocator is remembered, if `before` says so, there
is one remembered behind it, if `behind` says so. -/
def Recalls (target : Target) (before behind : Bool) (m : Build α) : Prop :=
  ∀ ⦃s a t⦄, s.config.target = target → (before → s.session.allocators.resolved.isSome) →
    m.outcome s = (.ok a, t) → t.config.target = target ∧
      (behind → t.session.allocators.resolved.isSome)

namespace Recalls

variable {target : Target} {before behind : Bool} {b c : Bool}

theorem of_modest {m : Build α} (h : Modest m) : Recalls target b b m := by
  intro s a t htarget hbefore hm
  obtain ⟨ht, hs⟩ := h.left_behind hm
  exact ⟨ht.trans htarget, fun hb => hs.resolved_isSome (hbefore hb)⟩

theorem bind {m : Build α} {f : α → Build β} (hm : Recalls target before b m)
    (hf : ∀ a, Recalls target b behind (f a)) : Recalls target before behind (m >>= f) := by
  intro s x t htarget hbefore he
  obtain ⟨a, u, hma, hfa⟩ := bind_outcome_ok he
  obtain ⟨hu, hb⟩ := hm htarget hbefore hma
  exact hf a hu hb hfa

theorem weaken {m : Build α} (hm : Recalls target before b m) (h : c → b) :
    Recalls target before c m := by
  intro s a t htarget hbefore he
  obtain ⟨ht, hb⟩ := hm htarget hbefore he
  exact ⟨ht, fun hc => hb (h hc)⟩

theorem selectAllocator (optimized : Bool) :
    Recalls target before true (selectAllocator optimized) := by
  intro s id t htarget hbefore he
  refine ⟨(of_modest (Modest.selectAllocator optimized) htarget hbefore he).1, fun _ => ?_⟩
  rw [outcome_selectAllocator] at he
  rcases hsel : s.session.allocators.select optimized s.config.target.allocators with e | ⟨id', sel⟩
  · simp [hsel] at he
  · simp only [hsel] at he
    cases he
    obtain ⟨rfl, -⟩ := Selector.select_ok hsel
    rfl

theorem allocatorPass (optimized : Bool) :
    Recalls target before true (allocatorPass optimized) := by
  rw [allocatorPass_eq]
  exact (selectAllocator optimized).bind fun id => of_modest <|
    Modest.pervasive.bind (Modest.pervasive.nameOf id) fun _ =>
      Modest.pervasive.bind (Modest.pervasive.trace _) fun _ => Modest.pervasive.instantiate id

end Recalls

/-- Whether an allocator was selected on every way through a script. -/
def recalling : Analysis Bool where
  request _ := some
  place _ := some
  select _ := some true
  placeHanded _ := some
  change _ := none
  join := and

theorem recalling_sound (target : Target) :
    recalling.Sound target (fun _ => True) (Recalls target) where
  pure _ _ := .of_modest (Modest.pervasive.pure _)
  bind hm hf := hm.bind hf
  left _ h := h.weaken fun hbc => (Bool.and_eq_true_iff.mp hbc).1
  right _ h := h.weaken fun hbc => (Bool.and_eq_true_iff.mp hbc).2
  target {α a b k} h := by
    intro s x t htarget hbefore he
    have hk : (k target).outcome s = (.ok x, t) := by
      rw [← htarget]
      exact he
    exact h htarget hbefore hk
  holds _ q := .of_modest (Modest.view _)
  trace _ text := .of_modest (Modest.pervasive.trace text)
  announce _ := .of_modest Modest.pervasive.announce
  note _ e := .of_modest (Modest.pervasive.note e)
  request h := by
    cases h
    exact .of_modest (Modest.pervasive.request _)
  place h := by
    cases h
    exact .of_modest (Modest.pervasive.bind (Modest.pervasive.take _) Modest.place)
  print _ subject banner := .of_modest (Modest.pervasive.bind (Modest.view id) fun _ =>
    Modest.place _)
  printAndVerify _ banner := .of_modest (Modest.pervasive.printAndVerify banner)
  allocatorPass optimized h hf := by
    cases h
    exact (Recalls.allocatorPass optimized).bind fun p => hf p trivial
  placeHanded p _ h := by
    cases h
    exact .of_modest (Modest.placeHanded p)
  substitute _ _ h := by cases h
  insert _ _ h := by cases h
  assign _ _ h := by cases h
  build _ h := by cases h

/-- Two states that differ only in what a selection would answer in any case. -/
structure Lockstep (s t : Construction) : Prop where
  config : t.config = s.config
  journal : t.journal = s.journal
  registry : t.session.registry = s.session.registry
  tracing : t.session.tracing = s.session.tracing
  allocators : s.session.allocators.Foresees t.session.allocators

/-- Work that cannot tell such states apart. -/
def Agrees (m : Build α) : Prop :=
  ∀ ⦃s t⦄, Lockstep s t →
    (m.outcome t).1 = (m.outcome s).1 ∧ Lockstep (m.outcome s).2 (m.outcome t).2

namespace Lockstep

variable {s t : Construction}

theorem traced (h : Lockstep s t) (text : String) : Lockstep (s.traced text) (t.traced text) := by
  unfold Construction.traced
  rw [h.tracing, h.config, h.journal]
  split
  · exact ⟨rfl, rfl, h.registry, h.tracing, h.allocators⟩
  · exact h

theorem placed (h : Lockstep s t) (p : Pass) : Lockstep (placed s p) (Build.placed t p) := by
  unfold Build.placed
  rw [h.config, h.registry]
  split
  · exact h
  · have ht := h.traced (placedText s.config.window p)
    exact ⟨rfl, ht.journal, ht.registry, ht.tracing, ht.allocators⟩

theorem asked (h : Lockstep s t) (optimized : Bool) :
    Lockstep (asked optimized s) (Build.asked optimized t) := by
  unfold Build.asked
  rw [h.allocators.asksTarget, h.config, h.journal]
  split
  · exact ⟨rfl, rfl, h.registry, h.tracing, h.allocators⟩
  · exact h

end Lockstep

namespace Agrees

theorem pure (a : α) : Agrees (pure a) := Congruent.pure a

theorem throw (d : Defect) : Agrees (throw d : Build α) := Congruent.throw d

theorem bind {m : Build α} {f : α → Build β} (hm : Agrees m) (hf : ∀ a, Agrees (f a)) :
    Agrees (m >>= f) :=
  Congruent.bind hm hf

theorem view (f : Config → α) : Agrees (view f) := Congruent.view fun _ _ h => congrArg f h.config

theorem modifyConfig (f : Config → Config) : Agrees (modifyConfig f) := by
  intro s t h
  rw [outcome_modifyConfig, outcome_modifyConfig, h.config]
  exact ⟨rfl, rfl, h.journal, h.registry, h.tracing, h.allocators⟩

theorem trace (text : String) : Agrees (trace text) := by
  intro s t h
  rw [outcome_trace, outcome_trace]
  exact ⟨rfl, h.traced text⟩

theorem announce : Agrees announce := by
  intro s t h
  rw [outcome_announce, outcome_announce, h.config, h.allocators.choice]
  exact ⟨rfl, h.traced _⟩

theorem note (e : Entry) : Agrees (note e) := by
  intro s t h
  rw [outcome_note, outcome_note, h.journal]
  exact ⟨rfl, h.config, rfl, h.registry, h.tracing, h.allocators⟩

theorem nameOf (id : PassId) : Agrees (nameOf id) := by
  intro s t h
  rw [outcome_nameOf, outcome_nameOf, h.registry]
  exact ⟨rfl, h⟩

theorem instantiate (id : PassId) : Agrees (instantiate id) := by
  intro s t h
  rw [outcome_instantiate, outcome_instantiate, h.registry]
  exact ⟨rfl, h⟩

theorem place (p : Pass) : Agrees (place p) :=
  Congruent.place (fun _ _ h => congrArg Config.phase h.config) fun _ _ h => h.placed p

theorem placeHanded (p : Option Pass) : Agrees (placeHanded p) :=
  Congruent.placeHanded place (fun _ _ h => congrArg Config.refusal h.config) p

theorem selectAllocator (optimized : Bool) : Agrees (selectAllocator optimized) := by
  intro s t h
  have ha := h.asked optimized
  rw [outcome_selectAllocator, outcome_selectAllocator, h.config, h.allocators.select]
  cases s.session.allocators.select optimized s.config.target.allocators with
  | error e => exact ⟨rfl, ha⟩
  | ok x => exact ⟨rfl, ha.config, ha.journal, h.registry, h.tracing, .refl⟩

theorem pervasive : Pervasive Agrees where
  pure := pure
  bind := bind
  throw := throw
  trace := trace
  announce := announce
  note := note
  nameOf := nameOf
  instantiate := instantiate
  place := place
  placeHanded := placeHanded
  selectAllocator := selectAllocator
  phase := view _
  target := view _
  sink := view _
  holds _ := view _
  resolve _ := view _
  insertedAfter _ := view _
  room := view _
  printing := view _
  enter := modifyConfig _
  leave := modifyConfig _
  substitution _ := modifyConfig _
  insertion _ := modifyConfig _
  disableVerify _ := modifyConfig _
  enableTailMerge _ := modifyConfig _
  printMachineCode _ := modifyConfig _

theorem build {call : Caller} (hc : ∀ c p, Agrees (call c p)) : Agrees (build call) :=
  pervasive.build (fun _ => modifyConfig _) (view _) (view _) hc

theorem build_stages : Agrees (Build.build stages) :=
  build (pervasive.callStage (fun _ hc => build hc) depthLimit)

theorem setUp (printAfter : Option PassId) (target : Target) : Agrees (setUp printAfter target) :=
  pervasive.setUp (build fun _ _ => throw _) printAfter target

end Agrees

end Build

end PassPipeline
