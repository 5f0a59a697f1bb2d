import PassPipeline.Proofs.Immutability
import PassPipeline.Proofs.SteadyBuild

/-! Targets that keep to the order. The standard stages place the constrained kinds in the
order of their numbers. A target that only extends them, at the places that are there for it,
cannot break the order unless it brings in a constrained kind itself: whatever else goes
wrong, it is not the order. -/
namespace PassPipeline

/-- The stages that are there for targets to extend. In their standard form they add nothing. -/
def Stage.isHook : Stage → Bool
  | .preISel | .instSelector | .preRegAlloc | .preVirtRegs | .finalizeRegAlloc | .postRegAlloc
  | .preSched2 | .preEmit => true
  | _ => false

/-- Whether a script brings in no constrained kind, where it may ask for kinds that are `mild`. It
may call other hooks. -/
def Script.harmless (mild : PassId → Bool) : Script → Bool
  | .skip | .claim => true
  | .run (.place (.registered id)) => !Order.constrained id
  | .run (.place (.ready p)) => !Order.constrained p.id
  | .run (.allocate _) => false
  | .run _ => true
  | .seq first second => harmless mild first && harmless mild second
  | .ask (.schedules kind _) yes no => mild kind && harmless mild yes && harmless mild no
  | .ask (.stage stage) yes no => stage.isHook && harmless mild yes && harmless mild no
  | .ask _ yes no => harmless mild yes && harmless mild no

/-- The standard passes over the intermediate representation, and
exceptions lowered right behind them. -/
def Stage.irPassesAndExceptions : Script := .block [.ask .standard .skip .skip, .call .exceptions]

namespace Config

/-- Whether no constrained kind comes of a request. -/
def mild (c : Config) (id : PassId) : Bool :=
  match c.resolve id with
  | .ok final => !Order.constrained final
  | .error _ => true

/-- A configuration whose target only extends the standard stages, and brings in no constrained
kind. What stands in for a kind is the kind itself, none, or not constrained. -/
structure Unobtrusive (c : Config) : Prop where
  kept : ∀ stage : Stage, stage.isHook = false → c.target.replaced stage = none ∨
    stage = .irPasses ∧ c.target.replaced stage = some Stage.irPassesAndExceptions
  hooks : ∀ stage : Stage, stage.isHook → ∀ script ∈ c.target.replaced stage, script.harmless c.mild
  substitution : ∀ id, c.substitution id = id ∨ Order.constrained (c.substitution id) = false
  inserted : ∀ i ∈ c.insertions, c.mild i.inserted

variable {c : Config} {id final : PassId} {m n : Int}

theorem mem_substitutions (h : c.substitution id ≠ id) :
    (id, c.substitution id) ∈ c.substitutions := by
  rw [substitution] at h ⊢
  split at h
  · rename_i entry he
    have hid : entry.1 = id := by simpa using List.find?_some he
    rw [← hid]
    exact List.mem_of_find?_eq_some he
  · exact absurd rfl h

/-- A kind may be asked for between two bounds, whatever comes of it. -/
def Admits (c : Config) (id : PassId) (m n : Int) : Prop :=
  m ≤ n ∧ ∀ final, c.resolve id = .ok final → ∃ k ≤ n, Order.climb final m = some k

theorem admits_of_mild (h : c.mild id) (n : Int) : c.Admits id n n := by
  refine ⟨Int.le_refl n, fun final hf => ⟨n, Int.le_refl n, Order.climb_of_not_constrained ?_ n⟩⟩
  simpa [mild, hf] using h

theorem Unobtrusive.admits_of_climb (h : c.Unobtrusive) (hn : Order.climb id m = some n) :
    c.Admits id m n := by
  have hle := (Order.climb_bounds hn).1
  refine ⟨hle, fun final hf => ?_⟩
  have hfree (hc : Order.constrained final = false) : ∃ k ≤ n, Order.climb final m = some k :=
    ⟨m, hle, Order.climb_of_not_constrained hc m⟩
  rcases cases_of_resolve hf with rfl | rfl | ⟨rfl, -⟩
  · exact hfree rfl
  · rcases h.substitution id with hs | hs
    · exact ⟨n, Int.le_refl n, by rw [hs, hn]⟩
    · exact hfree hs
  · exact ⟨n, Int.le_refl n, hn⟩

theorem Unobtrusive.building (h : c.Unobtrusive) : { c with phase := .building }.Unobtrusive :=
  ⟨h.kept, h.hooks, h.substitution, h.inserted⟩

theorem Unobtrusive.harmless_called (h : c.Unobtrusive) {call : StageCall}
    (hook : call.stage.isHook) : (c.target.called call).harmless c.mild := by
  have hstandard : (c.target.standardScript call.stage).harmless c.mild := by
    obtain ⟨stage, standard⟩ := call
    cases stage <;> first | rfl | cases hook
  rw [Target.called, Target.script]
  split
  · exact hstandard
  · cases hr : c.target.replaced call.stage with
    | none => exact hstandard
    | some script => exact h.hooks call.stage hook script hr

/-- All other stages are the standard ones, but that exceptions may be lowered early. -/
theorem Unobtrusive.called_cases (h : c.Unobtrusive) {call : StageCall}
    (hook : ¬ call.stage.isHook) :
    c.target.called call = call.stage.standardScript c.target.exceptions ∨
      call = { stage := .irPasses } ∧ c.target.called call = Stage.irPassesAndExceptions := by
  obtain ⟨stage, standard⟩ := call
  cases standard with
  | true => exact .inl rfl
  | false =>
    rcases h.kept stage (by simpa using hook) with hk | ⟨rfl, hk⟩
    · exact .inl (by simp [Target.called, Target.script, hk, Target.standardScript])
    · exact .inr ⟨rfl, by simp [Target.called, Target.script, hk]⟩

end Config

/-- Whether passes came in the wrong order. -/
def Defect.isOrder : Defect → Bool
  | .order _ _ => true
  | _ => false

namespace Build

variable {α β : Type} {c : Config} {id : PassId} {l m n : Int}

/-- A state of a build of `c` with constrained kinds up to `n`, in which
no allocator is constrained. -/
structure Rising (c : Config) (n : Int) (s : Construction) : Prop where
  config : ∃ k x, s.config = c.during k x
  allocators : ∀ optimized id selector,
    s.session.allocators.select optimized c.target.allocators = .ok (id, selector) →
      Order.constrained id = false
  climbs : Order.Climbs n (s.config.handed.map Pass.id)

/-- From states up to `m` work leads to states up to `n`, if it ends well; if not, the reason is
another than the order. -/
def Rises (c : Config) (m n : Int) (work : Build α) : Prop :=
  ∀ ⦃s⦄, Rising c m s →
    match work.outcome s with
    | (.ok _, t) => Rising c n t
    | (.error d, _) => d.isOrder = false

namespace Rising

variable {s : Construction}

theorem mono (h : Rising c m s) (hle : m ≤ n) : Rising c n s :=
  { h with climbs := h.climbs.mono hle }

theorem of_eq {t : Construction} (h : Rising c n s) (hs : t.session = s.session)
    (hc : t.config = s.config) : Rising c n t :=
  ⟨hc ▸ h.config, hs ▸ h.allocators, hc ▸ h.climbs⟩

theorem phase (h : Rising c n s) : s.config.phase = c.phase := by
  obtain ⟨k, x, hx⟩ := h.config
  rw [hx]
  rfl

theorem placed (h : Rising c m s) {p : Pass} (hp : Order.climb p.id m = some n) :
    Rising c n (placed s p) := by
  obtain ⟨k, x, hx⟩ := h.config
  obtain ⟨-, hhanded⟩ := s.config.placement.take_cases s.session.registry p
  refine ⟨⟨k, s.config.placement.take s.session.registry p, ?_⟩, ?_, ?_⟩
  · rw [placed_config, hx]
    rfl
  · rw [placed_session]
    exact h.allocators
  · rw [placed_config]
    change Order.Climbs n ((s.config.placement.take s.session.registry p).handed.map Pass.id)
    rcases hhanded with he | he
    · rw [he]
      exact h.climbs.mono (Order.climb_bounds hp).1
    · rw [he, List.map_append]
      exact h.climbs.concat hp

end Rising

namespace Rises

theorem of_ok {work : Build α} {a : Construction → α} {f : Construction → Construction}
    (h : ∀ s, work.outcome s = (.ok (a s), f s)) (hs : ∀ s, (f s).session = s.session)
    (hc : ∀ s, (f s).config = s.config) : Rises c n n work := by
  intro s hr
  rw [h s]
  exact hr.of_eq (hs s) (hc s)

theorem pure (a : α) : Rises c n n (pure a) := of_ok (fun _ => rfl) (fun _ => rfl) fun _ => rfl

theorem throw {d : Defect} (hd : d.isOrder = false) : Rises c m n (throw d : Build α) :=
  fun _ _ => hd

theorem bind {work : Build α} {f : α → Build β} (hw : Rises c l m work)
    (hf : ∀ a, Rises c m n (f a)) : Rises c l n (work >>= f) := by
  intro s hs
  have hm := hw hs
  rw [outcome_bind]
  generalize work.outcome s = x at hm
  obtain ⟨d | a, t⟩ := x
  · exact hm
  · exact hf a hm

theorem weaken {work : Build α} (hw : Rises c l m work) (hle : m ≤ n) : Rises c l n work := by
  intro s hs
  have hm := hw hs
  generalize work.outcome s = x at hm
  obtain ⟨d | a, t⟩ := x
  · exact hm
  · exact Rising.mono hm hle

theorem strengthen {work : Build α} (hw : Rises c m n work) (hle : l ≤ m) : Rises c l n work :=
  fun _ hs => hw (hs.mono hle)

theorem view_bind {g : Config → α} {a : α} {f : α → Build β} (hg : ∀ k x, g (c.during k x) = a)
    (hf : Rises c m n (f a)) : Rises c m n (view g >>= f) := by
  intro s hs
  obtain ⟨k, x, hx⟩ := hs.config
  rw [outcome_bind_ok (outcome_view g s), hx, hg]
  exact hf hs

theorem discarded {work : Build α} (hw : Rises c m n work) : Rises c m n (discard work) := by
  rw [discard_eq]
  exact hw.bind fun _ => pure ()

theorem trace (text : String) : Rises c n n (trace text) :=
  of_ok (outcome_trace text) (·.traced_session text) (·.traced_config text)

theorem nameOf (id : PassId) : Rises c n n (nameOf id) :=
  of_ok (outcome_nameOf id) (fun _ => rfl) fun _ => rfl

theorem instantiate_bind {f : Pass → Build β} (hf : ∀ p, p.id = id → Rises c m n (f p)) :
    Rises c m n (instantiate id >>= f) := by
  intro s hs
  rw [outcome_bind, outcome_instantiate]
  cases hi : s.session.registry.instantiate id with
  | error e => rfl
  | ok p => exact hf p (Registry.instantiate_id hi) hs

theorem modifyNesting (f : Nat → Nat) :
    Rises c n n (modifyConfig fun c => { c with nesting := f c.nesting }) := by
  intro s hs
  obtain ⟨k, x, hx⟩ := hs.config
  refine ⟨⟨f k, x, ?_⟩, hs.allocators, hs.climbs⟩
  exact congrArg (fun c => { c with nesting := f c.nesting }) hx

theorem forM_discard {request : PassId → Build PassId} {ids : List PassId}
    (h : ∀ id ∈ ids, Rises c n n (request id)) :
    Rises c n n (ids.forM fun id => discard (request id)) := by
  induction ids with
  | nil => exact pure ()
  | cons id ids ih =>
    refine (h id List.mem_cons_self).discarded.bind fun _ => ih fun id' hid' => ?_
    exact h id' (List.mem_cons_of_mem id hid')

section building

variable (hp : c.phase = .building)
include hp

theorem place {p : Pass} (h : Order.climb p.id m = some n) : Rises c m n (place p) := by
  intro s hs
  rw [outcome_place p (hs.phase.trans hp)]
  exact hs.placed h

theorem tooLate {e : Config.Event} (he : ∀ r, (e.change? r).isSome) : Rises c n n e.work := by
  intro s hs
  obtain ⟨change, hchange⟩ := Option.isSome_iff_exists.mp (he s.session.registry)
  rw [outcome_change (by rw [hs.phase, hp]; decide) hchange]
  rfl

theorem placePrinter (subject : Subject) (sink : Sink) (banner : String) :
    Rises c n n (Build.place (.printer subject sink banner)) := by
  refine place hp (Order.climb_of_not_constrained ?_ n)
  cases subject <;> rfl

theorem printAndVerify (banner : String) : Rises c n n (printAndVerify banner) := by
  rw [printAndVerify_eq]
  refine view_bind (a := (c.printMachineCode, c.sink, c.options.verifyMachineCode)) (fun _ _ => rfl)
    (Rises.bind (m := n) ?_ fun _ => ?_)
  · split
    · exact placePrinter hp _ _ _
    · exact pure ()
  · split
    · exact place hp (Order.climb_of_not_constrained rfl n)
    · exact pure ()

theorem schedule (h : c.Admits id m n) : Rises c m n (schedule id) := by
  obtain ⟨hle, hadmits⟩ := h
  rw [schedule_eq]
  refine view_bind (a := (c.resolve id, c.sink)) (fun _ _ => rfl) ?_
  cases hres : c.resolve id with
  | error e => exact (nameOf id).bind fun _ => throw rfl
  | ok final =>
    dsimp only
    split
    · exact (nameOf id).bind fun _ => (trace _).bind fun _ => (pure final).weaken hle
    · obtain ⟨k, hk, hclimb⟩ := hadmits final hres
      refine instantiate_bind fun p hid => ?_
      have hplace : Order.climb (p.withSink c.sink).id m = some k := by
        rw [Pass.withSink_id, hid, hclimb]
      exact (place hp hplace).bind fun _ => (pure final).weaken hk

section requests

variable (hins : ∀ i ∈ c.insertions, c.mild i.inserted)
include hins

omit hp in
/-- What follows a request leaves the bound where it is. -/
theorem follow {inner : Option (PassId → Build PassId)}
    (h : ∀ request ∈ inner, ∀ kind, c.mild kind → Rises c n n (request kind)) :
    Rises c n n (follow inner id) := by
  rw [follow_eq]
  refine view_bind (a := c.insertedAfter id) (fun _ _ => rfl) ?_
  split
  · exact pure ()
  · refine (modifyNesting (· + 1)).bind fun _ => Rises.bind (m := n) ?_ fun _ =>
      modifyNesting (· - 1)
    cases inner with
    | none => exact (nameOf id).bind fun _ => throw rfl
    | some request =>
      refine forM_discard fun kind hkind => h request rfl kind ?_
      obtain ⟨i, hi, rfl⟩ := List.mem_map.mp hkind
      exact hins i (List.mem_filter.mp hi).1

theorem requestBy {inner : Option (PassId → Build PassId)} (hid : c.Admits id m n)
    (h : ∀ request ∈ inner, ∀ kind, c.mild kind → Rises c n n (request kind)) :
    Rises c m n (requestBy inner id) := by
  refine (schedule hp hid).bind fun final => ?_
  split
  · exact (follow hins h).bind fun _ => pure final
  · exact pure final

theorem requestWithin (room : Nat) (hid : c.Admits id m n) :
    Rises c m n (requestWithin room id) := by
  induction room generalizing id m n with
  | zero => exact requestBy hp hins hid (by simp)
  | succ room ih =>
    refine requestBy hp hins hid ?_
    rintro _ ⟨⟩ kind hkind
    exact ih (Config.admits_of_mild hkind n)

theorem request (hid : c.Admits id m n) : Rises c m n (request id) := by
  rw [request_eq]
  intro s hs
  rw [outcome_bind_ok (outcome_view _ s)]
  exact requestWithin hp hins _ hid hs

end requests

end building

/-- The kind of an allocator that is selected is not constrained, and the
next choice will find the same. -/
theorem allocatorPass_bind {f : Pass → Build β} (optimized : Bool)
    (hf : ∀ p, Order.constrained p.id = false → Rises c m n (f p)) :
    Rises c m n (allocatorPass optimized >>= f) := by
  have hselect {g : PassId → Build β} (hg : ∀ id, Order.constrained id = false →
    Rises c m n (g id)) :
      Rises c m n (selectAllocator optimized >>= g) := by
    intro s hs
    obtain ⟨k, x, hx⟩ := hs.config
    have htarget : s.config.target = c.target := by
      rw [hx]
      rfl
    rw [outcome_bind, outcome_selectAllocator, htarget]
    rcases hsel : s.session.allocators.select optimized c.target.allocators with e | ⟨id, selector⟩
    · rfl
    · refine hg id (hs.allocators _ _ _ hsel) ⟨?_, ?_, ?_⟩
      · exact ⟨k, x, (asked_config optimized s).trans hx⟩
      · intro again id' selector' hagain
        cases (Selector.select_select hsel again _).symm.trans hagain
        exact hs.allocators _ _ _ hsel
      · simpa using hs.climbs
  rw [allocatorPass_eq]
  simp only [bind_assoc]
  refine hselect fun id hid => (nameOf id).bind fun _ => (trace _).bind fun _ => ?_
  exact instantiate_bind fun p hp => hf p (hp ▸ hid)

end Rises

/-- The bound behind a script. Kinds that are known to be mild leave it where it
is; all others have to climb. -/
def rising (mild : PassId → Bool) : Analysis Int where
  request id n := if mild id then some n else Order.climb id n
  place supply n :=
    match supply with
    | .registered id => Order.climb id n
    | .ready p => Order.climb p.id n
  select := some
  placeHanded _ := some
  change := some
  join := max

theorem rising_sound {mild : PassId → Bool} (h : c.Unobtrusive) (hp : c.phase = .building)
    (hm : ∀ id, mild id → c.mild id) :
    (rising mild).Sound c.target (fun p => Order.constrained p.id = false)
      (fun a b work => Rises c a b work) where
  pure a x := .pure x
  bind hw hf := hw.bind hf
  left _ hw := hw.weaken (Int.le_max_left _ _)
  right _ hw := hw.weaken (Int.le_max_right _ _)
  target {α a b k} hk := by
    rw [config_bind_eq_view]
    exact .view_bind (fun _ _ => rfl) hk
  holds a q := .of_ok (fun _ => rfl) (fun _ => rfl) fun _ => rfl
  trace a text := .trace text
  announce a := .of_ok outcome_announce (fun s => s.traced_session _) fun s => s.traced_config _
  note a e := .of_ok (outcome_note e) (fun _ => rfl) fun _ => rfl
  request {a b kind} hr := by
    refine .request hp h.inserted ?_
    by_cases hk : mild kind
    · simp only [rising, hk, if_true] at hr
      cases hr
      exact Config.admits_of_mild (hm kind hk) a
    · simp only [rising, hk, Bool.false_eq_true, if_false] at hr
      exact h.admits_of_climb hr
  place {a b supply} hr := by
    have hsink (p : Pass) (hclimb : Order.climb p.id a = some b) :
        Rises c a b (view Config.sink >>= fun sink => place (p.withSink sink)) :=
      .view_bind (fun _ _ => rfl) (.place hp (by rwa [Pass.withSink_id]))
    rw [take_eq]
    simp only [bind_assoc, pure_bind]
    cases supply with
    | ready p => exact hsink p hr
    | registered id => exact .instantiate_bind fun p hid => hsink p (hid ▸ hr)
  print a subject banner := by
    rw [config_bind_eq_view Config.sink fun sink => place (.printer subject sink banner)]
    exact .view_bind (fun _ _ => rfl) (.placePrinter hp subject c.sink banner)
  printAndVerify a banner := .printAndVerify hp banner
  allocatorPass optimized hs hf := by
    cases hs
    exact .allocatorPass_bind optimized hf
  placeHanded p hhanded hs := by
    cases hs
    cases p with
    | some p => exact .place hp (Order.climb_of_not_constrained (hhanded p rfl) _)
    | none =>
      intro s hs
      simp only [placeHanded, outcome_bind, outcome_config]
      cases s.config.refusal with
      | none => rfl
      | some r => exact hs
  substitute standard target hs := by
    cases hs
    exact .tooLate (e := .substitute standard target) hp fun _ => rfl
  insert anchor inserted hs := by
    cases hs
    exact .tooLate (e := .insert anchor inserted) hp fun _ => rfl
  assign setting value hs := by
    cases hs
    exact .tooLate (e := .set setting value) hp fun _ => by cases setting <;> rfl
  build call hs := by
    cases hs
    intro s hr
    rw [outcome_build_of_ne call (by rw [hr.phase, hp]; decide)]
    rfl

/-- The numbers that a stage starts from and ends with: those of the first and of the last
constrained kind it can ask for. Hooks have none. -/
def span : StageCall → Option (Int × Int)
  | { stage := .irPasses, standard := true } =>
    some (Standard.basicAliasAnalysis.number, Standard.loopStrengthReduce.number)
  | { stage := .irPasses, standard := false } =>
    some (Standard.basicAliasAnalysis.number, Standard.dwarfPrepare.number)
  | { stage := .exceptions, .. } => some (Standard.sjljPrepare.number, Standard.dwarfPrepare.number)
  | { stage := .iselPrepare, .. } =>
    some (Standard.stackProtector.number, Standard.stackProtector.number)
  | { stage := .machinePasses, .. } =>
    some (Standard.expandISelPseudos.number, Standard.blockPlacementStats.number)
  | { stage := .ssaOptimization, .. } =>
    some (Standard.optimizePHIs.number, Standard.deadInstructionElim.number)
  | { stage := .fastRegAlloc, .. } =>
    some (Standard.phiElimination.number, Standard.twoAddressInstruction.number)
  | { stage := .optimizedRegAlloc, .. } =>
    some (Standard.liveVariables.number, Standard.stackSlotColoring.number)
  | { stage := .lateOptimization, .. } =>
    some (Standard.branchFolder.number, Standard.branchFolder.number)
  | { stage := .blockPlacement, .. } =>
    some (Standard.blockPlacement.number, Standard.blockPlacementStats.number)
  | _ => none

/-- A stage can be called up to the number it starts from. -/
def spanned : Analysis.Reach Int := fun call _ n =>
  match span call with
  | some (first, last) => if n ≤ first then some last else none
  | none => some n

theorem span_of_isHook {call : StageCall} (h : call.stage.isHook) : span call = none := by
  obtain ⟨stage, standard⟩ := call
  cases stage <;> first | rfl | cases h

theorem exists_span {call : StageCall} (h : ¬ call.stage.isHook) :
    ∃ first last, span call = some (first, last) := by
  obtain ⟨stage, standard⟩ := call
  cases stage <;> first | exact absurd rfl h | (cases standard <;> exact ⟨_, _, rfl⟩)

/-- A hook that introduces nothing leaves every bound as it is. -/
theorem script_of_harmless {mild : PassId → Bool} {stage : Stage} (hs : stage.isHook)
    (handed : Bool) {script : Script} (h : script.harmless mild) (n : Int) :
    (rising mild).script spanned (some stage) handed script n = some n := by
  have hspanned (stage : Stage) (standard : Bool) (hstage : stage.isHook) :
      spanned { stage, standard } handed n = some n := by
    rw [spanned, span_of_isHook hstage]
  have hclimb {id : PassId} (hid : (!Order.constrained id) = true) : Order.climb id n = some n :=
    Order.climb_of_not_constrained (by simpa using hid) n
  -- behind a query the bound is what it was, so the two ways of a script are joined to it
  have hask {q : Query} {yes no : Script}
      (hq : (rising mild).query spanned (some stage) handed n q = some n)
      (hy : (rising mild).script spanned (some stage) handed yes n = some n)
      (hn : (rising mild).script spanned (some stage) handed no n = some n) :
      (rising mild).script spanned (some stage) handed (.ask q yes no) n = some n := by
    simp only [Analysis.script, hq, hy, hn, Option.bind_some, Option.map_some]
    exact congrArg some (Int.max_self n)
  induction script with
  | skip | claim => rfl
  | run command =>
    cases command with
    | place supply => cases supply <;> exact hclimb h
    | allocate => cases h
    | print | printAndVerify | substitute | insert | set | placeAllocator | build => rfl
  | seq first second ih₁ ih₂ =>
    obtain ⟨h₁, h₂⟩ := Bool.and_eq_true_iff.mp h
    rw [Analysis.script, ih₁ h₁, Option.bind_some, ih₂ h₂]
  | ask query yes no ihy ihn =>
    cases query with
    | holds | standard =>
      obtain ⟨hy, hn⟩ := Bool.and_eq_true_iff.mp h
      refine hask ?_ (ihy hy) (ihn hn)
      first | rfl | exact hspanned stage true hs
    | schedules kind reported =>
      simp only [Script.harmless, Bool.and_eq_true] at h
      obtain ⟨⟨hk, hy⟩, hn⟩ := h
      exact hask (if_pos hk) (ihy hy) (ihn hn)
    | stage other =>
      simp only [Script.harmless, Bool.and_eq_true] at h
      obtain ⟨⟨ho, hy⟩, hn⟩ := h
      exact hask (hspanned other false ho) (ihy hy) (ihn hn)

/-- The standard stages keep to their spans. -/
theorem script_of_standard (m : ExceptionModel) {call : StageCall} (handed : Bool)
    {first last : Int} (h : span call = some (first, last)) :
    ∃ n ≤ last, (rising fun _ => false).script spanned (some call.stage) handed
      (call.stage.standardScript m) first = some n := by
  have hexceptions : ∃ n ≤ Standard.dwarfPrepare.number,
      (rising fun _ => false).script spanned (some .exceptions) handed (Stage.exceptionsScript m)
        Standard.sjljPrepare.number = some n := by
    rw [Stage.exceptionsScript]
    split
    · exact ⟨_, by decide, rfl⟩
    · split
      · exact ⟨_, by decide, rfl⟩
      · split
        · exact ⟨_, by decide, rfl⟩
        · exact ⟨_, by decide, rfl⟩
  obtain ⟨stage, standard⟩ := call
  cases stage with
  | exceptions =>
    cases h
    exact hexceptions
  | irPasses => cases standard <;> cases h <;> exact ⟨_, by decide, rfl⟩
  | preISel | instSelector | preRegAlloc | preVirtRegs | finalizeRegAlloc | postRegAlloc | preSched2
  | preEmit => cases h
  | iselPrepare | machinePasses | ssaOptimization | fastRegAlloc | optimizedRegAlloc |
    lateOptimization
  | blockPlacement => cases h; exact ⟨_, by decide, rfl⟩

theorem reaches_spanned (h : c.Unobtrusive) (hp : c.phase = .building) (depth : Nat) :
    Analysis.Reaches (fun p => Order.constrained p.id = false)
      (fun a b work => Rises c a b work) spanned (callStage depth) := by
  induction depth with
  | zero => exact fun _ _ _ _ _ _ => .throw rfl
  | succ depth ih =>
    intro call p hhanded a b hb
    by_cases hook : call.stage.isHook
    · rw [spanned, span_of_isHook hook] at hb
      cases hb
      exact (rising_sound h hp fun _ => id).callStage_succ ih hhanded
        (script_of_harmless hook _ (h.harmless_called hook) a)
    · obtain ⟨first, last, hspan⟩ := exists_span hook
      simp only [spanned, hspan] at hb
      split at hb
      · rename_i hle
        cases hb
        have hscript : ∃ n ≤ b, (rising fun _ => false).script spanned (some call.stage)
            (call.stage.takesAllocator && p.isSome) (c.target.called call) first = some n := by
          rcases h.called_cases hook with hcalled | ⟨rfl, hcalled⟩
          · rw [hcalled]
            exact script_of_standard c.target.exceptions _ hspan
          · rw [hcalled]
            cases hspan
            exact ⟨_, Int.le_refl _, rfl⟩
        obtain ⟨n, hn, hscript⟩ := hscript
        have hrises : Rises c first n (callStage (depth + 1) call p) :=
          (rising_sound h hp (by simp)).callStage_succ ih hhanded hscript
        exact (hrises.strengthen hle).weaken hn
      · cases hb

theorem buildInto_climbs {session : Session} (h : c.Unobtrusive) (hp : c.phase = .configuring)
    (hhanded : c.handed = [])
    (hs : ∀ optimized id selector,
      session.allocators.select optimized c.target.allocators = .ok (id, selector) →
        Order.constrained id = false) :
    match c.work session (buildInto stages) with
    | (.ok _, s) => Order.Climbs Standard.blockPlacementStats.number (s.config.handed.map Pass.id)
    | (.error d, _) => d.isOrder = false := by
  have hstart : Rising { c with phase := .building } 0
      (Construction.inPhase { session, config := c } .building) := by
    refine ⟨⟨c.nesting, c.placement, rfl⟩, hs, ?_⟩
    change Order.Climbs 0 (c.handed.map Pass.id)
    rw [hhanded]
    exact Order.climbs_nil 0
  have hsound : (rising fun _ => false).Sound c.target (fun p => Order.constrained p.id = false)
      (fun a b work => Rises { c with phase := .building } a b work) :=
    rising_sound h.building rfl (by simp)
  have hrun :=
    hsound.runStages_of_reaches (reaches_spanned h.building rfl depthLimit) rfl rfl rfl rfl hstart
  rw [work_eq, outcome_buildInto stages hp, stages]
  generalize (runStages (callStage depthLimit)).outcome _ = x at hrun
  obtain ⟨d | _, t⟩ := x
  · exact hrun
  · exact hrun.climbs

/-- A target that only extends the standard stages, and brings in no constrained
kind, cannot break the order. -/
theorem build_keeps_order {earlier session : Session} {target : Target} {level : Level}
    {options : Options} {sink : Sink} {entries : List Entry}
    (hc : Config.create earlier target level options sink = (.ok c, entries)) (hu : c.Unobtrusive)
    (hs : ∀ optimized id selector,
      session.allocators.select optimized c.target.allocators = .ok (id, selector) →
        Order.constrained id = false) :
    (∀ answer s, c.work session (buildInto stages) = (.ok answer, s) →
      Order.broken? (s.config.handed.map Pass.id) = none) ∧
    ∀ d s, c.work session (build stages) = (.error d, s) → d.isOrder = false := by
  by_cases hp : c.phase = .configuring
  · have hclimbs := buildInto_climbs hu hp (Config.handed_of_create hc hp) hs
    rw [work_eq] at hclimbs
    constructor
    · intro answer s hb
      rw [work_eq] at hb
      rw [hb] at hclimbs
      exact hclimbs.broken?_eq_none
    · intro d s hb
      rw [work_eq, outcome_build] at hb
      generalize (buildInto stages).outcome { session, config := c } = x at hclimbs hb
      obtain ⟨e | _ | refusal, t⟩ := x
      · cases hb
        exact hclimbs
      · simp only [hclimbs.broken?_eq_none] at hb
        cases hb
      · cases hb
  · constructor
    · intro answer s hb
      rw [work_eq, outcome_buildInto_of_ne stages hp] at hb
      cases hb
    · intro d s hb
      rw [work_eq, outcome_build_of_ne stages hp] at hb
      cases hb
      rfl

open Script in
/-- A target with a hook that calls another, with an insertion and with substitutions of its own. -/
def embellished : Target where
  name := "embellished"
  exceptions := .sjlj
  configure := block [
    run (.substitute Standard.branchFolder Standard.x86FixupBWInsts),
    run (.substitute Standard.optimizePHIs .none),
    run (.insert Standard.expandISelPseudos Standard.x86VZeroUpper)]
  replaced
    | .irPasses => some Stage.irPassesAndExceptions
    | .instSelector => some (block [add Standard.x86ISel, claim])
    | .preRegAlloc => some (call .preEmit)
    | .preEmit => some (when .optimizing (addAndClaim Standard.aarch64CollectLOH))
    | _ => none

def embellishedConfig : Config :=
  { Config.prepared embellished ⟨2⟩ {} .collected (.ofBounds .none .none) none with
    substitutions := (Standard.optimizePHIs, .none) ::
      (Standard.branchFolder, Standard.x86FixupBWInsts) :: Config.initialSubstitutions
    insertions := [⟨Standard.expandISelPseudos, Standard.x86VZeroUpper⟩] }

theorem embellishedConfig_unobtrusive : embellishedConfig.Unobtrusive where
  kept stage hs := by
    cases stage <;> first | exact .inl rfl | exact .inr ⟨rfl, rfl⟩ | cases hs
  hooks stage hs script hscript := by
    cases stage <;> cases hscript <;> first | decide | cases hs
  substitution id := by
    have hall : ∀ e ∈ embellishedConfig.substitutions, Order.constrained e.2 = false := by decide
    by_cases hid : embellishedConfig.substitution id = id
    · exact .inl hid
    · exact .inr (hall _ (Config.mem_substitutions hid))
  inserted := by decide

theorem build_keeps_order_embellished : ∃ c entries s,
    Config.create .standard embellished ⟨2⟩ {} .collected = (.ok c, entries) ∧ c.Unobtrusive ∧
    c.work .standard (buildInto stages) = (.ok none, s) ∧
    Standard.sjljPrepare ∈ s.config.handed.map Pass.id ∧
    Order.broken? (s.config.handed.map Pass.id) = none := by
  have hc : Config.create .standard embellished ⟨2⟩ {} .collected = (.ok embellishedConfig, []) :=
    rfl
  have hs : ∀ optimized id selector,
      Session.standard.allocators.select optimized embellished.allocators = .ok (id, selector) →
        Order.constrained id = false := by
    rintro (_ | _) _ _ ⟨⟩ <;> rfl
  have hrun : ∃ answer ∈ (embellishedConfig.work .standard (buildInto stages)).1.toOption,
      answer = none ∧ Standard.sjljPrepare ∈
        (embellishedConfig.work .standard (buildInto stages)).2.config.handed.map Pass.id := by
    decide +kernel
  obtain ⟨_, hb, rfl, hmem⟩ := hrun
  have hb := eq_of_mem_toOption hb
  exact ⟨_, _, _, hc, embellishedConfig_unobtrusive, hb, hmem,
    (build_keeps_order hc embellishedConfig_unobtrusive hs).1 _ _ hb⟩

end Build

end PassPipeline
