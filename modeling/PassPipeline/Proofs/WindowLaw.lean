import PassPipeline.Proofs.Creation
import PassPipeline.Proofs.Pervasive
import PassPipeline.Proofs.Resolution
import PassPipeline.Proofs.WindowPart

/-! The window law of a build. A build with a window asks for the same passes as the build without,
step by step; the window only decides which of them are handed over. -/
namespace PassPipeline

def Options.within (o : Options) (startAfter stopAfter : String) : Options :=
  { o with startAfter, stopAfter }

theorem Override.apply_boundaries (o : Options) (startAfter stopAfter : String)
    (standard target : PassId) :
    Override.apply (o.within startAfter stopAfter) standard target =
      Override.apply o standard target :=
  Override.apply_congr (by simp [Override.rules, Override.agree, Options.within]) standard target

namespace Config

/-- The configuration with other boundaries, and with what they made of the passes so far. -/
def narrowed (c : Config) (startAfter stopAfter : String) (x : Placement) : Config :=
  { c.withPlacement x with options := c.options.within startAfter stopAfter }

variable (c : Config) (startAfter stopAfter : String) (x : Placement)

theorem resolve_narrowed (id : PassId) :
    (c.narrowed startAfter stopAfter x).resolve id = c.resolve id :=
  Override.apply_boundaries c.options startAfter stopAfter id (c.substitution id)

theorem holds_narrowed (q : Condition) :
    q.holds (c.narrowed startAfter stopAfter x) = q.holds c := by
  cases q with
  | optimizing => rfl
  | optimizedAllocation => rfl
  | verifyDisabled => rfl
  | switch s => cases s <;> rfl

end Config

namespace Build

variable {α β : Type}

/-- Where work succeeds, it succeeds from every related state with the same answer. -/
def Carries (R S : Construction → Construction → Prop) (m : Build α) : Prop :=
  ∀ ⦃s t⦄, R s t → ∀ ⦃a s'⦄, m.outcome s = (.ok a, s') →
    ∃ t', m.outcome t = (.ok a, t') ∧ S s' t'

namespace Carries

variable {R S T : Construction → Construction → Prop}

theorem pure (a : α) : Carries R R (pure a) := by
  rintro s t hr _ _ ⟨⟩
  exact ⟨t, rfl, hr⟩

theorem throw (d : Defect) : Carries R S (throw d : Build α) := by
  rintro s t hr _ _ ⟨⟩

theorem bind {m : Build α} {f : α → Build β} (hm : Carries R S m) (hf : ∀ a, Carries S T (f a)) :
    Carries R T (m >>= f) := by
  intro s t hr b s' h
  obtain ⟨a, u, hma, hfb⟩ := bind_outcome_ok h
  obtain ⟨v, hmt, hs⟩ := hm hr hma
  obtain ⟨t', hft, ht⟩ := hf a hs hfb
  exact ⟨t', by rw [outcome_bind_ok hmt, hft], ht⟩

end Carries

/-- The boundaries of a window by their names, the kinds named, and the list before the build. -/
structure Narrowing where
  registry : Registry
  startAfter : String
  stopAfter : String
  window : Window
  before : List Pass

/-- `t` is the state of a build with a window where the build without it has reached `s`. -/
structure Narrowed (w : Narrowing) (now : Phase) (s t : Construction) : Prop where
  phase : s.config.phase = now
  registry : s.session.registry = w.registry
  window : s.config.window = .ofBounds .none .none
  refusal : s.config.refusal = none
  session : t.session = s.session
  reports : Entry.reports t.journal = Entry.reports s.journal
  config : ∃ l, (now = .configuring → l = []) ∧ s.config.handed = w.before ++ l ∧
    t.config = s.config.narrowed w.startAfter w.stopAfter
      (Placement.takeAll w.registry ⟨w.window, none, w.before⟩ l)

namespace Narrowed

variable {w : Narrowing} {phase : Phase} {s t : Construction}

theorem carries_view {f : Config → α} (hf : ∀ c a b x, f (Config.narrowed c a b x) = f c) :
    Carries (Narrowed w phase) (Narrowed w phase) (view f) := by
  rintro s t h _ _ ⟨⟩
  obtain ⟨l, -, -, hc⟩ := h.config
  exact ⟨t, by rw [outcome_view, hc, hf], h⟩

theorem carries_modifyConfig {f : Config → Config} (hp : ∀ c, (f c).phase = c.phase)
    (hx : ∀ c, (f c).placement = c.placement)
    (hf : ∀ c a b x, f (Config.narrowed c a b x) = (f c).narrowed a b x) :
    Carries (Narrowed w phase) (Narrowed w phase) (modifyConfig f) := by
  rintro s t h _ _ ⟨⟩
  obtain ⟨l, hn, hl, hc⟩ := h.config
  have hs := hx s.config
  simp only [Config.placement, Placement.mk.injEq] at hs
  refine ⟨_, outcome_modifyConfig f t, (hp _).trans h.phase, h.registry, hs.1.trans h.window,
    hs.2.1.trans h.refusal, h.session, h.reports, l, hn, hs.2.2.trans hl, ?_⟩
  change f t.config = _
  rw [hc, hf]

theorem carries_trace (text : String) :
    Carries (Narrowed w phase) (Narrowed w phase) (trace text) := by
  intro s t h _ _ he
  rw [outcome_trace] at he
  cases he
  refine ⟨_, outcome_trace text t, ?_⟩
  constructor <;> simp [h.phase, h.registry, h.window, h.refusal, h.session, h.reports, h.config]

theorem carries_announce : Carries (Narrowed w phase) (Narrowed w phase) announce := by
  intro s t h a s' he
  obtain ⟨l, -, -, hc⟩ := h.config
  rw [outcome_announce, ← outcome_trace] at he
  obtain ⟨t', ht, h'⟩ := carries_trace _ h he
  refine ⟨t', ?_, h'⟩
  rw [outcome_announce, ← outcome_trace, h.session, hc]
  exact ht

theorem carries_note (e : Entry) : Carries (Narrowed w phase) (Narrowed w phase) (note e) := by
  rintro s t h _ _ ⟨⟩
  exact ⟨_, outcome_note e t, h.phase, h.registry, h.window, h.refusal, h.session,
    by simp [h.reports], h.config⟩

theorem carries_nameOf (id : PassId) :
    Carries (Narrowed w phase) (Narrowed w phase) (nameOf id) := by
  rintro s t h _ _ ⟨⟩
  exact ⟨t, by rw [outcome_nameOf, h.session], h⟩

theorem carries_instantiate (id : PassId) :
    Carries (Narrowed w phase) (Narrowed w phase) (instantiate id) := by
  intro s t h a s' he
  rw [outcome_instantiate] at he
  obtain ⟨ha, rfl⟩ := Prod.mk.inj he
  exact ⟨t, by rw [outcome_instantiate, h.session, ha], h⟩

/-- The step that all else rests on: both builds place a pass, each in its own way. -/
theorem placed (h : Narrowed w .building s t) (p : Pass) :
    Narrowed w .building (placed s p) (Build.placed t p) := by
  obtain ⟨l, -, hl, hc⟩ := h.config
  have hs : s.config.placement = ⟨.ofBounds .none .none, none, w.before ++ l⟩ := by
    rw [Config.placement, h.window, h.refusal, hl]
  have hsp : (Build.placed s p).config =
      s.config.withPlacement ⟨.ofBounds .none .none, none, w.before ++ l ++ [p]⟩ := by
    rw [placed_config, hs, Placement.take_unbounded]
  refine ⟨?_, ?_, ?_, ?_, ?_, ?_, l ++ [p], by simp, ?_, ?_⟩
  · rw [hsp]; exact h.phase
  · simpa using h.registry
  · rw [hsp]; rfl
  · rw [hsp]; rfl
  · simpa using h.session
  · simpa using h.reports
  · rw [hsp]; simp [Config.withPlacement]
  · rw [placed_config, hsp, h.session, h.registry, hc, Placement.takeAll_concat]
    rfl

theorem carries_place (p : Pass) : Carries (Narrowed w phase) (Narrowed w phase) (place p) := by
  intro s t h a s' he
  by_cases hp : phase = .building
  · subst hp
    obtain ⟨l, -, -, hc⟩ := h.config
    have htp : t.config.phase = .building := by rw [hc]; exact h.phase
    rw [outcome_place p h.phase] at he
    cases he
    exact ⟨_, outcome_place p htp, h.placed p⟩
  · rw [outcome_place_of_ne p (by rw [h.phase]; exact hp)] at he
    cases he

/-- A build without a window has no refusal behind which a missing allocator would go unnoticed. -/
theorem carries_placeHanded (p : Option Pass) :
    Carries (Narrowed w phase) (Narrowed w phase) (placeHanded p) := by
  cases p with
  | some p => exact carries_place p
  | none =>
    intro s t h a s' he
    simp [placeHanded, outcome_bind, h.refusal] at he

theorem carries_selectAllocator (optimized : Bool) :
    Carries (Narrowed w phase) (Narrowed w phase) (selectAllocator optimized) := by
  intro s t h id s' he
  obtain ⟨l, hn, hl, hc⟩ := h.config
  have ht : t.config.target = s.config.target := by rw [hc]; rfl
  rw [outcome_selectAllocator] at he
  rw [outcome_selectAllocator, h.session, ht]
  rcases hsel : s.session.allocators.select optimized s.config.target.allocators with e | ⟨id', sel⟩
  · simp [hsel] at he
  · simp only [hsel] at he
    cases he
    refine ⟨_, rfl, by simpa using h.phase, h.registry, by simpa using h.window,
      by simpa using h.refusal, rfl, ?_, l, hn, by simpa using hl, by simpa using hc⟩
    simp [asked, h.session, ht]
    split <;> simp [h.reports]

theorem pervasive : Pervasive (Carries (Narrowed w phase) (Narrowed w phase)) where
  pure := Carries.pure
  bind := Carries.bind
  throw := Carries.throw
  trace := carries_trace
  announce := carries_announce
  note := carries_note
  nameOf := carries_nameOf
  instantiate := carries_instantiate
  place := carries_place
  placeHanded := carries_placeHanded
  selectAllocator := carries_selectAllocator
  phase := carries_view fun _ _ _ _ => rfl
  target := carries_view fun _ _ _ _ => rfl
  sink := carries_view fun _ _ _ _ => rfl
  holds q := carries_view fun c a b x => c.holds_narrowed a b x q
  resolve id := carries_view fun c a b x => by rw [c.resolve_narrowed a b x id]; rfl
  insertedAfter id := carries_view fun _ _ _ _ => rfl
  room := carries_view fun _ _ _ _ => rfl
  printing := carries_view fun _ _ _ _ => rfl
  enter := carries_modifyConfig (fun _ => rfl) (fun _ => rfl) fun _ _ _ _ => rfl
  leave := carries_modifyConfig (fun _ => rfl) (fun _ => rfl) fun _ _ _ _ => rfl
  substitution _ := carries_modifyConfig (fun _ => rfl) (fun _ => rfl) fun _ _ _ _ => rfl
  insertion _ := carries_modifyConfig (fun _ => rfl) (fun _ => rfl) fun _ _ _ _ => rfl
  disableVerify _ := carries_modifyConfig (fun _ => rfl) (fun _ => rfl) fun _ _ _ _ => rfl
  enableTailMerge _ := carries_modifyConfig (fun _ => rfl) (fun _ => rfl) fun _ _ _ _ => rfl
  printMachineCode _ := carries_modifyConfig (fun _ => rfl) (fun _ => rfl) fun _ _ _ _ => rfl

theorem carries_build (call : Caller) (hp : phase ≠ .configuring) :
    Carries (Narrowed w phase) (Narrowed w phase) (build call) := by
  intro s t h a s' he
  rw [outcome_build_of_ne call (by rw [h.phase]; exact hp)] at he
  cases he

theorem carries_runStages :
    Carries (Narrowed w .building) (Narrowed w .building) (runStages stages) :=
  pervasive.runStages fun c p =>
    pervasive.callStage (fun call _ => carries_build call (by decide)) depthLimit c p

theorem carries_build_stagesMissing :
    Carries (Narrowed w .configuring) (Narrowed w .configuring) (build stagesMissing) := by
  intro s t h a s' he
  obtain ⟨u, hu⟩ := outcome_runStages_stagesMissing (s.inPhase .building)
  rw [outcome_build, outcome_buildInto _ h.phase, hu] at he
  cases he

theorem carries_setUp (printAfter : Option PassId) (target : Target) :
    Carries (Narrowed w .configuring) (Narrowed w .configuring) (setUp printAfter target) :=
  pervasive.setUp carries_build_stagesMissing printAfter target

theorem fresh (session : Session) (target : Target) (level : Level) (options : Options)
    (sink : Sink) (startAfter stopAfter : String) (window : Window) :
    Narrowed ⟨session.registry, startAfter, stopAfter, window, []⟩ .configuring
      { session
        config := .fresh target level (options.within "" "") sink
          (.ofBounds .none .none) }
      { session
        config := .fresh target level (options.within startAfter stopAfter) sink window } where
  phase := rfl
  registry := rfl
  window := rfl
  refusal := rfl
  session := rfl
  reports := rfl
  config := ⟨[], fun _ => rfl, rfl, rfl⟩

theorem begun {registry : Registry} {startAfter stopAfter : String} {window : Window}
    (h : Narrowed ⟨registry, startAfter, stopAfter, window, []⟩ .configuring s t)
    (session : Session) (hr : session.registry = registry) (before : List Pass) :
    Narrowed ⟨registry, startAfter, stopAfter, window, before⟩ .building
      (Construction.inPhase { session, config := { s.config with handed := before } } .building)
      (Construction.inPhase { session, config := { t.config with handed := before } }
        .building) := by
  obtain ⟨l, hn, -, hc⟩ := h.config
  obtain rfl := hn rfl
  exact ⟨rfl, hr, h.window, h.refusal, rfl, rfl, [], fun _ => rfl, (List.append_nil _).symm,
    by simp only [Construction.inPhase, hc]; rfl⟩

end Narrowed

section law

variable {session : Session} {target : Target} {level : Level} {options : Options} {sink : Sink}
  {c : Config} {entries : List Entry} {before : List Pass} {answer : Option Refusal}
  {s : Construction}

/-- Alongside a build without a window that ends, every build with a window ends. -/
theorem buildInto_alongside
    (hc : Config.create session target level (options.within "" "") sink = (.ok c, entries))
    (hb : { c with handed := before }.work session (buildInto stages) = (.ok answer, s))
    {startAfter stopAfter : String} {start stop : Option PassId}
    (hs : Config.boundary session.registry .startAfter startAfter = .ok start)
    (ht : Config.boundary session.registry .stopAfter stopAfter = .ok stop) :
    ∃ c' entries' u v,
      Config.create session target level (options.within startAfter stopAfter) sink =
        (.ok c', entries') ∧
      Entry.reports entries' = Entry.reports entries ∧
      { c' with handed := before }.work session (buildInto stages) =
        (.ok v.config.refusal, v.inPhase .built) ∧
      answer = u.config.refusal ∧ s = u.inPhase .built ∧
      Narrowed ⟨session.registry, startAfter, stopAfter,
        .ofBounds (start.getD .none) (stop.getD .none), before⟩ .building u v := by
  obtain ⟨_, _, print, s₀, ⟨⟩, ⟨⟩, hp, hu, rfl, rfl⟩ := Config.create_inv hc
  obtain ⟨t₀, ht₀, hn⟩ := Narrowed.carries_setUp print target
    (Narrowed.fresh session target level options sink startAfter stopAfter
      (.ofBounds (start.getD .none) (stop.getD .none))) hu
  have hcreate : Config.create session target level (options.within startAfter stopAfter) sink =
      (.ok t₀.config, t₀.journal) := by
    have hs' : Config.boundary session.registry .startAfter
      (options.within startAfter stopAfter).startAfter = .ok start := hs
    rw [Config.create_of_boundaries hs' ht hp, ht₀]
  obtain ⟨-, u, hru, rfl, rfl⟩ := buildInto_inv hb
  obtain ⟨v, hrv, hn'⟩ := Narrowed.carries_runStages (hn.begun session rfl before) hru
  refine ⟨t₀.config, t₀.journal, u, v, hcreate, hn.reports, ?_, rfl, rfl, hn'⟩
  obtain ⟨l, -, -, htc⟩ := hn.config
  have hphase : t₀.config.phase = .configuring := by
    rw [htc]
    exact hn.phase
  rw [work_eq, outcome_buildInto stages (by exact hphase), hrv]

/-- The window law. Where a build without a window adds `l`, one with a window adds the part of `l`
that it leaves, or is refused if it is inverted on `l`. -/
theorem buildInto_window
    (hc : Config.create session target level (options.within "" "") sink = (.ok c, entries))
    (hb : { c with handed := before }.work session (buildInto stages) = (.ok answer, s)) :
    answer = none ∧ ∃ l, s.config.handed = before ++ l ∧
      ∀ (startAfter stopAfter : String) (start stop : Option PassId),
        Config.boundary session.registry .startAfter startAfter = .ok start →
        Config.boundary session.registry .stopAfter stopAfter = .ok stop →
        ∃ c' entries' answer' s',
          Config.create session target level (options.within startAfter stopAfter) sink =
            (.ok c', entries') ∧
          { c' with handed := before }.work session (buildInto stages) = (.ok answer', s') ∧
          (Window.Inverts start stop l →
            answer' = some (.stopBeforeStart (session.registry.name (stop.getD .none))) ∧
              s'.config.handed = before) ∧
          (¬ Window.Inverts start stop l →
            answer' = none ∧ s'.config.handed = before ++ Window.part start stop l) ∧
          s'.session = s.session ∧
          Entry.reports entries' = Entry.reports entries ∧
          Entry.reports s'.journal = Entry.reports s.journal := by
  obtain ⟨_, _, u, v, -, -, -, rfl, rfl, hn⟩ := buildInto_alongside hc hb
    (Config.boundary_empty _ _) (Config.boundary_empty _ _)
  obtain ⟨l, -, hl, -⟩ := hn.config
  refine ⟨hn.refusal, l, hl, ?_⟩
  intro startAfter stopAfter start stop hs ht
  obtain ⟨c', entries', u', v', hcreate, hre, hbuild, -, hs', hn'⟩ :=
    buildInto_alongside hc hb hs ht
  obtain ⟨l', -, hl', hv⟩ := hn'.config
  have hh : before ++ l = before ++ l' :=
    hl.symm.trans ((congrArg (·.config.handed) hs').trans hl')
  obtain rfl := List.append_cancel_left hh
  have hlaw := Placement.takeAll_ofBounds (r := session.registry) (Config.boundary_ne_none hs)
    (Config.boundary_ne_none ht) before l
  have hrefusal := congrArg Config.refusal hv
  have hhanded := congrArg Config.handed hv
  refine ⟨c', entries', _, _, hcreate, hbuild, ?_, ?_, ?_, hre, ?_⟩
  · intro hi
    exact ⟨hrefusal.trans (hlaw.1 hi).1, hhanded.trans (hlaw.1 hi).2⟩
  · intro hi
    exact ⟨hrefusal.trans (hlaw.2 hi).1, hhanded.trans (hlaw.2 hi).2⟩
  · rw [hs']
    exact hn'.session
  · rw [hs']
    exact hn'.reports

end law

/-- On x86-64, the window from behind the stack protector to the base register. -/
theorem buildInto_window_x86 : ∃ c entries s,
    Config.create .standard (X86.target "x86") ⟨2⟩ (Options.within {} "" "") .collected =
      (.ok c, entries) ∧
    { c with handed := [.verifier ""] }.work .standard (buildInto stages) = (.ok none, s) ∧
    ∃ c' entries' s',
      Config.create .standard (X86.target "x86") ⟨2⟩
        (Options.within {} "stack-protector" "x86-global-base-reg") .collected =
        (.ok c', entries') ∧
      { c' with handed := [.verifier ""] }.work .standard (buildInto stages) = (.ok none, s') ∧
      s'.config.handed.map Pass.name =
        ["machineverifier", "verify", "x86-isel", "x86-global-base-reg"] := by
  have hrun : ∃ c ∈ (Config.create .standard (X86.target "x86") ⟨2⟩ (Options.within {} "" "")
      .collected).1.toOption,
      ∃ answer ∈ ({ c with handed := [.verifier ""] }.work .standard (buildInto stages)).1.toOption,
      answer = none ∧ ∃ l ∈ some (({ c with handed := [.verifier ""] }.work .standard
        (buildInto stages)).2.config.handed.drop 1),
        ¬ Window.Inverts (some Standard.stackProtector) (some Standard.x86GlobalBaseReg) l ∧
        (Window.part (some Standard.stackProtector) (some Standard.x86GlobalBaseReg) l).map
          Pass.name = ["verify", "x86-isel", "x86-global-base-reg"] := by
    decide +kernel
  obtain ⟨c, hc, _, hb, rfl, _, ⟨⟩, hi, hp⟩ := hrun
  have hc := eq_of_mem_toOption hc
  have hb := eq_of_mem_toOption hb
  obtain ⟨-, l, hl, hw⟩ := buildInto_window hc hb
  obtain ⟨c', entries', answer', s', hc', hb', -, hopen, -⟩ :=
    hw "stack-protector" "x86-global-base-reg" (some Standard.stackProtector)
      (some Standard.x86GlobalBaseReg) rfl rfl
  rw [hl] at hi hp
  obtain ⟨rfl, hh⟩ := hopen hi
  refine ⟨c, _, _, hc, hb, c', entries', s', hc', hb', ?_⟩
  rw [hh, List.map_append]
  exact congrArg ("machineverifier" :: ·) hp

end Build

end PassPipeline
