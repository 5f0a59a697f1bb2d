import PassPipeline.Proofs.BundledBuild
import PassPipeline.Proofs.SessionUse

/-! What a refused pipeline leaves behind. Its passes go nowhere, but the stages ran to their end,
and the session remembers the allocator that was selected on the way. -/
namespace PassPipeline

namespace Session

/-- A pipeline is refused, and leaves a session: when it is configured, when it is built, or
when it is added to a list. -/
inductive Refused (s : Session) (b : Blueprint) : Refusal → Session → Prop
  | configuring {r : Refusal} {entries : List Entry}
    (h : s.configure b = (.error (.refused r), entries)) : Refused s b r s
  | building {r : Refusal} {c : Config} {entries : List Entry} {t : Construction}
    (hc : s.configure b = (.ok c, entries))
    (h : c.work s (Build.build Build.stages) = (.ok (.error r), t)) : Refused s b r t.session
  | adding {r : Refusal} {c : Config} {entries : List Entry} {before : List Pass}
    {t : Construction} (hc : s.configure b = (.ok c, entries))
    (h : { c with handed := before }.work s (Build.buildInto Build.stages) = (.ok (some r), t)) :
    Refused s b r t.session

/-- Two sessions that differ only in what a selection would answer in any case. -/
structure Foresees (s t : Session) : Prop where
  registry : t.registry = s.registry
  tracing : t.tracing = s.tracing
  allocators : s.allocators.Foresees t.allocators

namespace Foresees

variable {s t : Session}

theorem lockstep (h : s.Foresees t) (c : Config) :
    Build.Lockstep { session := s, config := c } { session := t, config := c } :=
  ⟨rfl, rfl, h.registry, h.tracing, h.allocators⟩

theorem configure (h : s.Foresees t) (b : Blueprint) : t.configure b = s.configure b := by
  unfold Session.configure Config.create
  rw [h.registry]
  dsimp only
  split
  · rfl
  · rename_i start stop print _
    obtain ⟨hanswer, hstate⟩ := Build.Agrees.setUp print b.target (h.lockstep
      (.fresh b.target b.level b.options b.sink (.ofBounds (start.getD .none) (stop.getD .none))))
    unfold Build.outcome at hanswer hstate
    split <;> rename_i hs <;> split <;> rename_i ht <;> rw [hs, ht] at hanswer hstate <;>
      cases hanswer
    · rw [hstate.config, hstate.journal]
    · rw [hstate.journal]

theorem pipeline (h : s.Foresees t) (b : Blueprint) :
    (t.pipeline b).1 = (s.pipeline b).1 ∧ (s.pipeline b).2.Foresees (t.pipeline b).2 := by
  unfold Session.pipeline
  rw [h.configure]
  rcases s.configure b with ⟨failure | c, entries⟩
  · exact ⟨rfl, h⟩
  · obtain ⟨hanswer, hstate⟩ := Build.Agrees.build_stages (h.lockstep c)
    rw [← Build.work_eq, ← Build.work_eq] at hanswer hstate
    dsimp only
    rcases hs : c.work s (Build.build Build.stages) with ⟨d | result, s'⟩ <;>
      rcases ht : c.work t (Build.build Build.stages) with ⟨d' | result', t'⟩ <;>
      rw [hs, ht] at hanswer hstate <;> cases hanswer
    · exact ⟨rfl, hstate.registry, hstate.tracing, hstate.allocators⟩
    · cases result <;> exact ⟨rfl, hstate.registry, hstate.tracing, hstate.allocators⟩

theorem pipelines (h : s.Foresees t) (plans : List Blueprint) :
    t.pipelines plans = s.pipelines plans := by
  induction plans generalizing s t with
  | nil => rfl
  | cons b rest ih =>
    obtain ⟨hanswer, hnext⟩ := h.pipeline b
    rw [Session.pipelines, Session.pipelines, hanswer, ih hnext]

end Foresees

variable {s t : Session} {b : Blueprint} {r : Refusal}

theorem configure_target {c : Config} {entries : List Entry}
    (h : s.configure b = (.ok c, entries)) : c.target = b.target := by
  obtain ⟨start, stop, print, u, -, -, -, hu, rfl, -⟩ := Config.create_inv h
  exact ((Build.Modest.setUp print b.target).left_behind hu).1

theorem buildInto_of_build_refused {c : Config} {u : Construction}
    (h : c.work s (Build.build Build.stages) = (.ok (.error r), u)) :
    c.work s (Build.buildInto Build.stages) = (.ok (some r), u) := by
  rw [Build.work_eq, Build.outcome_build] at h
  rw [Build.work_eq]
  rcases hb : (Build.buildInto Build.stages).outcome { session := s, config := c } with
    ⟨d | (_ | r'), u'⟩ <;> simp only [hb] at h
  · cases h
  · split at h <;> cases h
  · cases h
    rfl

/-- A pipeline is refused without a trace, or refused as an addition to some list. -/
theorem Refused.cases_adding (h : s.Refused b r t) :
    (∃ entries, s.configure b = (.error (.refused r), entries)) ∧ t = s ∨
      ∃ c entries before u, s.configure b = (.ok c, entries) ∧
        { c with handed := before }.work s (Build.buildInto Build.stages) = (.ok (some r), u) ∧
        t = u.session := by
  cases h with
  | configuring h => exact .inl ⟨⟨_, h⟩, rfl⟩
  | @building c entries u hc h =>
    exact .inr ⟨c, entries, c.handed, u, hc, buildInto_of_build_refused h, rfl⟩
  | adding hc h => exact .inr ⟨_, _, _, _, hc, h, rfl⟩

/-- All that a refused pipeline can leave is a first selection. -/
theorem Refused.selects (h : s.Refused b r t) : s.Selects b.target.allocators t := by
  rcases h.cases_adding with ⟨-, rfl⟩ | ⟨c, entries, before, u, hc, hb, rfl⟩
  · exact .none
  · have hs := (Build.Modest.buildInto_stages.left_behind hb).2
    rwa [← configure_target hc]

theorem Selects.foresees {answers : AllocatorAnswers} (h : s.Selects answers t)
    (hs : s.allocators.resolved.isSome ∨ s.allocators.choice ≠ Allocator.defaultName) :
    s.Foresees t := by
  cases h with
  | none => exact ⟨rfl, rfl, .refl⟩
  | first hr hsel =>
    have hname : s.allocators.choice ≠ Allocator.defaultName := by simpa [hr] using hs
    exact ⟨rfl, rfl, Selector.foresees_of_select hname hr hsel⟩

theorem recalling_bundled {target : Target} (ht : target.Bundled) :
    Build.recalling.stages target.called Build.depthLimit false = some true := by
  rcases ht.called_cases with he | ⟨loh, he⟩ <;> rw [he]
  · decide +kernel
  · cases loh <;> decide +kernel

/-- Behind a refusal the stages go on, and so an allocator is remembered. -/
theorem Refused.remembers {c : Config} {entries : List Entry} (h : s.Refused b r t)
    (ht : b.target.Bundled) (hc : s.configure b = (.ok c, entries)) :
    t.allocators.resolved.isSome := by
  rcases h.cases_adding with ⟨⟨_, he⟩, -⟩ | ⟨c', entries', before, u, hc', hb, rfl⟩
  · cases hc.symm.trans he
  · obtain ⟨-, v, hrun, -, rfl⟩ := Build.buildInto_inv hb
    have htarget : c'.target = b.target := configure_target hc'
    exact ((Build.recalling_sound b.target).runStages (recalling_bundled ht) htarget
      (by simp) hrun).2 rfl

/-- A session over the standard kinds and allocators that leaves the choice to the target. -/
def remembering (tracing : Bool) (resolved : Option PassId) : Session :=
  { Session.standard with allocators := { Session.standard.allocators with resolved }, tracing }

theorem Ordinary.eq_remembering (hs : s.Ordinary) (hr : s.allocators.resolved = none)
    (hc : s.allocators.choice = Allocator.defaultName) : s = remembering s.tracing none := by
  obtain ⟨name, hname⟩ := hs.accepted
  have hreg : s.allocators.registry = .standard := (Selector.lookup?_of_ofChoice hname).1
  have hkinds := hs.registry
  obtain ⟨registry, ⟨allocators, choice, resolved⟩, tracing⟩ := s
  cases hkinds
  cases hreg
  cases hr
  cases hc
  rfl

/-- A blueprint that shows which allocator a session remembers. -/
def probe (id : PassId) : Blueprint where
  target := X86.target ""
  level := if id = Standard.regAllocFast then ⟨2⟩ else .none
  options := {}

/-- The kinds of a pipeline, where there is one. -/
def kinds (s : Session) (b : Blueprint) : Option (List PassId) :=
  (s.pipeline b).1.toOption.map (·.map Pass.id)

theorem pipelines_ne_of_kinds (h : t.kinds b ≠ s.kinds b) : t.pipelines [b] ≠ s.pipelines [b] := by
  intro he
  refine h ?_
  rw [kinds, kinds, (List.cons.inj he).1]

/-- Without a choice by name, a session that remembers an allocator goes on
otherwise than one that does not. -/
theorem pipelines_probe_ne (tracing : Bool) {id : PassId}
    (hid : id ∈ [Standard.regAllocBasic, Standard.regAllocFast, Standard.regAllocGreedy]) :
    (remembering tracing (some id)).pipelines [probe id] ≠
      (remembering tracing none).pipelines [probe id] := by
  have hkinds : ∀ tracing, ∀ id ∈ [Standard.regAllocBasic, Standard.regAllocFast,
      Standard.regAllocGreedy],
      (remembering tracing (some id)).kinds (probe id) ≠
        (remembering tracing none).kinds (probe id) := by
    decide +kernel
  exact pipelines_ne_of_kinds (hkinds tracing id hid)

/-! A target that has no allocators of its own tells any session that remembers one from any that
does not, whatever their registries are. -/

/-- A pipeline that selects an allocator and does nothing else. -/
def undecided : Blueprint where
  target :=
    { name := ""
      exceptions := .none
      replaced := fun stage => some (if stage = .irPasses then .run (.allocate true) else .skip)
      allocators := ⟨.none, .none⟩ }
  level := .none
  options := {}

theorem pipeline_undecided (hr : s.allocators.resolved = none)
    (hc : s.allocators.choice = Allocator.defaultName) :
    (s.pipeline undecided).1 = .error (.broken (.allocator (.noneProvided true))) := by
  obtain ⟨registry, ⟨allocators, choice, resolved⟩, tracing⟩ := s
  cases hr
  cases hc
  cases tracing <;> rfl

theorem outcome_undecided {stage : Stage} (hs : stage ≠ .irPasses) {depth : Nat} {p : Option Pass}
    {u : Construction} (htarget : u.config.target = undecided.target) :
    (Build.callStage (depth + 1) { stage } p).outcome u = (.ok false, u) := by
  have hcalled : u.config.target.called { stage } = .skip := by
    rw [htarget]
    simp [Target.called, Target.script, undecided, hs]
  rw [Build.outcome_callStage, hcalled]
  rfl

section undecided

variable {u v : Construction} {id : PassId} {d : Defect}

/-- Where an allocator is remembered, the target is not asked. -/
theorem undecided_irPasses (htarget : u.config.target = undecided.target)
    (hr : u.session.allocators.resolved = some id)
    (h : (Build.stages { stage := .irPasses } none).outcome u = (.error d, v)) :
    ∃ e, d = .registry e := by
  rw [Build.stages, Build.depthLimit, Build.outcome_callStage, htarget] at h
  rcases Build.bind_outcome_error h with h | ⟨_, _, -, h⟩
  · rcases Build.bind_outcome_error h with h | ⟨p, w, hw, h⟩
    · have hsel : u.session.allocators.select true u.config.target.allocators =
          .ok (id, u.session.allocators) := by
        simp [Selector.select_eq, hr]
      exact Build.allocatorPass_error hsel h
    · have hwt := ((Build.Modest.pervasive.allocatorPass true).left_behind hw).1
      rw [Build.discard_eq, Build.outcome_bind_ok
        (outcome_undecided (by decide) (hwt.trans htarget))] at h
      cases h
  · cases h

theorem undecided_runStages (htarget : u.config.target = undecided.target)
    (hr : u.session.allocators.resolved = some id)
    (h : (Build.runStages Build.stages).outcome u = (.error d, v)) : ∃ e, d = .registry e := by
  rw [Build.runStages, Build.outcome_bind_ok (Build.outcome_announce u)] at h
  rcases Build.bind_outcome_error h with h | ⟨_, w, hw, h⟩
  · rcases Build.bind_outcome_error h with h | ⟨_, _, -, h⟩
    · exact undecided_irPasses (by simpa using htarget) (by simpa using hr) h
    · cases h
  · have hwt := ((Build.Modest.pervasive.discarded (Build.Modest.stages _ _)).left_behind hw).1
    rw [Construction.traced_config, htarget] at hwt
    have hstage {stage : Stage} (hs : stage ≠ .irPasses) :
        (Build.stages { stage } none).outcome w = (.ok false, w) := outcome_undecided hs hwt
    have hdiscard {stage : Stage} (hs : stage ≠ .irPasses) :
        (discard (Build.stages { stage } none)).outcome w = (.ok (), w) := by
      rw [Build.discard_eq, Build.outcome_bind_ok (hstage hs)]
      rfl
    rw [Build.outcome_bind_ok (hdiscard (by decide)),
      Build.outcome_bind_ok (hstage (by decide))] at h
    dsimp only at h
    rw [if_neg (by decide), hdiscard (by decide)] at h
    cases h

end undecided

/-- A build that breaks off does so in its stages, unless its list is out of order. -/
theorem runStages_of_pipeline_broken {c : Config} {entries : List Entry} {d : Defect}
    (hc : s.configure b = (.ok c, entries)) (hp : c.phase = .configuring)
    (hd : ∀ first second, d ≠ .order first second) (h : (s.pipeline b).1 = .error (.broken d)) :
    ∃ u, (Build.runStages Build.stages).outcome
      (Construction.inPhase { session := s, config := c } .building) = (.error d, u) := by
  simp only [pipeline, hc, Build.work_eq, Build.outcome_build] at h
  rw [Build.outcome_buildInto Build.stages (by exact hp)] at h
  rcases hrun : (Build.runStages Build.stages).outcome
    (Construction.inPhase { session := s, config := c } .building) with ⟨d' | _, u⟩
  · simp only [hrun] at h
    cases h
    exact ⟨u, rfl⟩
  · cases hr : u.config.refusal with
    | some r => simp [hrun, hr] at h
    | none =>
      cases ho : Order.broken? ((u.inPhase .built).config.handed.map Pass.id) with
      | none => simp [hrun, hr, ho] at h
      | some x =>
        simp only [hrun, hr, ho] at h
        cases h
        exact absurd rfl (hd _ _)

theorem pipeline_undecided_ne {id : PassId} (hr : s.allocators.resolved = some id) :
    (s.pipeline undecided).1 ≠ .error (.broken (.allocator (.noneProvided true))) := by
  intro he
  have hc : s.configure undecided =
    (.ok (.prepared undecided.target .none {} .collected (.ofBounds .none .none) none), []) := rfl
  obtain ⟨u, hrun⟩ := runStages_of_pipeline_broken hc rfl (by simp) he
  obtain ⟨e, hd⟩ := undecided_runStages rfl hr hrun
  cases hd

/-- For a bundled target, a refused build leaves the session as it was just if it
remembered an allocator before. -/
theorem Refused.eq_iff {c : Config} {entries : List Entry} (h : s.Refused b r t)
    (ht : b.target.Bundled) (hc : s.configure b = (.ok c, entries)) :
    t = s ↔ s.allocators.resolved.isSome := by
  constructor
  · rintro rfl
    exact h.remembers ht hc
  · intro hr
    cases h.selects with
    | none => rfl
    | first hn _ => simp [hn] at hr

theorem Refused.pipelines_iff (h : s.Refused b r t) :
    (∀ plans, t.pipelines plans = s.pipelines plans) ↔
      t = s ∨ s.allocators.choice ≠ Allocator.defaultName := by
  constructor
  · intro hsame
    cases h.selects with
    | none => exact .inl rfl
    | first hr hsel =>
      refine .inr fun hd => ?_
      obtain ⟨rfl, -⟩ := Selector.select_ok hsel
      have hprobe := (List.cons.inj (hsame [undecided])).1
      rw [pipeline_undecided hr hd] at hprobe
      exact pipeline_undecided_ne rfl hprobe
  · rintro (rfl | hd)
    · exact fun _ => rfl
    · exact (h.selects.foresees (.inr hd)).pipelines

theorem Refused.bundled_pipelines_iff {c : Config} {entries : List Entry} (h : s.Refused b r t)
    (hs : s.Ordinary) (ht : b.target.Bundled) (hc : s.configure b = (.ok c, entries)) :
    (∀ plans, (∀ q ∈ plans, q.target.Bundled) → t.pipelines plans = s.pipelines plans) ↔
      s.allocators.resolved.isSome ∨ s.allocators.choice ≠ Allocator.defaultName := by
  constructor
  · intro hsame
    cases hr : s.allocators.resolved with
    | some id => exact .inl rfl
    | none =>
      refine .inr fun hd => ?_
      have hset := h.remembers ht hc
      cases h.selects with
      | none => simp [hr] at hset
      | @first optimized id selector _ hsel =>
        obtain ⟨rfl, -⟩ := Selector.select_ok hsel
        have hid : id ∈
            [Standard.regAllocBasic, Standard.regAllocFast, Standard.regAllocGreedy] := by
          rw [Selector.select_default hd hr hsel]
          rcases ht.allocators_cases with ha | ha <;> rw [ha] <;> cases optimized <;> decide
        have hs' := hs.eq_remembering hr hd
        have ht' : { s with allocators := { s.allocators with resolved := some id } } =
            remembering s.tracing (some id) :=
          congrArg (fun x => { x with allocators := { x.allocators with resolved := some id } }) hs'
        refine pipelines_probe_ne s.tracing hid ?_
        rw [← ht', ← hs']
        exact hsame [probe id] (by simp [probe, Target.Bundled.x86])
  · intro hn plans _
    exact (h.selects.foresees hn).pipelines plans

/-- What a refused pipeline means for its session. All that it can leave is a first selection, and
later pipelines notice it unless the allocator was chosen by name. -/
theorem refused_aftermath (h : s.Refused b r t) :
    (∀ failure entries, s.configure b = (.error failure, entries) → entries = [] ∧ t = s) ∧
    s.Selects b.target.allocators t ∧
    ((∀ plans, t.pipelines plans = s.pipelines plans) ↔
      t = s ∨ s.allocators.choice ≠ Allocator.defaultName) ∧
    ∀ c entries, b.target.Bundled → s.configure b = (.ok c, entries) →
      (t = s ↔ s.allocators.resolved.isSome) ∧
      (s.Ordinary →
        ((∀ plans, (∀ q ∈ plans, q.target.Bundled) → t.pipelines plans = s.pipelines plans) ↔
          s.allocators.resolved.isSome ∨ s.allocators.choice ≠ Allocator.defaultName)) := by
  refine ⟨?_, h.selects, h.pipelines_iff, ?_⟩
  · intro failure entries he
    rcases h.cases_adding with ⟨⟨_, hr⟩, rfl⟩ | ⟨c, entries', before, u, hc, -, -⟩
    · cases he.symm.trans hr
      exact ⟨(Config.create_refused_inv he).2, rfl⟩
    · cases he.symm.trans hc
  · intro c entries ht hc
    exact ⟨h.eq_iff ht hc, fun hs => h.bundled_pipelines_iff hs ht hc⟩

/-- On x86-64 without optimization, from behind the frame to the first
pass: the window is inverted. -/
def invertedWindow : Blueprint where
  target := Platform.x86Linux.target
  level := .none
  options := { startAfter := "prologepilog", stopAfter := "tbaa" }

theorem refused_invertedWindow : ∃ c entries r t,
    Session.standard.configure invertedWindow = (.ok c, entries) ∧
    Session.standard.Refused invertedWindow r t ∧
    t.allocators.resolved = some Standard.regAllocFast ∧
    t.kinds { invertedWindow with level := ⟨2⟩, options := {} } ≠
      Session.standard.kinds { invertedWindow with level := ⟨2⟩, options := {} } := by
  have hrun : ∃ c ∈ (Session.standard.configure invertedWindow).1.toOption,
      ∃ result ∈ (c.work .standard (Build.build Build.stages)).1.toOption, result.toOption = none ∧
      ∃ t ∈ some (c.work .standard (Build.build Build.stages)).2.session,
        t.allocators.resolved = some Standard.regAllocFast ∧
        t.kinds { invertedWindow with level := ⟨2⟩, options := {} } ≠
          Session.standard.kinds { invertedWindow with level := ⟨2⟩, options := {} } := by
    decide +kernel
  obtain ⟨c, hc, result, hb, hn, _, ⟨⟩, hr, hk⟩ := hrun
  have hc := eq_of_mem_toOption hc
  have hb := eq_of_mem_toOption hb
  cases result with
  | ok passes => cases hn
  | error r => exact ⟨c, _, r, _, hc, .building hc hb, hr, hk⟩

/-- In a fresh session the refused build is noticed later. -/
theorem refused_aftermath_invertedWindow : ∃ r t,
    Session.standard.Refused invertedWindow r t ∧ t ≠ Session.standard ∧
    ¬ ∀ plans, t.pipelines plans = Session.standard.pipelines plans := by
  obtain ⟨c, entries, r, t, hc, h, -, -⟩ := refused_invertedWindow
  obtain ⟨hsame, hlater⟩ := (refused_aftermath h).2.2.2 c entries (Platform.bundled .x86Linux) hc
  refine ⟨r, t, h, fun he => ?_, fun hall => ?_⟩
  · exact Bool.noConfusion (hsame.mp he)
  · rcases (hlater Session.ordinary_standard).mp fun plans _ => hall plans with hr | hd
    · exact Bool.noConfusion hr
    · exact hd rfl

/-- A refused build does more than end: it decides the allocator of an
optimized pipeline after it. -/
theorem refused_build_decides_allocator : ∃ r t,
    Session.standard.Refused invertedWindow r t ∧
    t.allocators.resolved ≠ Session.standard.allocators.resolved ∧
    ∃ plans, t.pipelines plans ≠ Session.standard.pipelines plans := by
  obtain ⟨c, entries, r, t, -, h, hr, hk⟩ := refused_invertedWindow
  exact ⟨r, t, h, by rw [hr]; decide, _, pipelines_ne_of_kinds hk⟩

end Session

end PassPipeline
