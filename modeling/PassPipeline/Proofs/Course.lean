import PassPipeline.Proofs.BundledBuild
import PassPipeline.Proofs.Immutability
import PassPipeline.Proofs.Unfolding

/-! The course of a build. Once it is known which allocator a session has for it, a build depends on
the configuration only: which passes its stages place, one after the other, and how they end. -/
namespace PassPipeline

namespace Config

/-- What calls of stages come to. -/
abbrev Courses := StageCall → Option Pass → Unfolding Bool

variable (c : Config) (r : Registry) (allocator : Except Defect Pass)

/-- The printer and the verifier that are placed behind a step. -/
def shown (banner : String) : List Pass :=
  (if c.printMachineCode then [.printer .machineCode c.sink banner] else []) ++
    if c.options.verifyMachineCode then [.verifier banner] else []

theorem map_id_shown (c : Config) (banner : String) :
    (c.shown banner).map Pass.id =
      (if c.printMachineCode then [Standard.machinePrinter] else []) ++
        if c.options.verifyMachineCode then [Standard.machineVerifier] else [] := by
  unfold shown
  cases c.printMachineCode <;> cases c.options.verifyMachineCode <;> rfl

/-- A pass of a supply. -/
def supplied : Supply → Unfolding Unit
  | .ready p => { passes := [p.withSink c.sink], ending := .ok () }
  | .registered id =>
    match r.instantiate id with
    | .ok p => { passes := [p.withSink c.sink], ending := .ok () }
    | .error e => { ending := .error (.registry e) }

section scripts

variable (courses : Courses) (frame : Frame)

/-- What a command comes to. The allocator is known for one of the two paths only. -/
def commandCourse : Command → Unfolding Unit
  | .place supply => c.supplied r supply
  | .print subject banner => { passes := [.printer subject c.sink banner], ending := .ok () }
  | .printAndVerify banner => { passes := c.shown banner, ending := .ok () }
  | .substitute standard _ => { ending := .error (.immutable (.substitute (r.name standard))) }
  | .insert _ inserted => { ending := .error (.immutable (.insert (r.name inserted))) }
  | .set .disableVerify _ => { ending := .error (.immutable .disableVerify) }
  | .set .enableTailMerge _ => { ending := .error (.immutable .enableTailMerge) }
  | .set .printMachineCode _ => { ending := .error (.immutable .printMachineCode) }
  | .allocate optimized =>
    if optimized = c.optimizedAllocation then
      Unfolding.bind { ending := allocator } fun p =>
        (courses { stage := if optimized then .optimizedRegAlloc else .fastRegAlloc } (some p)).bind
          fun _ => { ending := .ok () }
    else { ending := .error .noAllocator }
  | .placeAllocator =>
    match frame.allocator with
    | some p => { passes := [p], ending := .ok () }
    | none => { ending := .error .noAllocator }
  | .build => { ending := .error (.immutable .build) }

def queryCourse : Query → Unfolding Bool
  | .holds condition => { ending := .ok (condition.holds c) }
  | .schedules kind _ =>
    (c.unfold r c.insertions.length kind).bind fun final => { ending := .ok (final ≠ .none) }
  | .stage stage => courses { stage } frame.allocator
  | .standard =>
    match frame.stage with
    | some stage => courses { stage, standard := true } frame.allocator
    | none => { ending := .ok false }

def scriptCourse : Script → Unfolding Bool
  | .skip => { ending := .ok false }
  | .claim => { ending := .ok true }
  | .run command =>
    (c.commandCourse r allocator courses frame command).bind fun _ => { ending := .ok false }
  | .seq first second =>
    (scriptCourse first).bind fun a => (scriptCourse second).bind fun b =>
      { ending := .ok (a || b) }
  | .ask query yes no =>
    (c.queryCourse r courses frame query).bind fun a =>
      if a then scriptCourse yes else scriptCourse no

end scripts

def stageCourse : (depth : Nat) → Courses
  | 0, _, _ => { ending := .error .stagesEndless }
  | depth + 1, call, p =>
    c.scriptCourse r allocator (stageCourse depth)
      ⟨some call.stage, if call.stage.takesAllocator then p else none⟩ (c.target.called call)

/-- What the stages of a build come to, one after the other. -/
def course : Unfolding Unit :=
  let stage (s : Stage) : Unfolding Bool :=
    c.stageCourse r allocator Build.depthLimit { stage := s } none
  (stage .irPasses).bind fun _ => (stage .iselPrepare).bind fun _ =>
    (stage .instSelector).bind fun _ =>
    (stage .machinePasses).bind fun _ => { ending := .ok () }

end Config

/-- Whether a script asks for an allocator only on the path that is taken, and
has one where it places one. -/
def Script.provided (optimized handed : Bool) : Script → Bool
  | .skip | .claim => true
  | .run (.allocate path) => path = optimized
  | .run .placeAllocator => handed
  | .run _ => true
  | .seq first second => provided optimized handed first && provided optimized handed second
  | .ask (.holds .optimizedAllocation) yes no =>
    if optimized then provided optimized handed yes else provided optimized handed no
  | .ask (.stage stage) yes no =>
    (!stage.takesAllocator || handed) && provided optimized handed yes &&
      provided optimized handed no
  | .ask _ yes no => provided optimized handed yes && provided optimized handed no

/-- A target whose stages are handed the allocator they place, on one of the two paths. -/
def Target.Provides (t : Target) (optimized : Bool) : Prop :=
  ∀ call, (t.called call).provided optimized call.stage.takesAllocator

theorem Target.Bundled.provides {target : Target} (ht : target.Bundled) (optimized : Bool) :
    target.Provides optimized := by
  rintro ⟨stage, standard⟩
  rcases ht.called_cases with he | ⟨loh, he⟩ <;> rw [he]
  · cases optimized <;> cases standard <;> cases stage <;> rfl
  · cases loh <;> cases optimized <;> cases standard <;> cases stage <;> rfl

namespace Session

/-- The pass of the allocator that a session has for one of the two paths. -/
def allocatorFor (s : Session) (answers : AllocatorAnswers) (optimized : Bool) :
    Except Defect Pass :=
  match s.allocators.select optimized answers with
  | .error e => .error (.allocator e)
  | .ok (id, _) => (s.registry.instantiate id).mapError .registry

theorem allocatorFor_ok {s : Session} {answers : AllocatorAnswers} {optimized : Bool} {p : Pass}
    (h : s.allocatorFor answers optimized = .ok p) :
    ∃ id selector, s.allocators.select optimized answers = .ok (id, selector) ∧
      s.registry.instantiate id = .ok p := by
  unfold allocatorFor at h
  split at h
  · cases h
  · rename_i id selector hsel
    cases hi : s.registry.instantiate id with
    | error e =>
      rw [hi] at h
      cases h
    | ok q =>
      rw [hi] at h
      cases h
      exact ⟨id, selector, hsel, hi⟩

/-- What a session becomes if at most the allocator of one of the two paths is selected. -/
inductive Settles (answers : AllocatorAnswers) (optimized : Bool) (s : Session) : Session → Prop
  | none : Settles answers optimized s s
  | select {id : PassId} {selector : Selector}
    (h : s.allocators.select optimized answers = .ok (id, selector)) :
    Settles answers optimized s { s with allocators := selector }

namespace Settles

variable {answers : AllocatorAnswers} {optimized : Bool} {s t u : Session}

theorem registry (h : Settles answers optimized s t) : t.registry = s.registry := by
  cases h <;> rfl

theorem select_eq (h : Settles answers optimized s t) {id : PassId} {selector : Selector}
    (hs : s.allocators.select optimized answers = .ok (id, selector)) :
    t.allocators.select optimized answers = .ok (id, selector) := by
  cases h with
  | none => exact hs
  | select h =>
    cases hs.symm.trans h
    exact Selector.select_select h _ _

/-- Whether or not a session was settled, it has the same allocator. -/
theorem allocatorFor (h : Settles answers optimized s t) :
    t.allocatorFor answers optimized = s.allocatorFor answers optimized := by
  cases h with
  | none => rfl
  | select h => simp [Session.allocatorFor, h, Selector.select_select h]

/-- What a settled session remembers is what the other would select. -/
theorem resolved_eq (h : Settles answers optimized s t) {id : PassId} {selector : Selector}
    (hs : s.allocators.select optimized answers = .ok (id, selector))
    (ht : t.allocators.resolved.isSome) : t.allocators.resolved = some id := by
  obtain ⟨old, hold⟩ := Option.isSome_iff_exists.mp ht
  rw [hold, (Selector.select_ok (h.select_eq hs)).2 old hold]

theorem trans (h : Settles answers optimized s t) (h' : Settles answers optimized t u) :
    Settles answers optimized s u := by
  cases h with
  | none => exact h'
  | select h =>
    cases h' with
    | none => exact .select h
    | select h' =>
      cases (Selector.select_select h optimized answers).symm.trans h'
      exact .select h

end Settles

end Session

namespace Build

variable {α β : Type} {r : Registry} {c : Config} {allocator : Except Defect Pass}

/-- During a build of `c`, in a session with a given allocator, some work comes to an unfolding. -/
def Enacts (r : Registry) (c : Config) (allocator : Except Defect Pass) (m : Build α)
    (x : Unfolding α) : Prop :=
  ∀ ⦃s y⦄, s.session.registry = r →
    s.session.allocatorFor c.target.allocators c.optimizedAllocation = allocator →
    s.config = c.during 0 y →
    ∃ t k, m.outcome s = (x.ending, t) ∧
      s.session.Settles c.target.allocators c.optimizedAllocation t.session ∧
      t.config = c.during k (y.takeAll r x.passes) ∧ (x.ending.isOk → k = 0)

namespace Enacts

theorem of_yields {m : Build α} {x : Unfolding α} (h : Yields r c 0 m x) :
    Enacts r c allocator m x := by
  intro s y hr _ hc
  obtain ⟨t, k, ho, ht, htc, hk⟩ := h hr hc
  refine ⟨t, k, ho, ?_, htc, hk⟩
  rw [ht]
  exact .none

theorem pure (a : α) : Enacts r c allocator (pure a) { ending := .ok a } := of_yields (.pure a)

theorem aside {m : Build α} {a : Except Defect α}
    (h : ∀ ⦃s y⦄, s.session.registry = r → s.config = c.during 0 y →
      ∃ t, m.outcome s = (a, t) ∧ t.session = s.session ∧ t.config = s.config) :
    Enacts r c allocator m { ending := a } := by
  intro s y hr _ hc
  obtain ⟨t, ho, ht, htc⟩ := h hr hc
  refine ⟨t, 0, ho, ?_, htc.trans hc, fun _ => rfl⟩
  rw [ht]
  exact .none

theorem bind {m : Build α} {f : α → Build β} {x : Unfolding α} {g : α → Unfolding β}
    (hm : Enacts r c allocator m x)
    (hf : ∀ a, x.ending = .ok a → Enacts r c allocator (f a) (g a)) :
    Enacts r c allocator (m >>= f) (x.bind g) := by
  intro s y hr ha hc
  obtain ⟨t, k, ho, hst, htc, hk⟩ := hm hr ha hc
  rcases hx : x.ending with d | a
  · rw [hx] at ho
    rw [Unfolding.bind_error hx]
    exact ⟨t, k, outcome_bind_error ho, hst, htc, fun h => by cases h⟩
  · rw [hx] at ho hk
    obtain rfl := hk rfl
    obtain ⟨u, k', ho', htu, huc, hk'⟩ :=
      hf a hx (hst.registry.trans hr) (hst.allocatorFor.trans ha) htc
    rw [Unfolding.bind_ok hx]
    refine ⟨u, k', (outcome_bind_ok ho).trans ho', hst.trans htu, ?_, hk'⟩
    rw [huc, Placement.takeAll, Placement.takeAll, Placement.takeAll, List.foldl_append]

theorem discarded {m : Build α} {x : Unfolding α} (hm : Enacts r c allocator m x) :
    Enacts r c allocator (discard m) (x.bind fun _ => { ending := .ok () }) := by
  rw [discard_eq]
  exact hm.bind fun _ _ => pure ()

theorem before {m : Build α} {f : Build β} {x : Unfolding α} {y : Unfolding β}
    (hm : Enacts r c allocator m x) (hf : Enacts r c allocator f y) :
    Enacts r c allocator (discard m >>= fun _ => f) (x.bind fun _ => y) := by
  rw [discard_eq, bind_assoc]
  exact hm.bind fun _ _ => hf

/-- The one step at which the session counts. -/
theorem allocatorPass :
    Enacts r c allocator (allocatorPass c.optimizedAllocation) { ending := allocator } := by
  intro s y hr ha hc
  have htarget : s.config.target = c.target := by rw [hc]; rfl
  have hsel := outcome_selectAllocator c.optimizedAllocation s
  rw [htarget] at hsel
  rw [Session.allocatorFor, hr] at ha
  rw [allocatorPass_eq]
  rcases h : s.session.allocators.select c.optimizedAllocation c.target.allocators with
    e | ⟨id, selector⟩
  · rw [h] at hsel ha
    subst ha
    refine ⟨_, 0, outcome_bind_error hsel, ?_, (asked_config _ s).trans hc, fun _ => rfl⟩
    rw [asked_session]
    exact .none
  · rw [h] at hsel ha
    subst ha
    rw [outcome_bind_ok hsel, outcome_bind_ok (outcome_nameOf _ _),
      outcome_bind_ok (outcome_trace _ _), outcome_instantiate]
    refine ⟨_, 0, Prod.ext ?_ rfl, ?_, ?_, fun _ => rfl⟩
    · simp [hr]
    · rw [Construction.traced_session]
      exact .select h
    · rw [Construction.traced_config]
      exact (asked_config _ s).trans hc

section scripts

variable (hp : c.phase = .building)
include hp

theorem tooLate {e : Config.Event} {change : Change} (he : e.change? r = some change) :
    Enacts r c allocator e.work { ending := .error (.immutable change) } := by
  refine aside fun s y hr hc => ⟨s, outcome_change ?_ (hr ▸ he), rfl, rfl⟩
  rw [hc]
  change c.phase ≠ .configuring
  simp [hp]

theorem take_place (supply : Supply) :
    Enacts r c allocator (take supply >>= Build.place) (c.supplied r supply) := by
  have hplace (p : Pass) :
      Yields r c 0 (view Config.sink >>= fun sink => Build.place (p.withSink sink))
        { passes := [p.withSink c.sink], ending := .ok () } :=
    .view_bind (.place hp _) fun _ => rfl
  rw [take_eq]
  simp only [bind_assoc, pure_bind]
  refine of_yields ?_
  cases supply with
  | ready p => exact hplace p
  | registered id =>
    intro s y hr hc
    rw [Config.supplied, outcome_bind, outcome_instantiate, hr]
    cases r.instantiate id with
    | error e => exact ⟨s, 0, rfl, rfl, hc, fun _ => rfl⟩
    | ok p => exact hplace p hr hc

theorem printAndVerify (banner : String) :
    Enacts r c allocator (printAndVerify banner)
      { passes := c.shown banner, ending := .ok () } := by
  have hoptional (wanted : Bool) (p : Pass) :
      Yields r c 0 (if wanted then Build.place p else Pure.pure ())
        { passes := if wanted then [p] else [], ending := .ok () } := by
    cases wanted with
    | true => exact .place hp p
    | false => exact .pure ()
  rw [printAndVerify_eq]
  refine of_yields (.view_bind ?_ fun _ => rfl)
  exact (hoptional c.printMachineCode _).bind fun _ _ => hoptional c.options.verifyMachineCode _

theorem request (id : PassId) :
    Enacts r c allocator (request id) (c.unfold r c.insertions.length id) :=
  of_yields (.request hp id)

section calls

variable {call : Caller} {courses : Config.Courses} {frame : Frame}
  (hcall : ∀ sc p, (sc.stage.takesAllocator → p.isSome) →
    Enacts r c allocator (call sc p) (courses sc p))
  (hframe : ∀ stage ∈ frame.stage, stage.takesAllocator → frame.allocator.isSome)
include hcall

theorem perform {command : Command}
    (hs : (Script.run command).provided c.optimizedAllocation frame.allocator.isSome) :
    Enacts r c allocator (perform call frame command)
      (c.commandCourse r allocator courses frame command) := by
  cases command with
  | place supply => exact take_place hp supply
  | print subject banner =>
    have h : Yields r c 0 (placePrinter subject banner)
        { passes := [.printer subject c.sink banner], ending := .ok () } := by
      rw [placePrinter_eq]
      exact .view_bind (.place hp _) fun _ => rfl
    exact of_yields h
  | printAndVerify banner => exact printAndVerify hp banner
  | substitute standard target => exact tooLate hp (e := .substitute standard target) rfl
  | insert anchor inserted => exact tooLate hp (e := .insert anchor inserted) rfl
  | set setting value => cases setting <;> exact tooLate hp (e := .set _ value) rfl
  | allocate optimized =>
    obtain rfl : optimized = c.optimizedAllocation := by simpa [Script.provided] using hs
    rw [Config.commandCourse, if_pos rfl]
    exact allocatorPass.bind fun p _ => (hcall _ _ fun _ => rfl).discarded
  | placeAllocator =>
    obtain ⟨p, hh⟩ := Option.isSome_iff_exists.mp hs
    simp only [Build.perform, Config.commandCourse, hh]
    exact of_yields (.place hp p)
  | build =>
    refine aside fun s y _ hc => ⟨s, ?_, rfl, rfl⟩
    have hne : s.config.phase ≠ .configuring := by
      rw [hc]
      change c.phase ≠ .configuring
      simp [hp]
    exact outcome_bind_error (outcome_build_of_ne call hne)

include hframe

theorem answer {q : Query} (hq : ∀ stage, q = .stage stage → stage.takesAllocator →
      frame.allocator.isSome) :
    Enacts r c allocator (answer call frame q) (c.queryCourse r courses frame q) := by
  cases q with
  | holds condition =>
    refine aside fun s y _ hc => ⟨s, ?_, rfl, rfl⟩
    change (Except.ok (condition.holds s.config), s) = _
    rw [hc]
    cases condition <;> rfl
  | schedules kind reported =>
    refine (request hp kind).bind fun final _ => ?_
    cases reported with
    | false => exact pure _
    | true => exact aside fun s y _ _ => ⟨_, rfl, rfl, rfl⟩
  | stage stage => exact hcall _ _ (hq stage rfl)
  | standard =>
    rw [Config.queryCourse]
    cases hs : frame.stage with
    | none => simpa [Build.answer, hs] using pure false
    | some stage => simpa [Build.answer, hs] using hcall _ _ (hframe stage hs)

theorem exec {script : Script}
    (hs : script.provided c.optimizedAllocation frame.allocator.isSome) :
    Enacts r c allocator (exec call frame script)
      (c.scriptCourse r allocator courses frame script) := by
  induction script with
  | skip => exact pure false
  | claim => exact pure true
  | run command => exact (perform hp hcall hs).bind fun _ _ => pure false
  | seq first second ih₁ ih₂ =>
    obtain ⟨h₁, h₂⟩ := Bool.and_eq_true_iff.mp hs
    exact (ih₁ h₁).bind fun a _ => (ih₂ h₂).bind fun b _ => pure (a || b)
  | ask q yes no ihy ihn =>
    have hask (hq : ∀ stage, q = .stage stage → stage.takesAllocator → frame.allocator.isSome)
        (hy : (c.queryCourse r courses frame q).ending = .ok true →
          yes.provided c.optimizedAllocation frame.allocator.isSome)
        (hn : (c.queryCourse r courses frame q).ending = .ok false →
          no.provided c.optimizedAllocation frame.allocator.isSome) :
        Enacts r c allocator (Build.exec call frame (.ask q yes no))
          (c.scriptCourse r allocator courses frame (.ask q yes no)) := by
      refine (answer hp hcall hframe hq).bind fun a ha => ?_
      cases a with
      | true => exact ihy (hy ha)
      | false => exact ihn (hn ha)
    cases q with
    | holds condition =>
      by_cases hcond : condition = .optimizedAllocation
      · -- The path that is taken is known.
        subst hcond
        rw [Script.provided] at hs
        refine hask (by simp) (fun h => ?_) fun h => ?_
        · have hpath : c.optimizedAllocation = true := Except.ok.inj h
          simpa [hpath] using hs
        · have hpath : c.optimizedAllocation = false := Except.ok.inj h
          simpa [hpath] using hs
      · have hboth : (yes.provided c.optimizedAllocation frame.allocator.isSome &&
            no.provided c.optimizedAllocation frame.allocator.isSome) = true := by
          cases condition <;> first | exact hs | exact absurd rfl hcond
        obtain ⟨hy, hn⟩ := Bool.and_eq_true_iff.mp hboth
        exact hask (by simp) (fun _ => hy) fun _ => hn
    | schedules kind reported =>
      obtain ⟨hy, hn⟩ := Bool.and_eq_true_iff.mp hs
      exact hask (by simp) (fun _ => hy) fun _ => hn
    | stage stage =>
      simp only [Script.provided, Bool.and_eq_true] at hs
      obtain ⟨⟨hstage, hy⟩, hn⟩ := hs
      refine hask ?_ (fun _ => hy) fun _ => hn
      rintro _ ⟨⟩ htakes
      simpa [htakes] using hstage
    | standard =>
      obtain ⟨hy, hn⟩ := Bool.and_eq_true_iff.mp hs
      exact hask (by simp) (fun _ => hy) fun _ => hn

end calls

/-- A call of a stage comes to its course, to any depth. -/
theorem callStage (ht : c.target.Provides c.optimizedAllocation) (depth : Nat) (sc : StageCall)
    {p : Option Pass} (hh : sc.stage.takesAllocator → p.isSome) :
    Enacts r c allocator (callStage depth sc p) (c.stageCourse r allocator depth sc p) := by
  induction depth generalizing sc p with
  | zero => exact aside fun s _ _ _ => ⟨s, rfl, rfl, rfl⟩
  | succ depth ih =>
    have hhanded :
        (if sc.stage.takesAllocator then p else none).isSome = sc.stage.takesAllocator := by
      cases hs : sc.stage.takesAllocator with
      | true => simpa using hh hs
      | false => rfl
    have hexec : Enacts r c allocator (Build.exec (Build.callStage depth)
        ⟨some sc.stage, if sc.stage.takesAllocator then p else none⟩ (c.target.called sc))
        (c.stageCourse r allocator (depth + 1) sc p) := by
      refine exec hp (fun sc p => ih sc) ?_ ?_
      · rintro _ ⟨⟩ hs
        rw [hhanded, hs]
      · dsimp only
        rw [hhanded]
        exact ht sc
    intro s y hr ha hc
    have htarget : s.config.target = c.target := by rw [hc]; rfl
    rw [outcome_callStage, htarget]
    exact hexec hr ha hc

theorem runStages (ht : c.target.Provides c.optimizedAllocation) :
    Enacts r c allocator (runStages stages) (c.course r allocator) := by
  have hstage (stage : Stage) (hs : stage.takesAllocator = false) :
      Enacts r c allocator (stages { stage } none) _ :=
    callStage hp ht depthLimit { stage } (by simp [hs])
  have hannounce : Enacts r c allocator announce { ending := .ok () } :=
    aside fun s _ _ _ => ⟨_, outcome_announce s, s.traced_session _, s.traced_config _⟩
  refine hannounce.bind fun _ _ => (hstage _ rfl).before ((hstage _ rfl).before ?_)
  refine (hstage _ rfl).bind fun added _ => ?_
  have hlast := (hstage .machinePasses rfl).discarded
  cases added with
  | false => exact hlast
  | true =>
    have htrace (text : String) : Enacts r c allocator (trace text) { ending := .ok () } :=
      aside fun s _ _ _ => ⟨_, outcome_trace text s, s.traced_session _, s.traced_config _⟩
    exact (htrace _).bind fun _ _ => hlast

end scripts

end Enacts

end Build

/-- What a build answers that placed its passes like this. -/
def Placement.answer (x : Placement) : Except Failure (List Pass) :=
  match x.refusal with
  | some r => .error (.refused r)
  | none =>
    match Order.broken? (x.handed.map Pass.id) with
    | some k =>
      .error (.broken (.order (Standard.registry.name k.first) (Standard.registry.name k.second)))
    | none => .ok x.handed

namespace Session

variable {s : Session} {b : Blueprint} {c : Config} {entries : List Entry}

/-- What the stages come to in a session. -/
def courseOf (s : Session) (c : Config) : Unfolding Unit :=
  { c with phase := .building }.course s.registry
    (s.allocatorFor c.target.allocators c.optimizedAllocation)

/-- What a session makes of a configuration. -/
def result (s : Session) (c : Config) : Except Failure (List Pass) :=
  match (s.courseOf c).ending with
  | .error d => .error (.broken d)
  | .ok _ => (c.placement.takeAll s.registry (s.courseOf c).passes).answer

theorem pipeline_eq_result (hc : s.configure b = (.ok c, entries)) (hp : c.phase = .configuring)
    (hn : c.nesting = 0) (ht : c.target.Provides c.optimizedAllocation) :
    (s.pipeline b).1 = s.result c ∧
      s.Settles c.target.allocators c.optimizedAllocation (s.pipeline b).2 := by
  have hstart : (Construction.inPhase { session := s, config := c } .building).config =
      { c with phase := .building }.during 0 c.placement := by
    rw [← hn]
    rfl
  have henacts : Build.Enacts s.registry { c with phase := .building }
      (s.allocatorFor c.target.allocators c.optimizedAllocation) (Build.runStages Build.stages)
      (s.courseOf c) :=
    .runStages rfl ht
  obtain ⟨t, k, ho, hst, htc, -⟩ := henacts rfl rfl hstart
  unfold pipeline result
  simp only [hc, Build.work_eq, Build.outcome_build]
  rw [Build.outcome_buildInto _ hp, ho]
  generalize s.courseOf c = x at htc ⊢
  rcases hx : x.ending with d | _
  · exact ⟨rfl, hst⟩
  · have hrefusal : t.config.refusal = (c.placement.takeAll s.registry x.passes).refusal := by
      rw [htc]
      rfl
    have hhanded :
        (t.inPhase .built).config.handed = (c.placement.takeAll s.registry x.passes).handed := by
      change t.config.handed = _
      rw [htc]
      rfl
    generalize c.placement.takeAll s.registry x.passes = y at hrefusal hhanded
    dsimp only
    rw [hrefusal]
    unfold Placement.answer
    cases y.refusal with
    | some refusal => exact ⟨rfl, hst⟩
    | none =>
      simp only [hhanded]
      cases Order.broken? (y.handed.map Pass.id) with
      | some k => exact ⟨rfl, hst⟩
      | none => exact ⟨rfl, hst⟩

theorem configure_of_pipeline {passes : List Pass} (h : (s.pipeline b).1 = .ok passes) :
    ∃ c entries, s.configure b = (.ok c, entries) := by
  rcases hc : s.configure b with ⟨f | c, entries⟩
  · rw [pipeline, hc] at h
    cases h
  · exact ⟨c, entries, rfl⟩

theorem pipeline_bundled (ht : b.target.Bundled) (hc : s.configure b = (.ok c, entries)) :
    (s.pipeline b).1 = s.result c ∧
      s.Settles b.target.allocators c.optimizedAllocation (s.pipeline b).2 := by
  have ho := Config.outfitted_of_create ht hc
  have h := pipeline_eq_result hc ho.phase ho.nesting (ho.target_eq ▸ ht.provides _)
  rwa [ho.target_eq] at h

/-- Without boundaries a list is all that the stages place, in an order that is accepted. -/
theorem result_eq_ok_iff (hc : c.placement = ⟨.ofBounds .none .none, none, []⟩)
    {passes : List Pass} :
    s.result c = .ok passes ↔ (s.courseOf c).ending = .ok () ∧ (s.courseOf c).passes = passes ∧
      Order.broken? (passes.map Pass.id) = none := by
  rw [result, hc, Placement.takeAll_unbounded, List.nil_append]
  rcases (s.courseOf c).ending with d | _
  · simp
  · simp only [Placement.answer, true_and]
    cases hb : Order.broken? ((s.courseOf c).passes.map Pass.id) with
    | some k =>
      simp only [reduceCtorEq, false_iff]
      rintro ⟨rfl, hn⟩
      simp [hb] at hn
    | none =>
      simp only [Except.ok.injEq]
      constructor
      · rintro rfl
        exact ⟨rfl, hb⟩
      · exact And.left

theorem result_ne_refused (hc : c.placement = ⟨.ofBounds .none .none, none, []⟩) (r : Refusal) :
    s.result c ≠ .error (.refused r) := by
  rw [result, hc, Placement.takeAll_unbounded]
  rcases (s.courseOf c).ending with d | _
  · simp
  · unfold Placement.answer
    dsimp only
    split <;> simp

end Session

theorem Config.placement_of_create {session : Session} {target : Target} {level : Level}
    {options : Options} {sink : Sink} {c : Config} {entries : List Entry} (ht : target.Bundled)
    (h : create session target level options sink = (.ok c, entries))
    (hstart : options.startAfter = "") (hstop : options.stopAfter = "") :
    c.placement = ⟨.ofBounds .none .none, none, []⟩ := by
  obtain ⟨start, stop, print, s, hs, hst, -, -, hu, rfl, -⟩ := create_prepared_inv h
  rw [hstart, boundary_empty] at hs
  rw [hstop, boundary_empty] at hst
  cases hs
  cases hst
  obtain ⟨equip, hequip, hplacement⟩ := Build.outcome_configure_bundled ht
  rw [hequip _ rfl] at hu
  cases hu
  exact hplacement _

namespace Session

variable {s : Session} {b : Blueprint} {c : Config} {entries : List Entry}

/-- An ordinary session has a list for every configuration of a bundled target, or refuses it. -/
theorem pipeline_cases (hs : s.Ordinary) (ht : b.target.Bundled)
    (hc : s.configure b = (.ok c, entries)) (hsched : b.options.enableMachineSched.Valid) :
    (∃ passes, (s.pipeline b).1 = .ok passes) ∨ ∃ r, (s.pipeline b).1 = .error (.refused r) := by
  obtain ⟨result, t, hb, -, -⟩ := Build.build_bundled hs ht hsched hc
  unfold pipeline
  simp only [hc, hb]
  cases result with
  | ok passes => exact .inl ⟨passes, rfl⟩
  | error r => exact .inr ⟨r, rfl⟩

theorem exists_pipeline (hs : s.Ordinary) (ht : b.target.Bundled)
    (hc : s.configure b = (.ok c, entries))
    (hstart : b.options.startAfter = "") (hstop : b.options.stopAfter = "")
    (hsched : b.options.enableMachineSched.Valid) : ∃ passes, (s.pipeline b).1 = .ok passes := by
  refine (pipeline_cases hs ht hc hsched).resolve_right ?_
  rintro ⟨r, hr⟩
  rw [(pipeline_bundled ht hc).1] at hr
  exact result_ne_refused (Config.placement_of_create ht hc hstart hstop) r hr

end Session

end PassPipeline
