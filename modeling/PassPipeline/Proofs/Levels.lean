import PassPipeline.Proofs.Creation
import PassPipeline.Proofs.Pervasive

/-! Levels of optimization. Whatever a pipeline is asked for, its level counts only as zero or not:
two configurations that are the same but for two such levels stay the same but for them, through
set-up and build, and give the same answers on the way. Only the trace names the level. -/
namespace PassPipeline

theorem Level.optimizing_of_ne {l : Level} (h : l ≠ .none) : l.optimizing := by
  simpa [optimizing] using h

namespace Build

variable {α : Type} {s t : Construction}

/-- Two states that are the same but for what was traced, and for a level that means the same. -/
structure Peers (s t : Construction) : Prop where
  session : t.session = s.session
  config : t.config = { s.config with level := t.config.level }
  optimizing : t.config.level.optimizing = s.config.level.optimizing

namespace Peers

theorem agrees (h : Peers s t) {f : Config → α} (hf : ∀ c l, f { c with level := l } = f c) :
    f t.config = f s.config := by
  rw [h.config]
  exact hf s.config t.config.level

theorem holds (h : Peers s t) (q : Condition) : q.holds t.config = q.holds s.config := by
  cases q with
  | optimizing => exact h.optimizing
  | optimizedAllocation =>
    have hoptions : t.config.options = s.config.options := h.agrees fun _ _ => rfl
    simp only [Condition.holds, Config.optimizedAllocation, hoptions, h.optimizing]
  | verifyDisabled => exact h.agrees (f := Config.disableVerify) fun _ _ => rfl
  | switch w => exact h.agrees (f := fun c => w.isOn c.options) fun _ _ => rfl

theorem changed (h : Peers s t) {f : Config → Config}
    (hf : ∀ c l, f { c with level := l } = { f c with level := l })
    (hl : ∀ c, (f c).level = c.level) :
    Peers { s with config := f s.config } { t with config := f t.config } where
  session := h.session
  config := by
    change f t.config = { f s.config with level := (f t.config).level }
    rw [hl, ← hf, ← h.config]
  optimizing := by
    change (f t.config).level.optimizing = (f s.config).level.optimizing
    rw [hl, hl, h.optimizing]

theorem aside {u v : Construction} (h : Peers s t) (hu : u.config = s.config)
    (hv : v.config = t.config) (hs : v.session = u.session) : Peers u v where
  session := hs
  config := by rw [hu, hv, ← h.config]
  optimizing := by rw [hu, hv, h.optimizing]

theorem traced (h : Peers s t) (text text' : String) : Peers (s.traced text) (t.traced text') :=
  h.aside (by simp) (by simp) (by simp [h.session])

theorem placed (h : Peers s t) (p : Pass) : Peers (placed s p) (Build.placed t p) := by
  have hchanged := h.changed
    (f := fun c => c.withPlacement (c.placement.take s.session.registry p)) (fun _ _ => rfl)
      fun _ => rfl
  refine hchanged.aside (placed_config s p) ?_ (by simp [h.session])
  rw [placed_config, h.session]

end Peers

/-- Work to which the level is only zero or not. -/
abbrev LevelBlind (m : Build α) : Prop := Congruent Peers m

namespace LevelBlind

theorem modifyConfig {f : Config → Config}
    (hf : ∀ c l, f { c with level := l } = { f c with level := l })
    (hl : ∀ c, (f c).level = c.level) : LevelBlind (modifyConfig f) :=
  fun _ _ h => ⟨rfl, h.changed hf hl⟩

theorem view {f : Config → α} (hf : ∀ c l, f { c with level := l } = f c) : LevelBlind (view f) :=
  Congruent.view fun _ _ h => h.agrees hf

theorem trace (text : String) : LevelBlind (trace text) := by
  intro s t h
  rw [outcome_trace, outcome_trace]
  exact ⟨rfl, h.traced text text⟩

theorem announce : LevelBlind announce := by
  intro s t h
  rw [outcome_announce, outcome_announce]
  exact ⟨rfl, h.traced _ _⟩

theorem note (e : Entry) : LevelBlind (note e) := by
  intro s t h
  rw [outcome_note, outcome_note]
  exact ⟨rfl, h.aside rfl rfl h.session⟩

theorem nameOf (id : PassId) : LevelBlind (nameOf id) := by
  intro s t h
  rw [outcome_nameOf, outcome_nameOf, h.session]
  exact ⟨rfl, h⟩

theorem instantiate (id : PassId) : LevelBlind (instantiate id) := by
  intro s t h
  rw [outcome_instantiate, outcome_instantiate, h.session]
  exact ⟨rfl, h⟩

theorem place (p : Pass) : LevelBlind (place p) :=
  Congruent.place (fun _ _ h => h.agrees fun _ _ => rfl) fun _ _ h => h.placed p

theorem selectAllocator (optimized : Bool) : LevelBlind (selectAllocator optimized) := by
  intro s t h
  have htarget : t.config.target = s.config.target := h.agrees fun _ _ => rfl
  rw [outcome_selectAllocator, outcome_selectAllocator, htarget, h.session]
  cases s.session.allocators.select optimized s.config.target.allocators with
  | error e => exact ⟨rfl, h.aside (by simp) (by simp) (by simp [h.session])⟩
  | ok x => exact ⟨rfl, h.aside (by simp) (by simp) rfl⟩

theorem pervasive : Pervasive LevelBlind where
  pure := Congruent.pure
  bind := Congruent.bind
  throw := Congruent.throw
  trace := trace
  announce := announce
  note := note
  nameOf := nameOf
  instantiate := instantiate
  place := place
  placeHanded := Congruent.placeHanded place fun _ _ h => h.agrees fun _ _ => rfl
  selectAllocator := selectAllocator
  phase := view fun _ _ => rfl
  target := view fun _ _ => rfl
  sink := view fun _ _ => rfl
  holds q := Congruent.view fun _ _ h => h.holds q
  resolve _ := view fun _ _ => rfl
  insertedAfter _ := view fun _ _ => rfl
  room := view fun _ _ => rfl
  printing := view fun _ _ => rfl
  enter := modifyConfig (fun _ _ => rfl) fun _ => rfl
  leave := modifyConfig (fun _ _ => rfl) fun _ => rfl
  substitution _ := modifyConfig (fun _ _ => rfl) fun _ => rfl
  insertion _ := modifyConfig (fun _ _ => rfl) fun _ => rfl
  disableVerify _ := modifyConfig (fun _ _ => rfl) fun _ => rfl
  enableTailMerge _ := modifyConfig (fun _ _ => rfl) fun _ => rfl
  printMachineCode _ := modifyConfig (fun _ _ => rfl) fun _ => rfl

theorem build {call : Caller} (hc : ∀ c p, LevelBlind (call c p)) : LevelBlind (build call) :=
  pervasive.build (fun _ => modifyConfig (fun _ _ => rfl) fun _ => rfl) (view fun _ _ => rfl)
    (view fun _ _ => rfl) hc

theorem stages (c : StageCall) (p : Option Pass) : LevelBlind (stages c p) :=
  pervasive.callStage (fun _ hc => build hc) depthLimit c p

theorem buildInto_stages : LevelBlind (buildInto Build.stages) :=
  pervasive.buildInto (fun _ => modifyConfig (fun _ _ => rfl) fun _ => rfl) (view fun _ _ => rfl)
    stages

theorem setUp (printAfter : Option PassId) (target : Target) :
    LevelBlind (setUp printAfter target) :=
  pervasive.setUp (build fun _ _ => Congruent.throw _) printAfter target

end LevelBlind

end Build

namespace Session

/-- Creates a configuration and builds it into a list. With the answer come the list and the session
that are left, whether or not the build ended well. -/
def pipelineOnto (s : Session) (b : Blueprint) (before : List Pass) :
    Except Failure Unit × List Pass × Session :=
  match s.configure b with
  | (.error failure, _) => (.error failure, before, s)
  | (.ok c, _) =>
    match { c with handed := before }.work s (Build.buildInto Build.stages) with
    | (.ok none, t) => (.ok (), t.config.handed, t.session)
    | (.ok (some r), t) => (.error (.refused r), t.config.handed, t.session)
    | (.error d, t) => (.error (.broken d), t.config.handed, t.session)

variable (s : Session) {l l' : Level}

/-- Blueprints that differ in a level that means the same fail alike, or are configured alike. -/
theorem configure_level (b : Blueprint) (h : l'.optimizing = l.optimizing) :
    (∃ failure entries entries', s.configure { b with level := l } = (.error failure, entries) ∧
      s.configure { b with level := l' } = (.error failure, entries')) ∨
    ∃ c c' entries entries', s.configure { b with level := l } = (.ok c, entries) ∧
      s.configure { b with level := l' } = (.ok c', entries') ∧
      Build.Peers { session := s, config := c } { session := s, config := c' } := by
  unfold configure Config.create
  dsimp only
  split
  · exact .inl ⟨_, _, _, rfl, rfl⟩
  · rename_i start stop print _
    have hfresh : Build.Peers
        { session := s
          config := .fresh b.target l b.options b.sink
            (.ofBounds (start.getD .none) (stop.getD .none)) }
        { session := s
          config := .fresh b.target l' b.options b.sink
            (.ofBounds (start.getD .none) (stop.getD .none)) } :=
      ⟨rfl, rfl, h⟩
    obtain ⟨hanswer, hstate⟩ := Build.LevelBlind.setUp print b.target hfresh
    unfold Build.outcome at hanswer hstate
    split <;> rename_i hs <;> split <;> rename_i ht <;> rw [hs, ht] at hanswer hstate <;>
      cases hanswer
    · exact .inr ⟨_, _, _, _, rfl, rfl, hstate.aside rfl rfl rfl⟩
    · exact .inl ⟨_, _, _, rfl, rfl⟩

theorem pipeline_level (b : Blueprint) (h : l'.optimizing = l.optimizing) :
    s.pipeline { b with level := l' } = s.pipeline { b with level := l } := by
  rcases s.configure_level b h with ⟨failure, _, _, hc, hc'⟩ | ⟨c, c', _, _, hc, hc', hpeers⟩
  · simp only [pipeline, hc, hc']
  · obtain ⟨hanswer, hstate⟩ := Build.LevelBlind.build Build.LevelBlind.stages hpeers
    have hsession := hstate.session
    simp only [pipeline, hc, hc', Build.work_eq]
    generalize (Build.build Build.stages).outcome 
      { session := s, config := c } = x at hanswer hsession
    generalize (Build.build Build.stages).outcome 
      { session := s, config := c' } = y at hanswer hsession
    obtain ⟨answer, t⟩ := x
    obtain ⟨answer', u⟩ := y
    cases hanswer
    rcases answer with d | r | passes <;> exact Prod.ext rfl hsession

theorem pipelineOnto_level (b : Blueprint) (h : l'.optimizing = l.optimizing) (before : List Pass) :
    s.pipelineOnto { b with level := l' } before = s.pipelineOnto { b with level := l } before := by
  rcases s.configure_level b h with ⟨failure, _, _, hc, hc'⟩ | ⟨c, c', _, _, hc, hc', hpeers⟩
  · simp only [pipelineOnto, hc, hc']
  · have honto :=
      hpeers.changed (f := fun c => { c with handed := before }) (fun _ _ => rfl) fun _ => rfl
    obtain ⟨hanswer, hstate⟩ := Build.LevelBlind.buildInto_stages honto
    have hhanded := hstate.agrees (f := Config.handed) fun _ _ => rfl
    have hsession := hstate.session
    simp only [pipelineOnto, hc, hc', Build.work_eq]
    generalize (Build.buildInto Build.stages).outcome
      { session := s, config := { c with handed := before } } = x at hanswer hhanded hsession
    generalize (Build.buildInto Build.stages).outcome
      { session := s, config := { c' with handed := before } } = y at hanswer hhanded hsession
    obtain ⟨answer, t⟩ := x
    obtain ⟨answer', u⟩ := y
    cases hanswer
    rcases answer with d | _ | r <;> exact Prod.ext rfl (Prod.ext hhanded hsession)

/-- All levels but zero are one level, for every target and whatever its scripts do. -/
theorem pipeline_of_optimizing (b : Blueprint) (h : l ≠ .none) (h' : l' ≠ .none) :
    s.pipeline { b with level := l } = s.pipeline { b with level := l' } ∧
    ∀ before, s.pipelineOnto { b with level := l } before =
      s.pipelineOnto { b with level := l' } before := by
  have hsame : l.optimizing = l'.optimizing := by
    rw [Level.optimizing_of_ne h, Level.optimizing_of_ne h']
  exact ⟨s.pipeline_level b hsame, fun before => s.pipelineOnto_level b hsame before⟩

/-- A part of an AArch64 pipeline with all its banners. -/
def inspected (level : Level) : Blueprint where
  target := AArch64.target "aarch64-darwin" { collectLOH := true }
  level
  options :=
    { startAfter := "stack-protector", printMachineCode := true, verifyMachineCode := true }

/-- Numbers that name no level are levels too, and not zero. -/
theorem pipeline_of_optimizing_inspected :
    standard.pipeline (inspected ⟨-7⟩) = standard.pipeline (inspected ⟨3⟩) ∧
      standard.pipelineOnto (inspected ⟨-7⟩) [.verifier ""] =
        standard.pipelineOnto (inspected ⟨3⟩) [.verifier ""] ∧
      (standard.pipeline (inspected ⟨3⟩)).1.toOption.map List.length = some 68 ∧
      (standard.pipeline (inspected .none)).1.toOption.map List.length = some 23 := by
  have hraw : (⟨-7⟩ : Level) ≠ .none := by decide
  have haggressive : (⟨3⟩ : Level) ≠ .none := by decide
  obtain ⟨hlist, honto⟩ := standard.pipeline_of_optimizing (inspected .none) hraw haggressive
  exact ⟨hlist, honto [.verifier ""], by decide +kernel, by decide +kernel⟩

end Session

end PassPipeline
