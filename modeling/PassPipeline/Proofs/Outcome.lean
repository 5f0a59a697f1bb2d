import PassPipeline.Config.Build

/-! What the basic steps of a build come to: the answer or the defect,
and the state that is left. -/
namespace PassPipeline

/-- All of a configuration that placing passes changes. -/
structure Placement where
  window : Window
  refusal : Option Refusal := none
  handed : List Pass := []

namespace Placement

/-- Takes one more pass. Behind a refusal nothing is taken. -/
def take (r : Registry) (x : Placement) (p : Pass) : Placement :=
  if x.refusal.isSome then x
  else
    let moved := x.window.advance p.id
    { window := moved
      refusal :=
        if moved.isInverted then some (.stopBeforeStart (r.name moved.stopAfter)) else none
      handed := if x.window.isOpen then x.handed ++ [p] else x.handed }

/-- A pass brings an inversion to light or no refusal, and it is handed over or nothing is. -/
theorem take_cases (r : Registry) (x : Placement) (p : Pass) :
    ((x.take r p).refusal = x.refusal ∨
        ∃ stop, (x.take r p).refusal = some (.stopBeforeStart stop)) ∧
      ((x.take r p).handed = x.handed ∨ (x.take r p).handed = x.handed ++ [p]) := by
  unfold take
  cases hr : x.refusal with
  | some refusal => simp [hr]
  | none =>
    cases (x.window.advance p.id).isInverted <;> cases x.window.isOpen <;> simp

def takeAll (r : Registry) (x : Placement) (l : List Pass) : Placement := l.foldl (take r) x

theorem takeAll_concat (r : Registry) (x : Placement) (l : List Pass) (p : Pass) :
    x.takeAll r (l ++ [p]) = (x.takeAll r l).take r p := by
  simp [takeAll]

theorem take_unbounded (r : Registry) (l : List Pass) (p : Pass) :
    Placement.take r ⟨.ofBounds .none .none, none, l⟩ p =
      ⟨.ofBounds .none .none, none, l ++ [p]⟩ := by
  simp [take, Window.advance, Window.ofBounds, Window.isOpen, Window.isInverted]

theorem takeAll_unbounded (r : Registry) (before l : List Pass) :
    Placement.takeAll r ⟨.ofBounds .none .none, none, before⟩ l =
      ⟨.ofBounds .none .none, none, before ++ l⟩ := by
  induction l generalizing before with
  | nil => simp [takeAll]
  | cons p l ih =>
    have hstep := ih (before ++ [p])
    rw [← take_unbounded r before p] at hstep
    simpa [takeAll] using hstep

end Placement

namespace Config

def placement (c : Config) : Placement := ⟨c.window, c.refusal, c.handed⟩

def withPlacement (c : Config) (x : Placement) : Config :=
  { c with window := x.window, refusal := x.refusal, handed := x.handed }

def withSetting (c : Config) (value : Bool) : Setting → Config
  | .disableVerify => { c with disableVerify := value }
  | .enableTailMerge => { c with enableTailMerge := value }
  | .printMachineCode => { c with printMachineCode := value }

/-- The configuration in the middle of its build. -/
def during (c : Config) (k : Nat) (x : Placement) : Config :=
  { c.withPlacement x with nesting := k }

end Config

/-- The entries of a journal that are no trace. -/
def Entry.reports (journal : List Entry) : List Entry :=
  journal.filter fun
    | .traced _ => false
    | _ => true

@[simp] theorem Entry.reports_append (j k : List Entry) :
    Entry.reports (j ++ k) = Entry.reports j ++ Entry.reports k := by
  simp [Entry.reports]

def Construction.inPhase (s : Construction) (phase : Phase) : Construction :=
  { s with config := { s.config with phase } }

/-- The state with one more line of the trace, if there is a trace. -/
def Construction.traced (s : Construction) (text : String) : Construction :=
  if s.session.tracing then
    { s with journal := s.journal ++
        [.traced (s.config.target.name ++ "/" ++ s.config.level.text ++ ": " ++ text)] }
  else s

section traced

variable (s : Construction) (text : String)

@[simp] theorem Construction.traced_session : (s.traced text).session = s.session := by
  unfold traced
  split <;> rfl

@[simp] theorem Construction.traced_config : (s.traced text).config = s.config := by
  unfold traced
  split <;> rfl

@[simp] theorem Construction.traced_reports :
    Entry.reports (s.traced text).journal = Entry.reports s.journal := by
  unfold traced
  split <;> simp [Entry.reports]

end traced

theorem eq_of_mem_toOption {ε α β : Type} {x : Except ε α × β} {a : α} (h : a ∈ x.1.toOption) :
    x = (.ok a, x.2) := by
  obtain ⟨e | b, y⟩ := x
  · cases h
  · cases h
    rfl

namespace Build

variable {α β : Type} {s t : Construction}

/-- How work ends, and the state it leaves. -/
def outcome (m : Build α) (s : Construction) : Except Defect α × Construction := m.run s

theorem work_eq (session : Session) (c : Config) (m : Build α) :
    c.work session m = m.outcome { session, config := c } := rfl

@[simp] theorem outcome_pure (a : α) (s : Construction) :
    (pure a : Build α).outcome s = (.ok a, s) := rfl

@[simp] theorem outcome_throw (d : Defect) (s : Construction) :
    (throw d : Build α).outcome s = (.error d, s) := rfl

@[simp] theorem outcome_get (s : Construction) :
    (get : Build Construction).outcome s = (.ok s, s) := rfl

@[simp] theorem outcome_config (s : Construction) : config.outcome s = (.ok s.config, s) := rfl

@[simp] theorem outcome_modifyConfig (f : Config → Config) (s : Construction) :
    (modifyConfig f).outcome s = (.ok (), { s with config := f s.config }) := rfl

@[simp] theorem outcome_nameOf (id : PassId) (s : Construction) :
    (nameOf id).outcome s = (.ok (s.session.registry.name id), s) := rfl

@[simp] theorem outcome_note (e : Entry) (s : Construction) :
    (note e).outcome s = (.ok (), { s with journal := s.journal ++ [e] }) := rfl

theorem outcome_bind (m : Build α) (f : α → Build β) (s : Construction) :
    (m >>= f).outcome s =
      match m.outcome s with
      | (.ok a, t) => (f a).outcome t
      | (.error d, t) => (.error d, t) := by
  change (match m.outcome s with | (x, t) => (ExceptT.bindCont f x) t) = _
  rcases m.outcome s with ⟨_ | a, t⟩ <;> rfl

theorem discard_eq (m : Build α) : discard m = m >>= fun _ => pure () := rfl

theorem outcome_bind_ok {m : Build α} {f : α → Build β} {a : α} (h : m.outcome s = (.ok a, t)) :
    (m >>= f).outcome s = (f a).outcome t := by
  rw [outcome_bind, h]

theorem outcome_bind_error {m : Build α} {f : α → Build β} {d : Defect}
    (h : m.outcome s = (.error d, t)) : (m >>= f).outcome s = (.error d, t) := by
  rw [outcome_bind, h]

theorem bind_outcome_ok {m : Build α} {f : α → Build β} {b : β}
    (h : (m >>= f).outcome s = (.ok b, t)) :
    ∃ a u, m.outcome s = (.ok a, u) ∧ (f a).outcome u = (.ok b, t) := by
  rw [outcome_bind] at h
  rcases hm : m.outcome s with ⟨d | a, u⟩
  · simp [hm] at h
  · exact ⟨a, u, rfl, by simpa [hm] using h⟩

theorem bind_outcome_error {m : Build α} {f : α → Build β} {d : Defect}
    (h : (m >>= f).outcome s = (.error d, t)) :
    m.outcome s = (.error d, t) ∨
      ∃ a u, m.outcome s = (.ok a, u) ∧ (f a).outcome u = (.error d, t) := by
  rw [outcome_bind] at h
  rcases hm : m.outcome s with ⟨d' | a, u⟩
  · simp only [hm] at h
    cases h
    exact .inl rfl
  · exact .inr ⟨a, u, rfl, by simpa [hm] using h⟩

@[simp] theorem outcome_trace (text : String) (s : Construction) :
    (trace text).outcome s = (.ok (), s.traced text) := by
  unfold trace Construction.traced
  simp only [outcome_bind, outcome_get]
  split <;> simp

@[simp] theorem outcome_instantiate (id : PassId) (s : Construction) :
    (instantiate id).outcome s = ((s.session.registry.instantiate id).mapError .registry, s) := by
  unfold instantiate
  simp only [outcome_bind, outcome_get]
  cases s.session.registry.instantiate id <;> rfl

theorem outcome_requireMutable (change : Change) (s : Construction) :
    (requireMutable change).outcome s =
      if s.config.phase = .configuring then (.ok (), s) else (.error (.immutable change), s) := by
  unfold requireMutable
  simp only [outcome_bind, outcome_config]
  by_cases h : s.config.phase = .configuring <;> simp [h]

theorem outcome_substitute (standard target : PassId) (h : s.config.phase = .configuring) :
    (substitute standard target).outcome s =
      (.ok (), { s with
        config := { s.config with
          substitutions := (standard, target) :: s.config.substitutions } }) := by
  simp [substitute, outcome_bind, outcome_requireMutable, h]

theorem outcome_insert {anchor inserted : PassId} (h : s.config.phase = .configuring)
    (hi : inserted ≠ .none) (hne : anchor ≠ inserted) :
    (insert anchor inserted).outcome s =
      (.ok (), { s with
        config := { s.config with
          insertions := s.config.insertions ++ [⟨anchor, inserted⟩] } }) := by
  simp [insert, outcome_bind, outcome_requireMutable, h, hi, hne]

theorem outcome_assign (setting : Setting) (value : Bool) (h : s.config.phase = .configuring) :
    (assign setting value).outcome s =
      (.ok (), { s with config := s.config.withSetting value setting }) := by
  cases setting <;> exact outcome_bind_ok (by rw [outcome_requireMutable, if_pos h])

theorem outcome_insert_none (anchor : PassId) (h : s.config.phase = .configuring) :
    (insert anchor .none).outcome s =
      (.error (.nullInsertion (s.session.registry.name anchor)), s) := by
  simp [insert, outcome_bind, outcome_requireMutable, h]

theorem outcome_insert_self {id : PassId} (h : s.config.phase = .configuring) (hi : id ≠ .none) :
    (insert id id).outcome s = (.error (.selfInsertion (s.session.registry.name id)), s) := by
  simp [insert, outcome_bind, outcome_requireMutable, h, hi]

def placedText (w : Window) (p : Pass) : String :=
  if w.isOpen then "add " ++ p.name else "skip " ++ p.name ++ " (outside start/stop window)"

/-- The state behind a pass that was placed. -/
def placed (s : Construction) (p : Pass) : Construction :=
  if s.config.refusal.isSome then s
  else
    { s.traced (placedText s.config.window p) with
      config := s.config.withPlacement (s.config.placement.take s.session.registry p) }

theorem placed_config (s : Construction) (p : Pass) :
    (placed s p).config =
      s.config.withPlacement (s.config.placement.take s.session.registry p) := by
  unfold placed
  split
  · simp_all [Placement.take, Config.placement, Config.withPlacement]
  · rfl

@[simp] theorem placed_session (s : Construction) (p : Pass) :
    (placed s p).session = s.session := by
  unfold placed
  split <;> simp

@[simp] theorem placed_reports (s : Construction) (p : Pass) :
    Entry.reports (placed s p).journal = Entry.reports s.journal := by
  unfold placed
  split <;> simp

theorem outcome_handOver (p : Pass) (h : s.config.refusal = none) :
    (handOver p).outcome s = (.ok (), placed s p) := by
  unfold handOver placed placedText
  simp only [outcome_bind, outcome_config]
  cases ho : s.config.window.isOpen <;>
    cases hi : (s.config.window.advance p.id).isInverted <;>
    cases ht : s.session.tracing <;>
    simp [outcome_bind, h, ho, hi, ht, Construction.traced, Config.withPlacement,
      Config.placement, Placement.take]

theorem outcome_place (p : Pass) (h : s.config.phase = .building) :
    (place p).outcome s = (.ok (), placed s p) := by
  unfold place
  simp only [outcome_bind, outcome_config, h]
  cases hr : s.config.refusal with
  | none => simp [outcome_handOver p hr]
  | some r => simp [placed, hr]

theorem outcome_place_of_ne (p : Pass) (h : s.config.phase ≠ .building) :
    (place p).outcome s =
      (.error (if s.config.phase = .built then .immutable (.add p.name) else .outsideBuild p.name),
        s) := by
  unfold place
  simp only [outcome_bind, outcome_config]
  cases hp : s.config.phase with
  | configuring => rfl
  | building => exact absurd hp h
  | built => rfl

def announce : Build Unit := do
  let s ← get
  trace ("building pipeline (exceptions=" ++ s.config.target.exceptions.text ++ ", regalloc=" ++
    s.session.allocators.choice ++ ")")

@[simp] theorem outcome_announce (s : Construction) :
    announce.outcome s = (.ok (), s.traced ("building pipeline (exceptions=" ++
      s.config.target.exceptions.text ++ ", regalloc=" ++ s.session.allocators.choice ++ ")")) := by
  simp [announce, outcome_bind]

def runStages (call : Caller) : Build Unit := do
  announce
  discard (call { stage := .irPasses } none)
  discard (call { stage := .iselPrepare } none)
  if ← call { stage := .instSelector } none then trace "instruction selector added"
  discard (call { stage := .machinePasses } none)

theorem buildInto_eq (call : Caller) :
    buildInto call =
      requireMutable .build >>= fun _ =>
        modifyConfig (fun c => { c with phase := .building }) >>= fun _ =>
          runStages call >>= fun _ =>
            modifyConfig (fun c => { c with phase := .built }) >>= fun _ => do
              return (← config).refusal := by
  simp only [buildInto, runStages, announce, bind_assoc]
  refine bind_congr fun _ => bind_congr fun _ => bind_congr fun s => bind_congr fun _ =>
    bind_congr fun _ => bind_congr fun _ => bind_congr fun added => ?_
  split <;> simp only [bind_assoc]

theorem outcome_runStages_stagesMissing (s : Construction) :
    ∃ t, (runStages stagesMissing).outcome s = (.error .stagesMissing, t) := by
  rw [runStages, outcome_bind_ok (outcome_announce s)]
  exact ⟨_, outcome_bind_error rfl⟩

theorem outcome_buildInto_of_ne (call : Caller) (h : s.config.phase ≠ .configuring) :
    (buildInto call).outcome s = (.error (.immutable .build), s) := by
  rw [buildInto_eq]
  refine outcome_bind_error ?_
  rw [outcome_requireMutable, if_neg h]

theorem outcome_build_of_ne (call : Caller) (h : s.config.phase ≠ .configuring) :
    (build call).outcome s = (.error (.immutable .build), s) :=
  outcome_bind_error (outcome_buildInto_of_ne call h)

/-- A build that begins runs the stages. How they end decides all. -/
theorem outcome_buildInto (call : Caller) (h : s.config.phase = .configuring) :
    (buildInto call).outcome s =
      match (runStages call).outcome (s.inPhase .building) with
      | (.ok _, t) => (.ok t.config.refusal, t.inPhase .built)
      | (.error d, t) => (.error d, t) := by
  have hm : (modifyConfig fun c => { c with phase := .building }).outcome s =
      (.ok (), s.inPhase .building) := rfl
  rw [buildInto_eq, outcome_bind_ok (by rw [outcome_requireMutable, if_pos h]), outcome_bind_ok hm,
    outcome_bind]
  rcases (runStages call).outcome (s.inPhase .building) with ⟨_ | _, t⟩ <;> rfl

theorem buildInto_inv {call : Caller} {answer : Option Refusal}
    (h : (buildInto call).outcome s = (.ok answer, t)) :
    s.config.phase = .configuring ∧
      ∃ u, (runStages call).outcome (s.inPhase .building) = (.ok (), u) ∧
        answer = u.config.refusal ∧ t = u.inPhase .built := by
  by_cases hp : s.config.phase = .configuring
  · refine ⟨hp, ?_⟩
    rw [outcome_buildInto call hp] at h
    rcases hu : (runStages call).outcome (s.inPhase .building) with ⟨d | _, u⟩
    · simp [hu] at h
    · rw [hu] at h
      cases h
      exact ⟨u, rfl, rfl, rfl⟩
  · rw [outcome_buildInto_of_ne call hp] at h
    cases h

theorem outcome_build (call : Caller) (s : Construction) :
    (build call).outcome s =
      match (buildInto call).outcome s with
      | (.ok (some r), t) => (.ok (.error r), t)
      | (.ok none, t) =>
        match Order.broken? (t.config.handed.map Pass.id) with
        | some c =>
          (.error (.order (Standard.registry.name c.first) (Standard.registry.name c.second)), t)
        | none => (.ok (.ok t.config.handed), t)
      | (.error d, t) => (.error d, t) := by
  rw [build, outcome_bind]
  rcases (buildInto call).outcome s with ⟨d | (_ | r), t⟩
  · rfl
  · simp only [outcome_bind, outcome_config]
    cases Order.broken? (t.config.handed.map Pass.id) <;> rfl
  · rfl

end Build

end PassPipeline
