import PassPipeline.Proofs.Creation
import PassPipeline.Proofs.Pervasive

/-! The life of a configuration. It can be set only before its build begins, and passes are handed
over only while the build goes on, whatever is tried in between and however it fails. A history
tells what was done with a configuration, event by event: from outside and from inside stages, with
the failed attempts that a caller recovered from. -/
namespace PassPipeline

/-- All of a configuration that can be set before its build. -/
structure Settings where
  substitutions : List (PassId × PassId)
  insertions : List Insertion
  disableVerify : Bool
  enableTailMerge : Bool
  printMachineCode : Bool
  deriving DecidableEq

namespace Config

def settings (c : Config) : Settings where
  substitutions := c.substitutions
  insertions := c.insertions
  disableVerify := c.disableVerify
  enableTailMerge := c.enableTailMerge
  printMachineCode := c.printMachineCode

/-- What is done with a configuration, or happens to it. -/
inductive Event where
  | substitute (standard target : PassId)
  | insert (anchor inserted : PassId)
  | set (setting : Setting) (value : Bool)
  | request (id : PassId)
  | place (p : Pass)
  | printAndVerify (banner : String)
  /-- A build into a list is entered. -/
  | enter (before : List Pass)
  /-- The build returns. -/
  | leave
  /-- What is outside of the configuration changes. -/
  | elsewhere (session : Session) (journal : List Entry)

namespace Event

open Build in
def work : Event → Build Unit
  | .substitute standard target => Build.substitute standard target
  | .insert anchor inserted => Build.insert anchor inserted
  | .set setting value => assign setting value
  | .request id => discard (Build.request id)
  | .place p => Build.place p
  | .printAndVerify banner => Build.printAndVerify banner
  | .enter before => do
    requireMutable .build
    modifyConfig fun c => { c with phase := .building, handed := before }
  | .leave => modifyConfig fun c => { c with phase := .built }
  | .elsewhere session journal => modify fun s => { s with session, journal }

/-- The change that an event is an attempt at. -/
def change? (r : Registry) : Event → Option Change
  | .substitute standard _ => some (.substitute (r.name standard))
  | .insert _ inserted => some (.insert (r.name inserted))
  | .set .disableVerify _ => some .disableVerify
  | .set .enableTailMerge _ => some .enableTailMerge
  | .set .printMachineCode _ => some .printMachineCode
  | .enter _ => some .build
  | _ => none

/-- Whether an event is there to add passes. -/
def adds : Event → Bool
  | .request _ | .place _ | .printAndVerify _ => true
  | _ => false

/-- Whether nothing can be set behind an event. -/
def endsSetUp : Event → Bool
  | .enter _ | .leave => true
  | _ => false

end Event

end Config

namespace Construction

open Config (Event)

/-- The state in which passes go to another list. -/
def onto (s : Construction) (before : List Pass) : Construction :=
  { s with config := { s.config with handed := before } }

/-- The state that an event leaves, also if it fails. -/
def step (s : Construction) (e : Event) : Construction := (e.work.outcome s).2

/-- The state after a history. -/
def after (s : Construction) (events : List Event) : Construction := events.foldl step s

@[simp] theorem after_nil (s : Construction) : s.after [] = s := rfl

@[simp] theorem after_cons (s : Construction) (e : Event) (events : List Event) :
    s.after (e :: events) = (s.step e).after events := rfl

theorem after_append (s : Construction) (events later : List Event) :
    s.after (events ++ later) = (s.after events).after later :=
  List.foldl_append

end Construction

namespace Build

variable {α : Type} {s : Construction}

/-- Work that changes nothing of a configuration but what placing passes changes. -/
def Places (m : Build α) : Prop := ∀ s, ∃ k x, (m.outcome s).2.config = s.config.during k x

namespace Places

theorem of_config {m : Build α} (h : ∀ s, (m.outcome s).2.config = s.config) : Places m :=
  fun s => ⟨s.config.nesting, s.config.placement, h s⟩

theorem place (p : Pass) : Places (place p) := by
  intro s
  by_cases h : s.config.phase = .building
  · exact ⟨s.config.nesting, _, by rw [outcome_place p h, placed_config]; rfl⟩
  · exact ⟨s.config.nesting, s.config.placement, by rw [outcome_place_of_ne p h]; rfl⟩

theorem requesting : Requesting Places where
  pure a := .of_config fun _ => rfl
  bind {α β m f} hm hf := by
    intro s
    obtain ⟨k, x, hs⟩ := hm s
    rw [outcome_bind]
    rcases ho : m.outcome s with ⟨d | a, t⟩
    · exact ⟨k, x, by rw [ho] at hs; exact hs⟩
    · obtain ⟨k', x', ht⟩ := hf a t
      rw [ho] at hs
      exact ⟨k', x', ht.trans (by rw [hs]; rfl)⟩
  throw d := .of_config fun _ => rfl
  trace text := .of_config fun s => by simp
  nameOf id := .of_config fun _ => rfl
  instantiate id := .of_config fun s => by simp
  place := place
  resolve id := .of_config fun _ => rfl
  insertedAfter id := .of_config fun _ => rfl
  room := .of_config fun _ => rfl
  printing := .of_config fun _ => rfl
  enter s := ⟨s.config.nesting + 1, s.config.placement, rfl⟩
  leave s := ⟨s.config.nesting - 1, s.config.placement, rfl⟩

end Places

theorem outcome_enter (before : List Pass) (h : s.config.phase = .configuring) :
    (Config.Event.enter before).work.outcome s =
      (.ok (), { s with config := { s.config with phase := .building, handed := before } }) :=
  outcome_bind_ok (by rw [outcome_requireMutable, if_pos h])

/-- Once a build has begun, every change comes too late, and leaves everything as it was. -/
theorem outcome_change {e : Config.Event} {change : Change} (h : s.config.phase ≠ .configuring)
    (hc : e.change? s.session.registry = some change) :
    e.work.outcome s = (.error (.immutable change), s) := by
  have hm (c : Change) : (requireMutable c).outcome s = (.error (.immutable c), s) := by
    rw [outcome_requireMutable, if_neg h]
  cases e with
  | substitute standard target =>
    cases hc
    exact (outcome_bind_ok (outcome_nameOf standard s)).trans (outcome_bind_error (hm _))
  | insert anchor inserted =>
    cases hc
    exact (outcome_bind_ok (outcome_nameOf inserted s)).trans (outcome_bind_error (hm _))
  | set setting value =>
    cases setting <;> cases hc <;> exact outcome_bind_error (hm _)
  | enter before =>
    cases hc
    exact outcome_bind_error (hm _)
  | request | place | printAndVerify | leave | elsewhere => cases hc

end Build

theorem Construction.step_of_adds {s : Construction} {e : Config.Event}
    (h : s.config.phase ≠ .building) (he : e.adds) : (s.step e).config = s.config := by
  cases e with
  | request id =>
    have hr := Build.request_idle h id
    rw [step, Config.Event.work, Build.discard_eq, Build.outcome_bind]
    split <;> simp_all
  | place p => exact Build.place_idle h p
  | printAndVerify banner => exact Build.printAndVerify_idle h banner
  | substitute | insert | set | enter | leave | elsewhere => cases he

namespace Config

/-- How an event can change a configuration. -/
inductive Moves (c : Config) (e : Event) : Config → Prop
  | stays : Moves c e c
  /-- Before its build the configuration is set. -/
  | changes {d : Config} (hc : c.phase = .configuring) (hd : d.phase = .configuring)
    (hx : d.placement = c.placement) : Moves c e d
  /-- During its build passes are placed. -/
  | places (k : Nat) (x : Placement) (hc : c.phase = .building) : Moves c e (c.during k x)
  | enters (before : List Pass) (hc : c.phase = .configuring) (he : e = .enter before) :
    Moves c e { c with phase := .building, handed := before }
  | leaves (he : e = .leave) : Moves c e { c with phase := .built }

variable {s : Construction} {e : Event}

theorem moves_of_places (he : e.adds) (hw : Build.Places e.work) :
    s.config.Moves e (s.step e).config := by
  by_cases h : s.config.phase = .building
  · obtain ⟨k, x, hx⟩ := hw s
    rw [Construction.step, hx]
    exact .places k x h
  · rw [s.step_of_adds h he]
    exact .stays

theorem moves_of_change (he : (e.change? s.session.registry).isSome)
    (h : s.config.phase = .configuring → s.config.Moves e (s.step e).config) :
    s.config.Moves e (s.step e).config := by
  by_cases hp : s.config.phase = .configuring
  · exact h hp
  · obtain ⟨change, hc⟩ := Option.isSome_iff_exists.mp he
    rw [Construction.step, Build.outcome_change hp hc]
    exact .stays

/-- The step lemma of histories. -/
theorem moves_step (s : Construction) (e : Event) : s.config.Moves e (s.step e).config := by
  cases e with
  | substitute standard target =>
    refine moves_of_change rfl fun hp => ?_
    rw [Construction.step, Event.work, Build.outcome_substitute _ _ hp]
    exact .changes hp hp rfl
  | insert anchor inserted =>
    refine moves_of_change rfl fun hp => ?_
    by_cases hi : inserted = .none
    · rw [Construction.step, Event.work, hi, Build.outcome_insert_none anchor hp]
      exact .stays
    · by_cases ha : anchor = inserted
      · rw [Construction.step, Event.work, ha, Build.outcome_insert_self hp hi]
        exact .stays
      · rw [Construction.step, Event.work, Build.outcome_insert hp hi ha]
        exact .changes hp hp rfl
  | set setting value =>
    refine moves_of_change (by cases setting <;> rfl) fun hp => ?_
    rw [Construction.step, Event.work, Build.outcome_assign _ _ hp]
    cases setting <;> exact .changes hp hp rfl
  | request id =>
    exact moves_of_places rfl
      (Build.Places.requesting.discarded (Build.Places.requesting.request id))
  | place p => exact moves_of_places rfl (.place p)
  | printAndVerify banner =>
    exact moves_of_places rfl (Build.Places.requesting.printAndVerify banner)
  | enter before =>
    refine moves_of_change rfl fun hp => ?_
    rw [Construction.step, Build.outcome_enter before hp]
    exact .enters before hp rfl
  | leave => exact .leaves rfl
  | elsewhere session journal => exact .stays

end Config

namespace Construction

open Config (Event Moves)

variable {s : Construction} {e : Event} {events : List Event}

/-! What one event keeps, and so every history. -/

theorem step_begun (h : s.config.phase ≠ .configuring) :
    (s.step e).config.phase ≠ .configuring ∧ (s.step e).config.settings = s.config.settings := by
  have hm := Config.moves_step s e
  generalize (s.step e).config = d at hm
  cases hm with
  | stays => exact ⟨h, rfl⟩
  | changes hc => exact absurd hc h
  | places k x hc => exact ⟨h, rfl⟩
  | enters before hc => exact absurd hc h
  | leaves => exact ⟨by simp, rfl⟩

theorem after_begun (h : s.config.phase ≠ .configuring) (events : List Event) :
    (s.after events).config.phase ≠ .configuring ∧
      (s.after events).config.settings = s.config.settings := by
  induction events generalizing s with
  | nil => exact ⟨h, rfl⟩
  | cons e events ih =>
    obtain ⟨hp, hs⟩ := step_begun (e := e) h
    obtain ⟨hp', hs'⟩ := ih hp
    exact ⟨hp', hs'.trans hs⟩

theorem step_built (h : s.config.phase = .built) :
    (s.step e).config.phase = .built ∧ (s.step e).config.handed = s.config.handed := by
  have hm := Config.moves_step s e
  generalize (s.step e).config = d at hm
  cases hm with
  | stays => exact ⟨h, rfl⟩
  | changes hc => cases h.symm.trans hc
  | places k x hc => cases h.symm.trans hc
  | enters before hc => cases h.symm.trans hc
  | leaves => exact ⟨rfl, rfl⟩

theorem after_built (h : s.config.phase = .built) (events : List Event) :
    (s.after events).config.phase = .built ∧
      (s.after events).config.handed = s.config.handed := by
  induction events generalizing s with
  | nil => exact ⟨h, rfl⟩
  | cons e events ih =>
    obtain ⟨hp, hh⟩ := step_built (e := e) h
    obtain ⟨hp', hh'⟩ := ih hp
    exact ⟨hp', hh'.trans hh⟩

theorem step_idle (h : s.config.phase ≠ .building) (he : ∀ before, e ≠ .enter before) :
    (s.step e).config.phase ≠ .building := by
  have hm := Config.moves_step s e
  generalize (s.step e).config = d at hm
  cases hm with
  | stays => exact h
  | changes _ hd => simp [hd]
  | places k x hc => exact absurd hc h
  | enters before _ hb => exact absurd hb (he before)
  | leaves => simp

theorem after_idle (h : s.config.phase ≠ .building) (he : ∀ before, Event.enter before ∉ events) :
    (s.after events).config.phase ≠ .building := by
  induction events generalizing s with
  | nil => exact h
  | cons e events ih =>
    refine ih (step_idle h fun before hb => he before ?_) fun before hb => he before ?_
    · simp [hb]
    · exact List.mem_cons_of_mem e hb

theorem begun_of_enter {before : List Pass} (h : .enter before ∈ events) :
    (s.after events).config.phase ≠ .configuring := by
  obtain ⟨earlier, later, rfl⟩ := List.append_of_mem h
  rw [after_append, after_cons]
  refine (after_begun ?_ later).1
  by_cases hp : (s.after earlier).config.phase = .configuring
  · rw [step, Build.outcome_enter before hp]
    simp
  · exact (step_begun hp).1

theorem built_of_leave (h : .leave ∈ events) : (s.after events).config.phase = .built := by
  obtain ⟨earlier, later, rfl⟩ := List.append_of_mem h
  rw [after_append, after_cons]
  exact (after_built rfl later).1

theorem configuring_of_unentered (h : s.config.phase = .configuring)
    (he : ∀ before, Event.enter before ∉ events) (hl : Event.leave ∉ events) :
    (s.after events).config.phase = .configuring := by
  induction events generalizing s with
  | nil => exact h
  | cons e events ih =>
    refine ih ?_ (fun before hb => he before (List.mem_cons_of_mem e hb))
      fun hb => hl (List.mem_cons_of_mem e hb)
    have hm := Config.moves_step s e
    generalize (s.step e).config = d at hm
    cases hm with
    | stays => exact h
    | changes _ hd => exact hd
    | places k x hc => exact h
    | enters before _ hb => exact absurd (by simp [hb]) (he before)
    | leaves hb => exact absurd (by simp [hb]) hl

/-- A configuration that is still being configured holds what it held: no build came in between. -/
theorem placement_of_configuring (h : (s.after events).config.phase = .configuring) :
    (s.after events).config.placement = s.config.placement := by
  induction events generalizing s with
  | nil => rfl
  | cons e events ih =>
    have hstep : (s.step e).config.phase = .configuring :=
      Decidable.byContradiction fun hp => (after_begun hp events).1 h
    have hs : s.config.phase = .configuring :=
      Decidable.byContradiction fun hp => (step_begun hp).1 hstep
    refine (ih h).trans ?_
    have hm := Config.moves_step s e
    generalize (s.step e).config = d at hm hstep
    cases hm with
    | stays => rfl
    | changes _ _ hx => exact hx
    | places k x hc => cases hs.symm.trans hc
    | enters => cases hstep
    | leaves => cases hstep

end Construction

namespace Build

open Config (Event)

variable {α : Type} {s : Construction}

/-- A property of work that goes by what happens to the configuration is a property of scripts. -/
theorem Scripted.of_events {P : {α : Type} → Build α → Prop}
    (config : ∀ {α : Type} {m : Build α}, (∀ s, (m.outcome s).2.config = s.config) → P m)
    (bind : ∀ {α β : Type} {m : Build α} {f : α → Build β}, P m → (∀ a, P (f a)) → P (m >>= f))
    (event : ∀ {α : Type} {m : Build α} (e : Event), e.endsSetUp = false →
      (∀ s, (m.outcome s).2 = (e.work.outcome s).2) → P m) :
    Scripted {} (fun _ => True) P where
  pure a := config fun _ => rfl
  bind := bind
  throw d := config fun _ => rfl
  target hk := bind (config fun _ => rfl) fun c => hk c.target trivial
  trace text := config fun s => by simp
  announce := config fun s => by simp
  note e := config fun _ => rfl
  holds _ := config fun _ => rfl
  shown hq := by cases hq
  request id := event (.request id) rfl fun s => by
    rw [Event.work, discard_eq, outcome_bind]
    split <;> simp_all
  place {supply} _ := bind (config (take_config supply)) fun p => event (.place p) rfl fun _ => rfl
  print _ := bind (config fun _ => rfl) fun p => event (.place _) rfl fun _ => rfl
  printAndVerify {banner} _ := event (.printAndVerify banner) rfl fun _ => rfl
  substitute {standard target} _ := event (.substitute standard target) rfl fun _ => rfl
  insert {anchor inserted} _ := event (.insert anchor inserted) rfl fun _ => rfl
  assign {setting value} _ := event (.set setting value) rfl fun _ => rfl
  allocatorPass optimized := config (allocatorPass_config optimized)
  placeHanded
    | some p => event (.place p) rfl fun _ => rfl
    | none => config placeHanded_none_config

/-- Work that leaves its state as some history does. -/
def Told (m : Build α) : Prop := ∀ s, ∃ events, (m.outcome s).2 = s.after events

namespace Told

theorem of_event {m : Build α} (e : Event) (h : ∀ s, (m.outcome s).2 = (e.work.outcome s).2) :
    Told m := fun s => ⟨[e], h s⟩

theorem of_config {m : Build α} (h : ∀ s, (m.outcome s).2.config = s.config) : Told m := by
  intro s
  refine ⟨[.elsewhere (m.outcome s).2.session (m.outcome s).2.journal], ?_⟩
  change _ = { s with session := (m.outcome s).2.session, journal := (m.outcome s).2.journal }
  rw [← h s]

theorem bind {β : Type} {m : Build α} {f : α → Build β} (hm : Told m) (hf : ∀ a, Told (f a)) :
    Told (m >>= f) := by
  intro s
  obtain ⟨events, hs⟩ := hm s
  rw [outcome_bind]
  rcases ho : m.outcome s with ⟨d | a, t⟩
  · exact ⟨events, by rw [ho] at hs; exact hs⟩
  · obtain ⟨later, ht⟩ := hf a t
    rw [ho] at hs
    exact ⟨events ++ later, ht.trans (by rw [Construction.after_append, ← hs])⟩

theorem scripted : Scripted {} (fun _ => True) Told :=
  .of_events of_config bind fun e _ h => of_event e h

/-- A build into a list enters, runs the stages, and leaves if it returns. -/
theorem buildInto {call : Caller} (hc : ∀ c p, Told (call c p)) (h : s.config.phase = .configuring)
    (before : List Pass) :
    ∃ inside, ((buildInto call).outcome (s.onto before)).2 =
      s.after (.enter before :: inside ++
        if ((Build.buildInto call).outcome (s.onto before)).1.isOk then [.leave] else []) := by
  have henter : s.step (.enter before) = (s.onto before).inPhase .building :=
    congrArg Prod.snd (outcome_enter before h)
  obtain ⟨inside, hi⟩ := scripted.runStages hc ((s.onto before).inPhase .building)
  refine ⟨inside, ?_⟩
  rw [outcome_buildInto (s := s.onto before) call h, List.cons_append, Construction.after_cons,
    henter, Construction.after_append, ← hi]
  rcases (runStages call).outcome ((s.onto before).inPhase .building) with ⟨d | _, t⟩
  · rfl
  · rfl

theorem build_eq_buildInto (call : Caller) (s : Construction) :
    ((build call).outcome s).2 = ((Build.buildInto call).outcome s).2 := by
  rw [outcome_build]
  rcases (Build.buildInto call).outcome s with ⟨d | _ | r, t⟩
  · rfl
  · dsimp only
    split <;> rfl
  · rfl

theorem build {call : Caller} (hc : ∀ c p, Told (call c p)) : Told (build call) := by
  intro s
  rw [build_eq_buildInto]
  by_cases h : s.config.phase = .configuring
  · obtain ⟨inside, hi⟩ := buildInto hc h s.config.handed
    exact ⟨_, hi⟩
  · exact ⟨[], by rw [outcome_buildInto_of_ne call h]; rfl⟩

theorem stages (c : StageCall) (p : Option Pass) : Told (stages c p) :=
  scripted.callStage (fun t _ c => (t.called c).within_all) (fun _ hc => build hc) depthLimit c p

theorem exec (frame : Frame) (script : Script) : Told (exec Build.stages frame script) :=
  scripted.exec stages frame (build stages) script.within_all

theorem configure (script : Script) : Told (discard (Build.exec stagesMissing {} script)) := by
  have hc (c : StageCall) (p : Option Pass) : Told (stagesMissing c p) := scripted.throw _
  exact scripted.discarded (scripted.exec hc {} (build hc) script.within_all)

end Told

end Build

theorem Config.handed_of_create {session : Session} {target : Target} {level : Level}
    {options : Options} {sink : Sink} {c : Config} {entries : List Entry}
    (h : create session target level options sink = (.ok c, entries))
    (hp : c.phase = .configuring) : c.handed = [] := by
  obtain ⟨start, stop, print, s, -, -, -, -, hu, rfl, -⟩ := create_prepared_inv h
  obtain ⟨events, ht⟩ := Build.Told.configure target.configure
    { session, config := .prepared target level options sink _ print }
  rw [hu] at ht
  change s = _ at ht
  rw [ht] at hp ⊢
  exact congrArg Placement.handed (Construction.placement_of_configuring hp)

namespace Construction

open Config (Event)

/-- The life of a configuration, through any history that began before its build. Scripts, and
builds from inside their stages, are such histories. -/
theorem immutability {s : Construction} (h : s.config.phase = .configuring) (events : List Event) :
    ((∃ before, .enter before ∈ events) →
      (∀ later, ((s.after events).after later).config.settings = (s.after events).config.settings) ∧
      (∀ (e : Event) (change : Change), e.change? (s.after events).session.registry = some change →
        e.work.outcome (s.after events) = (.error (.immutable change), s.after events)) ∧
      ∀ call before,
        (Build.buildInto call).outcome ((s.after events).onto before) =
          (.error (.immutable .build), (s.after events).onto before) ∧
        (Build.build call).outcome (s.after events) =
          (.error (.immutable .build), s.after events)) ∧
    (.leave ∈ events → ∀ later,
      ((s.after events).after later).config.handed = (s.after events).config.handed) ∧
    ((∀ before, .enter before ∉ events) → ∀ e : Event, e.adds →
      ((s.after events).step e).config = (s.after events).config) ∧
    (∀ frame script, ∃ later,
      ((Build.exec Build.stages frame script).outcome (s.after events)).2 =
        (s.after events).after later) ∧
    ((∀ before, .enter before ∉ events) → .leave ∉ events → ∀ before, ∃ inside,
      ((Build.buildInto Build.stages).outcome ((s.after events).onto before)).2 =
        (s.after events).after (.enter before :: inside ++
          if ((Build.buildInto Build.stages).outcome ((s.after events).onto before)).1.isOk
          then [.leave] else [])) := by
  refine ⟨?_, ?_, ?_, ?_, ?_⟩
  · rintro ⟨before, he⟩
    have hbegun : (s.after events).config.phase ≠ .configuring := begun_of_enter he
    exact ⟨fun later => (after_begun hbegun later).2, fun e change => Build.outcome_change hbegun,
      fun call list => ⟨Build.outcome_buildInto_of_ne call hbegun,
        Build.outcome_build_of_ne call hbegun⟩⟩
  · intro hl later
    exact (after_built (built_of_leave hl) later).2
  · intro he e ha
    have hidle : (s.after events).config.phase ≠ .building := after_idle (by simp [h]) he
    exact step_of_adds hidle ha
  · intro frame script
    exact Build.Told.exec frame script (s.after events)
  · intro he hl before
    exact Build.Told.buildInto Build.Told.stages (configuring_of_unentered h he hl) before

/-- A pass that is asked for too early, one that is inserted in time,
and one that comes too late. -/
def eventful : List Event :=
  [.request Standard.stackProtector,
    .insert Standard.typeBasedAliasAnalysis Standard.x86VZeroUpper,
    .enter [],
    .request Standard.typeBasedAliasAnalysis,
    .insert Standard.typeBasedAliasAnalysis Standard.stackProtector,
    .leave]

/-- Only what was asked for in between gets into the list, with what was inserted in time, and
nothing can be changed about it. -/
theorem immutability_eventful :
    let s : Construction :=
      { session := .standard
        config := .fresh (X86.target "x86") ⟨2⟩ {} .collected (.ofBounds .none .none) }
    (s.after eventful).config.handed.map Pass.name = ["tbaa", "x86-vzeroupper"] ∧
      (s.after eventful).config.insertions =
        [⟨Standard.typeBasedAliasAnalysis, Standard.x86VZeroUpper⟩] ∧
      (∀ later, ((s.after eventful).after later).config.handed = (s.after eventful).config.handed ∧
        ((s.after eventful).after later).config.settings = (s.after eventful).config.settings) ∧
      (s.step (.request Standard.stackProtector)).config = s.config := by
  intro s
  have hs : s.config.phase = .configuring := rfl
  obtain ⟨hbegun, hover, -⟩ := immutability hs eventful
  obtain ⟨-, -, hidle, -⟩ := immutability hs []
  have hentered : ∃ before, .enter before ∈ eventful := ⟨[], by simp [eventful]⟩
  have hleft : .leave ∈ eventful := by simp [eventful]
  exact ⟨by decide +kernel, by decide +kernel, fun later =>
    ⟨hover hleft later, (hbegun hentered).1 later⟩, hidle (by simp) _ rfl⟩

end Construction

end PassPipeline
