import PassPipeline.Proofs.Outcome
import PassPipeline.Target.Platform

/-! What becomes of a request for a configuration: the names of passes are looked up first,
then the configuration is set up and handed to the target. For the targets that come with the
library this can be said in full. -/
namespace PassPipeline

/-- A session over the standard kinds and allocators in which nothing was chosen yet. -/
def Session.standard : Session where
  registry := Standard.registry
  allocators := { registry := .standard, choice := Allocator.defaultName }

/-- A name that an option gives and that no kind has. -/
def Registry.Unknown (r : Registry) (name : String) : Prop := name ≠ "" ∧ r.lookup? name = none

instance (r : Registry) (name : String) : Decidable (r.Unknown name) :=
  inferInstanceAs (Decidable (_ ∧ _))

/-- The pass that an option names. -/
def Options.named (o : Options) : PassOption → String
  | .startAfter => o.startAfter
  | .stopAfter => o.stopAfter
  | .printAfter => o.printAfter

namespace Registry

variable {r : Registry} {name : String} {id : PassId} {k : Kind}

/-- A name leads to the kind that has it, and only to that. -/
theorem lookup?_eq_some_iff : r.lookup? name = some id ↔ ∃ k, r.kind? id = some k ∧ k.name = name :=
  r.sound.inverse name id

theorem kind?_isSome_iff : (r.kind? id).isSome ↔ 0 < id.number ∧ id.number < r.next :=
  r.sound.numbers id

theorem ne_none_of_kind? (h : r.kind? id = some k) : id ≠ .none := by
  have hpos := (kind?_isSome_iff.mp (Option.isSome_of_eq_some h)).1
  rintro rfl
  exact absurd hpos (by decide)

theorem lookup?_ne_none (h : r.lookup? name = some id) : id ≠ .none := by
  obtain ⟨k, hk, -⟩ := lookup?_eq_some_iff.mp h
  exact ne_none_of_kind? hk

theorem name_of_lookup? (h : r.lookup? name = some id) : r.name id = name := by
  obtain ⟨k, hk, rfl⟩ := lookup?_eq_some_iff.mp h
  simp [Registry.name, ne_none_of_kind? hk, hk]

end Registry

namespace Config

variable {r : Registry} {option : PassOption} {name : String} {start stop print : Option PassId}
  {session : Session} {target : Target} {level : Level} {options : Options} {sink : Sink}

@[simp] theorem boundary_empty (r : Registry) (option : PassOption) :
    boundary r option "" = .ok none := rfl

theorem boundary_of_unknown (h : r.Unknown name) :
    boundary r option name = .error (.unknownPass option name) := by
  simp [boundary, h.1, h.2]

theorem boundary_of_known (option : PassOption) (h : ¬ r.Unknown name) :
    ∃ id, boundary r option name = .ok id := by
  by_cases he : name = ""
  · exact ⟨none, by simp [boundary, he]⟩
  · obtain ⟨id, hid⟩ := Option.ne_none_iff_exists'.mp fun hn => h ⟨he, hn⟩
    exact ⟨some id, by simp [boundary, he, hid]⟩

theorem lookup?_of_boundary {id : PassId} (h : boundary r option name = .ok (some id)) :
    r.lookup? name = some id := by
  by_cases he : name = ""
  · simp [boundary, he] at h
  · cases hl : r.lookup? name with
    | none => simp [boundary, he, hl] at h
    | some id' => simpa [boundary, he, hl] using h

theorem boundary_ne_none (h : boundary r option name = .ok start) : ∀ id ∈ start, id ≠ .none := by
  rintro id rfl
  exact Registry.lookup?_ne_none (lookup?_of_boundary h)

theorem boundaries_of_known (hk : ∀ option, ¬ r.Unknown (options.named option)) :
    ∃ start stop print, boundary r .startAfter options.startAfter = .ok start ∧
      boundary r .stopAfter options.stopAfter = .ok stop ∧
      boundary r .printAfter options.printAfter = .ok print := by
  obtain ⟨start, hs⟩ := boundary_of_known .startAfter (hk .startAfter)
  obtain ⟨stop, ht⟩ := boundary_of_known .stopAfter (hk .stopAfter)
  obtain ⟨print, hp⟩ := boundary_of_known .printAfter (hk .printAfter)
  exact ⟨start, stop, print, hs, ht, hp⟩

/-- Where all names are known, how the configuration is set up decides. -/
theorem create_of_boundaries
    (hs : boundary session.registry .startAfter options.startAfter = .ok start)
    (ht : boundary session.registry .stopAfter options.stopAfter = .ok stop)
    (hp : boundary session.registry .printAfter options.printAfter = .ok print) :
    create session target level options sink =
      match (Build.setUp print target).outcome
        { session
          config := fresh target level options sink
            (.ofBounds (start.getD .none) (stop.getD .none)) } with
      | (.ok _, s) => (.ok s.config, s.journal)
      | (.error d, s) => (.error (.broken d), s.journal) := by
  simp only [create, hs, ht, hp]
  rfl

/-! Names are looked up in a fixed order, and the first that is not known counts. -/

theorem create_of_unknown_startAfter (h : session.registry.Unknown options.startAfter) :
    create session target level options sink =
      (.error (.refused (.unknownPass .startAfter options.startAfter)), []) := by
  simp only [create, boundary_of_unknown h]
  rfl

theorem create_of_unknown_stopAfter (hs : ¬ session.registry.Unknown options.startAfter)
    (h : session.registry.Unknown options.stopAfter) :
    create session target level options sink =
      (.error (.refused (.unknownPass .stopAfter options.stopAfter)), []) := by
  obtain ⟨start, hs⟩ := boundary_of_known .startAfter hs
  simp only [create, hs, boundary_of_unknown h]
  rfl

theorem create_of_unknown (target : Target) (level : Level) (sink : Sink)
    (h : ∃ option, session.registry.Unknown (options.named option)) :
    ∃ option name, create session target level options sink =
      (.error (.refused (.unknownPass option name)), []) := by
  by_cases hs : session.registry.Unknown options.startAfter
  · exact ⟨_, _, create_of_unknown_startAfter hs⟩
  · by_cases ht : session.registry.Unknown options.stopAfter
    · exact ⟨_, _, create_of_unknown_stopAfter hs ht⟩
    · obtain ⟨start, hs'⟩ := boundary_of_known .startAfter hs
      obtain ⟨stop, ht'⟩ := boundary_of_known .stopAfter ht
      have hp : session.registry.Unknown options.printAfter := by
        obtain ⟨_ | _ | _, h⟩ := h
        · exact absurd h hs
        · exact absurd h ht
        · exact h
      refine ⟨.printAfter, options.printAfter, ?_⟩
      simp only [create, hs', ht', boundary_of_unknown hp]
      rfl

theorem create_inv {c : Config} {entries : List Entry}
    (h : create session target level options sink = (.ok c, entries)) :
    ∃ start stop print s,
      boundary session.registry .startAfter options.startAfter = .ok start ∧
      boundary session.registry .stopAfter options.stopAfter = .ok stop ∧
      boundary session.registry .printAfter options.printAfter = .ok print ∧
      (Build.setUp print target).outcome
        { session
          config := fresh target level options sink
            (.ofBounds (start.getD .none) (stop.getD .none)) } = (.ok (), s) ∧
      c = s.config ∧ entries = s.journal := by
  have hk (option : PassOption) : ¬ session.registry.Unknown (options.named option) := by
    intro hu
    obtain ⟨option', name, he⟩ := create_of_unknown target level sink ⟨option, hu⟩
    simp [h] at he
  obtain ⟨start, stop, print, hs, ht, hp⟩ := boundaries_of_known hk
  rw [create_of_boundaries hs ht hp] at h
  rcases hu : (Build.setUp print target).outcome
    { session,
      config := fresh target level options sink (.ofBounds (start.getD .none) (stop.getD .none)) }
    with ⟨d | _, s⟩
  · simp [hu] at h
  · rw [hu] at h
    cases h
    exact ⟨start, stop, print, s, hs, ht, hp, hu, rfl, rfl⟩

/-- A configuration is refused only for a name, and before anything else is done. -/
theorem create_refused_inv {refusal : Refusal} {entries : List Entry}
    (h : create session target level options sink = (.error (.refused refusal), entries)) :
    (∃ option name, refusal = .unknownPass option name) ∧ entries = [] := by
  by_cases hu : ∃ option, session.registry.Unknown (options.named option)
  · obtain ⟨option, name, he⟩ := create_of_unknown target level sink hu
    cases h.symm.trans he
    exact ⟨⟨option, name, rfl⟩, rfl⟩
  · obtain ⟨start, stop, print, hs, ht, hp⟩ := boundaries_of_known (not_exists.mp hu)
    rw [create_of_boundaries hs ht hp] at h
    split at h <;> cases h

end Config

/-- The targets that come with the library, under any name and with any features. -/
inductive Target.Bundled : Target → Prop
  | x86 (name : String) : Bundled (X86.target name)
  | aarch64 (name : String) (f : AArch64.Features) : Bundled (AArch64.target name f)

theorem Platform.bundled (p : Platform) : p.target.Bundled := by
  cases p with
  | aarch64Darwin => exact .aarch64 _ _
  | aarch64Linux => exact .aarch64 _ _
  | x86Linux => exact .x86 _

namespace Config

/-- What stands in for a kind in every fresh configuration. -/
def initialSubstitutions : List (PassId × PassId) :=
  [(Standard.machineScheduler, .none), (Standard.earlyIfConverter, .none),
    (Standard.postRAMachineLICM, Standard.machineLICM),
    (Standard.earlyTailDuplicate, Standard.tailDuplicate)]

/-- A fresh configuration as the target gets it. -/
def prepared (target : Target) (level : Level) (options : Options) (sink : Sink) (window : Window)
    (print : Option PassId) : Config :=
  { fresh target level options sink window with
    substitutions := initialSubstitutions
    insertions := print.toList.map (⟨·, Standard.machinePrinter⟩) }

end Config

namespace Build

variable (session : Session) (target : Target) (level : Level) (options : Options) (sink : Sink)
  (window : Window)

/-- A set-up is the standard substitutions, the printer that was asked for, and then the target. -/
theorem outcome_setUp {print : Option PassId} (hp : print ≠ some Standard.machinePrinter) :
    (setUp print target).outcome
        { session, config := .fresh target level options sink window } =
      (discard (exec stagesMissing {} target.configure)).outcome
        { session, config := .prepared target level options sink window print } := by
  rw [setUp, outcome_bind_ok (outcome_substitute _ _ rfl),
    outcome_bind_ok (outcome_substitute _ _ rfl), outcome_bind_ok (outcome_substitute _ _ rfl),
    outcome_bind_ok (outcome_substitute _ _ rfl)]
  cases print with
  | none => rfl
  | some id =>
    have hne : id ≠ Standard.machinePrinter := fun he => hp (congrArg some he)
    rw [outcome_bind_ok (outcome_insert rfl (by decide) hne)]
    rfl

theorem outcome_setUp_printer : ∃ s,
    (setUp (some Standard.machinePrinter) target).outcome
        { session, config := .fresh target level options sink window } =
      (.error (.selfInsertion (session.registry.name Standard.machinePrinter)), s) := by
  rw [setUp, outcome_bind_ok (outcome_substitute _ _ rfl),
    outcome_bind_ok (outcome_substitute _ _ rfl), outcome_bind_ok (outcome_substitute _ _ rfl),
    outcome_bind_ok (outcome_substitute _ _ rfl)]
  exact ⟨_, outcome_bind_error (outcome_insert_self rfl (by decide))⟩

theorem outcome_configure_x86 {name : String} {s : Construction}
    (h : s.config.phase = .configuring) :
    (discard (exec stagesMissing {} (X86.target name).configure)).outcome s =
      (.ok (), { s with
        config := { s.config with
          insertions :=
            s.config.insertions ++
              [⟨Standard.expandPostRAPseudos, Standard.x86VZeroUpper⟩] } }) := by
  rw [discard_eq]
  refine outcome_bind_ok (a := false) (outcome_bind_ok (a := ()) ?_)
  exact outcome_insert h (by decide) (by decide)

theorem outcome_configure_aarch64 {name : String} {f : AArch64.Features} {s : Construction}
    (h : s.config.phase = .configuring) :
    (discard (exec stagesMissing {} (AArch64.target name f).configure)).outcome s =
      (.ok (), { s with
        config := { s.config with
          substitutions :=
            (Standard.earlyIfConverter, Standard.earlyIfConverter) :: s.config.substitutions
          enableTailMerge := if f.noTailMerge then false else s.config.enableTailMerge } }) := by
  have hs := outcome_substitute Standard.earlyIfConverter Standard.earlyIfConverter h
  cases hm : f.noTailMerge <;>
    simp [AArch64.target, AArch64.configure, Script.block, exec, perform, assign, discard_eq,
      outcome_bind, hs, hm, outcome_requireMutable, h]

/-- What a bundled target makes of a configuration has nothing to do with the
session, and places nothing. -/
theorem outcome_configure_bundled {target : Target} (ht : target.Bundled) :
    ∃ equip : Config → Config,
    (∀ s : Construction, s.config.phase = .configuring →
      (discard (exec stagesMissing {} target.configure)).outcome s =
        (.ok (), { s with config := equip s.config })) ∧
    ∀ c, (equip c).placement = c.placement := by
  cases ht with
  | x86 name =>
    refine ⟨fun c => { c with
      insertions := c.insertions ++ [⟨Standard.expandPostRAPseudos, Standard.x86VZeroUpper⟩] }, ?_⟩
    exact ⟨fun _ h => outcome_configure_x86 h, fun _ => rfl⟩
  | aarch64 name f =>
    refine ⟨fun c => { c with
      substitutions := (Standard.earlyIfConverter, Standard.earlyIfConverter) :: c.substitutions
      enableTailMerge := if f.noTailMerge then false else c.enableTailMerge }, ?_⟩
    exact ⟨fun _ h => outcome_configure_aarch64 h, fun _ => rfl⟩

end Build

namespace Config

variable {session : Session} {target : Target} {options : Options}

/-- What a bundled target substitutes, with the substitutions of every
configuration, and what it inserts. -/
inductive Outfit : Target → List (PassId × PassId) → List Insertion → Prop
  | x86 (name : String) :
    Outfit (X86.target name) initialSubstitutions
      [⟨Standard.expandPostRAPseudos, Standard.x86VZeroUpper⟩]
  | aarch64 (name : String) (f : AArch64.Features) :
    Outfit (AArch64.target name f)
      ((Standard.earlyIfConverter, Standard.earlyIfConverter) :: initialSubstitutions) []

/-- A configuration of a bundled target before its build. -/
structure Outfitted (target : Target) (level : Level) (options : Options) (c : Config) : Prop where
  target_eq : c.target = target
  level_eq : c.level = level
  options_eq : c.options = options
  phase : c.phase = .configuring
  nesting : c.nesting = 0
  refusal : c.refusal = none
  handed : c.handed = []
  outfit : ∃ print more, print ≠ some Standard.machinePrinter ∧ Outfit target c.substitutions more ∧
    c.insertions = print.toList.map (⟨·, Standard.machinePrinter⟩) ++ more

theorem create_prepared_inv {level : Level} {sink : Sink} {c : Config} {entries : List Entry}
    (h : create session target level options sink = (.ok c, entries)) :
    ∃ start stop print s,
      boundary session.registry .startAfter options.startAfter = .ok start ∧
      boundary session.registry .stopAfter options.stopAfter = .ok stop ∧
      boundary session.registry .printAfter options.printAfter = .ok print ∧
      print ≠ some Standard.machinePrinter ∧
      (discard (Build.exec Build.stagesMissing {} target.configure)).outcome
        { session
          config := .prepared target level options sink
            (.ofBounds (start.getD .none) (stop.getD .none)) print } = (.ok (), s) ∧
      c = s.config ∧ entries = s.journal := by
  obtain ⟨start, stop, print, s, hs, ht, hp, hu, hc, he⟩ := create_inv h
  have hprint : print ≠ some Standard.machinePrinter := by
    rintro rfl
    obtain ⟨s', hu'⟩ := Build.outcome_setUp_printer session target level options sink
      (.ofBounds (start.getD .none) (stop.getD .none))
    cases hu.symm.trans hu'
  rw [Build.outcome_setUp _ _ _ _ _ _ hprint] at hu
  exact ⟨start, stop, print, s, hs, ht, hp, hprint, hu, hc, he⟩

theorem outfitted_of_create {level : Level} {sink : Sink} {c : Config} {entries : List Entry}
    (ht : target.Bundled) (h : create session target level options sink = (.ok c, entries)) :
    Outfitted target level options c := by
  obtain ⟨start, stop, print, s, -, -, -, hprint, hu, rfl, -⟩ := create_prepared_inv h
  cases ht with
  | x86 name =>
    rw [Build.outcome_configure_x86 rfl] at hu
    cases hu
    exact ⟨rfl, rfl, rfl, rfl, rfl, rfl, rfl, print, _, hprint, .x86 name, rfl⟩
  | aarch64 name f =>
    rw [Build.outcome_configure_aarch64 rfl] at hu
    cases hu
    exact ⟨rfl, rfl, rfl, rfl, rfl, rfl, rfl, print, [], hprint, .aarch64 name f,
      (List.append_nil _).symm⟩

theorem sink_of_create {level : Level} {sink : Sink} {c : Config} {entries : List Entry}
    (ht : target.Bundled) (h : create session target level options sink = (.ok c, entries)) :
    c.sink = sink := by
  obtain ⟨start, stop, print, s, -, -, -, -, hu, rfl, -⟩ := create_prepared_inv h
  cases ht with
  | x86 name =>
    rw [Build.outcome_configure_x86 rfl] at hu
    cases hu
    rfl
  | aarch64 name f =>
    rw [Build.outcome_configure_aarch64 rfl] at hu
    cases hu
    rfl

/-- With the standard kinds, only the name of the printer asks for it. -/
theorem boundary_eq_printer {r : Registry} {option : PassOption} {name : String}
    {id : Option PassId} (hr : r = Standard.registry) (h : boundary r option name = .ok id) :
    id = some Standard.machinePrinter ↔ name = Subject.machineCode.name := by
  subst hr
  constructor
  · rintro rfl
    have hl := lookup?_of_boundary h
    rw [← Registry.name_of_lookup? hl]
    rfl
  · rintro rfl
    have hb : boundary Standard.registry option Subject.machineCode.name =
      .ok (some Standard.machinePrinter) := rfl
    rw [hb] at h
    cases h
    rfl

/-- A printer behind the printer is a defect, though it is the user who asks for it. -/
theorem create_of_printer (hr : session.registry = Standard.registry) (target : Target)
    (level : Level) (sink : Sink) (hk : ∀ option, ¬ session.registry.Unknown (options.named option))
    (he : options.printAfter = Subject.machineCode.name) :
    ∃ entries, create session target level options sink =
      (.error (.broken (.selfInsertion Subject.machineCode.name)), entries) := by
  obtain ⟨start, stop, print, hs, ht, hp⟩ := boundaries_of_known hk
  obtain rfl := (boundary_eq_printer hr hp).mpr he
  obtain ⟨s, hu⟩ := Build.outcome_setUp_printer session target level options sink
    (.ofBounds (start.getD .none) (stop.getD .none))
  refine ⟨s.journal, ?_⟩
  rw [create_of_boundaries hs ht hp, hu, hr]
  rfl

theorem create_of_known (hr : session.registry = Standard.registry) (ht : target.Bundled)
    (level : Level) (sink : Sink) (hk : ∀ option, ¬ session.registry.Unknown (options.named option))
    (hne : options.printAfter ≠ Subject.machineCode.name) :
    ∃ c entries, create session target level options sink = (.ok c, entries) := by
  obtain ⟨start, stop, print, hs, hstop, hp⟩ := boundaries_of_known hk
  have hprint : print ≠ some Standard.machinePrinter := mt (boundary_eq_printer hr hp).mp hne
  obtain ⟨equip, hequip, -⟩ := Build.outcome_configure_bundled ht
  rw [create_of_boundaries hs hstop hp, Build.outcome_setUp _ _ _ _ _ _ hprint, hequip _ rfl]
  exact ⟨_, _, rfl⟩

/-- A request for a configuration is refused for an unknown name, broken by a printer behind the
printer, and met otherwise. -/
theorem create_bundled (hr : session.registry = Standard.registry) (ht : target.Bundled)
    (level : Level) (sink : Sink) :
    ((∃ option name entries, create session target level options sink =
        (.error (.refused (.unknownPass option name)), entries)) ↔
      ∃ option, session.registry.Unknown (options.named option)) ∧
    ((∃ c entries, create session target level options sink = (.ok c, entries)) ↔
      (∀ option, ¬ session.registry.Unknown (options.named option)) ∧
        options.printAfter ≠ Subject.machineCode.name) ∧
    ∀ d, (∃ entries, create session target level options sink = (.error (.broken d), entries)) ↔
      (∀ option, ¬ session.registry.Unknown (options.named option)) ∧
        options.printAfter = Subject.machineCode.name ∧
        d = .selfInsertion Subject.machineCode.name := by
  by_cases hu : ∃ option, session.registry.Unknown (options.named option)
  · obtain ⟨option, name, he⟩ := create_of_unknown target level sink hu
    have hn : ¬ ∀ option, ¬ session.registry.Unknown (options.named option) :=
      fun hn => hu.elim hn
    simp [he, hu, hn]
  · have hk := not_exists.mp hu
    by_cases hp : options.printAfter = Subject.machineCode.name
    · obtain ⟨entries, he⟩ := create_of_printer hr target level sink hk hp
      simp [he, hk, hp, eq_comm]
    · obtain ⟨c, entries, he⟩ := create_of_known hr ht level sink hk hp
      simp [he, hk, hp]

/-- On x86-64 code can be printed behind the first pass, and a misspelled stop is refused. -/
theorem create_bundled_x86Linux :
    (∃ c entries, create .standard Platform.x86Linux.target ⟨2⟩ { printAfter := "tbaa" }
      .collected = (.ok c, entries)) ∧
    ∃ option name entries, create .standard Platform.x86Linux.target ⟨2⟩
      { stopAfter := "tbaaa", printAfter := "print-machineinstrs" } .collected =
        (.error (.refused (.unknownPass option name)), entries) := by
  constructor
  · refine (create_bundled rfl (Platform.bundled _) _ _).2.1.mpr ⟨?_, by decide⟩
    rintro (_ | _ | _) <;> decide +kernel
  · exact (create_bundled rfl (Platform.bundled _) _ _).1.mpr ⟨.stopAfter, by decide +kernel⟩

/-- The printer has a name that a user can give, and the configuration breaks on it. -/
theorem create_print_after_printer : ∃ entries,
    create .standard (X86.target "x86_64-linux") ⟨2⟩ { printAfter := "print-machineinstrs" }
      .collected = (.error (.broken (.selfInsertion "print-machineinstrs")), entries) :=
  ⟨_, rfl⟩

end Config

/-- What a pipeline is asked for. -/
structure Blueprint where
  target : Target
  level : Level
  options : Options
  sink : Sink := .collected

namespace Session

def configure (s : Session) (b : Blueprint) : Except Failure Config × List Entry :=
  Config.create s b.target b.level b.options b.sink

/-- Creates a configuration and builds it. With the answer comes the session that is left. -/
def pipeline (s : Session) (b : Blueprint) : Except Failure (List Pass) × Session :=
  match s.configure b with
  | (.error failure, _) => (.error failure, s)
  | (.ok c, _) =>
    match c.work s (Build.build Build.stages) with
    | (.ok (.ok passes), t) => (.ok passes, t.session)
    | (.ok (.error r), t) => (.error (.refused r), t.session)
    | (.error d, t) => (.error (.broken d), t.session)

/-- Pipelines one after the other in one session. -/
def pipelines (s : Session) : List Blueprint → List (Except Failure (List Pass))
  | [] => []
  | b :: rest => (s.pipeline b).1 :: (s.pipeline b).2.pipelines rest

end Session

end PassPipeline
