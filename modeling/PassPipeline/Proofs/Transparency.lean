import PassPipeline.Proofs.Louder

/-! Diagnostics are transparent: but for the diagnostic passes themselves, a pipeline does not
depend on what is asked of it for diagnosis. -/
namespace PassPipeline

def Blueprint.quiet (b : Blueprint) : Blueprint := { b with options := b.options.quiet }

/-- Pipelines that are the same but for diagnostic passes, or that fail alike. A cycle of insertions
may be found at different kinds. -/
inductive Alike : Except Failure (List Pass) → Except Failure (List Pass) → Prop
  | passes {l l' : List Pass} (h : substance l = substance l') : Alike (.ok l) (.ok l')
  | refused (r : Refusal) : Alike (.error (.refused r)) (.error (.refused r))
  | broken {d e : Defect} (h : d = e ∨ d.isCycle ∧ e.isCycle) :
    Alike (.error (.broken d)) (.error (.broken e))

namespace Build

variable {s t : Construction}

def verdict : Except Defect (Except Refusal (List Pass)) → Except Failure (List Pass)
  | .ok (.ok passes) => .ok passes
  | .ok (.error r) => .error (.refused r)
  | .error d => .error (.broken d)

/-- What a target makes of a configuration. -/
def configured : Except Defect Unit × Construction → Except Failure Config × List Entry
  | (.ok _, t) => (.ok t.config, t.journal)
  | (.error d, t) => (.error (.broken d), t.journal)

theorem Louder.enter (h : Louder .configuring s t) :
    Louder .building (s.inPhase .building) (t.inPhase .building) := by
  obtain ⟨o, print, extra, l, hc, ho, he, hl⟩ := h.config
  refine ⟨h.session, h.registry, rfl, h.nesting, ⟨o, print, extra, l, ?_, ho, he, hl⟩, h.plain,
    h.heedless, ⟨h.printer.stands, h.printer.alone⟩⟩
  rw [Construction.inPhase, hc]
  rfl

theorem Louder.build (h : Louder .configuring s t) :
    Alike (verdict ((build stages).outcome s).1) (verdict ((build stages).outcome t).1) := by
  have hrun := Matches.runStages h.enter
  rw [outcome_build, outcome_build, outcome_buildInto _ h.left_phase, outcome_buildInto _ h.phase]
  generalize (runStages stages).outcome (s.inPhase .building) = x at hrun
  generalize (runStages stages).outcome (t.inPhase .building) = y at hrun
  cases hrun with
  | error hd => exact .broken hd
  | @ok _ s t hst =>
    -- The order is about the substance of the two lists only.
    have horder : Order.broken? ((s.inPhase .built).config.handed.map Pass.id) =
        Order.broken? ((t.inPhase .built).config.handed.map Pass.id) := by
      change Order.broken? (s.config.handed.map Pass.id) =
        Order.broken? (t.config.handed.map Pass.id)
      rw [← Order.broken?_substance, hst.handed, Order.broken?_substance]
    dsimp only
    rw [hst.refusal]
    cases t.config.refusal with
    | some r => exact .refused r
    | none =>
      dsimp only
      rw [horder]
      cases Order.broken? ((t.inPhase .built).config.handed.map Pass.id) with
      | some c => exact .broken (.inl rfl)
      | none => exact .passes hst.handed

theorem louder_prepared {session : Session} {target : Target}
    (hr : session.registry = Standard.registry) (ht : target.Heedless) (level : Level)
    (options : Options) (sink : Sink) {start stop : PassId}
    (hstart : start.isDiagnostic = false) (hstop : stop.isDiagnostic = false)
    {print : Option PassId} (hp : print ≠ some Standard.machinePrinter) :
    Louder .configuring
      { session, config := .prepared target level options sink (.ofBounds start stop) print }
      { session,
        config := .prepared target level options.quiet sink (.ofBounds start stop) none } := by
  refine ⟨rfl, hr, rfl, rfl, ⟨options, options.printMachineCode,
    print.toList.map (⟨·, Standard.machinePrinter⟩), [], ?_, rfl, ?_, rfl⟩, ?_, ht.called, ?_⟩
  · simp [Config.prepared, Config.louder, Config.fresh]
  · intro i hi
    obtain ⟨id, hid, rfl⟩ := List.mem_map.mp hi
    exact ⟨fun he => hp (by rw [← he, Option.mem_toList.mp hid]), rfl⟩
  · exact ⟨hstart, hstop, fun _ => rfl⟩
  · exact ⟨rfl, rfl⟩

end Build

namespace Session

variable {s : Session} {b : Blueprint}

theorem pipeline_of_configure {c : Config} {entries : List Entry}
    (h : s.configure b = (.ok c, entries)) : (s.pipeline b).1 =
      Build.verdict ((Build.build Build.stages).outcome { session := s, config := c }).1 := by
  simp only [pipeline, h, Build.work_eq]
  rcases (Build.build Build.stages).outcome { session := s, config := c } with ⟨_ | (_ | _), _⟩ <;>
    rfl

theorem pipeline_of_configure_error {f : Failure} {entries : List Entry}
    (h : s.configure b = (.error f, entries)) : (s.pipeline b).1 = .error f := by
  simp only [pipeline, h]

theorem alike_of_refused {b' : Blueprint} {r : Refusal} {entries entries' : List Entry}
    (h : s.configure b = (.error (.refused r), entries))
    (h' : s.configure b' = (.error (.refused r), entries')) :
    Alike (s.pipeline b).1 (s.pipeline b').1 := by
  rw [pipeline_of_configure_error h, pipeline_of_configure_error h']
  exact .refused r

theorem configure_of_boundaries {start stop print : Option PassId}
    (hs : Config.boundary s.registry .startAfter b.options.startAfter = .ok start)
    (ht : Config.boundary s.registry .stopAfter b.options.stopAfter = .ok stop)
    (hp : Config.boundary s.registry .printAfter b.options.printAfter = .ok print)
    (hne : print ≠ some Standard.machinePrinter) :
    s.configure b =
      Build.configured ((discard (Build.exec Build.stagesMissing {} b.target.configure)).outcome
        { session := s
          config := .prepared b.target b.level b.options b.sink
            (.ofBounds (start.getD .none) (stop.getD .none)) print }) := by
  rw [configure, Config.create_of_boundaries hs ht hp, Build.outcome_setUp _ _ _ _ _ _ hne]
  rfl

theorem alike_of_configure (hr : s.registry = Standard.registry) {b' : Blueprint}
    {x y : Except Defect Unit × Construction} (h : Build.Tallies (Build.Louder .configuring) x y)
    (hx : s.configure b = Build.configured x) (hy : s.configure b' = Build.configured y) :
    Alike (s.pipeline b).1 (s.pipeline b').1 := by
  cases h with
  | ok _ h =>
    rw [pipeline_of_configure hx, pipeline_of_configure hy]
    refine Build.Louder.build (h.aside rfl rfl rfl ?_)
    exact hr.trans h.registry.symm
  | error h =>
    rw [pipeline_of_configure_error hx, pipeline_of_configure_error hy]
    exact .broken h

theorem isDiagnostic_boundary {option : PassOption} {name : String} {id : Option PassId}
    (hn : ∀ id ∈ s.registry.lookup? name, id.isDiagnostic = false)
    (h : Config.boundary s.registry option name = .ok id) :
    (id.getD .none).isDiagnostic = false := by
  cases id with
  | none => rfl
  | some id => exact hn id (Config.lookup?_of_boundary h)

/-- All that can be asked for diagnosis, in a part of a pipeline. -/
def watched : Blueprint where
  target := X86.target "x86_64-linux"
  level := ⟨2⟩
  options :=
    { startAfter := "verify"
      stopAfter := "prologepilog"
      printAfter := "machine-cse"
      printMachineCode := true
      verifyMachineCode := true
      printLSR := true
      printISelInput := true
      printGCInfo := true }

/-- A target that prints before there is anything to print. -/
def hasty : Target where
  name := "hasty"
  exceptions := .none
  configure := .run (.printAndVerify "")

/-- A target whose insertions form a cycle. -/
def circular : Target where
  name := "circular"
  exceptions := .none
  configure := .block
    [.run (.insert Standard.typeBasedAliasAnalysis Standard.basicAliasAnalysis),
      .run (.insert Standard.basicAliasAnalysis Standard.typeBasedAliasAnalysis)]

end Session

end PassPipeline
