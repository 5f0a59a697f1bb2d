import PassPipeline.Generate
import PassPipeline.Proofs.Agenda
import PassPipeline.Proofs.Printouts

/-! Pipelines for many units, in any order. The builds of the units meet only where an
allocator is selected: whoever gets there first decides for all, but all of them would have
decided alike. So every unit gets the same pipeline, and what is written depends on the order
of the units in the request only. -/
namespace PassPipeline

/-- All that the set-up for a bundled target takes from a session are the names of kinds. -/
theorem Build.setUp_of_registry {s t : Session} {target : Target} (ht : target.Bundled)
    (hr : t.registry = s.registry) (print : Option PassId) (level : Level) (options : Options)
    (sink : Sink) (window : Window) :
    (∃ d u v,
      (setUp print target).outcome
          { session := s, config := .fresh target level options sink window } = (.error d, u) ∧
      (setUp print target).outcome
          { session := t, config := .fresh target level options sink window } = (.error d, v)) ∨
    ∃ u v,
      (setUp print target).outcome
          { session := s, config := .fresh target level options sink window } = (.ok (), u) ∧
      (setUp print target).outcome
          { session := t, config := .fresh target level options sink window } = (.ok (), v) ∧
      v.config = u.config := by
  by_cases hp : print = some Standard.machinePrinter
  · subst hp
    obtain ⟨u, hu⟩ := outcome_setUp_printer s target level options sink window
    obtain ⟨v, hv⟩ := outcome_setUp_printer t target level options sink window
    exact .inl ⟨_, u, v, hu, hr ▸ hv⟩
  · right
    obtain ⟨equip, hequip, -⟩ := outcome_configure_bundled ht
    simp only [outcome_setUp _ _ _ _ _ _ hp]
    exact ⟨_, _, hequip _ rfl, hequip _ rfl, rfl⟩

namespace Session

variable {s t : Session} {b : Blueprint}

theorem configure_of_registry (ht : b.target.Bundled) (hr : t.registry = s.registry) :
    (t.configure b).1 = (s.configure b).1 := by
  unfold configure Config.create
  rw [hr]
  dsimp only
  split
  · rfl
  · rename_i start stop print _
    rcases Build.setUp_of_registry ht hr print b.level b.options b.sink
        (.ofBounds (start.getD .none) (stop.getD .none)) with
      ⟨d, u, v, hu, hv⟩ | ⟨u, v, hu, hv, hc⟩ <;> unfold Build.outcome at hu hv <;>
        simp only [hu, hv]
    rw [hc]

/-- A session, and one that is left after some pipelines of one blueprint. -/
structure Settled (b : Blueprint) (s t : Session) : Prop where
  registry : t.registry = s.registry
  settles : ∀ c, (s.configure b).1 = .ok c → s.Settles b.target.allocators c.optimizedAllocation t

theorem Settled.refl (b : Blueprint) (s : Session) : Settled b s s := ⟨rfl, fun _ _ => .none⟩

/-- Whichever session of these a pipeline meets, it is the same. -/
theorem Settled.pipeline (h : Settled b s t) (ht : b.target.Bundled) :
    (t.pipeline b).1 = (s.pipeline b).1 ∧ Settled b s (t.pipeline b).2 := by
  have hfirst := configure_of_registry ht h.registry
  rcases hs : s.configure b with ⟨failure | c, entries⟩ <;>
    rcases hc : t.configure b with ⟨x, later⟩ <;>
    rw [hs, hc] at hfirst <;> cases hfirst
  · refine ⟨by simp [Session.pipeline, hs, hc], ?_⟩
    have hleft : (t.pipeline b).2 = t := by simp [Session.pipeline, hc]
    rw [hleft]
    exact h
  · have hsettles := h.settles c (by rw [hs])
    obtain ⟨hres, -⟩ := pipeline_bundled ht hs
    obtain ⟨hrest, hnext⟩ := pipeline_bundled ht hc
    have htarget : c.target = b.target := (Config.outfitted_of_create ht hs).target_eq
    have hsame : t.result c = s.result c := by
      unfold result courseOf
      rw [h.registry, htarget, hsettles.allocatorFor]
    refine ⟨by rw [hres, hrest, hsame], (hsettles.trans hnext).registry, fun c' hc' => ?_⟩
    cases hs ▸ hc'
    exact hsettles.trans hnext

theorem Settled.pipelines (h : Settled b s t) (ht : b.target.Bundled) (n : Nat) :
    t.pipelines (List.replicate n b) = List.replicate n (s.pipeline b).1 := by
  induction n generalizing t with
  | zero => rfl
  | succ n ih =>
    obtain ⟨hanswer, hnext⟩ := h.pipeline ht
    rw [List.replicate_succ, Session.pipelines, hanswer, ih hnext, List.replicate_succ]

theorem configure_cases (hr : s.registry = Standard.registry) (ht : b.target.Bundled)
    (hprint : b.options.printAfter ≠ Subject.machineCode.name) :
    (∃ c entries, s.configure b = (.ok c, entries)) ∨
      ∃ r entries, s.configure b = (.error (.refused r), entries) := by
  by_cases hu : ∃ option, s.registry.Unknown (b.options.named option)
  · obtain ⟨option, name, he⟩ := Config.create_of_unknown b.target b.level b.sink hu
    exact .inr ⟨_, _, he⟩
  · exact .inl (Config.create_of_known hr ht b.level b.sink (not_exists.mp hu) hprint)

theorem not_ordinary_of_broken (hr : s.registry = Standard.registry) (ht : b.target.Bundled)
    (hsched : b.options.enableMachineSched.Valid)
    (hprint : b.options.printAfter ≠ Subject.machineCode.name) {d : Defect}
    (h : (s.pipeline b).1 = .error (.broken d)) : ¬ s.Ordinary := by
  intro hs
  rcases configure_cases hr ht hprint with ⟨c, entries, hc⟩ | ⟨r, entries, hc⟩
  · rcases pipeline_cases hs ht hc hsched with ⟨passes, hp⟩ | ⟨r, hp⟩ <;> cases h.symm.trans hp
  · simp [Session.pipeline, hc] at h

/-! Where the printers of a pipeline write, if its blueprint collects what is printed. -/

section printers

variable {passes : List Pass} {p : Pass} (ht : b.target.Bundled) (hsink : b.sink = .collected)
  (h : (s.pipeline b).1 = .ok passes) (hp : p ∈ passes)
include ht hsink h hp

/-- Only a printer in the place of the allocator writes to the console. -/
theorem resolved_of_printsTo_console (hconsole : p.printsTo .console) :
    (s.pipeline b).2.allocators.resolved = some p.id := by
  obtain ⟨c, entries, hc⟩ := configure_of_pipeline h
  cases origin_of_pipeline ht hc h p hp with
  | made hruns => simp [hsink] at hconsole
  | selected hallocator =>
    obtain ⟨id, selector, hsel, hremembers⟩ := exists_selected ht hc h
    rw [hremembers, Registry.instantiate_id (instantiate_of_allocatorFor hsel hallocator)]

theorem Ordinary.printsTo_collected (hs : s.Ordinary) : p.printsTo .collected = p.isPrinter := by
  obtain ⟨c, entries, hc⟩ := configure_of_pipeline h
  cases origin_of_pipeline ht hc h p hp with
  | made hruns => simp [hsink]
  | selected hallocator =>
    obtain ⟨id, selector, hsel, hid⟩ := hs.select ht c.optimizedAllocation
    have hmade := instantiate_of_allocatorFor hsel hallocator
    rw [hs.registry] at hmade
    have hquiet : ∀ id ∈ AllocatorRegistry.standardPasses,
        ∀ p ∈ (Standard.registry.instantiate id).toOption, p.isPrinter = false := by
      decide
    have hprinter := hquiet id hid p (by rw [hmade]; rfl)
    rw [hprinter, ← Bool.not_eq_true]
    intro hprints
    rw [Pass.isPrinter_of_printsTo hprints] at hprinter
    cases hprinter

end printers

end Session

namespace Request

def blueprint (req : Request) : Blueprint where
  target := req.target
  level := req.level
  options := req.options

/-- What a request writes about one unit with a given pipeline. -/
def report (req : Request) (registry : Registry) (passes : List Pass) (name : String) : String :=
  (match req.format with
    | .table => Report.table registry name passes
    | .arguments => Report.arguments passes) ++
  if req.run then
    "Ran " ++ toString passes.length ++ " passes over " ++ Text.escape name ++ "\n"
  else ""

/-- What the printers of a pipeline write about one unit, wherever it goes. -/
def printed (req : Request) (passes : List Pass) (name : String) : String :=
  if req.run then String.join (printoutsFrom name 0 passes) else ""

/-- The part of it that is collected. -/
def collected (req : Request) (passes : List Pass) (name : String) : String :=
  if req.run then String.join (printoutsTo .collected name 0 passes) else ""

/-- What is made for the unit at one place of a request. -/
def product (req : Request) (passes : List Pass) (index : Nat) : Option Generate.Product :=
  req.units[index]?.map fun name =>
    { index
      name
      passes
      run := if req.run then some (Run.passes passes { unit := { name } }).1 else none }

end Request

namespace Generate

variable {req : Request} {s : Session} {p : Progress} {passes : List Pass} {index : Nat}
  {name : String} {schedule : List Nat} {r : Refusal} {d : Defect}

theorem unit_of_error (index : Nat) (name : String) {failure : Failure} {t : Session}
    (h : p.session.pipeline req.blueprint = (.error failure, t)) :
    (unit req p index name).1 =
      match failure with
      | .refused r => .ok ({ p with session := t }.fail (.unit name (.refused r)))
      | .broken d => .error d := by
  rcases hc : p.session.configure req.blueprint with ⟨failure' | c, entries⟩
  · have hc' : Config.create p.session req.target req.level req.options .collected =
      (.error failure', entries) := hc
    simp only [Session.pipeline, hc] at h
    cases h
    rw [unit, hc']
    cases failure <;> rfl
  · have hc' : Config.create p.session req.target req.level req.options .collected =
      (.ok c, entries) := hc
    rcases hb : c.work p.session (Build.build Build.stages) with ⟨d | r | passes, t⟩ <;>
      simp only [Session.pipeline, hc, hb] at h <;> cases h <;> simp only [unit, hc', hb]

theorem unit_of_ok {t : Session} (h : p.session.pipeline req.blueprint = (.ok passes, t))
    (hruns : ∀ q ∈ passes, q.runs) (hcancelled : req.cancelled = false) (he : p.error = none)
    (hname : req.units[index]? = some name) :
    (unit req p index name).1 = .ok { p with
      session := t
      products := p.products ++ (req.product passes index).toList } := by
  obtain ⟨written, hrun⟩ := Run.passes_of_runs hruns name
  rcases hc : p.session.configure req.blueprint with ⟨failure | c, entries⟩
  · simp [Session.pipeline, hc] at h
  · have hc' : Config.create p.session req.target req.level req.options .collected =
      (.ok c, entries) := hc
    rcases hb : c.work p.session (Build.build Build.stages) with ⟨d | r | passes, t⟩ <;>
      simp only [Session.pipeline, hc, hb] at h <;> cases h
    simp only [unit, hc', hb, Request.product, hname, Option.map_some, Option.toList_some]
    cases req.run with
    | false => rfl
    | true => simp [hcancelled, he, hrun]

theorem units_cons_of_ok {p' : Progress} (rest : List Nat) (hname : req.units[index]? = some name)
    (h : (unit req p index name).1 = .ok p') :
    ∃ journal, units req p (index :: rest) = units req { p' with journal } rest := by
  rcases hu : unit req p index name with ⟨x, entries⟩
  rw [hu] at h
  cases h
  exact ⟨p.journal ++ entries, by simp only [units, hname, hu]⟩

/-! What all units of a schedule do, in a session that is left as
pipelines of the request leave it. -/

section schedules

variable (ht : req.target.Bundled) (hp : Session.Settled req.blueprint s p.session)
include ht hp

theorem units_of_ok (schedule : List Nat) (h : (s.pipeline req.blueprint).1 = .ok passes)
    (hcancelled : req.cancelled = false) (he : p.error = none) :
    ∃ p', units req p schedule = .ok p' ∧ p'.error = none ∧ p'.session.registry = s.registry ∧
      p'.products = p.products ++ schedule.filterMap (req.product passes) := by
  have hruns : ∀ q ∈ passes, q.runs := Session.runs_of_pipeline ht h
  induction schedule generalizing p with
  | nil => exact ⟨p, rfl, he, hp.registry, by simp⟩
  | cons index rest ih =>
    cases hname : req.units[index]? with
    | none =>
      obtain ⟨p', hu, he', hr, hproducts⟩ := ih hp he
      refine ⟨p', by simpa only [units, hname] using hu, he', hr, ?_⟩
      simpa [Request.product, hname] using hproducts
    | some name =>
      obtain ⟨hanswer, hnext⟩ := hp.pipeline ht
      have hunit := unit_of_ok (t := (p.session.pipeline req.blueprint).2)
        (Prod.ext (hanswer.trans h) rfl) hruns hcancelled he hname
      obtain ⟨journal, hu⟩ := units_cons_of_ok rest hname hunit
      rw [hu]
      obtain ⟨p', hu', he', hr, hproducts⟩ := ih (p := { p with
        session := (p.session.pipeline req.blueprint).2
        products := p.products ++ (req.product passes index).toList
        journal }) hnext he
      refine ⟨p', hu', he', hr, ?_⟩
      rw [hproducts, List.append_assoc]
      congr 1
      cases hx : req.product passes index <;> simp [hx]

theorem units_of_refused (schedule : List Nat)
    (h : (s.pipeline req.blueprint).1 = .error (.refused r)) :
    ∃ p', units req p schedule = .ok p' ∧
      p'.error = (p.error <|>
        (schedule.findSome? (req.units[·]?)).map (GenerateError.unit · (.refused r))) := by
  induction schedule generalizing p with
  | nil => exact ⟨p, rfl, by cases p.error <;> rfl⟩
  | cons index rest ih =>
    cases hname : req.units[index]? with
    | none =>
      obtain ⟨p', hu, he⟩ := ih hp
      exact ⟨p', by simpa only [units, hname] using hu, by simpa [hname] using he⟩
    | some name =>
      obtain ⟨hanswer, hnext⟩ := hp.pipeline ht
      have hunit := unit_of_error index name
        (t := (p.session.pipeline req.blueprint).2) (Prod.ext (hanswer.trans h) rfl)
      obtain ⟨journal, hu⟩ := units_cons_of_ok rest hname hunit
      rw [hu]
      obtain ⟨p', hu', he⟩ := ih (p := { { p with
        session := (p.session.pipeline req.blueprint).2 }.fail (.unit name (.refused r)) with
        journal }) hnext
      refine ⟨p', hu', he.trans ?_⟩
      cases p.error <;> simp [Progress.fail, hname]

theorem units_of_broken (schedule : List Nat)
    (h : (s.pipeline req.blueprint).1 = .error (.broken d))
    (hsome : (schedule.findSome? (req.units[·]?)).isSome) :
    ∃ p', units req p schedule = .error (d, p') := by
  induction schedule with
  | nil => cases hsome
  | cons index rest ih =>
    cases hname : req.units[index]? with
    | none =>
      obtain ⟨p', hu⟩ := ih (by simpa [hname] using hsome)
      exact ⟨p', by simpa only [units, hname] using hu⟩
    | some name =>
      obtain ⟨hanswer, -⟩ := hp.pipeline ht
      have hunit := unit_of_error index name
        (t := (p.session.pipeline req.blueprint).2) (Prod.ext (hanswer.trans h) rfl)
      rcases hu : unit req p index name with ⟨x, entries⟩
      rw [hu] at hunit
      cases hunit
      exact ⟨{ p with journal := p.journal ++ entries }, by simp only [units, hname, hu]⟩

end schedules

/-! The products in the order of the request. -/

theorem find?_products (hmem : index ∈ schedule) (hname : req.units[index]? = some name) :
    (schedule.filterMap (req.product passes)).find? (·.index = index) =
      req.product passes index := by
  induction schedule with
  | nil => cases hmem
  | cons other rest ih =>
    by_cases hi : other = index
    · subst hi
      simp [Request.product, hname]
    · have hrest := ih ((List.mem_cons.mp hmem).resolve_left (Ne.symm hi))
      cases hx : req.units[other]? with
      | none => simpa [Request.product, hx] using hrest
      | some x => simpa [Request.product, hx, hi] using hrest

theorem filterMap_range {α : Type} (units : List String) (g : String → α) :
    (List.range units.length).filterMap (fun i => units[i]?.map g) = units.map g := by
  induction units with
  | nil => rfl
  | cons name units ih =>
    simp only [List.length_cons, List.range_succ_eq_map, List.filterMap_cons,
      List.getElem?_cons_zero, Option.map_some, List.filterMap_map, Function.comp_def,
      List.getElem?_cons_succ, ih, List.map_cons]

/-- The order of the schedule does not show in what is told of each unit. -/
theorem map_inOrder {α : Type} {f : Product → α} {g : String → α}
    (hschedule : schedule.Perm (List.range req.units.length))
    (hproducts : p.products = schedule.filterMap (req.product passes))
    (hfg : ∀ index, (req.product passes index).map f = req.units[index]?.map g) :
    (inOrder req p).map f = req.units.map g := by
  rw [inOrder, List.map_filterMap, hproducts, ← filterMap_range]
  refine List.filterMap_congr fun index hindex => ?_
  have hlt : index < req.units.length := List.mem_range.mp hindex
  rw [find?_products (hschedule.mem_iff.mpr hindex) (List.getElem?_eq_getElem hlt), hfg]

theorem exists_first (hschedule : schedule.Perm (List.range req.units.length))
    (hne : req.units ≠ []) :
    ∃ name ∈ req.units, schedule.findSome? (req.units[·]?) = some name := by
  have hpos : 0 < req.units.length := List.length_pos_iff.mpr hne
  have hzero : 0 ∈ schedule := hschedule.mem_iff.mpr (List.mem_range.mpr hpos)
  have hsome : (schedule.findSome? (req.units[·]?)).isSome := by
    rw [List.findSome?_isSome_iff]
    exact ⟨0, hzero, by simp [hpos]⟩
  obtain ⟨name, hname⟩ := Option.isSome_iff_exists.mp hsome
  obtain ⟨index, -, hindex⟩ := List.exists_of_findSome?_eq_some hname
  exact ⟨name, List.mem_of_getElem? hindex, hname⟩

end Generate

section requests

variable {session : Session} {req : Request} {passes : List Pass} {schedule : List Nat}
  (ht : req.target.Bundled) (hschedule : schedule.Perm (List.range req.units.length))

include ht in
theorem Request.report_product (h : (session.pipeline req.blueprint).1 = .ok passes) (index : Nat) :
    (req.product passes index).map (Generate.report session.registry req.format) =
        req.units[index]?.map (req.report session.registry passes) ∧
      (req.product passes index).map Generate.diagnostics =
        req.units[index]?.map (req.collected passes) := by
  cases hname : req.units[index]? with
  | none => simp [product, hname]
  | some name =>
    have hruns := Session.runs_of_pipeline ht h
    obtain ⟨written, hrun⟩ := Run.passes_of_runs hruns name
    have htext := Run.textOf_passes_of_runs hruns name .collected
    simp only [product, hname, Option.map_some, Generate.report, Generate.diagnostics, report,
      collected]
    cases req.run with
    | false => exact ⟨rfl, rfl⟩
    | true => cases req.format <;> simp [hrun, ← htext, CompilationUnit.summary]

include ht hschedule

theorem generateBy_of_ok (h : (session.pipeline req.blueprint).1 = .ok passes)
    (hcancelled : req.cancelled = false) (hfault : req.diagnosticsFault = none) :
    (generateBy schedule session req).ending = .done ∧
      (generateBy schedule session req).out =
        String.join (req.units.map (req.report session.registry passes)) ∧
      (generateBy schedule session req).diagnostics =
        String.join (req.units.map (req.collected passes)) := by
  obtain ⟨p, hu, he, hr, hproducts⟩ :=
    Generate.units_of_ok (p := { session }) ht (.refl _ _) schedule h hcancelled rfl
  have hwritten : (generateBy schedule session req).ending = .done ∧
      (generateBy schedule session req).written = (Generate.inOrder req p).map fun product =>
        ⟨Generate.report session.registry req.format product, Generate.diagnostics product⟩ := by
    simp only [generateBy, hu, he, hfault, hr, and_self]
  refine ⟨hwritten.1, ?_, ?_⟩
  · rw [Generated.out, hwritten.2, List.map_map]
    exact congrArg String.join (Generate.map_inOrder hschedule hproducts fun index =>
      (req.report_product ht h index).1)
  · rw [Generated.diagnostics, hwritten.2, List.map_map]
    exact congrArg String.join (Generate.map_inOrder hschedule hproducts fun index =>
      (req.report_product ht h index).2)

variable (hne : req.units ≠ [])
include hne

theorem generateBy_of_refused {r : Refusal}
    (h : (session.pipeline req.blueprint).1 = .error (.refused r)) :
    ∃ name ∈ req.units,
      (generateBy schedule session req).ending = .failed (.unit name (.refused r)) ∧
      (generateBy schedule session req).written = [] := by
  obtain ⟨name, hmem, hfirst⟩ := Generate.exists_first hschedule hne
  obtain ⟨p, hu, he⟩ := Generate.units_of_refused (p := { session }) ht (.refl _ _) schedule h
  rw [hfirst] at he
  have herror : p.error = some (.unit name (.refused r)) := he
  exact ⟨name, hmem, by simp [generateBy, hu, herror]⟩

theorem generateBy_of_broken {d : Defect}
    (h : (session.pipeline req.blueprint).1 = .error (.broken d)) :
    (generateBy schedule session req).ending = .broken d ∧
      (generateBy schedule session req).written = [] := by
  obtain ⟨name, -, hfirst⟩ := Generate.exists_first hschedule hne
  obtain ⟨p, hu⟩ := Generate.units_of_broken (p := { session }) ht (.refl _ _) schedule h
    (by rw [hfirst]; rfl)
  simp [generateBy, hu]

end requests

/-- Units with names that need an escape or come twice, run with a part
of the passes and a printer. -/
def Request.crowd : Request where
  target := X86.target "x86_64-linux"
  level := ⟨2⟩
  options :=
    { startAfter := "virtregrewriter"
      stopAfter := "prologepilog"
      printAfter := "stack-slot-coloring" }
  units := ["b", "a\n", "b"]
  run := true
  format := .arguments

def Request.crowdPasses : List Pass :=
  [⟨Standard.stackSlotColoring, "stack-slot-coloring", .ordinary⟩,
    .printer .machineCode .collected "",
    ⟨Standard.machineLICM, "machinelicm", .ordinary⟩,
    ⟨Standard.prologEpilogInserter, "prologepilog", .ordinary⟩]

/-- The session that a target leaves which has answered with one kind for all. -/
def Session.answered (id : PassId) : Session :=
  match Session.standard.allocators.select true ⟨id, id⟩ with
  | .ok (_, allocators) => { Session.standard with allocators }
  | .error _ => Session.standard

def Request.lone : Request where
  target := X86.target "x86_64-linux"
  level := ⟨2⟩
  options := { startAfter := "simple-register-coalescing", stopAfter := "virtregrewriter" }
  units := ["u"]
  run := true
  format := .arguments

end PassPipeline
