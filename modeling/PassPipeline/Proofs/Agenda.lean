import PassPipeline.Proofs.RegisterAllocation

/-! What a pipeline has before it. Once it is known whether there is to be optimization, which path
register allocation takes and how SSA form is left, the stages of a target come to one list of
steps, each under a proviso about options and requests. Such agendas can be computed and compared,
and a build does just what its agenda says. -/
namespace PassPipeline

/-- What a step can depend on. Neither the level nor the path of register allocation shows. -/
inductive Proviso where
  | always
  | never
  | verifyDisabled
  | switch (s : Switch)
  | schedules (kind : PassId)
  | negated (p : Proviso)
  | both (p q : Proviso)
  | either (p q : Proviso)
  deriving DecidableEq

namespace Proviso

def met (c : Config) : Proviso → Bool
  | always => true
  | never => false
  | verifyDisabled => c.disableVerify
  | switch s => s.isOn c.options
  | schedules kind => c.resolve kind ≠ .ok .none
  | negated p => !p.met c
  | both p q => p.met c && q.met c
  | either p q => p.met c || q.met c

/-! Provisos are put together so that what is known does not show in them. -/

def ofBool (b : Bool) : Proviso := if b then always else never

def opposite (p : Proviso) : Proviso :=
  if p = always then never else if p = never then always else negated p

def conj (p q : Proviso) : Proviso :=
  if p = never ∨ q = never then never
  else if p = always then q else if q = always then p else both p q

def disj (p q : Proviso) : Proviso :=
  if p = always ∨ q = always then always
  else if p = never then q else if q = never then p else either p q

/-- One of two provisos, as a third one says. -/
def choose (p yes no : Proviso) : Proviso := (p.conj yes).disj (p.opposite.conj no)

variable (c : Config) (p q : Proviso)

@[simp] theorem met_ofBool (b : Bool) : (ofBool b).met c = b := by
  cases b <;> rfl

@[simp] theorem met_opposite : p.opposite.met c = !p.met c := by
  unfold opposite
  split
  · simp_all [met]
  · split <;> simp_all [met]

@[simp] theorem met_conj : (p.conj q).met c = (p.met c && q.met c) := by
  unfold conj
  split
  · rename_i h
    rcases h with rfl | rfl <;> simp [met]
  · split
    · simp_all [met]
    · split <;> simp_all [met]

@[simp] theorem met_disj : (p.disj q).met c = (p.met c || q.met c) := by
  unfold disj
  split
  · rename_i h
    rcases h with rfl | rfl <;> simp [met]
  · split
    · simp_all [met]
    · split <;> simp_all [met]

@[simp] theorem met_choose (yes no : Proviso) :
    (p.choose yes no).met c = if p.met c then yes.met c else no.met c := by
  cases h : p.met c <;> simp [choose, h]

end Proviso

/-- What a pipeline can be about to do. -/
inductive Step where
  | request (kind : PassId)
  | print (subject : Subject) (banner : String)
  | printAndVerify (banner : String)
  | allocator
  deriving DecidableEq

structure Item where
  proviso : Proviso
  step : Step
  deriving DecidableEq

/-- What some part of a pipeline is about to do, and whether it will claim to have added passes. -/
structure Agenda where
  items : List Item := []
  claim : Proviso := .never
  deriving DecidableEq

section passes

variable (c : Config) (r : Registry) (allocator : Pass)

def Step.passes : Step → List Pass
  | request kind => (c.unfold r c.insertions.length kind).passes
  | print subject banner => [.printer subject c.sink banner]
  | printAndVerify banner => c.shown banner
  | Step.allocator => [allocator]

def Item.passes (i : Item) : List Pass :=
  if i.proviso.met c then i.step.passes c r allocator else []

def Agenda.passes (a : Agenda) : List Pass := a.items.flatMap (Item.passes c r allocator)

end passes

namespace Agenda

/-- The items of an agenda under one more proviso. -/
def under (p : Proviso) (a : Agenda) : List Item :=
  a.items.map fun i => { i with proviso := p.conj i.proviso }

def seq (a b : Agenda) : Agenda := ⟨a.items ++ b.items, a.claim.disj b.claim⟩

/-- What comes behind a question: one of two agendas, or both of them
where the answer is not known. -/
def branch (p : Proviso) (yes no : Option Agenda) : Option Agenda :=
  if p = .always then yes
  else if p = .never then no
  else do
    let yes ← yes
    let no ← no
    return ⟨under p yes ++ under p.opposite no, p.choose yes.claim no.claim⟩

theorem passes_under (c : Config) (r : Registry) (allocator : Pass) (p : Proviso) (a : Agenda) :
    (under p a).flatMap (Item.passes c r allocator) =
      if p.met c then a.passes c r allocator else [] := by
  have hitem (i : Item) : Item.passes c r allocator { i with proviso := p.conj i.proviso } =
      if p.met c then i.passes c r allocator else [] := by
    cases h : p.met c <;> simp [Item.passes, h]
  simp only [under, List.flatMap_map, hitem]
  cases p.met c <;> simp [passes]

/-- Whatever the answer is, a branch does the same as the agenda for that answer. -/
theorem branch_eq_some {p : Proviso} {yes no : Option Agenda} {a : Agenda}
    (h : branch p yes no = some a) (c : Config) (r : Registry) (allocator : Pass) :
    ∃ b, (if p.met c then yes else no) = some b ∧ b.passes c r allocator = a.passes c r allocator ∧
      b.claim.met c = a.claim.met c := by
  unfold branch at h
  split at h
  · subst p
    exact ⟨a, h, rfl, rfl⟩
  · split at h
    · subst p
      exact ⟨a, h, rfl, rfl⟩
    · obtain ⟨y, rfl, hno⟩ := Option.bind_eq_some_iff.mp h
      obtain ⟨n, rfl, ha⟩ := Option.bind_eq_some_iff.mp hno
      cases ha
      refine ⟨if p.met c then y else n, by split <;> rfl, ?_, ?_⟩
      · rw [Agenda.passes, Agenda.passes, List.flatMap_append, passes_under, passes_under,
          Proviso.met_opposite]
        cases p.met c <;> simp [Agenda.passes]
      · rw [Proviso.met_choose]
        split <;> rfl

end Agenda

/-- What has to be known to tell the agenda of a pipeline. -/
structure Prospect where
  optimizing : Bool
  optimized : Bool
  strongPHIs : Bool
  deriving DecidableEq

namespace Prospect

variable (o : Prospect)

def condition : Condition → Proviso
  | .optimizing => .ofBool o.optimizing
  | .optimizedAllocation => .ofBool o.optimized
  | .verifyDisabled => .verifyDisabled
  | .switch .strongPHIElim => .ofBool o.strongPHIs
  | .switch s => .switch s

section scripts

variable (calls : StageCall → Option Agenda) (stage : Option Stage)

def query : Query → Option Agenda
  | .holds q => some { claim := o.condition q }
  | .schedules kind _ => some { items := [⟨.always, .request kind⟩], claim := .schedules kind }
  | .stage stage => calls { stage }
  | .standard =>
    match stage with
    | some stage => calls { stage, standard := true }
    | none => some {}

/-- The agenda of a script, if it does nothing but what a stage may do. -/
def script : Script → Option Agenda
  | .skip => some {}
  | .claim => some { claim := .always }
  | .run (.print subject banner) => some { items := [⟨.always, .print subject banner⟩] }
  | .run (.printAndVerify banner) => some { items := [⟨.always, .printAndVerify banner⟩] }
  | .run (.allocate optimized) => do
    let a ← calls { stage := if optimized then .optimizedRegAlloc else .fastRegAlloc }
    return { items := a.items }
  | .run .placeAllocator => some { items := [⟨.always, .allocator⟩] }
  | .run _ => none
  | .seq first second => do return (← script first).seq (← script second)
  | .ask q yes no => do
    let asked ← o.query calls stage q
    let rest ← Agenda.branch asked.claim (script yes) (script no)
    return { rest with items := asked.items ++ rest.items }

end scripts

def stage (scripts : StageCall → Script) : (depth : Nat) → StageCall → Option Agenda
  | 0, _ => none
  | depth + 1, call => o.script (stage scripts depth) (some call.stage) (scripts call)

def stages (scripts : StageCall → Script) (depth : Nat) : Option (List Item) := do
  let ir ← o.stage scripts depth { stage := .irPasses }
  let prepare ← o.stage scripts depth { stage := .iselPrepare }
  let select ← o.stage scripts depth { stage := .instSelector }
  let machine ← o.stage scripts depth { stage := .machinePasses }
  return ir.items ++ (prepare.items ++ (select.items ++ machine.items))

def ofConfig (c : Config) : Prospect :=
  ⟨c.level.optimizing, c.optimizedAllocation, c.options.enableStrongPHIElim⟩

theorem met_condition (c : Config) (q : Condition) :
    ((ofConfig c).condition q).met c = q.holds c := by
  cases q with
  | optimizing => exact Proviso.met_ofBool c _
  | optimizedAllocation => exact Proviso.met_ofBool c _
  | verifyDisabled => rfl
  | switch s =>
    cases s with
    | strongPHIElim => exact Proviso.met_ofBool c _
    | _ => rfl

end Prospect

namespace Unfolding

variable {α β : Type} {x : Unfolding α} {l m : List Pass} {a : α} {b : β}

/-- Some work places just these passes and answers just this, if it ends well. -/
def ComesTo (x : Unfolding α) (l : List Pass) (a : α) : Prop :=
  ∀ b, x.ending = .ok b → x.passes = l ∧ b = a

theorem comesTo_ok (l : List Pass) (a : α) : ComesTo { passes := l, ending := .ok a } l a := by
  rintro _ ⟨⟩
  exact ⟨rfl, rfl⟩

theorem comesTo_error (d : Defect) : ComesTo { ending := .error d } l a := fun _ h => by cases h

theorem ComesTo.bind {g : α → Unfolding β} (hx : x.ComesTo l a) (hg : (g a).ComesTo m b) :
    (x.bind g).ComesTo (l ++ m) b := by
  intro b' hb
  rcases ha : x.ending with d | a'
  · rw [bind_error ha] at hb
    cases hb
  · obtain ⟨rfl, rfl⟩ := hx a' ha
    rw [bind_ok ha] at hb ⊢
    obtain ⟨rfl, rfl⟩ := hg b' hb
    exact ⟨rfl, rfl⟩

theorem ComesTo.map {f : α → β} (hx : x.ComesTo l a) :
    (x.bind fun a => { ending := .ok (f a) }).ComesTo l (f a) := by
  simpa using hx.bind (g := fun a => { ending := .ok (f a) }) (comesTo_ok [] (f a))

end Unfolding

namespace Config

variable {c : Config} {r : Registry} {allocator : Except Defect Pass} {p : Pass}

theorem comesTo_request (c : Config) (r : Registry) (kind : PassId) :
    Unfolding.ComesTo
      ((c.unfold r c.insertions.length kind).bind fun final =>
        { ending := .ok (decide (final ≠ .none)) })
      (Step.passes c r p (.request kind)) ((Proviso.schedules kind).met c) := by
  intro b hb
  rcases hf : (c.unfold r c.insertions.length kind).ending with d | final
  · rw [Unfolding.bind_error hf] at hb
    cases hb
  · rw [Unfolding.bind_ok hf] at hb ⊢
    cases hb
    refine ⟨List.append_nil _, ?_⟩
    simp [Proviso.met, (expands_of_unfold hf).1]

section scripts

variable {calls : StageCall → Option Agenda} {courses : Courses} {frame : Frame} {a : Agenda}
  (hcalls : ∀ ⦃sc q a⦄, (∀ x ∈ q, x = p) → calls sc = some a →
    (courses sc q).ComesTo (a.passes c r p) (a.claim.met c))
  (hframe : ∀ x ∈ frame.allocator, x = p)
include hcalls hframe

theorem comesTo_query {q : Query} (hq : (Prospect.ofConfig c).query calls frame.stage q = some a) :
    (c.queryCourse r courses frame q).ComesTo (a.passes c r p) (a.claim.met c) := by
  cases q with
  | holds condition =>
    cases hq
    rw [queryCourse, Prospect.met_condition]
    exact Unfolding.comesTo_ok [] _
  | schedules kind reported =>
    cases hq
    have hpasses :
        Agenda.passes c r p { items := [⟨.always, .request kind⟩], claim := .schedules kind } =
          Step.passes c r p (.request kind) := by
      simp [Agenda.passes, Item.passes, Proviso.met]
    rw [hpasses]
    exact comesTo_request c r kind
  | stage stage => exact hcalls hframe hq
  | standard =>
    cases hs : frame.stage with
    | none =>
      simp only [Prospect.query, hs] at hq
      cases hq
      simpa [queryCourse, hs, Agenda.passes, Proviso.met] using Unfolding.comesTo_ok [] false
    | some stage =>
      simp only [Prospect.query, hs] at hq
      simpa [queryCourse, hs] using hcalls hframe hq

theorem comesTo_command {command : Command} (hallocator : ∀ q, allocator = .ok q → q = p)
    (hs : (Prospect.ofConfig c).script calls frame.stage (.run command) = some a) :
    (c.commandCourse r allocator courses frame command).ComesTo (a.passes c r p) () ∧
      a.claim = .never := by
  cases command with
  | print subject banner =>
    cases hs
    exact ⟨Unfolding.comesTo_ok _ (), rfl⟩
  | printAndVerify banner =>
    cases hs
    refine ⟨?_, rfl⟩
    have hpasses :
        Agenda.passes c r p { items := [⟨.always, .printAndVerify banner⟩] } = c.shown banner := by
      simp [Agenda.passes, Item.passes, Proviso.met, Step.passes]
    rw [hpasses]
    exact Unfolding.comesTo_ok _ ()
  | allocate optimized =>
    obtain ⟨b, hb, hs⟩ := Option.bind_eq_some_iff.mp hs
    cases hs
    refine ⟨?_, rfl⟩
    rw [commandCourse]
    split
    · rcases allocator with d | q
      · exact Unfolding.comesTo_error d
      · obtain rfl := hallocator q rfl
        have hcall := hcalls (q := some q) (by simp) hb
        exact (Unfolding.comesTo_ok [] q).bind hcall.map
    · exact Unfolding.comesTo_error _
  | placeAllocator =>
    cases hs
    refine ⟨?_, rfl⟩
    rw [commandCourse]
    cases hh : frame.allocator with
    | none => exact Unfolding.comesTo_error _
    | some q =>
      obtain rfl := hframe q hh
      exact Unfolding.comesTo_ok _ ()
  | place | substitute | insert | set | build => cases hs

theorem comesTo_script (hallocator : ∀ q, allocator = .ok q → q = p) {script : Script}
    (hs : (Prospect.ofConfig c).script calls frame.stage script = some a) :
    (c.scriptCourse r allocator courses frame script).ComesTo (a.passes c r p) (a.claim.met c) := by
  induction script generalizing a with
  | skip =>
    cases hs
    exact Unfolding.comesTo_ok [] false
  | claim =>
    cases hs
    exact Unfolding.comesTo_ok [] true
  | run command =>
    obtain ⟨hcommand, hclaim⟩ := comesTo_command hcalls hframe hallocator hs
    rw [hclaim]
    exact hcommand.map
  | seq first second ih₁ ih₂ =>
    obtain ⟨a₁, h₁, hs⟩ := Option.bind_eq_some_iff.mp hs
    obtain ⟨a₂, h₂, hs⟩ := Option.bind_eq_some_iff.mp hs
    cases hs
    simp only [Agenda.seq, Agenda.passes, List.flatMap_append, Proviso.met_disj]
    exact (ih₁ h₁).bind (ih₂ h₂).map
  | ask q yes no ihy ihn =>
    obtain ⟨asked, hasked, hs⟩ := Option.bind_eq_some_iff.mp hs
    obtain ⟨rest, hrest, hs⟩ := Option.bind_eq_some_iff.mp hs
    cases hs
    obtain ⟨b, hb, hpasses, hclaim⟩ := Agenda.branch_eq_some hrest c r p
    simp only [Agenda.passes, List.flatMap_append]
    refine (comesTo_query hcalls hframe hasked).bind ?_
    change Unfolding.ComesTo _ (rest.passes c r p) _
    rw [← hpasses, ← hclaim]
    cases hmet : asked.claim.met c with
    | true => exact ihy (by simpa [hmet] using hb)
    | false => exact ihn (by simpa [hmet] using hb)

end scripts

theorem comesTo_stage (hallocator : ∀ q, allocator = .ok q → q = p) {depth : Nat} {sc : StageCall}
    {q : Option Pass} {a : Agenda} (hq : ∀ x ∈ q, x = p)
    (ha : (Prospect.ofConfig c).stage c.target.called depth sc = some a) :
    (c.stageCourse r allocator depth sc q).ComesTo (a.passes c r p) (a.claim.met c) := by
  induction depth generalizing sc q a with
  | zero => cases ha
  | succ depth ih =>
    refine comesTo_script (fun sc q a => ih) ?_ hallocator ha
    dsimp only
    split
    · exact hq
    · simp

/-- A course places what is on the agenda. -/
theorem comesTo_course (hallocator : ∀ q, allocator = .ok q → q = p) {items : List Item}
    (hl : (Prospect.ofConfig c).stages c.target.called Build.depthLimit = some items) :
    (c.course r allocator).ComesTo (items.flatMap (Item.passes c r p)) () := by
  obtain ⟨ir, h₁, hl⟩ := Option.bind_eq_some_iff.mp hl
  obtain ⟨prepare, h₂, hl⟩ := Option.bind_eq_some_iff.mp hl
  obtain ⟨select, h₃, hl⟩ := Option.bind_eq_some_iff.mp hl
  obtain ⟨machine, h₄, hl⟩ := Option.bind_eq_some_iff.mp hl
  cases hl
  have hnone : ∀ x ∈ (none : Option Pass), x = p := by simp
  simp only [List.flatMap_append]
  exact (comesTo_stage hallocator hnone h₁).bind <| (comesTo_stage hallocator hnone h₂).bind <|
    (comesTo_stage hallocator hnone h₃).bind (comesTo_stage hallocator hnone h₄).map

end Config

/-- Configurations that make the same of every request and every proviso,
for whatever level and target. -/
structure Config.Akin (c d : Config) : Prop where
  options : d.options = c.options
  sink : d.sink = c.sink
  substitutions : d.substitutions = c.substitutions
  insertions : d.insertions = c.insertions
  disableVerify : d.disableVerify = c.disableVerify
  printMachineCode : d.printMachineCode = c.printMachineCode

namespace Config.Akin

variable {c d : Config} (h : c.Akin d)
include h

theorem resolve (id : PassId) : d.resolve id = c.resolve id := by
  simp only [Config.resolve, substitution, h.options, h.substitutions]

theorem unfold (r : Registry) (room : Nat) (id : PassId) :
    d.unfold r room id = c.unfold r room id := by
  have hscheduled (id : PassId) : d.scheduled r id = c.scheduled r id := by
    simp only [scheduled, h.resolve, h.sink]
  have hinserted (id : PassId) : d.insertedAfter id = c.insertedAfter id := by
    simp only [insertedAfter, h.insertions]
  induction room generalizing id with
  | zero => simp only [Config.unfold, unfoldBy, hscheduled, hinserted]
  | succ room ih =>
    have hinner : d.unfold r room = c.unfold r room := funext ih
    simp only [Config.unfold, unfoldBy, hscheduled, hinserted, hinner]

theorem met (p : Proviso) : p.met d = p.met c := by
  induction p with
  | always | never => rfl
  | verifyDisabled => exact h.disableVerify
  | switch s => simp only [Proviso.met, h.options]
  | schedules kind => simp only [Proviso.met, h.resolve]
  | negated p ih => simp only [Proviso.met, ih]
  | both p q ihp ihq => simp only [Proviso.met, ihp, ihq]
  | either p q ihp ihq => simp only [Proviso.met, ihp, ihq]

theorem passes (r : Registry) (p : Pass) : Item.passes d r p = Item.passes c r p := by
  funext i
  have hstep : i.step.passes d r p = i.step.passes c r p := by
    cases i.step with
    | request kind => simp only [Step.passes, h.unfold, h.insertions]
    | print subject banner => simp only [Step.passes, h.sink]
    | printAndVerify banner =>
      simp only [Step.passes, shown, h.sink, h.printMachineCode, h.options]
    | allocator => rfl
  simp only [Item.passes, h.met, hstep]

end Config.Akin

/-- Bundled targets that give their configurations the same outfit. -/
inductive Target.Akin : Target → Target → Prop
  | x86 (name name' : String) : Akin (X86.target name) (X86.target name')
  | aarch64 (name name' : String) (f f' : AArch64.Features) :
    Akin (AArch64.target name f) (AArch64.target name' f')

theorem Target.Bundled.akin {target : Target} (ht : target.Bundled) : target.Akin target := by
  cases ht with
  | x86 name => exact .x86 name name
  | aarch64 name f => exact .aarch64 name name f f

/-- What one session accepts for one target and one level is accepted
for all that are akin to it. -/
theorem Config.create_akin {session session' : Session} {target target' : Target} {level : Level}
    {options : Options} {sink : Sink} {c : Config} {entries : List Entry} (ht : target.Akin target')
    (hr : session'.registry = session.registry)
    (h : create session target level options sink = (.ok c, entries)) (level' : Level) :
    ∃ d entries', create session' target' level' options sink = (.ok d, entries') ∧ c.Akin d := by
  obtain ⟨start, stop, print, t, hstart, hstop, hp, hprint, hu, rfl, rfl⟩ := create_prepared_inv h
  rw [← hr] at hstart hstop hp
  rw [create_of_boundaries hstart hstop hp, Build.outcome_setUp _ _ _ _ _ _ hprint]
  cases ht with
  | x86 name name' =>
    rw [Build.outcome_configure_x86 rfl] at hu
    cases hu
    rw [Build.outcome_configure_x86 rfl]
    exact ⟨_, _, rfl, rfl, rfl, rfl, rfl, rfl, rfl⟩
  | aarch64 name name' f f' =>
    rw [Build.outcome_configure_aarch64 rfl] at hu
    cases hu
    rw [Build.outcome_configure_aarch64 rfl]
    exact ⟨_, _, rfl, rfl, rfl, rfl, rfl, rfl, rfl⟩

namespace Session

variable {s : Session} {b : Blueprint} {c : Config} {entries : List Entry}

/-- A pipeline does what is on its agenda, with the allocator `id` in its
one place, as the pass `p`. -/
structure Fulfills (s : Session) (b : Blueprint) (c : Config) (id : PassId) (p : Pass) : Prop where
  selects : ∃ selector, s.allocators.select c.optimizedAllocation b.target.allocators =
    .ok (id, selector)
  standard : id ∈ AllocatorRegistry.standardPasses
  makes : s.registry.instantiate id = .ok p
  remembers : (s.pipeline b).2.allocators.resolved = some id
  passes {items : List Item} :
    (Prospect.ofConfig c).stages b.target.called Build.depthLimit = some items →
      (s.pipeline b).1 = .ok (items.flatMap (Item.passes c s.registry p))
  once {passes : List Pass} : (s.pipeline b).1 = .ok passes →
    (passes.map Pass.id).filter (· ∈ AllocatorRegistry.standardPasses) = [id]

theorem instantiate_allocator :
    ∀ id ∈ AllocatorRegistry.standardPasses, (Standard.registry.instantiate id).isOk := by
  decide

theorem Ordinary.exists_allocator (hs : s.Ordinary) {id : PassId}
    (hid : id ∈ AllocatorRegistry.standardPasses) : ∃ p, s.registry.instantiate id = .ok p := by
  have hmade := instantiate_allocator id hid
  rw [← hs.registry] at hmade
  cases hi : s.registry.instantiate id with
  | error e =>
    rw [hi] at hmade
    cases hmade
  | ok p => exact ⟨p, rfl⟩

theorem instantiate_of_allocatorFor {answers : AllocatorAnswers} {optimized : Bool} {id : PassId}
    {selector : Selector} {p : Pass}
    (hsel : s.allocators.select optimized answers = .ok (id, selector))
    (hp : s.allocatorFor answers optimized = .ok p) : s.registry.instantiate id = .ok p := by
  obtain ⟨id', selector', hsel', hi⟩ := allocatorFor_ok hp
  cases hsel.symm.trans hsel'
  exact hi

theorem eq_of_allocatorFor {answers : AllocatorAnswers} {optimized : Bool} {id : PassId}
    {selector : Selector} {p : Pass}
    (hsel : s.allocators.select optimized answers = .ok (id, selector))
    (hi : s.registry.instantiate id = .ok p) :
    ∀ q, s.allocatorFor answers optimized = .ok q → q = p := by
  intro q hq
  exact Except.ok.inj ((instantiate_of_allocatorFor hsel hq).symm.trans hi)

theorem comesTo_courseOf {p : Pass} {items : List Item}
    (hallocator : ∀ q, s.allocatorFor c.target.allocators c.optimizedAllocation = .ok q → q = p)
    (hitems : (Prospect.ofConfig c).stages c.target.called Build.depthLimit = some items) :
    (s.courseOf c).ComesTo (items.flatMap (Item.passes c s.registry p)) () := by
  have hbuilding : c.Akin { c with phase := .building } := ⟨rfl, rfl, rfl, rfl, rfl, rfl⟩
  rw [← hbuilding.passes]
  exact Config.comesTo_course hallocator hitems

/-- A course has one allocator among its milestones. -/
theorem allocator_of_courseOf (ht : b.target.Bundled) (hc : s.configure b = (.ok c, entries))
    {p : Pass} (hid : p.id ∈ AllocatorRegistry.standardPasses)
    (hallocator : ∀ q, s.allocatorFor c.target.allocators c.optimizedAllocation = .ok q → q = p)
    (hend : (s.courseOf c).ending = .ok ()) :
    ((s.courseOf c).passes.map Pass.id).filter (· ∈ AllocatorRegistry.standardPasses) = [p.id] := by
  have ho := Config.outfitted_of_create ht hc
  have hstages := Outlook.stages_bundled (Outlook.ofConfig c p.id) ht hid
  rw [← ho.target_eq] at hstages
  have hmilestone := (Outlook.standardPasses_facts p.id hid).1
  have hmarks := (ho.describes p.id hmilestone s.registry).course
    (fun q hq => congrArg Pass.id (hallocator q hq)) hstages () hend
  exact (Outlook.allocatesOnce hid hmarks).allocator

/-- A pipeline that is complete selected an allocator, and the session remembers it. -/
theorem exists_selected (ht : b.target.Bundled) (hc : s.configure b = (.ok c, entries))
    {passes : List Pass} (hp : (s.pipeline b).1 = .ok passes) :
    ∃ id selector,
      s.allocators.select c.optimizedAllocation b.target.allocators = .ok (id, selector) ∧
      (s.pipeline b).2.allocators.resolved = some id := by
  obtain ⟨id, hid⟩ := Option.isSome_iff_exists.mp (remembers_of_pipeline ht hc hp)
  generalize hleft : (s.pipeline b).2 = left at hid
  have hsettles := (pipeline_bundled ht hc).2
  rw [hleft] at hsettles
  cases hsettles with
  | none => exact ⟨id, s.allocators, by rw [Selector.select_eq, hid], hid⟩
  | select h =>
    obtain ⟨rfl, -⟩ := Selector.select_ok h
    cases hid
    exact ⟨_, _, h, rfl⟩

/-- Without boundaries the passes are those of the agenda. -/
theorem passes_of_pipeline (ht : b.target.Bundled) (hc : s.configure b = (.ok c, entries))
    (hstart : b.options.startAfter = "") (hstop : b.options.stopAfter = "") {passes : List Pass}
    (hp : (s.pipeline b).1 = .ok passes) {p : Pass}
    (hallocator : ∀ q, s.allocatorFor b.target.allocators c.optimizedAllocation = .ok q → q = p)
    {items : List Item}
    (hitems : (Prospect.ofConfig c).stages b.target.called Build.depthLimit = some items) :
    passes = items.flatMap (Item.passes c s.registry p) := by
  rw [← (Config.outfitted_of_create ht hc).target_eq] at hallocator hitems
  rw [(pipeline_bundled ht hc).1,
    result_eq_ok_iff (Config.placement_of_create ht hc hstart hstop)] at hp
  obtain ⟨hend, rfl, -⟩ := hp
  exact (comesTo_courseOf hallocator hitems () hend).1

/-- In ordinary sessions every complete pipeline of a bundled target fulfills its agenda. -/
theorem exists_fulfills (hs : s.Ordinary) (ht : b.target.Bundled)
    (hc : s.configure b = (.ok c, entries))
    (hstart : b.options.startAfter = "") (hstop : b.options.stopAfter = "")
    (hsched : b.options.enableMachineSched.Valid) : ∃ id p, s.Fulfills b c id p := by
  obtain ⟨passes, hp⟩ := exists_pipeline hs ht hc hstart hstop hsched
  obtain ⟨id, selector, hsel, hremembers⟩ := exists_selected ht hc hp
  obtain ⟨id', selector', hsel', hid⟩ := hs.select ht c.optimizedAllocation
  cases hsel.symm.trans hsel'
  obtain ⟨p, hi⟩ := hs.exists_allocator hid
  have hallocator := eq_of_allocatorFor hsel hi
  refine ⟨id, p, ⟨selector, hsel⟩, hid, hi, hremembers, ?_, ?_⟩
  · intro items hitems
    rw [hp, passes_of_pipeline ht hc hstart hstop hp hallocator hitems]
  · intro passes hpasses
    cases hp.symm.trans hpasses
    obtain rfl := Registry.instantiate_id hi
    rw [(pipeline_bundled ht hc).1,
      result_eq_ok_iff (Config.placement_of_create ht hc hstart hstop)] at hp
    obtain ⟨hend, rfl, -⟩ := hp
    rw [← (Config.outfitted_of_create ht hc).target_eq] at hallocator
    exact allocator_of_courseOf ht hc hid hallocator hend

end Session

end PassPipeline
