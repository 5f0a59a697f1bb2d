import PassPipeline.Proofs.Course
import PassPipeline.Proofs.Diagnostics
import PassPipeline.Proofs.Expansion
import PassPipeline.Proofs.Refusal

/-! How pipelines allocate registers. The kinds by which code leaves SSA form and gets its
registers are the milestones of a pipeline. Which of them come, and in which order, can be
read off the stages once it is known which path is taken, how SSA form is left and whether
there is a machine scheduler. -/
namespace PassPipeline

def milestones : List PassId :=
  [Standard.phiElimination, Standard.strongPHIElimination, Standard.twoAddressInstruction,
    Standard.registerCoalescer, Standard.machineScheduler, Standard.virtRegMapping] ++
    AllocatorRegistry.standardPasses

def PassId.isMilestone (id : PassId) : Bool := id ∈ milestones

/-- What the milestones of a pipeline depend on. -/
structure Outlook where
  optimized : Bool
  strongPHIs : Bool
  scheduling : Bool
  allocator : PassId

namespace Outlook

variable (o : Outlook)

def knows : Query → Option Bool
  | .holds .optimizedAllocation => some o.optimized
  | .holds (.switch .strongPHIElim) => some o.strongPHIs
  | _ => none

/-- What comes behind a question, if it does not depend on an answer that is not known. -/
def branch (known : Option Bool) (yes no : Option (List PassId)) : Option (List PassId) :=
  match known with
  | some true => yes
  | some false => no
  | none => if yes = no then yes else none

theorem branch_eq_some {known : Option Bool} {yes no : Option (List PassId)} {l : List PassId}
    {a : Bool} (h : branch known yes no = some l) (ha : ∀ b ∈ known, a = b) :
    (if a then yes else no) = some l := by
  cases known with
  | some b =>
    obtain rfl := ha b rfl
    cases a <;> exact h
  | none =>
    obtain ⟨rfl, hyes⟩ := Option.ite_none_right_eq_some.mp h
    simpa using hyes

def request (kind : PassId) : List PassId :=
  if kind.isMilestone && (kind ≠ Standard.machineScheduler || o.scheduling) then [kind] else []

section scripts

variable (calls : StageCall → Option (List PassId)) (stage : Option Stage)

def query : Query → Option (List PassId)
  | .holds _ => some []
  | .schedules kind _ => some (o.request kind)
  | .stage stage => calls { stage }
  | .standard =>
    match stage with
    | some stage => calls { stage, standard := true }
    | none => some []

/-- The milestones on the way through a script, if they are the same on all ways. -/
def script : Script → Option (List PassId)
  | .skip | .claim | .run (.print _ _) | .run (.printAndVerify _) => some []
  | .run (.allocate optimized) =>
    calls { stage := if optimized then .optimizedRegAlloc else .fastRegAlloc }
  | .run .placeAllocator => some [o.allocator]
  | .run _ => none
  | .seq first second => do return (← script first) ++ (← script second)
  | .ask q yes no => do
    return (← o.query calls stage q) ++ (← branch (o.knows q) (script yes) (script no))

end scripts

def stage (scripts : StageCall → Script) : (depth : Nat) → StageCall → Option (List PassId)
  | 0, _ => none
  | depth + 1, call => o.script (stage scripts depth) (some call.stage) (scripts call)

def stages (scripts : StageCall → Script) (depth : Nat) : Option (List PassId) := do
  let ir ← o.stage scripts depth { stage := .irPasses }
  let prepare ← o.stage scripts depth { stage := .iselPrepare }
  let select ← o.stage scripts depth { stage := .instSelector }
  let machine ← o.stage scripts depth { stage := .machinePasses }
  return ir ++ (prepare ++ (select ++ machine))

def sequence : List PassId :=
  if o.optimized then
    (if o.strongPHIs then [Standard.twoAddressInstruction, Standard.strongPHIElimination]
      else [Standard.phiElimination, Standard.twoAddressInstruction]) ++
    [Standard.registerCoalescer] ++ (if o.scheduling then [Standard.machineScheduler] else []) ++
    [o.allocator, Standard.virtRegMapping]
  else [Standard.phiElimination, Standard.twoAddressInstruction, o.allocator]

/-- Every bundled target has its milestones in this order. -/
theorem stages_bundled {target : Target} (ht : target.Bundled)
    (ha : o.allocator ∈ AllocatorRegistry.standardPasses) :
    o.stages target.called Build.depthLimit = some o.sequence := by
  obtain ⟨optimized, strongPHIs, scheduling, allocator⟩ := o
  rcases ht.called_cases with he | ⟨loh, he⟩ <;> rw [he]
  · have hall : ∀ a ∈ AllocatorRegistry.standardPasses, ∀ optimized strongPHIs scheduling : Bool,
        stages ⟨optimized, strongPHIs, scheduling, a⟩ (X86.target "").called Build.depthLimit =
          some (sequence ⟨optimized, strongPHIs, scheduling, a⟩) := by
      decide +kernel
    exact hall allocator ha _ _ _
  · have hall : ∀ a ∈ AllocatorRegistry.standardPasses,
        ∀ optimized strongPHIs scheduling loh : Bool,
        stages ⟨optimized, strongPHIs, scheduling, a⟩
            (AArch64.target "" { collectLOH := loh }).called Build.depthLimit =
          some (sequence ⟨optimized, strongPHIs, scheduling, a⟩) := by
      decide +kernel
    exact hall allocator ha _ _ _ _

end Outlook

/-- The milestones among the passes of some work, if it ends well. -/
def Unfolding.Marks {α : Type} (x : Unfolding α) (l : List PassId) : Prop :=
  ∀ a, x.ending = .ok a → (x.passes.map Pass.id).filter PassId.isMilestone = l

namespace Unfolding.Marks

variable {α β : Type} {x : Unfolding α} {l m : List PassId}

theorem answer (a : Except Defect α) : Marks { ending := a } [] := fun _ _ => rfl

theorem bind {g : α → Unfolding β} (hx : x.Marks l) (hg : ∀ a, x.ending = .ok a → (g a).Marks m) :
    (x.bind g).Marks (l ++ m) := by
  intro b hb
  rcases ha : x.ending with d | a
  · rw [bind_error ha] at hb
    cases hb
  · rw [bind_ok ha] at hb ⊢
    simp [hx a ha, hg a ha b hb]

theorem map {g : α → Unfolding β} (hx : x.Marks l) (hg : ∀ a, (g a).passes = []) :
    (x.bind g).Marks l := by
  have h := hx.bind (g := g) (m := []) fun a _ b _ => by simp [hg]
  simpa using h

end Unfolding.Marks

namespace Config

variable {c : Config} {r : Registry}

/-- Passes of kinds that are no milestones, with all that is inserted behind them. -/
theorem Expands.unmarked {ids : List PassId} {l : List Pass} (h : c.Expands r ids l)
    (hins : ∀ i ∈ c.insertions, ∀ final, c.resolve i.inserted = .ok final →
      final.isMilestone = false)
    (hids : ∀ id ∈ ids, ∀ final, c.resolve id = .ok final → final.isMilestone = false) :
    (l.map Pass.id).filter PassId.isMilestone = [] := by
  induction h with
  | nil => rfl
  | suppressed h rest ih => exact ih fun id hid => hids id (List.mem_cons_of_mem _ hid)
  | @scheduled id final ids p inserted l h hn hp behind rest ihb ihr =>
    have hfinal := hids id List.mem_cons_self final h
    have hbehind := ihb fun kind hkind => hins _ (mem_insertions hkind)
    have hrest := ihr fun id hid => hids id (List.mem_cons_of_mem _ hid)
    simp only [List.cons_append, List.map_cons, List.map_append, List.filter_cons,
      List.filter_append, Pass.withSink_id, Registry.instantiate_id hp, hfinal, hbehind, hrest]
    simp

/-- A request leaves the milestone that it leads to, if it leads to one. -/
theorem marks_unfold
    (hins : ∀ i ∈ c.insertions, ∀ final, c.resolve i.inserted = .ok final →
      final.isMilestone = false)
    {l : List PassId} {id : PassId}
    (hid : ∀ final, c.resolve id = .ok final → (if final.isMilestone then [final] else []) = l)
    (room : Nat) : (c.unfold r room id).Marks l := by
  intro final hfinal
  obtain ⟨hres, hexp⟩ := expands_of_unfold hfinal
  rw [← hid final hres]
  generalize (c.unfold r room id).passes = passes at hexp
  cases hexp with
  | suppressed h rest =>
    cases rest
    cases hres.symm.trans h
    rfl
  | @scheduled _ final' _ p inserted _ h hn hp behind rest =>
    cases rest
    cases hres.symm.trans h
    have hbehind := behind.unmarked hins fun kind hkind => hins _ (mem_insertions hkind)
    simp [List.filter_cons, Registry.instantiate_id hp, hbehind]

end Config

namespace Outlook

variable {o : Outlook} {c : Config} {r : Registry} {allocator : Except Defect Pass}

/-- What is known of a configuration is right. -/
structure Describes (o : Outlook) (r : Registry) (c : Config) : Prop where
  holds {q : Condition} {b : Bool} : o.knows (.holds q) = some b → q.holds c = b
  request (kind : PassId) : (c.unfold r c.insertions.length kind).Marks (o.request kind)
  allocator : o.allocator.isMilestone

namespace Describes

variable (h : o.Describes r c)
include h

section scripts

variable {calls : StageCall → Option (List PassId)} {courses : Config.Courses} {frame : Frame}
  {l : List PassId}

theorem answer_of_knows {q : Query} {a b : Bool} (hq : o.knows q = some b)
    (ha : (c.queryCourse r courses frame q).ending = .ok a) : a = b := by
  cases q with
  | holds condition =>
    cases ha
    exact h.holds hq
  | schedules kind reported => cases hq
  | stage stage => cases hq
  | standard => cases hq

variable
  (hcalls : ∀ ⦃sc p l⦄, (∀ q ∈ p, q.id = o.allocator) → calls sc = some l → (courses sc p).Marks l)
  (hframe : ∀ q ∈ frame.allocator, q.id = o.allocator)
include hcalls hframe

theorem query {q : Query} (hq : o.query calls frame.stage q = some l) :
    (c.queryCourse r courses frame q).Marks l := by
  cases q with
  | holds condition =>
    cases hq
    exact .answer _
  | schedules kind reported =>
    cases hq
    exact (h.request kind).map fun _ => rfl
  | stage stage => exact hcalls hframe hq
  | standard =>
    cases hs : frame.stage with
    | none =>
      simp only [Outlook.query, hs] at hq
      cases hq
      simpa [Config.queryCourse, hs] using Unfolding.Marks.answer (.ok false)
    | some stage =>
      simp only [Outlook.query, hs] at hq
      simpa [Config.queryCourse, hs] using hcalls hframe hq

theorem command {command : Command} (hallocator : ∀ p, allocator = .ok p → p.id = o.allocator)
    (hs : o.script calls frame.stage (.run command) = some l) :
    (c.commandCourse r allocator courses frame command).Marks l := by
  cases command with
  | print subject banner =>
    cases hs
    intro _ _
    cases subject <;> rfl
  | printAndVerify banner =>
    cases hs
    intro _ _
    unfold Config.commandCourse Config.shown
    cases c.printMachineCode <;> cases c.options.verifyMachineCode <;> rfl
  | allocate optimized =>
    rw [Config.commandCourse]
    split
    · have hcall (p : Pass) (hp : allocator = .ok p) :
          (courses { stage := if optimized then .optimizedRegAlloc else .fastRegAlloc }
            (some p)).Marks l := by
        refine hcalls ?_ hs
        rintro _ ⟨⟩
        exact hallocator p hp
      exact Unfolding.Marks.bind (.answer allocator) fun p hp => (hcall p hp).map fun _ => rfl
    · intro _ ha
      cases ha
  | placeAllocator =>
    cases hs
    cases hh : frame.allocator with
    | none =>
      intro _ ha
      simp [Config.commandCourse, hh] at ha
    | some p =>
      intro _ _
      have hid := hframe p hh
      simp [Config.commandCourse, hh, hid, h.allocator]
  | place | substitute | insert | set | build => cases hs

theorem script (hallocator : ∀ p, allocator = .ok p → p.id = o.allocator) {script : Script}
    (hs : o.script calls frame.stage script = some l) :
    (c.scriptCourse r allocator courses frame script).Marks l := by
  induction script generalizing l with
  | skip =>
    cases hs
    exact .answer _
  | claim =>
    cases hs
    exact .answer _
  | run command => exact (h.command hcalls hframe hallocator hs).map fun _ => rfl
  | seq first second ih₁ ih₂ =>
    obtain ⟨l₁, h₁, hs⟩ := Option.bind_eq_some_iff.mp hs
    obtain ⟨l₂, h₂, hs⟩ := Option.bind_eq_some_iff.mp hs
    cases hs
    exact (ih₁ h₁).bind fun a _ => (ih₂ h₂).map fun _ => rfl
  | ask q yes no ihy ihn =>
    obtain ⟨l₁, h₁, hs⟩ := Option.bind_eq_some_iff.mp hs
    obtain ⟨l₂, h₂, hs⟩ := Option.bind_eq_some_iff.mp hs
    cases hs
    refine (h.query hcalls hframe h₁).bind fun a ha => ?_
    have hbranch := branch_eq_some h₂ fun b hb => h.answer_of_knows hb ha
    cases a with
    | true => exact ihy hbranch
    | false => exact ihn hbranch

end scripts

theorem stage (hallocator : ∀ p, allocator = .ok p → p.id = o.allocator) {depth : Nat}
    {sc : StageCall} {p : Option Pass} {l : List PassId} (hp : ∀ q ∈ p, q.id = o.allocator)
    (hl : o.stage c.target.called depth sc = some l) :
    (c.stageCourse r allocator depth sc p).Marks l := by
  induction depth generalizing sc p l with
  | zero => cases hl
  | succ depth ih =>
    refine h.script (fun sc p l => ih) ?_ hallocator hl
    dsimp only
    split
    · exact hp
    · simp

/-- The milestones of a course are those that the stages have. -/
theorem course (hallocator : ∀ p, allocator = .ok p → p.id = o.allocator) {l : List PassId}
    (hl : o.stages c.target.called Build.depthLimit = some l) : (c.course r allocator).Marks l := by
  obtain ⟨ir, h₁, hl⟩ := Option.bind_eq_some_iff.mp hl
  obtain ⟨prepare, h₂, hl⟩ := Option.bind_eq_some_iff.mp hl
  obtain ⟨select, h₃, hl⟩ := Option.bind_eq_some_iff.mp hl
  obtain ⟨machine, h₄, hl⟩ := Option.bind_eq_some_iff.mp hl
  cases hl
  have hnone : ∀ q ∈ (none : Option Pass), q.id = o.allocator := by simp
  exact (h.stage hallocator hnone h₁).bind fun _ _ => (h.stage hallocator hnone h₂).bind fun _ _ =>
    (h.stage hallocator hnone h₃).bind fun _ _ => (h.stage hallocator hnone h₄).map fun _ => rfl

end Describes

/-- What is to be known of a configuration. -/
def ofConfig (c : Config) (allocator : PassId) : Outlook where
  optimized := c.optimizedAllocation
  strongPHIs := c.options.enableStrongPHIElim
  scheduling := c.resolve Standard.machineScheduler = .ok Standard.machineScheduler
  allocator

end Outlook

namespace Config

variable {c : Config} {target : Target} {level : Level} {options : Options}
  {l : List (PassId × PassId)} {more : List Insertion}

/-- No target puts another kind in the place of a milestone or a milestone in the place of another
kind, and there is no scheduler unless it is asked for. -/
theorem Outfit.milestones (h : Outfit target l more) :
    (∀ id ∈ milestones, id ≠ Standard.machineScheduler → standIn l id = id) ∧
      standIn l Standard.machineScheduler = .none ∧ ∀ entry ∈ l, entry.2.isMilestone = false := by
  cases h with
  | x86 name => decide
  | aarch64 name f => decide

theorem milestones_rule? :
    ∀ id ∈ milestones, id ≠ Standard.machineScheduler → (Override.rule? id).isNone := by
  decide

namespace Outfitted

variable (h : Outfitted target level options c)
include h

theorem resolve_milestone {id : PassId} (hid : id.isMilestone)
    (hne : id ≠ Standard.machineScheduler) : c.resolve id = .ok id := by
  obtain ⟨print, more, -, ho, -⟩ := h.outfit
  have hmem : id ∈ milestones := of_decide_eq_true hid
  have hsub : c.substitution id = id := ho.milestones.1 id hmem hne
  rw [c.resolve_of_rule? (milestones_rule? id hmem hne), hsub]

theorem resolve_other {id final : PassId} (hid : id.isMilestone = false)
    (hf : c.resolve id = .ok final) : final.isMilestone = false := by
  obtain ⟨print, more, -, ho, -⟩ := h.outfit
  rcases cases_of_resolve hf with rfl | rfl | ⟨rfl, rfl⟩
  · rfl
  · unfold substitution
    cases he : c.substitutions.find? (·.1 = id) with
    | none => exact hid
    | some entry => exact ho.milestones.2.2 entry (List.mem_of_find?_eq_some he)
  · exact hid

theorem request_eq {id final : PassId} (hf : c.resolve id = .ok final) (a : PassId) :
    (if final.isMilestone then [final] else []) = (Outlook.ofConfig c a).request id := by
  obtain ⟨print, more, -, ho, -⟩ := h.outfit
  unfold Outlook.request Outlook.ofConfig
  by_cases hs : id = Standard.machineScheduler
  · subst hs
    have hnone : c.substitution Standard.machineScheduler = .none := ho.milestones.2.1
    have hcases := cases_of_resolve hf
    rw [hnone] at hcases
    rcases hcases with rfl | rfl | ⟨rfl, -⟩
    · simp [hf, show PassId.none.isMilestone = false from rfl,
        show PassId.none ≠ Standard.machineScheduler by decide]
    · simp [hf, show PassId.none.isMilestone = false from rfl,
        show PassId.none ≠ Standard.machineScheduler by decide]
    · simp [hf, show Standard.machineScheduler.isMilestone = true from rfl]
  · cases hm : id.isMilestone with
    | true =>
      cases (h.resolve_milestone hm hs).symm.trans hf
      simp [hm, hs]
    | false => simp [h.resolve_other hm hf]

theorem describes (a : PassId) (ha : a.isMilestone) (r : Registry) :
    (Outlook.ofConfig c a).Describes r { c with phase := .building } := by
  obtain ⟨print, more, -, ho, hi⟩ := h.outfit
  have hins : ∀ i ∈ c.insertions, i.inserted.isMilestone = false := by
    intro i hmem
    rw [hi] at hmem
    rcases List.mem_append.mp hmem with hmem | hmem
    · obtain ⟨anchor, -, rfl⟩ := List.mem_map.mp hmem
      rfl
    · rcases ho.insertions_cases with rfl | rfl
      · cases hmem
      · obtain rfl := List.mem_singleton.mp hmem
        rfl
  refine ⟨?_, fun kind => ?_, ha⟩
  · intro q b hq
    cases q with
    | optimizedAllocation => exact Option.some.inj hq
    | switch s => cases s <;> first | exact Option.some.inj hq | cases hq
    | optimizing | verifyDisabled => cases hq
  · exact marks_unfold (c := { c with phase := .building })
      (fun i hi final hf => h.resolve_other (hins i hi) hf) (fun final hf => h.request_eq hf a) _

end Outfitted

end Config

/-- The kinds that come before an allocator. -/
def forerunners : List PassId :=
  [Standard.phiElimination, Standard.strongPHIElimination, Standard.twoAddressInstruction,
    Standard.registerCoalescer, Standard.machineScheduler]

/-- A list of kinds leaves SSA form once and then allocates registers once, by the kind `a`. -/
structure AllocatesOnce (a : PassId) (optimized : Prop) (ids : List PassId) : Prop where
  allocator : ids.filter (· ∈ AllocatorRegistry.standardPasses) = [a]
  phiElimination : ids.count Standard.phiElimination + ids.count Standard.strongPHIElimination = 1
  twoAddress : ids.count Standard.twoAddressInstruction = 1
  coalescer : Standard.registerCoalescer ∈ ids ↔ optimized
  rewriter : Standard.virtRegMapping ∈ ids ↔ optimized
  scheduler : Standard.machineScheduler ∈ ids → optimized
  before : ∀ kind ∈ forerunners, Constraint.Respected ⟨kind, a⟩ ids
  between : Constraint.Respected ⟨Standard.registerCoalescer, Standard.machineScheduler⟩ ids
  behind : Constraint.Respected ⟨a, Standard.virtRegMapping⟩ ids

namespace Outlook

theorem standardPasses_facts : ∀ a ∈ AllocatorRegistry.standardPasses,
    a.isMilestone ∧ a ≠ Standard.virtRegMapping ∧ ∀ kind ∈ forerunners, kind ≠ a := by
  decide

theorem sequence_facts :
    ∀ a ∈ AllocatorRegistry.standardPasses, ∀ optimized strongPHIs scheduling : Bool,
    let ids := sequence ⟨optimized, strongPHIs, scheduling, a⟩
    ids.filter (· ∈ AllocatorRegistry.standardPasses) = [a] ∧
      ids.count Standard.phiElimination + ids.count Standard.strongPHIElimination = 1 ∧
      ids.count Standard.twoAddressInstruction = 1 ∧
      (Standard.registerCoalescer ∈ ids ↔ optimized) ∧ (Standard.virtRegMapping ∈ ids ↔ optimized) ∧
      (Standard.machineScheduler ∈ ids → optimized) ∧
      (∀ kind ∈ forerunners, Order.isBroken ids ⟨kind, a⟩ = false) ∧
      Order.isBroken ids ⟨Standard.registerCoalescer, Standard.machineScheduler⟩ = false ∧
      Order.isBroken ids ⟨a, Standard.virtRegMapping⟩ = false := by
  decide +kernel

theorem allocatesOnce {o : Outlook} {ids : List PassId}
    (ha : o.allocator ∈ AllocatorRegistry.standardPasses)
    (h : ids.filter PassId.isMilestone = o.sequence) :
    AllocatesOnce o.allocator (o.optimized = true) ids := by
  obtain ⟨hallocator, hphi, htwo, hcoalescer, hrewriter, hscheduler, hbefore, hbetween, hbehind⟩ :=
    sequence_facts o.allocator ha o.optimized o.strongPHIs o.scheduling
  obtain ⟨hmile, hne, hfore⟩ := standardPasses_facts o.allocator ha
  have hmem {id : PassId} (hid : id.isMilestone) : id ∈ ids ↔ id ∈ o.sequence := by
    rw [← h, List.mem_filter]
    simp [hid]
  have hcount {id : PassId} (hid : id.isMilestone) : ids.count id = o.sequence.count id := by
    rw [← h, List.count_filter hid]
  have hrespected {first second : PassId} (hne : first ≠ second) (hf : first.isMilestone)
      (hs : second.isMilestone) (hb : Order.isBroken o.sequence ⟨first, second⟩ = false) :
      Constraint.Respected ⟨first, second⟩ ids := by
    rw [← Order.respected_filter (c := ⟨first, second⟩) hne hf hs, h]
    exact Order.isBroken_eq_false_iff.mp hb
  have hforerunners : ∀ kind ∈ forerunners, kind.isMilestone := by decide
  refine ⟨?_, ?_, ?_, ?_, ?_, ?_, ?_, ?_, ?_⟩
  · have hsub : ids.filter (· ∈ AllocatorRegistry.standardPasses) =
        (ids.filter PassId.isMilestone).filter (· ∈ AllocatorRegistry.standardPasses) := by
      rw [List.filter_filter]
      refine List.filter_congr fun id _ => ?_
      by_cases hid : id ∈ AllocatorRegistry.standardPasses
      · simp [hid, (standardPasses_facts id hid).1]
      · simp [hid]
    rw [hsub, h]
    exact hallocator
  · rw [hcount rfl, hcount rfl]
    exact hphi
  · rw [hcount rfl]
    exact htwo
  · exact (hmem rfl).trans hcoalescer
  · exact (hmem rfl).trans hrewriter
  · exact fun hid => hscheduler ((hmem rfl).mp hid)
  · intro kind hkind
    exact hrespected (hfore kind hkind) (hforerunners kind hkind) hmile (hbefore kind hkind)
  · exact hrespected (by decide) rfl rfl hbetween
  · exact hrespected hne hmile rfl hbehind

end Outlook

/-- Whether a pipeline is to take the optimized path of register allocation: an option
decides, or else the level. -/
def Blueprint.OptimizesAllocation (b : Blueprint) : Prop :=
  b.options.optimizeRegAlloc = .on ∨ b.options.optimizeRegAlloc ≠ .off ∧ b.level ≠ .none

namespace Session

variable {s : Session} {b : Blueprint} {c : Config} {entries : List Entry} {passes : List Pass}

theorem optimizedAllocation_iff (ht : b.target.Bundled) (hc : s.configure b = (.ok c, entries)) :
    c.optimizedAllocation = true ↔ b.OptimizesAllocation := by
  have ho := Config.outfitted_of_create ht hc
  unfold Config.optimizedAllocation Blueprint.OptimizesAllocation
  rw [ho.options_eq, ho.level_eq]
  by_cases hon : b.options.optimizeRegAlloc = .on
  · simp [hon]
  · by_cases hoff : b.options.optimizeRegAlloc = .off
    · simp [hoff, show Tristate.off ≠ Tristate.on by decide]
    · simp [hon, hoff, Level.optimizing]

theorem buildInto_of_build {result : Except Refusal (List Pass)} {u : Construction}
    (h : c.work s (Build.build Build.stages) = (.ok result, u)) :
    ∃ answer, c.work s (Build.buildInto Build.stages) = (.ok answer, u) := by
  rw [Build.work_eq, Build.outcome_build] at h
  rw [Build.work_eq]
  rcases hb : (Build.buildInto Build.stages).outcome { session := s, config := c } with
    ⟨d | (_ | r), u'⟩ <;> simp only [hb] at h
  · cases h
  · split at h <;> cases h
    exact ⟨none, rfl⟩
  · cases h
    exact ⟨some r, rfl⟩

theorem remembers_of_pipeline (ht : b.target.Bundled) (hc : s.configure b = (.ok c, entries))
    (hp : (s.pipeline b).1 = .ok passes) : (s.pipeline b).2.allocators.resolved.isSome := by
  unfold pipeline at hp ⊢
  simp only [hc] at hp ⊢
  rcases hw : c.work s (Build.build Build.stages) with ⟨d | (r | l), t⟩ <;> simp only [hw] at hp ⊢
  · cases hp
  · cases hp
  · obtain ⟨answer, hb⟩ := buildInto_of_build hw
    obtain ⟨-, v, hrun, -, rfl⟩ := Build.buildInto_inv hb
    have htarget : c.target = b.target := configure_target hc
    exact ((Build.recalling_sound b.target).runStages (recalling_bundled ht) htarget
      (by simp) hrun).2 rfl

/-- Every complete pipeline allocates registers once and leaves SSA form once. -/
theorem pipeline_allocates_once (hs : s.Ordinary) (ht : b.target.Bundled)
    (hc : s.configure b = (.ok c, entries)) (hstart : b.options.startAfter = "")
    (hstop : b.options.stopAfter = "") :
    (b.options.enableMachineSched.Valid → ∃ passes, (s.pipeline b).1 = .ok passes) ∧
    ∀ passes, (s.pipeline b).1 = .ok passes →
      ∃ a, (s.pipeline b).2.allocators.resolved = some a ∧
        AllocatesOnce a b.OptimizesAllocation (passes.map Pass.id) := by
  refine ⟨exists_pipeline hs ht hc hstart hstop, fun passes hp => ?_⟩
  obtain ⟨hresult, hsettles⟩ := pipeline_bundled ht hc
  have ho := Config.outfitted_of_create ht hc
  obtain ⟨a, selector, hsel, ha⟩ := hs.select ht c.optimizedAllocation
  refine ⟨a, hsettles.resolved_eq hsel (remembers_of_pipeline ht hc hp), ?_⟩
  rw [hresult, result_eq_ok_iff (Config.placement_of_create ht hc hstart hstop)] at hp
  obtain ⟨hend, rfl, -⟩ := hp
  -- The allocator of the course is the one that is selected.
  have hallocator :
      ∀ p, s.allocatorFor c.target.allocators c.optimizedAllocation = .ok p → p.id = a := by
    intro p hp
    obtain ⟨id, selector', hsel', hi⟩ := allocatorFor_ok hp
    rw [ho.target_eq] at hsel'
    cases hsel.symm.trans hsel'
    exact Registry.instantiate_id hi
  have hstages := Outlook.stages_bundled (Outlook.ofConfig c a) ht ha
  rw [← ho.target_eq] at hstages
  have hmarks := (ho.describes a (Outlook.standardPasses_facts a ha).1 s.registry).course hallocator
    hstages () hend
  rw [← optimizedAllocation_iff ht hc]
  exact Outlook.allocatesOnce ha hmarks

/-- On x86-64, with strong elimination and scheduling. -/
def thorough : Blueprint where
  target := Platform.x86Linux.target
  level := ⟨2⟩
  options := { enableStrongPHIElim := true, enableMachineSched := .on }

/-- In a session that remembers the fast allocator, that is the one that
comes behind the scheduler. -/
theorem pipeline_allocates_once_thorough : ∃ passes,
    ((remembering false (some Standard.regAllocFast)).pipeline thorough).1 = .ok passes ∧
    Standard.machineScheduler ∈ passes.map Pass.id ∧
    AllocatesOnce Standard.regAllocFast thorough.OptimizesAllocation (passes.map Pass.id) := by
  have hs : (remembering false (some Standard.regAllocFast)).Ordinary :=
    ⟨rfl, ⟨"", rfl⟩, by rintro _ ⟨⟩; decide⟩
  have hrun :
      ∃ c ∈ ((remembering false (some Standard.regAllocFast)).configure thorough).1.toOption,
      ∃ passes ∈ ((remembering false (some Standard.regAllocFast)).pipeline thorough).1.toOption,
        Standard.machineScheduler ∈ passes.map Pass.id ∧
        ((remembering false (some Standard.regAllocFast)).pipeline thorough).2.allocators.resolved =
          some Standard.regAllocFast := by
    decide +kernel
  obtain ⟨c, hc, passes, hp, hsched, hresolved⟩ := hrun
  have hc := eq_of_mem_toOption hc
  have hp := congrArg Prod.fst (eq_of_mem_toOption hp)
  obtain ⟨a, ha, honce⟩ :=
    (pipeline_allocates_once hs (Platform.bundled .x86Linux) hc rfl rfl).2 passes hp
  cases hresolved.symm.trans ha
  exact ⟨passes, hp, hsched, honce⟩

end Session

end PassPipeline
