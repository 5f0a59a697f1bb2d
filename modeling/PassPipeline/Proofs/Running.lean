import PassPipeline.Pass.Run
import PassPipeline.Proofs.Course

/-! Running pipelines. Kinds of a registry make no pass that can fail on an intact unit,
and the bundled targets place no others: a pipeline of theirs runs to its end, and
leaves one trace for every pass. -/
namespace PassPipeline

/-- Whether a pass leaves its trace and goes on, on every unit that is intact. -/
def Pass.runs (p : Pass) : Bool :=
  match p.work with
  | .ordinary | .print _ _ _ | .verify _ => true
  | .fail _ | .cancel => false

@[simp] theorem Pass.runs_withSink (sink : Sink) (p : Pass) : (p.withSink sink).runs = p.runs := by
  obtain ⟨id, name, work⟩ := p
  cases work <;> rfl

theorem Registry.runs_of_instantiate {r : Registry} {id : PassId} {p : Pass}
    (h : r.instantiate id = .ok p) : p.runs := by
  unfold instantiate at h
  split at h
  · cases h
  · split at h <;> cases h <;> rfl

namespace Run

variable {r : Run} {p : Pass} {ps : List Pass}

theorem step_of_runs (hp : p.runs) (hu : r.unit.broken = none) :
    ∃ written, r.step p = ({ r with unit := r.unit.record p.name, written }, none) := by
  have hfault : (r.unit.record p.name).fault? = none := by
    simp only [CompilationUnit.fault?, CompilationUnit.record]
    split <;> simp [hu]
  unfold step
  cases hw : p.work with
  | ordinary => exact ⟨r.written, rfl⟩
  | print subject banner sink => exact ⟨_, rfl⟩
  | verify banner => exact ⟨r.written, by simp [record, hfault]⟩
  | fail text => simp [Pass.runs, hw] at hp
  | cancel => simp [Pass.runs, hw] at hp

/-- Passes that run leave one trace each, in their order. -/
theorem stepsFrom_of_runs (hps : ∀ p ∈ ps, p.runs) (hc : r.cancelled = false)
    (hbare : r.unit.bare = false) (hu : r.unit.broken = none) (index : Nat) :
    ∃ written, stepsFrom index ps r =
      ({ r with unit := { r.unit with trace := r.unit.trace ++ ps.map Pass.name }, written },
        none) := by
  induction ps generalizing r index with
  | nil => exact ⟨r.written, by simp [stepsFrom]⟩
  | cons p ps ih =>
    obtain ⟨written, hstep⟩ := step_of_runs (hps p List.mem_cons_self) hu
    have hrecord : r.unit.record p.name = { r.unit with trace := r.unit.trace ++ [p.name] } := by
      simp [CompilationUnit.record, hbare]
    rw [hrecord] at hstep
    obtain ⟨later, hrest⟩ := ih
      (r := { r with unit := { r.unit with trace := r.unit.trace ++ [p.name] }, written })
      (fun q hq => hps q (List.mem_cons_of_mem p hq)) hc hbare hu (index + 1)
    refine ⟨later, ?_⟩
    rw [stepsFrom, if_neg (by simp [hc]), hstep]
    simpa using hrest

theorem passes_of_runs (hps : ∀ p ∈ ps, p.runs) (name : String) :
    ∃ written, Run.passes ps { unit := { name } } =
      ({ unit := { name, trace := ps.map Pass.name }, written }, none) := by
  obtain ⟨written, h⟩ := stepsFrom_of_runs (r := { unit := { name } }) hps rfl rfl rfl 0
  exact ⟨written, h⟩

end Run

/-- Where the passes of a pipeline come from: they were made for it,
or selected as its allocator. -/
inductive Pass.Origin (sink : Sink) (allocator : Except Defect Pass) : Pass → Prop
  | made {p : Pass} (h : p.runs) : Origin sink allocator (p.withSink sink)
  | selected {p : Pass} (h : allocator = .ok p) : Origin sink allocator p

theorem Pass.Origin.printer (sink : Sink) (allocator : Except Defect Pass) (subject : Subject)
    (banner : String) : Origin sink allocator (.printer subject sink banner) :=
  .made (p := .printer subject sink banner) rfl

theorem Pass.Origin.verifier (sink : Sink) (allocator : Except Defect Pass) (banner : String) :
    Origin sink allocator (.verifier banner) :=
  .made (p := .verifier banner) rfl

namespace Unfolding

variable {α β : Type} {sink : Sink} {allocator : Except Defect Pass} {x : Unfolding α}
  {f : α → Unfolding β}

/-- An unfolding that places only such passes. -/
def Sourced (sink : Sink) (allocator : Except Defect Pass) (x : Unfolding α) : Prop :=
  ∀ p ∈ x.passes, p.Origin sink allocator

theorem sourced_nil (ending : Except Defect α) : Sourced sink allocator { ending } := by
  simp [Sourced]

theorem sourced_singleton {p : Pass} (h : p.Origin sink allocator) (ending : Except Defect α) :
    Sourced sink allocator { passes := [p], ending } := by
  simpa [Sourced] using h

theorem Sourced.bind (hx : x.Sourced sink allocator)
    (hf : ∀ a, x.ending = .ok a → (f a).Sourced sink allocator) :
    (x.bind f).Sourced sink allocator := by
  rcases he : x.ending with d | a
  · rw [bind_error he]
    exact hx
  · rw [bind_ok he]
    intro p hp
    rcases List.mem_append.mp hp with hp | hp
    · exact hx p hp
    · exact hf a he p hp

theorem sourced_all {g : PassId → Unfolding PassId} (h : ∀ id, (g id).Sourced sink allocator)
    (ids : List PassId) : (all g ids).Sourced sink allocator := by
  induction ids with
  | nil => exact sourced_nil _
  | cons id ids ih => exact (h id).bind fun _ _ => ih

end Unfolding

/-- Whether all passes that a script brings with it run. -/
def Script.running : Script → Bool
  | .run (.place (.ready p)) => p.runs
  | .seq first second => running first && running second
  | .ask _ yes no => running yes && running no
  | _ => true

theorem Target.Bundled.running {target : Target} (ht : target.Bundled) (call : StageCall) :
    (target.called call).running := by
  obtain ⟨stage, standard⟩ := call
  rcases ht.called_cases with he | ⟨loh, he⟩ <;> rw [he]
  · cases standard <;> cases stage <;> rfl
  · cases loh <;> cases standard <;> cases stage <;> rfl

namespace Config

variable {c : Config} {r : Registry} {allocator : Except Defect Pass}

theorem sourced_scheduled (id : PassId) : (c.scheduled r id).Sourced c.sink allocator := by
  unfold scheduled
  split
  · exact Unfolding.sourced_nil _
  · split
    · exact Unfolding.sourced_nil _
    · split
      · exact Unfolding.sourced_nil _
      · rename_i hp
        exact Unfolding.sourced_singleton (.made (Registry.runs_of_instantiate hp)) _

theorem sourced_unfoldBy (id : PassId) {followed : Unfolding Unit}
    (h : followed.Sourced c.sink allocator) :
    (c.unfoldBy r id followed).Sourced c.sink allocator := by
  refine (sourced_scheduled id).bind fun final _ => ?_
  split
  · exact Unfolding.sourced_nil _
  · exact h.bind fun _ _ => Unfolding.sourced_nil _

theorem sourced_unfold (room : Nat) (id : PassId) :
    (c.unfold r room id).Sourced c.sink allocator := by
  induction room generalizing id with
  | zero => exact sourced_unfoldBy id (Unfolding.sourced_nil _)
  | succ room ih => exact sourced_unfoldBy id (Unfolding.sourced_all ih _)

section scripts

variable {courses : Courses}
  (hcourses : ∀ call p, (∀ q ∈ p, allocator = .ok q) → (courses call p).Sourced c.sink allocator)
  {frame : Frame} (hframe : ∀ q ∈ frame.allocator, allocator = .ok q)
include hcourses hframe

theorem sourced_commandCourse {command : Command} (h : (Script.run command).running) :
    (c.commandCourse r allocator courses frame command).Sourced c.sink allocator := by
  cases command with
  | place supply =>
    cases supply with
    | ready p =>
      have hp : p.runs := h
      exact Unfolding.sourced_singleton (.made hp) _
    | registered id =>
      rw [commandCourse, supplied]
      split
      · rename_i hp
        exact Unfolding.sourced_singleton (.made (Registry.runs_of_instantiate hp)) _
      · exact Unfolding.sourced_nil _
  | print subject banner => exact Unfolding.sourced_singleton (.printer _ _ _ _) _
  | printAndVerify banner =>
    intro p hp
    simp only [commandCourse, shown, List.mem_append] at hp
    rcases hp with hp | hp <;> split at hp <;>
      simp only [List.mem_singleton, List.not_mem_nil] at hp <;> subst hp
    · exact .printer _ _ _ _
    · exact .verifier _ _ _
  | set setting value => cases setting <;> exact Unfolding.sourced_nil _
  | allocate optimized =>
    rw [commandCourse]
    split
    · refine (Unfolding.sourced_nil _).bind fun p hp => (hcourses _ _ ?_).bind fun _ _ =>
        Unfolding.sourced_nil _
      rintro q ⟨⟩
      exact hp
    · exact Unfolding.sourced_nil _
  | placeAllocator =>
    rw [commandCourse]
    split
    · rename_i p hp
      exact Unfolding.sourced_singleton (.selected (hframe p hp)) _
    · exact Unfolding.sourced_nil _
  | substitute | insert | build => exact Unfolding.sourced_nil _

theorem sourced_queryCourse (q : Query) :
    (c.queryCourse r courses frame q).Sourced c.sink allocator := by
  cases q with
  | holds condition => exact Unfolding.sourced_nil _
  | schedules kind reported => exact (sourced_unfold _ kind).bind fun _ _ => Unfolding.sourced_nil _
  | stage stage => exact hcourses _ _ hframe
  | standard =>
    rw [queryCourse]
    split
    · exact hcourses _ _ hframe
    · exact Unfolding.sourced_nil _

theorem sourced_scriptCourse {script : Script} (h : script.running) :
    (c.scriptCourse r allocator courses frame script).Sourced c.sink allocator := by
  induction script with
  | skip | claim => exact Unfolding.sourced_nil _
  | run command =>
    exact (sourced_commandCourse hcourses hframe h).bind fun _ _ => Unfolding.sourced_nil _
  | seq first second ih₁ ih₂ =>
    obtain ⟨h₁, h₂⟩ := Bool.and_eq_true_iff.mp h
    exact (ih₁ h₁).bind fun _ _ => (ih₂ h₂).bind fun _ _ => Unfolding.sourced_nil _
  | ask query yes no ihy ihn =>
    obtain ⟨hy, hn⟩ := Bool.and_eq_true_iff.mp h
    refine (sourced_queryCourse hcourses hframe query).bind fun a _ => ?_
    cases a with
    | true => exact ihy hy
    | false => exact ihn hn

end scripts

section target

variable (ht : ∀ call, (c.target.called call).running)
include ht

theorem sourced_stageCourse (depth : Nat) (call : StageCall) {p : Option Pass}
    (hp : ∀ q ∈ p, allocator = .ok q) :
    (c.stageCourse r allocator depth call p).Sourced c.sink allocator := by
  induction depth generalizing call p with
  | zero => exact Unfolding.sourced_nil _
  | succ depth ih =>
    refine sourced_scriptCourse (fun call p => ih call) ?_ (ht call)
    dsimp only
    split
    · exact hp
    · simp

theorem sourced_course : (c.course r allocator).Sourced c.sink allocator := by
  have hstage (stage : Stage) :
      (c.stageCourse r allocator Build.depthLimit { stage } none).Sourced c.sink allocator :=
    sourced_stageCourse ht _ _ (by simp)
  exact (hstage _).bind fun _ _ => (hstage _).bind fun _ _ => (hstage _).bind fun _ _ =>
    (hstage _).bind fun _ _ => Unfolding.sourced_nil _

end target

end Config

theorem Placement.mem_takeAll {r : Registry} {x : Placement} {l : List Pass} {p : Pass}
    (h : p ∈ (x.takeAll r l).handed) : p ∈ x.handed ∨ p ∈ l := by
  induction l generalizing x with
  | nil => exact .inl h
  | cons q l ih =>
    obtain ⟨-, hhanded⟩ := x.take_cases r q
    rcases ih (x := x.take r q) h with hp | hp
    · rcases hhanded with he | he <;> rw [he] at hp
      · exact .inl hp
      · rcases List.mem_append.mp hp with hp | hp
        · exact .inl hp
        · exact .inr (by simp [List.mem_singleton.mp hp])
    · exact .inr (List.mem_cons_of_mem q hp)

namespace Session

variable {s : Session} {b : Blueprint} {passes : List Pass}

theorem runs_allocatorFor {answers : AllocatorAnswers} {optimized : Bool} {p : Pass}
    (h : s.allocatorFor answers optimized = .ok p) : p.runs := by
  obtain ⟨id, selector, -, hi⟩ := allocatorFor_ok h
  exact Registry.runs_of_instantiate hi

/-- Every pass of a pipeline of a bundled target was made for it, or is its allocator. -/
theorem origin_of_pipeline (ht : b.target.Bundled) {c : Config} {entries : List Entry}
    (hc : s.configure b = (.ok c, entries)) (h : (s.pipeline b).1 = .ok passes) :
    ∀ p ∈ passes, p.Origin b.sink (s.allocatorFor b.target.allocators c.optimizedAllocation) := by
  have ho := Config.outfitted_of_create ht hc
  have hcourse : (s.courseOf c).Sourced c.sink
      (s.allocatorFor c.target.allocators c.optimizedAllocation) :=
    Config.sourced_course (ho.target_eq ▸ ht.running)
  rw [ho.target_eq, Config.sink_of_create ht hc] at hcourse
  rw [(pipeline_bundled ht hc).1, result] at h
  split at h
  · cases h
  · unfold Placement.answer at h
    split at h
    · cases h
    · split at h
      · cases h
      · cases h
        intro p hp
        rcases Placement.mem_takeAll hp with hp | hp
        · have hnone : p ∈ c.handed := hp
          simp [ho.handed] at hnone
        · exact hcourse p hp

theorem runs_of_pipeline (ht : b.target.Bundled) (h : (s.pipeline b).1 = .ok passes) :
    ∀ p ∈ passes, p.runs := by
  intro p hp
  obtain ⟨c, entries, hc⟩ := configure_of_pipeline h
  cases origin_of_pipeline ht hc h p hp with
  | made h => simpa using h
  | selected h => exact runs_allocatorFor h

end Session

end PassPipeline
