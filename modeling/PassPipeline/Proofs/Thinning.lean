import Mathlib.Data.List.Flatten
import PassPipeline.Proofs.Agenda
import PassPipeline.Proofs.Levels

/-! Pipelines with and without optimization. What is done without it is a part of what is done with
it, in the same order: the level only ever adds steps, on whichever path registers are allocated.
What can differ is the allocator. -/
namespace PassPipeline

/-- A step without the banner of what it prints. -/
def Step.plain : Step → Step
  | print subject _ => .print subject ""
  | printAndVerify _ => .printAndVerify ""
  | step => step

def Item.plain (i : Item) : Item := { i with step := i.step.plain }

namespace Item

variable (c : Config) (r : Registry) (p : Pass)

def kinds (i : Item) : List PassId := (i.passes c r p).map Pass.id

theorem kinds_plain (i : Item) : i.plain.kinds c r p = i.kinds c r p := by
  obtain ⟨proviso, step⟩ := i
  have hstep : (step.plain.passes c r p).map Pass.id = (step.passes c r p).map Pass.id := by
    cases step with
    | request kind => rfl
    | print subject banner => rfl
    | printAndVerify banner => simp only [Step.plain, Step.passes, Config.map_id_shown]
    | allocator => rfl
  cases h : proviso.met c <;> simp [kinds, plain, passes, h, hstep]

theorem sublist_of_plain {l m : List Item} (h : (l.map plain).Sublist (m.map plain)) :
    ((l.flatMap (passes c r p)).map Pass.id).Sublist ((m.flatMap (passes c r p)).map Pass.id) := by
  have hkinds (l : List Item) :
      (l.flatMap (passes c r p)).map Pass.id = (l.map plain).flatMap (kinds c r p) := by
    rw [List.map_flatMap, List.flatMap_map]
    simp only [kinds_plain]
    rfl
  rw [hkinds, hkinds]
  exact h.flatMap _

/-- There are two agendas, and up to banners one of them is the other, thinned out. -/
def Thinned (x y : Option (List Item)) : Prop :=
  ∃ l ∈ x, ∃ m ∈ y, (l.map plain).Sublist (m.map plain)

instance (x y : Option (List Item)) : Decidable (Thinned x y) :=
  inferInstanceAs (Decidable (∃ _ ∈ x, _))

end Item

/-- Without optimization the agenda is thinned out, if the path of register allocation is optimized
only where it is with optimization. -/
theorem Target.Bundled.thinned {target : Target} (ht : target.Bundled) {path path' : Bool}
    (h : path → path') :
    Item.Thinned (Prospect.stages ⟨false, path, false⟩ target.called Build.depthLimit)
      (Prospect.stages ⟨true, path', false⟩ target.called Build.depthLimit) := by
  rcases ht.called_cases with he | ⟨loh, he⟩ <;> rw [he]
  · have hall : ∀ path path' : Bool, (path → path') →
        Item.Thinned (Prospect.stages ⟨false, path, false⟩ (X86.target "").called Build.depthLimit)
          (Prospect.stages ⟨true, path', false⟩ (X86.target "").called Build.depthLimit) := by
      decide +kernel
    exact hall _ _ h
  · have hall : ∀ path path' loh : Bool, (path → path') →
        Item.Thinned
          (Prospect.stages ⟨false, path, false⟩ (AArch64.target "" { collectLOH := loh }).called
            Build.depthLimit)
          (Prospect.stages ⟨true, path', false⟩ (AArch64.target "" { collectLOH := loh }).called
            Build.depthLimit) := by
      decide +kernel
    exact hall _ _ _ h

/-- Selectors that were told to use one allocator, or that remember one. -/
inductive Selector.Agrees (s t : Selector) : Prop
  | named {a : Allocator} (hs : Named a s) (ht : Named a t)
  | remembered {id : PassId} (hs : s.resolved = some id) (ht : t.resolved = some id)

theorem Selector.Agrees.select {s t s' t' : Selector} (h : s.Agrees t) {path path' : Bool}
    {answers answers' : AllocatorAnswers} {id id' : PassId}
    (hs : s.select path answers = .ok (id, s')) (ht : t.select path' answers' = .ok (id', t')) :
    id = id' := by
  cases h with
  | named hs' ht' =>
    cases (hs'.select path answers).symm.trans hs
    cases (ht'.select path' answers').symm.trans ht
    rfl
  | remembered hs' ht' =>
    exact ((Selector.select_ok hs).2 _ hs').symm.trans ((Selector.select_ok ht).2 _ ht')

def Blueprint.atLevel (b : Blueprint) (level : Level) : Blueprint := { b with level }

namespace Session

variable {s t : Session} {b : Blueprint} {c : Config} {entries : List Entry} {l : Level}

/-- The path is optimized without optimization only if an option says so,
which it also says with it. -/
theorem optimizedAllocation_mono {c c' : Config} {entries' : List Entry} (hb : b.target.Bundled)
    (hc : s.configure (b.atLevel .none) = (.ok c, entries))
    (hc' : t.configure (b.atLevel l) = (.ok c', entries')) (h : c.optimizedAllocation) :
    c'.optimizedAllocation := by
  rw [optimizedAllocation_iff (b := b.atLevel .none) hb hc] at h
  rw [optimizedAllocation_iff (b := b.atLevel l) hb hc']
  rcases h with hon | ⟨-, hne⟩
  · exact .inl hon
  · exact absurd rfl hne

section lists

variable {thin full : List Pass} (hb : b.target.Bundled)
  (hthin : (s.pipeline (b.atLevel .none)).1 = .ok thin)
  (hfull : (t.pipeline (b.atLevel l)).1 = .ok full)
include hb hthin hfull

/-- With one allocator for both, the list without optimization is the other one, thinned out. -/
theorem sublist_of_resolved_eq (hr : t.registry = s.registry) (hstart : b.options.startAfter = "")
    (hstop : b.options.stopAfter = "") (hphis : b.options.enableStrongPHIElim = false)
    (hl : l ≠ .none)
    (hsame : (s.pipeline (b.atLevel .none)).2.allocators.resolved =
      (t.pipeline (b.atLevel l)).2.allocators.resolved) :
    (thin.map Pass.id).Sublist (full.map Pass.id) := by
  obtain ⟨c₀, entries₀, hc₀⟩ := configure_of_pipeline hthin
  obtain ⟨c₁, entries₁, hc₁, hakin⟩ := Config.create_akin hb.akin hr hc₀ l
  -- What there is to know of the two configurations.
  have ho₀ := Config.outfitted_of_create hb hc₀
  have ho₁ := Config.outfitted_of_create hb hc₁
  have hprospect₀ : Prospect.ofConfig c₀ = ⟨false, c₀.optimizedAllocation, false⟩ := by
    simp [Prospect.ofConfig, ho₀.level_eq, ho₀.options_eq, Blueprint.atLevel, hphis,
      Level.optimizing]
  have hprospect₁ : Prospect.ofConfig c₁ = ⟨true, c₁.optimizedAllocation, false⟩ := by
    simp [Prospect.ofConfig, ho₁.level_eq, ho₁.options_eq, Blueprint.atLevel, hphis,
      Level.optimizing_of_ne hl]
  have hpath := optimizedAllocation_mono (b := b) (l := l) hb hc₀ hc₁
  obtain ⟨items₀, hitems₀, items₁, hitems₁, hsub⟩ := hb.thinned hpath
  -- Both select the same allocator, and so have the same pass in its place.
  obtain ⟨id, selector, hsel, hremembers⟩ := exists_selected (b := b.atLevel .none) hb hc₀ hthin
  obtain ⟨id', selector', hsel', hremembers'⟩ := exists_selected (b := b.atLevel l) hb hc₁ hfull
  obtain rfl : id = id' := Option.some.inj (hremembers ▸ hremembers' ▸ hsame)
  obtain ⟨p, hp⟩ : ∃ p, ∀ q, s.registry.instantiate id = .ok q → q = p := by
    cases hi : s.registry.instantiate id with
    | ok p => exact ⟨p, fun q hq => (Except.ok.inj hq).symm⟩
    | error e => exact ⟨.verifier "", by simp⟩
  have hthin' := passes_of_pipeline (b := b.atLevel .none) hb hc₀ hstart hstop hthin
    (p := p) (fun q hq => hp q (instantiate_of_allocatorFor hsel hq)) (hprospect₀ ▸ hitems₀)
  have hfull' := passes_of_pipeline (b := b.atLevel l) hb hc₁ hstart hstop hfull
    (p := p) (fun q hq => hp q (hr ▸ instantiate_of_allocatorFor hsel' hq)) (hprospect₁ ▸ hitems₁)
  rw [hthin', hfull', hr, hakin.passes]
  exact Item.sublist_of_plain c₀ s.registry p hsub

theorem resolved_eq_of_agrees (h : s.allocators.Agrees t.allocators) :
    (s.pipeline (b.atLevel .none)).2.allocators.resolved =
      (t.pipeline (b.atLevel l)).2.allocators.resolved := by
  obtain ⟨c₀, entries₀, hc₀⟩ := configure_of_pipeline hthin
  obtain ⟨c₁, entries₁, hc₁⟩ := configure_of_pipeline hfull
  obtain ⟨id, selector, hsel, hremembers⟩ := exists_selected (b := b.atLevel .none) hb hc₀ hthin
  obtain ⟨id', selector', hsel', hremembers'⟩ := exists_selected (b := b.atLevel l) hb hc₁ hfull
  rw [hremembers, hremembers', h.select hsel hsel']

end lists

/-- Without optimization a pipeline is one with optimization, thinned out, if both select the same
allocator. In ordinary sessions there is no other way. -/
theorem pipeline_thinned (hr : t.registry = s.registry) (hb : b.target.Bundled)
    (hstart : b.options.startAfter = "") (hstop : b.options.stopAfter = "")
    (hphis : b.options.enableStrongPHIElim = false) (hl : l ≠ .none) :
    (∀ thin full, (s.pipeline (b.atLevel .none)).1 = .ok thin →
      (t.pipeline (b.atLevel l)).1 = .ok full →
      ((s.pipeline (b.atLevel .none)).2.allocators.resolved =
          (t.pipeline (b.atLevel l)).2.allocators.resolved →
        (thin.map Pass.id).Sublist (full.map Pass.id)) ∧
      (s.allocators.Agrees t.allocators → (thin.map Pass.id).Sublist (full.map Pass.id))) ∧
    (s.Ordinary → t.Ordinary → b.options.enableMachineSched.Valid → ∀ c entries,
      s.configure b = (.ok c, entries) → ∃ thin full, (s.pipeline (b.atLevel .none)).1 = .ok thin ∧
        (t.pipeline (b.atLevel l)).1 = .ok full ∧
        ((thin.map Pass.id).Sublist (full.map Pass.id) →
          (s.pipeline (b.atLevel .none)).2.allocators.resolved =
            (t.pipeline (b.atLevel l)).2.allocators.resolved)) := by
  refine ⟨fun thin full hthin hfull => ⟨?_, fun h => ?_⟩, ?_⟩
  · exact sublist_of_resolved_eq hb hthin hfull hr hstart hstop hphis hl
  · exact sublist_of_resolved_eq hb hthin hfull hr hstart hstop hphis hl
      (resolved_eq_of_agrees hb hthin hfull h)
  · intro hs ht hsched c entries hc
    obtain ⟨c₀, entries₀, hc₀, -⟩ := Config.create_akin hb.akin rfl hc .none
    obtain ⟨c₁, entries₁, hc₁, -⟩ := Config.create_akin hb.akin hr hc l
    obtain ⟨id, p, hthin⟩ := exists_fulfills (b := b.atLevel .none) hs hb hc₀ hstart hstop hsched
    obtain ⟨id', p', hfull⟩ := exists_fulfills (b := b.atLevel l) ht hb hc₁ hstart hstop hsched
    obtain ⟨thin, hp⟩ := exists_pipeline (b := b.atLevel .none) hs hb hc₀ hstart hstop hsched
    obtain ⟨full, hp'⟩ := exists_pipeline (b := b.atLevel l) ht hb hc₁ hstart hstop hsched
    refine ⟨thin, full, hp, hp', fun h => ?_⟩
    -- One allocator is all that each of them has.
    have hone := h.filter (· ∈ AllocatorRegistry.standardPasses)
    rw [hthin.once hp, hfull.once hp'] at hone
    rw [hthin.remembers, hfull.remembers, Option.some.injEq]
    simpa using hone

/-- On x86-64, with all code printed and verified, and printed once
more behind one of the passes. -/
def narrating : Blueprint where
  target := Platform.x86Linux.target
  level := ⟨1⟩
  options := { printMachineCode := true, verifyMachineCode := true, printAfter := "prologepilog" }

/-- In sessions that remember the same kind the pipeline is thinned out, even if it is
no allocator. In fresh ones it is not: the target answers with the fast allocator first
and with the greedy one then. -/
theorem pipeline_thinned_narrating :
    (∃ thin full,
      ((remembering false (some Standard.x86VZeroUpper)).pipeline (narrating.atLevel .none)).1 =
        .ok thin ∧
      ((remembering true (some Standard.x86VZeroUpper)).pipeline (narrating.atLevel ⟨3⟩)).1 =
        .ok full ∧
      (thin.map Pass.id).Sublist (full.map Pass.id)) ∧
    ∃ thin full, (standard.pipeline (narrating.atLevel .none)).1 = .ok thin ∧
      (standard.pipeline (narrating.atLevel ⟨3⟩)).1 = .ok full ∧
      ¬ (thin.map Pass.id).Sublist (full.map Pass.id) := by
  have hbundled : narrating.target.Bundled := Platform.bundled .x86Linux
  constructor
  · have hlists : (∃ thin ∈ ((remembering false (some Standard.x86VZeroUpper)).pipeline
          (narrating.atLevel .none)).1.toOption, True) ∧
        ∃ full ∈ ((remembering true (some Standard.x86VZeroUpper)).pipeline
          (narrating.atLevel ⟨3⟩)).1.toOption, True := by
      decide +kernel
    obtain ⟨⟨thin, hthin, -⟩, full, hfull, -⟩ := hlists
    have hthin := congrArg Prod.fst (eq_of_mem_toOption hthin)
    have hfull := congrArg Prod.fst (eq_of_mem_toOption hfull)
    obtain ⟨hlaw, -⟩ := pipeline_thinned (s := remembering false (some Standard.x86VZeroUpper))
      (t := remembering true (some Standard.x86VZeroUpper)) (l := ⟨3⟩) rfl hbundled rfl rfl rfl
      (by decide)
    exact ⟨thin, full, hthin, hfull, (hlaw thin full hthin hfull).2 (.remembered rfl rfl)⟩
  · have hconfigure : ∃ c ∈ (standard.configure narrating).1.toOption,
        (standard.pipeline (narrating.atLevel .none)).2.allocators.resolved ≠
          (standard.pipeline (narrating.atLevel ⟨3⟩)).2.allocators.resolved := by
      decide +kernel
    obtain ⟨c, hc, hne⟩ := hconfigure
    obtain ⟨thin, full, hthin, hfull, hsub⟩ :=
      (pipeline_thinned (s := standard) (t := standard) (b := narrating) (l := ⟨3⟩) rfl hbundled rfl
        rfl rfl (by decide)).2 ordinary_standard ordinary_standard (by decide) c _
        (eq_of_mem_toOption hc)
    exact ⟨thin, full, hthin, hfull, fun h => hne (hsub h)⟩

end Session

end PassPipeline
