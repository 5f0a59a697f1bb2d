import PassPipeline.Proofs.Creation
import PassPipeline.Proofs.SteadyBuild

/-! Builds for the targets that come with the library, in sessions over the standard kinds and
allocators: whatever the options are, no build meets a defect. -/
namespace PassPipeline

/-- The kinds of the standard allocators. -/
def AllocatorRegistry.standardPasses : List PassId :=
  AllocatorRegistry.standard.registered.map Allocator.pass

/-- A session over the standard kinds and allocators, with a choice that was accepted. What it may
remember is one of these allocators. -/
structure Session.Ordinary (s : Session) : Prop where
  registry : s.registry = Standard.registry
  accepted : ∃ name, Selector.ofChoice .standard name = .ok s.allocators.reset
  resolved : ∀ id ∈ s.allocators.resolved, id ∈ AllocatorRegistry.standardPasses

theorem Session.ordinary_standard : Session.standard.Ordinary where
  registry := rfl
  accepted := ⟨"", rfl⟩
  resolved := by simp [Session.standard]

theorem X86.called_target (name : String) : (X86.target name).called = (X86.target "").called := rfl

theorem AArch64.called_target (name : String) (f : Features) :
    (AArch64.target name f).called = (AArch64.target "" { collectLOH := f.collectLOH }).called :=
  rfl

theorem Target.Bundled.called_cases {target : Target} (ht : target.Bundled) :
    target.called = (X86.target "").called ∨
      ∃ loh, target.called = (AArch64.target "" { collectLOH := loh }).called := by
  cases ht with
  | x86 name => exact .inl (X86.called_target name)
  | aarch64 name f => exact .inr ⟨f.collectLOH, AArch64.called_target name f⟩

theorem Target.Bundled.allocators_cases {target : Target} (ht : target.Bundled) :
    target.allocators = .standard ∨
      target.allocators = ⟨Standard.regAllocBasic, Standard.regAllocFast⟩ := by
  cases ht with
  | x86 name => exact .inl rfl
  | aarch64 name f =>
    rw [AArch64.target]
    cases f.basicRegAlloc
    · exact .inl rfl
    · exact .inr rfl

theorem Target.Bundled.answer_mem {target : Target} (ht : target.Bundled) (optimized : Bool) :
    target.allocators.answer optimized ∈ AllocatorRegistry.standardPasses := by
  rcases ht.allocators_cases with h | h <;> rw [h] <;> cases optimized <;> decide

/-- What an ordinary session selects for a bundled target is a standard allocator. -/
theorem Session.Ordinary.select {session : Session} {target : Target} (hs : session.Ordinary)
    (ht : target.Bundled) (optimized : Bool) :
    ∃ id s', session.allocators.select optimized target.allocators = .ok (id, s') ∧
      id ∈ AllocatorRegistry.standardPasses := by
  rw [Selector.select_eq]
  cases hr : session.allocators.resolved with
  | some id => exact ⟨id, _, rfl, hs.resolved id hr⟩
  | none =>
    by_cases hd : session.allocators.choice = Allocator.defaultName
    · have hmem := ht.answer_mem optimized
      have hne : target.allocators.answer optimized ≠ .none := by
        have hall : ∀ id ∈ AllocatorRegistry.standardPasses, id ≠ .none := by decide
        exact hall _ hmem
      simp only [hd, if_true, hne, if_false]
      exact ⟨_, _, rfl, hmem⟩
    · obtain ⟨name, hname⟩ := hs.accepted
      obtain ⟨hreg, hchoice, -⟩ := Selector.lookup?_of_ofChoice hname
      obtain ⟨a, ha⟩ := Option.isSome_iff_exists.mp hchoice
      have ha' : session.allocators.registry.lookup? session.allocators.choice = some a :=
        hreg ▸ ha
      simp only [hd, if_false, ha']
      exact ⟨_, _, rfl, List.mem_map_of_mem (AllocatorRegistry.mem_registered_of_lookup? ha hd)⟩

theorem Session.Ordinary.supplies {session : Session} {target : Target} (hs : session.Ordinary)
    (ht : target.Bundled) :
    session.allocators.Supplies session.registry target.allocators := by
  have hall : ∀ id ∈ AllocatorRegistry.standardPasses,
      Standard.registry.canMake id ∧ Order.constrained id = false := by decide +kernel
  intro optimized
  obtain ⟨id, s', hsel, hid⟩ := hs.select ht optimized
  rw [hs.registry]
  exact ⟨id, s', hsel, hall id hid⟩

namespace Config

variable {c : Config} {print : Option PassId} {target : Target} {l : List (PassId × PassId)}
  {more : List Insertion}

theorem Outfit.insertions_cases (h : Outfit target l more) :
    more = [] ∨ more = [⟨Standard.expandPostRAPseudos, Standard.x86VZeroUpper⟩] := by
  cases h with
  | x86 name => exact .inr rfl
  | aarch64 name f => exact .inl rfl

theorem Outfit.meets (h : Outfit target l more) :
    Standard.registry.meets l Standard.machinePrinter ∧
      Standard.registry.meets l Standard.x86VZeroUpper := by
  cases h with
  | x86 name => decide +kernel
  | aarch64 name f => decide +kernel

/-- The stages keep to the order, on every way through them. -/
theorem Outfit.climbing (h : Outfit target l more) :
    (Build.Steady.climbing Standard.registry l).stages target.called Build.depthLimit 0 =
      some Standard.blockPlacementStats.number := by
  cases h with
  | x86 name =>
    rw [X86.called_target]
    decide +kernel
  | aarch64 name f =>
    rw [AArch64.called_target]
    cases f.collectLOH <;> decide +kernel

/-- A printer behind a pass and a target's own insertion never come back to where they began. -/
theorem fits_of_printer (hp : print ≠ some Standard.machinePrinter)
    (hm : more = [] ∨ more = [⟨Standard.expandPostRAPseudos, Standard.x86VZeroUpper⟩])
    (hi : c.insertions = print.toList.map (⟨·, Standard.machinePrinter⟩) ++ more) (id : PassId) :
    c.Fits c.insertions.length id := by
  refine fits_of_height (fun kind =>
    if kind = Standard.machinePrinter then 0
    else if kind = Standard.x86VZeroUpper then print.toList.length
    else print.toList.length + more.length) ?_ ?_
  · intro i hmem
    rw [hi] at hmem
    rcases List.mem_append.mp hmem with hmem | hmem
    · obtain ⟨anchor, hanchor, rfl⟩ := List.mem_map.mp hmem
      obtain rfl := Option.mem_toList.mp hanchor
      have hne : anchor ≠ Standard.machinePrinter := fun h => hp (congrArg some h)
      simp only [if_pos, hne, if_false]
      split
      · exact Nat.one_pos
      · exact Nat.lt_add_right _ Nat.one_pos
    · rcases hm with rfl | rfl
      · cases hmem
      · obtain rfl := List.mem_singleton.mp hmem
        simp [Standard.x86VZeroUpper, Standard.machinePrinter, Standard.expandPostRAPseudos]
  · rw [hi, List.length_append, List.length_map]
    split
    · omega
    · split <;> omega

/-- Once its build begins, a configuration of a bundled target has all that its requests need. -/
theorem Outfitted.furnished {level : Level} {options : Options}
    (hc : Outfitted target level options c) (hsched : options.enableMachineSched.Valid) :
    { c with phase := .building }.Furnished Standard.registry := by
  obtain ⟨print, more, hp, ho, hi⟩ := hc.outfit
  obtain ⟨hprinter, hvzero⟩ := ho.meets
  refine ⟨rfl, hc.nesting, hc.options_eq ▸ hsched, ?_, fits_of_printer hp ho.insertions_cases hi⟩
  intro i hmem
  rw [hi] at hmem
  rcases List.mem_append.mp hmem with hmem | hmem
  · obtain ⟨anchor, -, rfl⟩ := List.mem_map.mp hmem
    exact ⟨hprinter, rfl⟩
  · rcases ho.insertions_cases with rfl | rfl
    · cases hmem
    · obtain rfl := List.mem_singleton.mp hmem
      exact ⟨hvzero, rfl⟩

end Config

namespace Build

variable {session : Session} {target : Target} {level : Level} {options : Options} {sink : Sink}
  {c : Config} {entries : List Entry}

/-- No option breaks a build for a bundled target. Every configuration that was created gets a list
that respects all constraints, or an inverted window is refused. -/
theorem build_bundled {earlier : Session} (hs : session.Ordinary) (ht : target.Bundled)
    (hsched : options.enableMachineSched.Valid)
    (hc : Config.create earlier target level options sink = (.ok c, entries)) :
    ∃ result s, c.work session (build stages) = (.ok result, s) ∧
      (∀ passes, result = .ok passes →
        ∀ x ∈ Order.constraints, x.Respected (passes.map Pass.id)) ∧
      ∀ refusal, result = .error refusal → ∃ stop, refusal = .stopBeforeStart stop := by
  have ho := Config.outfitted_of_create ht hc
  obtain ⟨print, more, -, houtfit, -⟩ := ho.outfit
  have hclimb := houtfit.climbing
  have hfurnished := ho.furnished hsched
  have hsupplies := hs.supplies ht
  rw [← hs.registry] at hclimb hfurnished
  rw [← ho.target_eq] at hclimb hsupplies
  exact build_of_climbing ho.phase hfurnished hsupplies ho.refusal ho.handed hclimb

/-- On x86-64, with the scheduler forced on and a printer asked for behind the target's own
insertion, there is a list with the scheduler behind the coalescer. -/
theorem build_bundled_x86Linux : ∃ c entries passes s,
    Config.create .standard Platform.x86Linux.target ⟨2⟩
      { enableMachineSched := .on, printAfter := "x86-vzeroupper" } .collected = (.ok c, entries) ∧
    c.work .standard (build stages) = (.ok (.ok passes), s) ∧
    Standard.machineScheduler ∈ passes.map Pass.id ∧
    Constraint.Respected ⟨Standard.registerCoalescer, Standard.machineScheduler⟩
      (passes.map Pass.id) := by
  have hrun : ∃ c ∈ (Config.create .standard Platform.x86Linux.target ⟨2⟩
      { enableMachineSched := .on, printAfter := "x86-vzeroupper" } .collected).1.toOption,
      ∃ result ∈ (c.work .standard (build stages)).1.toOption, ∃ passes ∈ result.toOption,
        Standard.machineScheduler ∈ passes.map Pass.id := by
    decide +kernel
  obtain ⟨c, hc, result, hb, passes, hp, hmem⟩ := hrun
  have hc := eq_of_mem_toOption hc
  have hb := eq_of_mem_toOption hb
  obtain ⟨result', s, hb', hok, -⟩ :=
    build_bundled Session.ordinary_standard (Platform.bundled _) (by decide) hc
  cases hb.symm.trans hb'
  cases result with
  | error refusal => cases hp
  | ok passes' =>
    cases hp
    exact ⟨c, _, passes, _, hc, hb, hmem, hok passes rfl _ (by decide)⟩

end Build

end PassPipeline
