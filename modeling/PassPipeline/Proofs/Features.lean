import PassPipeline.Proofs.Agenda

/-! What the features of AArch64 do to a pipeline. Each of them acts in one place: hints for the
linker are collected behind all else, the basic allocator stands where the greedy one would, and
whether tails are merged shows nowhere. -/
namespace PassPipeline

namespace Unfolding

variable {α β : Type} {q : Pass}

theorem mem_passes_bind {x : Unfolding α} {g : α → Unfolding β} (h : q ∈ (x.bind g).passes) :
    q ∈ x.passes ∨ ∃ a, q ∈ (g a).passes := by
  rcases ha : x.ending with d | a
  · rw [bind_error ha] at h
    exact .inl h
  · rw [bind_ok ha] at h
    exact (List.mem_append.mp h).imp_right fun hq => ⟨a, hq⟩

theorem mem_passes_all {f : PassId → Unfolding PassId} {ids : List PassId}
    (h : q ∈ (all f ids).passes) : ∃ id ∈ ids, q ∈ (f id).passes := by
  induction ids with
  | nil => cases h
  | cons id ids ih =>
    rcases mem_passes_bind h with hq | ⟨_, hq⟩
    · exact ⟨id, List.mem_cons_self, hq⟩
    · obtain ⟨id', hid, hq⟩ := ih hq
      exact ⟨id', List.mem_cons_of_mem _ hid, hq⟩

end Unfolding

namespace Config

variable {c : Config} {r : Registry} {id final : PassId} {p : Pass}

/-- A request that leads to a pass places it, and then only what was inserted behind the kind. -/
theorem passes_unfold (hres : c.resolve id = .ok final) (hn : final ≠ .none)
    (hp : r.instantiate final = .ok p) (room : Nat) :
    ∃ tail, (c.unfold r room id).passes = p.withSink c.sink :: tail ∧
      ∀ q ∈ tail, ∃ kind ∈ c.insertedAfter id, ∃ less < room,
        q ∈ (c.unfold r less kind).passes := by
  have hscheduled : c.scheduled r id = { passes := [p.withSink c.sink], ending := .ok final } := by
    simp [scheduled, hres, hn, hp]
  have hending : (c.scheduled r id).ending = .ok final := by rw [hscheduled]
  cases room with
  | zero =>
    refine ⟨[], ?_, by simp⟩
    rw [unfold, unfoldBy_of_schedules hending hn, hscheduled]
    rfl
  | succ room =>
    refine ⟨(Unfolding.all (c.unfold r room) (c.insertedAfter id)).passes, ?_, ?_⟩
    · rw [unfold, unfoldBy_of_schedules hending hn, hscheduled]
      rfl
    · intro q hq
      obtain ⟨kind, hkind, hq⟩ := Unfolding.mem_passes_all hq
      exact ⟨kind, hkind, room, Nat.lt_succ_self room, hq⟩

/-- A configuration that inserts nothing but printers of machine code. -/
structure InsertsPrinters (c : Config) : Prop where
  inserted : ∀ i ∈ c.insertions, i.inserted = Standard.machinePrinter
  resolve : c.resolve Standard.machinePrinter = .ok Standard.machinePrinter

namespace InsertsPrinters

variable (h : c.InsertsPrinters)
include h

theorem eq_printer {room : Nat} {q : Pass}
    (hq : q ∈ (c.unfold Standard.registry room Standard.machinePrinter).passes) :
    q = .printer .machineCode c.sink "" := by
  induction room using Nat.strongRecOn with
  | _ room ih =>
    obtain ⟨tail, hpasses, htail⟩ :=
      passes_unfold h.resolve (by decide) (r := Standard.registry) rfl room
    rw [hpasses] at hq
    rcases List.mem_cons.mp hq with rfl | hq
    · rfl
    · obtain ⟨kind, hkind, less, hless, hq⟩ := htail q hq
      obtain rfl := h.inserted _ (mem_insertions hkind)
      exact ih less hless hq

theorem passes_unfold_eq (hres : c.resolve id = .ok final) (hn : final ≠ .none)
    (hp : Standard.registry.instantiate final = .ok p) (room : Nat) :
    ∃ tail, (c.unfold Standard.registry room id).passes = p.withSink c.sink :: tail ∧
      ∀ q ∈ tail, q = .printer .machineCode c.sink "" := by
  obtain ⟨tail, hpasses, htail⟩ := passes_unfold hres hn hp room
  refine ⟨tail, hpasses, fun q hq => ?_⟩
  obtain ⟨kind, hkind, less, -, hq⟩ := htail q hq
  obtain rfl := h.inserted _ (mem_insertions hkind)
  exact h.eq_printer hq

end InsertsPrinters

/-- AArch64 inserts nothing of its own, and leaves the kind that collects hints to itself. -/
theorem insertsPrinters_of_create {session : Session} {name : String} {f : AArch64.Features}
    {level : Level} {options : Options} {sink : Sink} {entries : List Entry}
    (h : create session (AArch64.target name f) level options sink = (.ok c, entries)) :
    c.InsertsPrinters ∧
      c.resolve Standard.aarch64CollectLOH = .ok Standard.aarch64CollectLOH := by
  obtain ⟨start, stop, print, s, -, -, -, -, hu, rfl, -⟩ := create_prepared_inv h
  rw [Build.outcome_configure_aarch64 rfl] at hu
  cases hu
  refine ⟨⟨?_, ?_⟩, ?_⟩
  · intro i hi
    obtain ⟨anchor, -, rfl⟩ := List.mem_map.mp hi
    rfl
  · rw [resolve_of_rule? _ (by decide)]
    rfl
  · rw [resolve_of_rule? _ (by decide)]
    rfl

end Config

namespace AArch64

/-- What is on the agenda for hints to the linker. -/
def collectingHints : List Item :=
  [⟨.always, .request Standard.aarch64CollectLOH⟩,
    ⟨.schedules Standard.aarch64CollectLOH, .printAndVerify "After PreEmit passes"⟩]

/-- Every agenda has one place for the allocator. Hints are collected behind all else, and features
do not show in it otherwise. -/
theorem stages_target (o : Prospect) : ∃ before after : List Item,
    (∀ i ∈ before, i.step ≠ .allocator) ∧ (∀ i ∈ after, i.step ≠ .allocator) ∧
    ∀ name f, o.stages (target name f).called Build.depthLimit =
      some (before ++ ⟨.always, .allocator⟩ :: after ++
        if f.collectLOH then collectingHints else []) := by
  have hall : ∀ optimizing optimized strongPHIs : Bool,
      ∃ items ∈ Prospect.stages ⟨optimizing, optimized, strongPHIs⟩
          (target "" { collectLOH := false }).called Build.depthLimit,
        items.filter (·.step = .allocator) = [⟨.always, .allocator⟩] ∧
        Prospect.stages ⟨optimizing, optimized, strongPHIs⟩
          (target "" { collectLOH := true }).called Build.depthLimit =
            some (items ++ collectingHints) := by
    decide +kernel
  obtain ⟨items, hitems, hone, hhints⟩ := hall o.optimizing o.optimized o.strongPHIs
  obtain ⟨before, after, rfl, hbefore, -, hafter⟩ := List.filter_eq_cons_iff.mp hone
  refine ⟨before, after, by simpa using hbefore, by simpa using hafter, fun name f => ?_⟩
  rw [called_target]
  cases f.collectLOH with
  | false => simpa using hitems
  | true => simpa using hhints

end AArch64

/-- Passes that print machine code or verify it. -/
def Pass.Shows (sink : Sink) (p : Pass) : Prop :=
  ∃ banner, p = .printer .machineCode sink banner ∨ p = .verifier banner

theorem Config.shows_of_mem_shown {c : Config} {banner : String} {p : Pass}
    (h : p ∈ c.shown banner) : p.Shows c.sink := by
  rcases List.mem_append.mp h with h | h
  · split at h
    · exact ⟨banner, .inl (List.mem_singleton.mp h)⟩
    · cases h
  · split at h
    · exact ⟨banner, .inr (List.mem_singleton.mp h)⟩
    · cases h

theorem Item.flatMap_passes_eq {items : List Item} (h : ∀ i ∈ items, i.step ≠ .allocator)
    (c : Config) (r : Registry) (p q : Pass) :
    items.flatMap (Item.passes c r p) = items.flatMap (Item.passes c r q) := by
  refine List.flatMap_congr fun i hi => ?_
  have hne := h i hi
  unfold passes
  cases hstep : i.step with
  | allocator => exact absurd hstep hne
  | request | print | printAndVerify => rfl

def hintCollector : Pass := ⟨Standard.aarch64CollectLOH, "aarch64-collect-loh", .ordinary⟩

theorem Config.InsertsPrinters.passes_collectingHints {c : Config} (h : c.InsertsPrinters)
    (hres : c.resolve Standard.aarch64CollectLOH = .ok Standard.aarch64CollectLOH) :
    ∃ tail, (∀ q ∈ tail, q.Shows c.sink) ∧
      ∀ p, AArch64.collectingHints.flatMap (Item.passes c Standard.registry p) =
        hintCollector :: tail := by
  obtain ⟨tail, hpasses, htail⟩ := h.passes_unfold_eq hres (by decide) rfl c.insertions.length
  refine ⟨tail ++ c.shown "After PreEmit passes", ?_, fun p => ?_⟩
  · intro q hq
    rcases List.mem_append.mp hq with hq | hq
    · exact ⟨"", .inl (htail q hq)⟩
    · exact shows_of_mem_shown hq
  · have hmet : (Proviso.schedules Standard.aarch64CollectLOH).met c = true := by
      simp [Proviso.met, hres, show Standard.aarch64CollectLOH ≠ PassId.none by decide]
    have hrequest :
        Item.passes c Standard.registry p ⟨.always, .request Standard.aarch64CollectLOH⟩ =
          hintCollector :: tail := hpasses
    have hshow : Item.passes c Standard.registry p
        ⟨.schedules Standard.aarch64CollectLOH, .printAndVerify "After PreEmit passes"⟩ =
        c.shown "After PreEmit passes" := if_pos hmet
    simp [AArch64.collectingHints, hrequest, hshow]

theorem eq_false_of_filter_eq {α : Type} {f : α → Bool} {l m : List α} {a b : α} (ha : f a)
    (h : (l ++ a :: m).filter f = [b]) : ∀ x ∈ l ++ m, f x = false := by
  have hlength := congrArg List.length h
  simp only [List.filter_append, List.filter_cons_of_pos ha, List.length_append, List.length_cons,
    List.length_nil] at hlength
  have hnone : (l ++ m).filter f = [] := by
    apply List.eq_nil_of_length_eq_zero
    rw [List.filter_append, List.length_append]
    omega
  intro x hx
  simpa using List.filter_eq_nil_iff.mp hnone x hx

theorem Selector.select_congr {s : Selector} {optimized : Bool}
    {answers answers' : AllocatorAnswers}
    (h : s.asksTarget → answers.answer optimized = answers'.answer optimized) :
    s.select optimized answers = s.select optimized answers' := by
  rw [select_eq, select_eq]
  cases hr : s.resolved with
  | some id => rfl
  | none =>
    by_cases hd : s.choice = Allocator.defaultName
    · simp only [h (by simp [asksTarget, hr, hd])]
    · simp only [hd, if_false]

def Blueprint.withFeatures (b : Blueprint) (name : String) (f : AArch64.Features) : Blueprint :=
  { b with target := AArch64.target name f }

namespace Session

variable {s : Session} {b : Blueprint} {c : Config} {entries : List Entry} {name : String}
  {f : AArch64.Features}

/-- Features decide over the allocator in one place of the list, and over its end. -/
theorem exists_listing (hs : s.Ordinary)
    (hc : s.configure (b.withFeatures name f) = (.ok c, entries))
    (hstart : b.options.startAfter = "") (hstop : b.options.stopAfter = "")
    (hsched : b.options.enableMachineSched.Valid) :
    ∃ before after tail, (∀ q ∈ tail, q.Shows b.sink) ∧
      ∀ f', ∃ id p, (∃ selector, s.allocators.select c.optimizedAllocation
          (AArch64.target name f').allocators = .ok (id, selector)) ∧
        s.registry.instantiate id = .ok p ∧
        (s.pipeline (b.withFeatures name f')).1 =
          .ok (before ++ p :: (after ++ if f'.collectLOH then hintCollector :: tail else [])) ∧
        ∀ q ∈ before ++ (after ++ if f'.collectLOH then hintCollector :: tail else []),
          q.id ∉ AllocatorRegistry.standardPasses := by
  have ho := Config.outfitted_of_create (.aarch64 name f) hc
  obtain ⟨hins, hres⟩ := Config.insertsPrinters_of_create hc
  have hsink := Config.sink_of_create (.aarch64 name f) hc
  obtain ⟨before, after, hbefore, hafter, hstages⟩ := AArch64.stages_target (Prospect.ofConfig c)
  obtain ⟨tail, hshows, htail⟩ := hins.passes_collectingHints hres
  refine ⟨before.flatMap (Item.passes c s.registry hintCollector),
    after.flatMap (Item.passes c s.registry hintCollector), tail, hsink ▸ hshows, fun f' => ?_⟩
  obtain ⟨c', entries', hc', hakin⟩ := Config.create_akin (.aarch64 name name f f') rfl hc b.level
  have ho' := Config.outfitted_of_create (.aarch64 name f') hc'
  obtain ⟨id, p, hfulfills⟩ := exists_fulfills (b := b.withFeatures name f') hs
    (.aarch64 name f') hc' hstart hstop hsched
  have hprospect : Prospect.ofConfig c' = Prospect.ofConfig c := by
    simp [Prospect.ofConfig, Config.optimizedAllocation, ho.level_eq, ho'.level_eq, ho.options_eq,
      ho'.options_eq, Blueprint.withFeatures]
  have hpipeline := hfulfills.passes (hprospect ▸ hstages name f')
  rw [hakin.passes, List.flatMap_append, List.flatMap_append, List.flatMap_cons,
    Item.flatMap_passes_eq hbefore c s.registry p hintCollector,
    Item.flatMap_passes_eq hafter c s.registry p hintCollector, List.append_assoc,
    List.append_assoc] at hpipeline
  have hend : (if f'.collectLOH then AArch64.collectingHints else []).flatMap
      (Item.passes c s.registry p) = if f'.collectLOH then hintCollector :: tail else [] := by
    rw [hs.registry]
    cases f'.collectLOH with
    | false => rfl
    | true => exact htail p
  rw [hend] at hpipeline
  have hpath : c'.optimizedAllocation = c.optimizedAllocation :=
    congrArg Prospect.optimized hprospect
  have hselects := hfulfills.selects
  rw [hpath] at hselects
  refine ⟨id, p, hselects, hfulfills.makes, hpipeline, fun q hq => ?_⟩
  have hid : p.id ∈ AllocatorRegistry.standardPasses :=
    Registry.instantiate_id hfulfills.makes ▸ hfulfills.standard
  have honce := hfulfills.once hpipeline
  rw [List.map_append] at honce
  have hother := eq_false_of_filter_eq (by simpa using hid) honce q.id
    (by simpa using List.mem_map_of_mem (f := Pass.id) hq)
  simpa using hother

section allocators

variable {optimized : Bool} {answers answers' : AllocatorAnswers} {id id' : PassId} {p p' : Pass}

theorem allocator_eq
    (h : s.allocators.asksTarget → answers.answer optimized = answers'.answer optimized)
    (hsel : ∃ selector, s.allocators.select optimized answers = .ok (id, selector))
    (hsel' : ∃ selector, s.allocators.select optimized answers' = .ok (id', selector))
    (hi : s.registry.instantiate id = .ok p) (hi' : s.registry.instantiate id' = .ok p') :
    p = p' := by
  obtain ⟨selector, hsel⟩ := hsel
  obtain ⟨selector', hsel'⟩ := hsel'
  rw [Selector.select_congr h, hsel'] at hsel
  cases hsel
  exact Except.ok.inj (hi.symm.trans hi')

theorem instantiate_answer (hs : s.Ordinary) (hchoice : s.allocators.choice = Allocator.defaultName)
    (hresolved : s.allocators.resolved = none)
    (hsel : ∃ selector, s.allocators.select optimized answers = .ok (id, selector))
    (hi : s.registry.instantiate id = .ok p) :
    Standard.registry.instantiate (answers.answer optimized) = .ok p := by
  obtain ⟨selector, hsel⟩ := hsel
  rw [← Selector.select_default hchoice hresolved hsel, ← hs.registry]
  exact hi

end allocators

/-- Every feature acts in its one place: hints for the linker at the end, the basic allocator where
the target is asked for one, and merged tails nowhere. -/
theorem pipeline_features (hs : s.Ordinary)
    (hc : s.configure (b.withFeatures name f) = (.ok c, entries))
    (hstart : b.options.startAfter = "") (hstop : b.options.stopAfter = "")
    (hsched : b.options.enableMachineSched.Valid) :
    ∃ listing : AArch64.Features → List Pass, ∀ f : AArch64.Features,
      (s.pipeline (b.withFeatures name f)).1 = .ok (listing f) ∧
      (∃ tail, (∀ q ∈ tail, q.Shows b.sink) ∧
        listing { f with collectLOH := true } =
          listing { f with collectLOH := false } ++ hintCollector :: tail) ∧
      (∀ unmerged, listing { f with noTailMerge := unmerged } = listing f) ∧
      (listing { f with basicRegAlloc := true } ≠ listing { f with basicRegAlloc := false } ↔
        s.allocators.choice = Allocator.defaultName ∧ s.allocators.resolved = none ∧
          b.OptimizesAllocation) ∧
      (s.allocators.choice = Allocator.defaultName → s.allocators.resolved = none →
        b.OptimizesAllocation → ∃ before after,
          (∀ q ∈ before ++ after, q.id ∉ AllocatorRegistry.standardPasses) ∧
          listing { f with basicRegAlloc := false } =
            before ++ ⟨Standard.regAllocGreedy, "regalloc-greedy", .ordinary⟩ :: after ∧
          listing { f with basicRegAlloc := true } =
            before ++ ⟨Standard.regAllocBasic, "regalloc-basic", .ordinary⟩ :: after) := by
  have hpath := optimizedAllocation_iff (b := b.withFeatures name f) (.aarch64 name f) hc
  obtain ⟨before, after, tail, hshows, hlisting⟩ := exists_listing hs hc hstart hstop hsched
  choose id p hsel hmade hlist hother using hlisting
  have hsame (f f' : AArch64.Features) (h : s.allocators.asksTarget →
      (AArch64.target name f).allocators.answer c.optimizedAllocation =
        (AArch64.target name f').allocators.answer c.optimizedAllocation) : p f = p f' :=
    allocator_eq h (hsel f) (hsel f') (hmade f) (hmade f')
  have hasked (f : AArch64.Features) (hchoice : s.allocators.choice = Allocator.defaultName)
      (hresolved : s.allocators.resolved = none) (hopt : b.OptimizesAllocation) :
      Standard.registry.instantiate ((AArch64.target name f).allocators.answer true) =
        .ok (p f) := by
    rw [← hpath.mpr hopt]
    exact instantiate_answer hs hchoice hresolved (hsel f) (hmade f)
  refine ⟨_, fun f => ⟨hlist f, ⟨tail, hshows, ?_⟩, fun unmerged => ?_, ⟨?_, ?_⟩, ?_⟩⟩
  · simp [hsame { f with collectLOH := true } { f with collectLOH := false } fun _ => rfl]
  · rw [hsame { f with noTailMerge := unmerged } f fun _ => rfl]
  · intro hne
    by_contra hnot
    have hp : p { f with basicRegAlloc := true } = p { f with basicRegAlloc := false } := by
      refine hsame _ _ fun hasks => ?_
      -- The target is asked, so it can only be the fast path, on which both answers are the same.
      obtain ⟨hresolved, hchoice⟩ : s.allocators.resolved = none ∧
          s.allocators.choice = Allocator.defaultName := by
        simpa [Selector.asksTarget] using hasks
      have hfast : c.optimizedAllocation = false :=
        Bool.eq_false_iff.mpr fun hopt => hnot ⟨hchoice, hresolved, hpath.mp hopt⟩
      rw [hfast]
      rfl
    exact hne (by rw [hp])
  · rintro ⟨hchoice, hresolved, hopt⟩ heq
    have hbasic := hasked { f with basicRegAlloc := true } hchoice hresolved hopt
    have hgreedy := hasked { f with basicRegAlloc := false } hchoice hresolved hopt
    simp only [List.append_cancel_left_eq, List.cons.injEq, and_true] at heq
    rw [heq, ← hgreedy] at hbasic
    cases hbasic
  · intro hchoice hresolved hopt
    refine ⟨_, _, hother f, ?_, ?_⟩
    · rw [Except.ok.inj (hasked { f with basicRegAlloc := false } hchoice hresolved hopt).symm]
      rfl
    · rw [Except.ok.inj (hasked { f with basicRegAlloc := true } hchoice hresolved hopt).symm]
      rfl

/-- Code is printed and verified behind every step, and printed once more behind the last pass. -/
def attentive : Blueprint where
  target := Platform.aarch64Linux.target
  level := ⟨2⟩
  options :=
    { printMachineCode := true, verifyMachineCode := true, printAfter := "aarch64-collect-loh" }

theorem pipeline_features_attentive : ∃ listing : AArch64.Features → List Pass,
    (∀ f, (standard.pipeline (attentive.withFeatures "aarch64-linux" f)).1 = .ok (listing f)) ∧
    (∃ tail, (∀ q ∈ tail, q.Shows .collected) ∧ tail.length = 3 ∧
      listing { collectLOH := true } = listing {} ++ hintCollector :: tail) ∧
    listing { basicRegAlloc := true } ≠ listing {} := by
  have hrun : ∃ c ∈ (standard.configure (attentive.withFeatures "aarch64-linux" {})).1.toOption,
      (standard.pipeline
          (attentive.withFeatures "aarch64-linux" { collectLOH := true })).1.toOption.map
          List.length =
        (standard.pipeline (attentive.withFeatures "aarch64-linux" {})).1.toOption.map
          (·.length + 4) := by
    decide +kernel
  obtain ⟨c, hc, hlength⟩ := hrun
  obtain ⟨listing, h⟩ :=
    pipeline_features ordinary_standard (eq_of_mem_toOption hc) rfl rfl (by decide)
  obtain ⟨hlist, ⟨tail, hshows, hend⟩, -, hbasic, -⟩ := h {}
  have htail : listing { collectLOH := true } = listing {} ++ hintCollector :: tail := hend
  refine ⟨listing, fun f => (h f).1, ⟨tail, hshows, ?_, htail⟩, ?_⟩
  · rw [hlist, (h { collectLOH := true }).1] at hlength
    have hcount : (listing { collectLOH := true }).length = (listing {}).length + 4 :=
      Option.some.inj hlength
    rw [htail, List.length_append, List.length_cons] at hcount
    omega
  · exact hbasic.mpr ⟨rfl, rfl, .inr ⟨by decide, by decide⟩⟩

end Session

end PassPipeline
