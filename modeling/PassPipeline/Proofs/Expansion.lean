import Mathlib.Data.List.Chain
import Mathlib.Logic.Relation
import PassPipeline.Proofs.Creation
import PassPipeline.Proofs.Unfolding

/-! What a request adds to a pipeline. A request is expanded into the pass it leads to and into the
expansions of all that was inserted behind it. Where insertions lead back to nowhere, requests add
just their expansion. -/
namespace PassPipeline

namespace Unfolding

theorem exists_of_all_error {f : PassId → Unfolding PassId} {ids : List PassId} {d : Defect}
    (h : (all f ids).ending = .error d) : ∃ id ∈ ids, (f id).ending = .error d := by
  induction ids with
  | nil => cases h
  | cons id ids ih =>
    rcases he : (f id).ending with d' | a
    · rw [all, bind_error he] at h
      cases h
      exact ⟨id, by simp, he⟩
    · rw [all, bind_ok he] at h
      obtain ⟨y, hy, hd⟩ := ih h
      exact ⟨y, List.mem_cons_of_mem id hy, hd⟩

end Unfolding

namespace Config

/-- A kind that is requested behind every request for another, which is not suppressed. -/
def Follows (c : Config) (x y : PassId) : Prop :=
  (∃ final, c.resolve x = .ok final ∧ final ≠ .none) ∧ y ∈ c.insertedAfter x

/-- All that is requested on behalf of a kind. -/
def Reaches (c : Config) : PassId → PassId → Prop := Relation.ReflTransGen c.Follows

/-- A kind that comes back behind itself. -/
def Recurs (c : Config) (x : PassId) : Prop := Relation.TransGen c.Follows x x

/-- Insertions that lead back to where they began, whether or not the kinds on the way are there. -/
def Circular (c : Config) : Prop := ∃ x, Relation.TransGen (fun a b => ⟨a, b⟩ ∈ c.insertions) x x

/-- A request that is suppressed or leads to a pass that can be made. -/
def Met (c : Config) (r : Registry) (x : PassId) : Prop :=
  ∃ final, c.resolve x = .ok final ∧ (final = .none ∨ ∃ p, r.instantiate final = .ok p)

/-- The passes that requests expand into. Insertions belong to the kind that is requested, whatever
stands in for it, and do not follow where it is suppressed. -/
inductive Expands (c : Config) (r : Registry) : List PassId → List Pass → Prop
  | nil : Expands c r [] []
  | suppressed {id : PassId} {ids : List PassId} {l : List Pass} (h : c.resolve id = .ok .none)
    (rest : Expands c r ids l) : Expands c r (id :: ids) l
  | scheduled {id final : PassId} {ids : List PassId} {p : Pass} {inserted l : List Pass}
    (h : c.resolve id = .ok final) (hn : final ≠ .none) (hp : r.instantiate final = .ok p)
    (behind : Expands c r (c.insertedAfter id) inserted) (rest : Expands c r ids l) :
    Expands c r (id :: ids) (p.withSink c.sink :: inserted ++ l)

variable {c : Config} {r : Registry} {id : PassId} {ids : List PassId} {room : Nat}

theorem Expands.unique {l l' : List Pass} (h : c.Expands r ids l) (h' : c.Expands r ids l') :
    l' = l := by
  induction h generalizing l' with
  | nil => cases h'; rfl
  | suppressed hs _ ih =>
    cases h' with
    | suppressed _ rest => exact ih rest
    | scheduled hs' hn => cases hs.symm.trans hs'; exact absurd rfl hn
  | scheduled hs hn hp _ _ ihb ih =>
    cases h' with
    | suppressed hs' => cases hs.symm.trans hs'; exact absurd rfl hn
    | scheduled hs' _ hp' behind rest =>
      cases hs.symm.trans hs'
      cases hp.symm.trans hp'
      rw [ihb behind, ih rest]

theorem Expands.cons {l l' : List Pass} (h : c.Expands r [id] l) (h' : c.Expands r ids l') :
    c.Expands r (id :: ids) (l ++ l') := by
  cases h with
  | suppressed hs rest => cases rest; exact .suppressed hs h'
  | scheduled hs hn hp behind rest =>
    cases rest
    simpa using Expands.scheduled hs hn hp behind h'

theorem resolve_of_scheduled {final : PassId} (h : (c.scheduled r id).ending = .ok final) :
    c.resolve id = .ok final := by
  unfold scheduled at h
  split at h
  · cases h
  · split at h
    · cases h
      assumption
    · split at h <;> cases h
      assumption

theorem passes_of_scheduled {final : PassId} (h : (c.scheduled r id).ending = .ok final)
    (hn : final ≠ .none) :
    ∃ p, r.instantiate final = .ok p ∧ (c.scheduled r id).passes = [p.withSink c.sink] := by
  have hres := resolve_of_scheduled h
  simp only [scheduled, hres, if_neg hn] at h ⊢
  cases hp : r.instantiate final with
  | error e => simp [hp] at h
  | ok p => exact ⟨p, rfl, rfl⟩

theorem passes_of_suppressed (h : (c.scheduled r id).ending = .ok .none) :
    (c.scheduled r id).passes = [] := by
  have hres := resolve_of_scheduled h
  simp [scheduled, hres]

/-- Kinds that are met are those at which a request does not break off. -/
theorem met_iff : c.Met r id ↔ (c.scheduled r id).ending.isOk := by
  constructor
  · rintro ⟨final, hres, hcases⟩
    by_cases hn : final = .none
    · simp [scheduled, hres, hn, Except.isOk, Except.toBool]
    · obtain ⟨p, hp⟩ := hcases.resolve_left hn
      simp [scheduled, hres, hn, hp, Except.isOk, Except.toBool]
  · intro h
    rcases hf : (c.scheduled r id).ending with d | final
    · simp [hf, Except.isOk, Except.toBool] at h
    · refine ⟨final, resolve_of_scheduled hf, or_iff_not_imp_left.mpr fun hn => ?_⟩
      obtain ⟨p, hp, -⟩ := passes_of_scheduled hf hn
      exact ⟨p, hp⟩

instance (c : Config) (r : Registry) (id : PassId) : Decidable (c.Met r id) :=
  decidable_of_iff _ met_iff.symm

theorem not_met_of_scheduled {d : Defect} (h : (c.scheduled r id).ending = .error d) :
    ¬ c.Met r id := by
  rw [met_iff, h]
  simp [Except.isOk, Except.toBool]

theorem Schedules.follows (h : c.Schedules r id) {y : PassId} (hy : y ∈ c.insertedAfter id) :
    c.Follows id y := by
  obtain ⟨final, hf, hn⟩ := h
  exact ⟨⟨final, resolve_of_scheduled hf, hn⟩, hy⟩

theorem mem_insertions {x y : PassId} (h : y ∈ c.insertedAfter x) : ⟨x, y⟩ ∈ c.insertions := by
  obtain ⟨i, hi, rfl⟩ := List.mem_map.mp h
  obtain ⟨hmem, ha⟩ := List.mem_filter.mp hi
  simp only [decide_eq_true_eq] at ha
  exact ha ▸ hmem

theorem Reaches.cases {x : PassId} (h : c.Reaches id x) :
    x = id ∨ ∃ i ∈ c.insertions, x = i.inserted := by
  rcases Relation.ReflTransGen.cases_tail h with rfl | ⟨y, -, hy⟩
  · exact .inl rfl
  · exact .inr ⟨_, mem_insertions hy.2, rfl⟩

theorem Recurs.circular {x : PassId} (h : c.Recurs x) : c.Circular :=
  ⟨x, Relation.TransGen.mono (fun _ _ hf => mem_insertions hf.2) _ _ h⟩

/-- Where insertions only lead to kinds of a lower height, they lead back to nowhere. -/
theorem not_circular_of_height {height : PassId → Nat}
    (h : ∀ i ∈ c.insertions, height i.inserted < height i.anchor) : ¬ c.Circular := by
  rintro ⟨x, hx⟩
  have hlower {y : PassId} (hy : Relation.TransGen (fun a b => ⟨a, b⟩ ∈ c.insertions) x y) :
      height y < height x := by
    induction hy with
    | single hi => exact h _ hi
    | tail _ hi ih => exact (h _ hi).trans ih
  exact (hlower hx).false

theorem not_recurs_of_height {height : PassId → Nat}
    (h : ∀ i ∈ c.insertions, height i.inserted < height i.anchor) (x : PassId) : ¬ c.Recurs x :=
  fun hx => not_circular_of_height h hx.circular

theorem unfoldBy_error {x : Unfolding Unit} {d : Defect}
    (h : (c.unfoldBy r id x).ending = .error d) :
    (c.scheduled r id).ending = .error d ∨ c.Schedules r id ∧ x.ending = .error d := by
  by_cases hs : c.Schedules r id
  · have hsched := hs
    obtain ⟨final, hf, hn⟩ := hs
    rw [unfoldBy_of_schedules hf hn] at h
    rcases hx : x.ending with d' | _
    · simp only [hx, Except.map] at h
      cases h
      exact .inr ⟨hsched, rfl⟩
    · simp [hx, Except.map] at h
  · rw [unfoldBy_of_not_schedules hs] at h
    exact .inl h

/-- A request that breaks off for another reason than insertions comes to a kind that is not met. -/
theorem exists_not_met {d : Defect} (h : (c.unfold r room id).ending = .error d)
    (hd : d.isCycle = false) : ∃ x, c.Reaches id x ∧ ¬ c.Met r x := by
  induction room generalizing id with
  | zero =>
    rcases unfoldBy_error h with hs | ⟨-, hx⟩
    · exact ⟨id, .refl, not_met_of_scheduled hs⟩
    · dsimp only at hx
      split at hx
      · cases hx
      · cases hx
        cases hd
  | succ room ih =>
    rcases unfoldBy_error h with hs | ⟨hsched, hx⟩
    · exact ⟨id, .refl, not_met_of_scheduled hs⟩
    · obtain ⟨y, hy, hyd⟩ := Unfolding.exists_of_all_error hx
      obtain ⟨x, hreach, hx⟩ := ih hyd
      exact ⟨x, .head (hsched.follows hy) hreach, hx⟩

/-- Where room is lacking, there is a way down of as many kinds. -/
theorem exists_path_of_lacksRoom (h : (c.unfold r room id).lacksRoom) :
    ∃ path, (id :: path).length = room + 1 ∧ (id :: path).IsChain c.Follows ∧
      id :: path ⊆ c.insertions.map Insertion.anchor := by
  induction room generalizing id with
  | zero => exact ⟨[], rfl, .singleton id, by simpa using mem_anchors_of_lacksRoom h⟩
  | succ room ih =>
    obtain ⟨hs, hx⟩ := lacksRoom_unfoldBy.mp h
    obtain ⟨d, hd, hcycle⟩ := Unfolding.error_of_lacksRoom hx
    obtain ⟨y, hy, hyd⟩ := Unfolding.exists_of_all_error hd
    obtain ⟨path, hlen, hchain, hsub⟩ := ih (Unfolding.lacksRoom_of_error hyd hcycle)
    exact ⟨y :: path, by simpa using hlen, .cons_cons (hs.follows hy) hchain,
      List.cons_subset.mpr ⟨mem_anchors_of_lacksRoom h, hsub⟩⟩

/-- A request that lacks room comes to a kind that comes back behind itself. -/
theorem exists_recurs_of_lacksRoom (h : (c.unfold r c.insertions.length id).lacksRoom) :
    ∃ x, c.Reaches id x ∧ c.Recurs x := by
  obtain ⟨path, hlen, hchain, hsub⟩ := exists_path_of_lacksRoom h
  have hpair : (id :: path).Pairwise (Relation.TransGen c.Follows) :=
    List.isChain_iff_pairwise.mp (hchain.imp fun _ _ => .single)
  by_contra hno
  have hnodup : (id :: path).Nodup := by
    refine hpair.imp_of_mem fun {a b} ha _ hab => ?_
    rintro rfl
    refine hno ⟨a, ?_, hab⟩
    rcases List.mem_cons.mp ha with rfl | ha
    · exact .refl
    · exact ((List.pairwise_cons.mp hpair).1 a ha).to_reflTransGen
  have hle := (List.subperm_of_subset hnodup hsub).length_le
  rw [List.length_map] at hle
  omega

theorem expands_of_unfoldBy {x : Unfolding Unit} {final : PassId}
    (hx : x.ending = .ok () → c.Expands r (c.insertedAfter id) x.passes)
    (h : (c.unfoldBy r id x).ending = .ok final) :
    c.resolve id = .ok final ∧ c.Expands r [id] (c.unfoldBy r id x).passes := by
  by_cases hs : c.Schedules r id
  · obtain ⟨final', hf, hn⟩ := hs
    obtain ⟨p, hp, hpasses⟩ := passes_of_scheduled hf hn
    rw [unfoldBy_of_schedules hf hn] at h ⊢
    rcases he : x.ending with d | _
    · simp [he, Except.map] at h
    · simp only [he, Except.map] at h
      cases h
      have hres := resolve_of_scheduled hf
      refine ⟨hres, ?_⟩
      simpa [hpasses] using Expands.scheduled hres hn hp (hx he) .nil
  · rw [unfoldBy_of_not_schedules hs] at h ⊢
    have hnone : final = .none := by_contra fun hn => hs ⟨final, h, hn⟩
    subst hnone
    rw [passes_of_suppressed h]
    exact ⟨resolve_of_scheduled h, .suppressed (resolve_of_scheduled h) .nil⟩

theorem expands_of_all {f : PassId → Unfolding PassId}
    (hf : ∀ id final, (f id).ending = .ok final → c.Expands r [id] (f id).passes)
    (h : (Unfolding.all f ids).ending = .ok ()) : c.Expands r ids (Unfolding.all f ids).passes := by
  induction ids with
  | nil => exact .nil
  | cons id ids ih =>
    rcases he : (f id).ending with d | final
    · simp [Unfolding.all, Unfolding.bind_error he] at h
    · rw [Unfolding.all, Unfolding.bind_ok he] at h ⊢
      exact (hf id final he).cons (ih h)

/-- A request that ends well places its expansion. The induction is on the room. -/
theorem expands_of_unfold {final : PassId} (h : (c.unfold r room id).ending = .ok final) :
    c.resolve id = .ok final ∧ c.Expands r [id] (c.unfold r room id).passes := by
  induction room generalizing id final with
  | zero =>
    refine expands_of_unfoldBy (fun hx => ?_) h
    cases hi : c.insertedAfter id with
    | nil => exact .nil
    | cons => simp [hi] at hx
  | succ room ih =>
    exact expands_of_unfoldBy (expands_of_all fun id final h => (ih h).2) h

/-- Where all that is requested on behalf of a kind is met and never comes back behind itself, a
request for the kind ends well. -/
theorem unfold_of_met (hr : ∀ x, c.Reaches id x → ¬ c.Recurs x)
    (hm : ∀ x, c.Reaches id x → c.Met r x) :
    ∃ final, (c.unfold r c.insertions.length id).ending = .ok final := by
  rcases h : (c.unfold r c.insertions.length id).ending with d | final
  · cases hd : d.isCycle with
    | true =>
      obtain ⟨x, hx, hrec⟩ := exists_recurs_of_lacksRoom (Unfolding.lacksRoom_of_error h hd)
      exact absurd hrec (hr x hx)
    | false =>
      obtain ⟨x, hx, hmet⟩ := exists_not_met h hd
      exact absurd (hm x hx) hmet
  · exact ⟨final, rfl⟩

end Config

namespace Build

variable {s : Construction} {id : PassId}

/-- A request during a build in which none was broken off takes its one expansion, if all kinds on
its behalf are met and none of them comes back behind itself. -/
theorem request_expands (hp : s.config.phase = .building) (hn : s.config.nesting = 0)
    (hr : ∀ x, s.config.Reaches id x → ¬ s.config.Recurs x)
    (hm : ∀ x, s.config.Reaches id x → s.config.Met s.session.registry x) :
    ∃ final l t, s.config.resolve id = .ok final ∧
      s.config.Expands s.session.registry [id] l ∧
      (∀ l', s.config.Expands s.session.registry [id] l' → l' = l) ∧
      (request id).outcome s = (.ok final, t) ∧ t.session = s.session ∧
      t.config =
        s.config.withPlacement (s.config.placement.takeAll s.session.registry l) ∧
      (s.config.window = .ofBounds .none .none → s.config.refusal = none →
        t.config.handed = s.config.handed ++ l) := by
  obtain ⟨final, hf⟩ := Config.unfold_of_met hr hm
  obtain ⟨hres, hexp⟩ := Config.expands_of_unfold hf
  have hstart : s.config = s.config.during 0 s.config.placement := by
    rw [← hn]
    rfl
  obtain ⟨t, k, ho, ht, hc, hk⟩ := Yields.request hp id rfl hstart
  rw [hf] at ho hk
  obtain rfl := hk rfl
  have hconfig : t.config = s.config.withPlacement (s.config.placement.takeAll s.session.registry
      (s.config.unfold s.session.registry s.config.insertions.length id).passes) := by
    rw [hc, Config.during, ← hn]
    rfl
  refine ⟨final, _, t, hres, hexp, fun l' => hexp.unique, ho, ht, hconfig, fun hw hrefusal => ?_⟩
  rw [hconfig, Config.placement, hw, hrefusal, Placement.takeAll_unbounded]
  rfl

/-- A kind with a substitute, behind which one kind is inserted twice over, and with
it a kind that is suppressed. -/
def diamond : Config :=
  { Config.prepared (X86.target "x86") ⟨2⟩ {} .collected (.ofBounds .none .none) none with
    phase := .building
    insertions :=
      [⟨Standard.earlyTailDuplicate, Standard.machineCSE⟩,
        ⟨Standard.earlyTailDuplicate, Standard.machineSinking⟩,
        ⟨Standard.machineCSE, Standard.machineSinking⟩,
        ⟨Standard.machineSinking, Standard.earlyIfConverter⟩,
        ⟨Standard.earlyIfConverter, Standard.x86VZeroUpper⟩] }

theorem request_expands_diamond :
    ∃ l t, diamond.Expands Standard.registry [Standard.earlyTailDuplicate] l ∧
      (request Standard.earlyTailDuplicate).outcome { session := .standard, config := diamond } =
        (.ok Standard.tailDuplicate, t) ∧
      t.config.handed = l ∧
      l.map Pass.name = ["tailduplication", "machine-cse", "machine-sink", "machine-sink"] := by
  let s : Construction := { session := .standard, config := diamond }
  let height (id : PassId) : Nat :=
    if id = Standard.earlyTailDuplicate then 4
    else if id = Standard.machineCSE then 3
    else if id = Standard.machineSinking then 2
    else if id = Standard.earlyIfConverter then 1
    else 0
  have hheight : ∀ i ∈ s.config.insertions, height i.inserted < height i.anchor := by decide
  have hinserted : ∀ i ∈ s.config.insertions, s.config.Met s.session.registry i.inserted := by
    decide +kernel
  have hself : s.config.Met s.session.registry Standard.earlyTailDuplicate := by decide +kernel
  have hmet (x : PassId) (hx : s.config.Reaches Standard.earlyTailDuplicate x) :
      s.config.Met s.session.registry x := by
    rcases hx.cases with rfl | ⟨i, hi, rfl⟩
    · exact hself
    · exact hinserted i hi
  obtain ⟨final, l, t, hres, hexp, -, ho, -, -, hhanded⟩ :=
    request_expands rfl rfl (fun x _ => Config.not_recurs_of_height hheight x) hmet
  have hfinal : s.config.resolve Standard.earlyTailDuplicate = .ok Standard.tailDuplicate := rfl
  have hl : t.config.handed = l := hhanded rfl rfl
  have hnames : ((request Standard.earlyTailDuplicate).outcome s).2.config.handed.map Pass.name =
      ["tailduplication", "machine-cse", "machine-sink", "machine-sink"] := by
    decide +kernel
  rw [ho, hl] at hnames
  cases hres.symm.trans hfinal
  exact ⟨l, t, hexp, ho, hl, hnames⟩

end Build

end PassPipeline
