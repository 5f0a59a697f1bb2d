import Mathlib.Data.List.Nodup
import PassPipeline.Proofs.Creation

/-! Registries over their whole history. Registrations come in any order, and those of
a name that is taken are refused; what a registry answers is still what was granted,
each kind under its own number. -/
namespace PassPipeline

theorem Text.bytes_injective {a b : String} (h : bytes a = bytes b) : a = b := by
  apply String.toByteArray_inj.mp
  apply ByteArray.ext
  exact Array.toList_inj.mp h

theorem Text.bytewise_iff {a b : String} : bytewise a b ↔ bytes a ≤ bytes b := by
  simp [bytewise]

namespace Registry

/-- The answer to one more registration, and the registry that it leaves. One that is refused leaves
the registry as it was. -/
def attempt (r : Registry) (k : Kind) : Except RegistryError PassId × Registry :=
  match r.register k with
  | .ok (r', id) => (.ok id, r')
  | .error e => (.error e, r)

/-- The registry behind registrations, refused ones among them. -/
def behind (r : Registry) (ks : List Kind) : Registry := ks.foldl (fun r k => (r.attempt k).2) r

/-- What is heard of registrations that come one after the other. -/
def transcript (r : Registry) : List Kind → List (Kind × Except RegistryError PassId)
  | [] => []
  | k :: rest => (k, (r.attempt k).1) :: (r.attempt k).2.transcript rest

/-- The kinds that were accepted, each with the identity it got. -/
def granted (heard : List (Kind × Except RegistryError PassId)) : List (Kind × PassId) :=
  heard.filterMap fun
    | (k, .ok id) => some (k, id)
    | (_, .error _) => none

/-- The kinds of a registry with their identities, in the order of their numbers. -/
def entries (r : Registry) : List (Kind × PassId) :=
  (List.range (r.next - 1)).filterMap fun i : Nat => (r.kind? ⟨i + 1⟩).map (·, ⟨i + 1⟩)

/-- What a registry answers is what was granted. -/
structure Reflects (r : Registry) (given : List (Kind × PassId)) : Prop where
  /-- Identities are given in order, and no number is left out. -/
  numbers : given.map Prod.snd = (List.range given.length).map fun i : Nat => ⟨i + 1⟩
  /-- A kind is found under an identity just if it was given that identity. -/
  kind : ∀ id k, r.kind? id = some k ↔ (k, id) ∈ given
  /-- A name is found just if a kind of that name was accepted. -/
  lookup : ∀ name id, r.lookup? name = some id ↔ ∃ k, (k, id) ∈ given ∧ k.name = name
  /-- The name of a kind leads back to it. -/
  name : ∀ id k, r.kind? id = some k → r.lookup? k.name = some id
  ascending : r.names.Pairwise fun a b => Text.bytes a < Text.bytes b
  names : ∀ name, name ∈ r.names ↔ ∃ k id, (k, id) ∈ given ∧ k.name = name
  /-- Passes are made of kinds that have a maker. -/
  made : ∀ id p, r.instantiate id = .ok p →
    p.id = id ∧ ∃ k, (k, id) ∈ given ∧ k.isPseudo = false ∧ p.name = k.name
  makes : ∀ id k, (k, id) ∈ given → k.isPseudo = false → ∃ p, r.instantiate id = .ok p
  /-- Pseudo kinds have none. -/
  pseudo : ∀ id name, r.instantiate id = .error (.noImplementation name) ↔
    ∃ k, (k, id) ∈ given ∧ k.isPseudo ∧ k.name = name
  /-- All other numbers are not registered: nothing, those below it, and those above the last. -/
  unregistered : ∀ id, r.instantiate id = .error (.notRegistered id) ↔
    id.number < 1 ∨ given.length < id.number

variable {r : Registry} {k : Kind} {id : PassId} {name : String}

/-- A kind is added under the next number, or its name is taken and nothing changes. -/
theorem attempt_cases (r : Registry) (k : Kind) :
    ((r.lookup? k.name).isSome ∧ r.attempt k = (.error (.duplicate k.name), r)) ∨
      (r.lookup? k.name = none ∧ (r.attempt k).1 = .ok ⟨r.next⟩ ∧
        (r.attempt k).2.next = r.next + 1 ∧
        (r.attempt k).2.byId = r.byId ++ [(⟨r.next⟩, k)] ∧
        (r.attempt k).2.byName = r.byName ++ [(k.name, ⟨r.next⟩)]) := by
  unfold attempt register
  split
  · rename_i r' id h
    split at h
    · cases h
    · rename_i hfree
      cases h
      exact .inr ⟨hfree, rfl, rfl, rfl, rfl⟩
  · rename_i e h
    split at h
    · rename_i old hold
      cases h
      exact .inl ⟨Option.isSome_of_eq_some hold, rfl⟩
    · cases h

/-! The kinds of a registry by their numbers. -/

theorem exists_kind? {i : Nat} (h : i < r.next - 1) : ∃ k, r.kind? ⟨i + 1⟩ = some k := by
  rw [← Option.isSome_iff_exists, kind?_isSome_iff]
  dsimp only
  omega

theorem kind?_eq_some_iff : r.kind? id = some k ↔ (k, id) ∈ r.entries := by
  simp only [entries, List.mem_filterMap, List.mem_range, Option.map_eq_some_iff, Prod.mk.injEq]
  constructor
  · intro h
    have hin := kind?_isSome_iff.mp (Option.isSome_of_eq_some h)
    obtain ⟨i, rfl⟩ : ∃ i : Nat, id = ⟨i + 1⟩ := by
      refine ⟨id.number.toNat - 1, ?_⟩
      have hnumber : id.number = (id.number.toNat - 1 : Nat) + 1 := by omega
      exact congrArg PassId.mk hnumber
    dsimp only at hin
    exact ⟨i, by omega, k, h, rfl, rfl⟩
  · rintro ⟨i, -, k', hk, rfl, rfl⟩
    exact hk

/-- Identities are given in order, and no number is left out. -/
theorem map_snd_entries (r : Registry) :
    r.entries.map Prod.snd = (List.range (r.next - 1)).map fun i : Nat => ⟨i + 1⟩ := by
  rw [entries, List.map_filterMap, ← List.filterMap_eq_map]
  refine List.filterMap_congr fun i hi => ?_
  obtain ⟨k, hk⟩ := exists_kind? (List.mem_range.mp hi)
  rw [hk]
  rfl

theorem length_entries (r : Registry) : r.entries.length = r.next - 1 := by
  simpa using congrArg List.length r.map_snd_entries

theorem entries_concat {r' : Registry} (hnext : r'.next = r.next + 1)
    (hrows : r'.byId = r.byId ++ [(⟨r.next⟩, k)]) : r'.entries = r.entries ++ [(k, ⟨r.next⟩)] := by
  have hkind (id : PassId) :
      r'.kind? id = (r.kind? id).or (if id = ⟨r.next⟩ then some k else none) := by
    rw [kind?, hrows, lookup_concat]
    rfl
  have hpos := r.sound.positive
  have hlast : ((r.next - 1 : Nat) : Int) + 1 = r.next := by omega
  have hfree : r.kind? ⟨r.next⟩ = none := r.sound.lookup_next
  have hrange : r'.next - 1 = r.next - 1 + 1 := by omega
  rw [entries, hrange, List.range_succ, List.filterMap_append]
  congr 1
  · refine List.filterMap_congr fun i hi => ?_
    obtain ⟨old, hold⟩ := exists_kind? (List.mem_range.mp hi)
    rw [hkind, hold]
    rfl
  · simp [hkind, hlast, hfree]

/-- The step lemma: what a registration is granted is what the registry gets. -/
theorem entries_attempt (r : Registry) (k : Kind) :
    (r.attempt k).2.entries = r.entries ++ granted [(k, (r.attempt k).1)] := by
  rcases r.attempt_cases k with ⟨-, he⟩ | ⟨-, hanswer, hnext, hrows, -⟩
  · simp [he, granted]
  · rw [entries_concat hnext hrows, hanswer]
    rfl

@[simp] theorem behind_cons (r : Registry) (k : Kind) (ks : List Kind) :
    r.behind (k :: ks) = (r.attempt k).2.behind ks := rfl

theorem behind_append (r : Registry) (ks later : List Kind) :
    r.behind (ks ++ later) = (r.behind ks).behind later :=
  List.foldl_append

theorem transcript_append (r : Registry) (ks later : List Kind) :
    r.transcript (ks ++ later) = r.transcript ks ++ (r.behind ks).transcript later := by
  induction ks generalizing r with
  | nil => rfl
  | cons k ks ih => simp [transcript, ih]

theorem length_transcript (r : Registry) (ks : List Kind) :
    (r.transcript ks).length = ks.length := by
  induction ks generalizing r with
  | nil => rfl
  | cons k ks ih => simp [transcript, ih]

/-- The run lemma: a registry has what it had and what was granted since, in the same order. -/
theorem entries_behind (r : Registry) (ks : List Kind) :
    (r.behind ks).entries = r.entries ++ granted (r.transcript ks) := by
  induction ks generalizing r with
  | nil => simp [behind, transcript, granted]
  | cons k ks ih =>
    have hstep := r.entries_attempt k
    have hrest := ih (r.attempt k).2
    rw [behind_cons, hrest, hstep, List.append_assoc]
    simp only [granted, transcript, ← List.filterMap_append, List.singleton_append]

/-! What a registry answers, by its entries. -/

theorem mem_names_iff : name ∈ r.names ↔ (r.lookup? name).isSome := by
  rw [names, List.mem_mergeSort, lookup?, List.lookup_isSome_iff, List.mem_map]
  constructor
  · rintro ⟨row, hrow, rfl⟩
    exact ⟨row, hrow, beq_self_eq_true _⟩
  · rintro ⟨row, hrow, hname⟩
    exact ⟨row, hrow, (eq_of_beq hname).symm⟩

theorem names_ascending (r : Registry) :
    r.names.Pairwise fun a b => Text.bytes a < Text.bytes b := by
  have hsorted : r.names.Pairwise fun a b => Text.bytewise a b := by
    apply List.pairwise_mergeSort
    · intro a b c hab hbc
      rw [Text.bytewise_iff] at hab hbc ⊢
      exact Std.le_trans hab hbc
    · intro a b
      rw [Bool.or_eq_true, Text.bytewise_iff, Text.bytewise_iff]
      exact Std.le_total
  have hnodup : r.names.Nodup := (List.mergeSort_perm _ _).nodup_iff.mpr r.sound.distinct
  refine (hsorted.and hnodup).imp ?_
  rintro a b ⟨hle, hne⟩
  exact Std.lt_of_le_of_ne (Text.bytewise_iff.mp hle) fun he => hne (Text.bytes_injective he)

theorem instantiate_ok_inv {p : Pass} (h : r.instantiate id = .ok p) :
    ∃ k, r.kind? id = some k ∧ k.isPseudo = false ∧ p.id = id ∧ p.name = k.name := by
  unfold instantiate at h
  cases hk : r.kind? id with
  | none => simp [hk] at h
  | some k =>
    refine ⟨k, rfl, ?_⟩
    simp only [hk] at h
    cases hm : k.maker with
    | none => simp [hm] at h
    | some maker =>
      rw [hm] at h
      cases maker <;> cases h <;> simp [Kind.isPseudo, hm]

theorem instantiate_of_kind? (hk : r.kind? id = some k) :
    (k.isPseudo → r.instantiate id = .error (.noImplementation k.name)) ∧
      (k.isPseudo = false → ∃ p, r.instantiate id = .ok p) := by
  unfold instantiate
  cases hm : k.maker with
  | none => simp [hk, hm, Kind.isPseudo]
  | some maker => cases maker <;> simp [hk, hm, Kind.isPseudo]

theorem instantiate_ne_notRegistered (hk : r.kind? id = some k) :
    r.instantiate id ≠ .error (.notRegistered id) := by
  intro h
  cases hm : k.isPseudo with
  | true => cases ((instantiate_of_kind? hk).1 hm).symm.trans h
  | false =>
    obtain ⟨p, hp⟩ := (instantiate_of_kind? hk).2 hm
    cases hp.symm.trans h

theorem instantiate_of_unregistered (hk : r.kind? id = none) :
    r.instantiate id = .error (.notRegistered id) := by
  simp [instantiate, hk]

/-- Every registry reflects its entries. -/
theorem reflects_entries (r : Registry) : r.Reflects r.entries where
  numbers := by rw [length_entries, map_snd_entries]
  kind _ _ := kind?_eq_some_iff
  lookup _ _ := by simp only [lookup?_eq_some_iff, kind?_eq_some_iff]
  name _ k h := lookup?_eq_some_iff.mpr ⟨k, h, rfl⟩
  ascending := r.names_ascending
  names name := by
    rw [mem_names_iff, Option.isSome_iff_exists, exists_comm]
    simp only [lookup?_eq_some_iff, kind?_eq_some_iff]
  made id p h := by
    obtain ⟨k, hk, hm, hid, hname⟩ := instantiate_ok_inv h
    exact ⟨hid, k, kind?_eq_some_iff.mp hk, hm, hname⟩
  makes id k h hm := (instantiate_of_kind? (kind?_eq_some_iff.mpr h)).2 hm
  pseudo id name := by
    constructor
    · intro h
      cases hk : r.kind? id with
      | none =>
        rw [instantiate_of_unregistered hk] at h
        cases h
      | some k =>
        cases hm : k.isPseudo with
        | true =>
          rw [(instantiate_of_kind? hk).1 hm] at h
          cases h
          exact ⟨k, kind?_eq_some_iff.mp hk, hm, rfl⟩
        | false =>
          obtain ⟨p, hp⟩ := (instantiate_of_kind? hk).2 hm
          cases hp.symm.trans h
    · rintro ⟨k, hmem, hm, rfl⟩
      exact (instantiate_of_kind? (kind?_eq_some_iff.mpr hmem)).1 hm
  unregistered id := by
    have hfound : (r.kind? id).isSome ↔ 0 < id.number ∧ id.number < r.next := kind?_isSome_iff
    have hpos := r.sound.positive
    rw [length_entries]
    cases hk : r.kind? id with
    | none =>
      simp only [hk, Option.isSome_none, Bool.false_eq_true, false_iff] at hfound
      simp only [instantiate_of_unregistered hk, true_iff]
      omega
    | some k =>
      simp only [hk, Option.isSome_some, true_iff] at hfound
      simp only [instantiate_ne_notRegistered hk, false_iff]
      omega

theorem register_ofKinds {ks : List Kind} (hks : (ks.map Kind.name).Nodup)
    (h : ((ks ++ [k]).map Kind.name).Nodup) :
    (ofKinds ks hks).register k = .ok (ofKinds (ks ++ [k]) h, ⟨ks.length + 1⟩) := by
  rw [List.map_append, List.nodup_append] at h
  have hfree : (ofKinds ks hks).byName.lookup k.name = none :=
    lookup_name_numbered fun hmem => h.2.2 _ hmem _ (by simp) rfl
  unfold register
  split
  · rename_i hold
    cases hfree.symm.trans hold
  · simp [ofKinds, numbered_concat]

/-- The registry of kinds that have different names is what their registrations lead to. -/
theorem registerAll_ofKinds (before rest : List Kind) (hbefore : (before.map Kind.name).Nodup)
    (h : ((before ++ rest).map Kind.name).Nodup) :
    (ofKinds before hbefore).registerAll rest = .ok (ofKinds (before ++ rest) h) := by
  induction rest generalizing before with
  | nil => simp [registerAll]
  | cons k rest ih =>
    have hsplit : before ++ k :: rest = before ++ [k] ++ rest := by simp
    have hnext : ((before ++ [k]).map Kind.name).Nodup := by
      rw [hsplit, List.map_append] at h
      exact (List.nodup_append.mp h).1
    simp only [registerAll, register_ofKinds hbefore hnext]
    rw [ih (before ++ [k]) hnext (hsplit ▸ h)]
    simp only [hsplit]

theorem registerAll_kinds : empty.registerAll Standard.kinds = .ok Standard.registry :=
  registerAll_ofKinds [] Standard.kinds List.nodup_nil _

theorem lookup?_behind_isSome (r : Registry) (ks : List Kind) :
    ((r.behind ks).lookup? name).isSome ↔
      (r.lookup? name).isSome ∨ name ∈ ks.map Kind.name := by
  induction ks generalizing r with
  | nil => simp [behind]
  | cons k ks ih =>
    rw [behind_cons, ih, List.map_cons, List.mem_cons, ← or_assoc]
    refine or_congr_left ?_
    rcases r.attempt_cases k with ⟨htaken, he⟩ | ⟨-, -, -, -, hrows⟩
    · rw [he]
      constructor
      · exact .inl
      · rintro (h | rfl)
        · exact h
        · exact htaken
    · rw [lookup?, hrows, lookup_concat, Option.isSome_or, Bool.or_eq_true]
      by_cases hn : name = k.name <;> simp [hn, lookup?]

/-- A registry answers what was granted. A registration is refused just if its name was tried
before, and is then as good as none. -/
theorem registration_history (ks : List Kind) :
    (empty.behind ks).Reflects (granted (empty.transcript ks)) ∧
    (granted (empty.transcript ks)).length ≤ ks.length ∧
    ∀ earlier k later, ks = earlier ++ k :: later →
      (∀ e, ((empty.behind earlier).attempt k).1 = .error e ↔
        e = .duplicate k.name ∧ k.name ∈ earlier.map Kind.name) ∧
      ∀ e, ((empty.behind earlier).attempt k).1 = .error e →
        empty.behind ks = empty.behind (earlier ++ later) ∧
        ∃ rest, empty.transcript (earlier ++ later) = empty.transcript earlier ++ rest ∧
          empty.transcript ks = empty.transcript earlier ++ (k, .error e) :: rest := by
  refine ⟨?_, ?_, ?_⟩
  · have hentries := entries_behind empty ks
    rw [show granted (empty.transcript ks) = (empty.behind ks).entries from hentries.symm]
    exact reflects_entries _
  · calc (granted (empty.transcript ks)).length ≤ (empty.transcript ks).length :=
          List.length_filterMap_le _ _
      _ = ks.length := length_transcript empty ks
  · rintro earlier k later rfl
    have htried :
        ((empty.behind earlier).lookup? k.name).isSome ↔ k.name ∈ earlier.map Kind.name := by
      rw [lookup?_behind_isSome]
      simp [empty, lookup?]
    rcases (empty.behind earlier).attempt_cases k with ⟨htaken, he⟩ | ⟨hfree, hanswer, -⟩
    · refine ⟨fun e => ?_, fun e h => ?_⟩
      · simp [he, htried.mp htaken, eq_comm]
      · have hanswer : ((empty.behind earlier).attempt k).1 = .error (.duplicate k.name) := by
          rw [he]
        have hleft : ((empty.behind earlier).attempt k).2 = empty.behind earlier := by rw [he]
        cases hanswer.symm.trans h
        refine ⟨?_, (empty.behind earlier).transcript later, transcript_append _ _ _, ?_⟩
        · rw [behind_append, behind_append, behind_cons, hleft]
        · rw [transcript_append, transcript, hanswer, hleft]
    · refine ⟨fun e => ?_, fun e h => ?_⟩
      · rw [hfree] at htried
        simp [hanswer, ← htried]
      · cases hanswer.symm.trans h

/-- A name that is tried twice, the second time for a kind that could be made. -/
def contested : List Kind :=
  [⟨"licm", "Loop Invariant Code Motion", none⟩, ⟨"cse", "Common Subexpressions", some .ordinary⟩,
    ⟨"licm", "Another Code Motion", some .ordinary⟩, ⟨"ISel", "Selection", some .ordinary⟩]

/-- The name keeps its first kind, and the kind behind it gets the next number. -/
theorem registration_history_contested :
    (granted (empty.transcript contested)).map Prod.snd = [⟨1⟩, ⟨2⟩, ⟨3⟩] ∧
      (empty.behind contested).lookup? "ISel" = some ⟨3⟩ ∧
      (empty.behind contested).instantiate ⟨1⟩ = .error (.noImplementation "licm") ∧
      (empty.behind contested).instantiate ⟨-1⟩ = .error (.notRegistered ⟨-1⟩) ∧
      (empty.behind contested).instantiate ⟨4⟩ = .error (.notRegistered ⟨4⟩) ∧
      ((empty.behind (contested.take 2)).attempt
          ⟨"licm", "Another Code Motion", some .ordinary⟩).1 =
        .error (.duplicate "licm") ∧
      empty.behind contested = empty.behind (contested.take 2 ++ contested.drop 3) := by
  obtain ⟨hreflects, -, hrefused⟩ := registration_history contested
  obtain ⟨hanswer, hunchanged⟩ :=
    hrefused (contested.take 2) ⟨"licm", "Another Code Motion", some .ordinary⟩ (contested.drop 3)
      rfl
  have hduplicate := (hanswer (.duplicate "licm")).mpr ⟨rfl, by decide⟩
  exact ⟨hreflects.numbers,
    (hreflects.lookup _ _).mpr ⟨⟨"ISel", "Selection", some .ordinary⟩, by decide, rfl⟩,
    (hreflects.pseudo _ _).mpr ⟨⟨"licm", "Loop Invariant Code Motion", none⟩, by decide, rfl, rfl⟩,
    (hreflects.unregistered _).mpr (by decide), (hreflects.unregistered _).mpr (by decide),
    hduplicate, (hunchanged _ hduplicate).1⟩

end Registry

end PassPipeline
