import PassPipeline.Proofs.Decoding
import PassPipeline.Proofs.Discovery
import PassPipeline.Proofs.Registration

/-! What an identifier means among tests that are sorted by their names. A path or the name
of a file means the test of that name. Anything else means the first test that has it for a
name or for a number in front of its name, and as a text comes before its extensions, a
name always means its own test. -/
namespace PassPipeline

namespace Text

theorem bytes_append (a b : String) : bytes (a ++ b) = bytes a ++ bytes b := by
  simp only [bytes_eq_flatMap, String.toList_append, List.flatMap_append]

theorem bytewise_append (a b : String) : bytewise a (a ++ b) := by
  rw [bytewise_iff, bytes_append]
  exact List.le_append_left

theorem bytewise_refl (a : String) : bytewise a a := by
  simpa using bytewise_append a ""

theorem bytewise_antisymm {a b : String} (hab : bytewise a b) (hba : bytewise b a) : a = b := by
  rw [bytewise_iff] at hab hba
  exact bytes_injective (Std.le_antisymm hab hba)

end Text

namespace Golden

open Text

variable {cases : List Case} {c other : Case} {identifier stem : String}

/-- An identifier that is no path means a test by its name, or by what stands in
front of an underscore in it. -/
def Means (identifier : String) (c : Case) : Prop :=
  c.name = identifier ∨ ∃ rest, c.name = identifier ++ "_" ++ rest

theorem means_iff : (cutLead? (identifier ++ "_") c.name).isSome || c.name = identifier ↔
    Means identifier c := by
  rw [Bool.or_eq_true, decide_eq_true_eq, Option.isSome_iff_exists, or_comm]
  simp only [cutLead?_eq_some_iff]
  rfl

theorem Means.bytewise (h : Means identifier c) : bytewise identifier c.name := by
  rcases h with hname | ⟨rest, hname⟩
  · rw [hname]
    exact bytewise_refl identifier
  · rw [hname, String.append_assoc]
    exact bytewise_append identifier _

/-! ## The first test -/

/-- The first test of sorted ones that passes has the least name. -/
theorem find?_least {passes : Case → Bool}
    (hsorted : cases.Pairwise fun a b => Text.bytewise a.name b.name)
    (h : cases.find? passes = some c) :
    c ∈ cases ∧ passes c ∧ ∀ other ∈ cases, passes other → Text.bytewise c.name other.name := by
  obtain ⟨hpasses, before, after, rfl, hbefore⟩ := List.find?_eq_some_iff_append.mp h
  refine ⟨List.mem_append_right _ List.mem_cons_self, hpasses, ?_⟩
  intro other hother hthis
  rcases List.mem_append.mp hother with hother | hother
  · have hfails := hbefore other hother
    simp [hthis] at hfails
  · rcases List.mem_cons.mp hother with rfl | hother
    · exact bytewise_refl other.name
    · have htail := (List.pairwise_append.mp hsorted).2.1
      exact (List.pairwise_cons.mp htail).1 other hother

theorem eq_of_name (hdistinct : (cases.map Case.name).Nodup) (hc : c ∈ cases)
    (hother : other ∈ cases) (hname : other.name = c.name) : other = c :=
  List.inj_on_of_nodup_map hdistinct hother hc hname

theorem find?_name (hdistinct : (cases.map Case.name).Nodup) (hc : c ∈ cases) :
    cases.find? (fun other => other.name = c.name) = some c := by
  cases h : cases.find? fun other => other.name = c.name with
  | none =>
    have hnone := List.find?_eq_none.mp h c hc
    simp at hnone
  | some other =>
    have hname : other.name = c.name := by simpa using List.find?_some h
    rw [eq_of_name hdistinct hc (List.mem_of_find?_eq_some h) hname]

/-! ## Paths and files -/

theorem find_file (hdistinct : (cases.map Case.name).Nodup) (hc : c ∈ cases)
    (hstem : (cutLead? (folder ++ "/") stem).getD stem = c.name) :
    find cases (stem ++ ".args") = .ok c := by
  have hcut : cutSuffix? argumentsSuffix (stem ++ ".args") = some stem :=
    cutSuffix?_eq_some_iff.mpr rfl
  unfold find
  rw [hcut, if_pos (by simp)]
  simp only [Option.getD_some, hstem, find?_name hdistinct hc]

theorem cutLead?_of_not_mem {s : String} (h : '/' ∉ s.toList) :
    cutLead? (folder ++ "/") s = none := by
  cases hcut : cutLead? (folder ++ "/") s with
  | none => rfl
  | some rest =>
    rw [cutLead?_eq_some_iff.mp hcut] at h
    simp at h

/-! ## Names and numbers -/

/-- What is neither a path nor a file means the first test that it can mean. -/
theorem find_eq_ok_iff (hslash : '/' ∉ identifier.toList)
    (hfile : ∀ stem, identifier ≠ stem ++ ".args") :
    find cases identifier = .ok c ↔ cases.find? (fun c =>
      (cutLead? (identifier ++ "_") c.name).isSome || c.name = identifier) = some c := by
  have hcut : cutSuffix? argumentsSuffix identifier = none := by
    cases hcut : cutSuffix? argumentsSuffix identifier with
    | none => rfl
    | some stem => exact absurd (cutSuffix?_eq_some_iff.mp hcut) (hfile stem)
  unfold find
  rw [hcut, if_neg (by simpa using hslash)]
  split
  · rename_i found hfound
    rw [hfound, Except.ok.injEq, Option.some.injEq]
  · rename_i hnone
    rw [hnone]
    exact iff_of_false nofun nofun

theorem exists_find_iff (hslash : '/' ∉ identifier.toList)
    (hfile : ∀ stem, identifier ≠ stem ++ ".args") :
    (∃ c, find cases identifier = .ok c) ↔ ∃ c ∈ cases, Means identifier c := by
  simp only [find_eq_ok_iff hslash hfile, ← Option.isSome_iff_exists, List.find?_isSome, means_iff]

theorem find_least (hsorted : cases.Pairwise fun a b => Text.bytewise a.name b.name)
    (hslash : '/' ∉ identifier.toList) (hfile : ∀ stem, identifier ≠ stem ++ ".args")
    (h : find cases identifier = .ok c) : c ∈ cases ∧ Means identifier c ∧
      ∀ other ∈ cases, Means identifier other → Text.bytewise c.name other.name := by
  obtain ⟨hc, hmeans, hleast⟩ := find?_least hsorted ((find_eq_ok_iff hslash hfile).mp h)
  refine ⟨hc, means_iff.mp hmeans, ?_⟩
  intro other hother hthis
  exact hleast other hother (means_iff.mpr hthis)

/-- A name means its own test, whatever names extend it. -/
theorem find_name (hsorted : cases.Pairwise fun a b => Text.bytewise a.name b.name)
    (hdistinct : (cases.map Case.name).Nodup) (hc : c ∈ cases) (hslash : '/' ∉ c.name.toList)
    (hfile : ∀ stem, c.name ≠ stem ++ ".args") : find cases c.name = .ok c := by
  obtain ⟨found, hfound⟩ := (exists_find_iff hslash hfile).mpr ⟨c, hc, .inl rfl⟩
  obtain ⟨hmem, hmeans, hleast⟩ := find_least hsorted hslash hfile hfound
  have hname : found.name = c.name := bytewise_antisymm (hleast c hc (.inl rfl)) hmeans.bytewise
  rw [hfound, eq_of_name hdistinct hc hmem hname]

/-- Every test is meant by the path and the file of its command line and, unless it ends like such a
file, by its name. All else means the least test that it can mean. -/
theorem find_law (hsorted : cases.Pairwise fun a b => Text.bytewise a.name b.name)
    (hdistinct : (cases.map Case.name).Nodup) (hplain : ∀ c ∈ cases, '/' ∉ c.name.toList) :
    (∀ c ∈ cases, find cases ("tests/" ++ c.name ++ ".args") = .ok c ∧
      find cases (c.name ++ ".args") = .ok c ∧
      ((∀ stem, c.name ≠ stem ++ ".args") → find cases c.name = .ok c)) ∧
    ∀ identifier : String, '/' ∉ identifier.toList → (∀ stem, identifier ≠ stem ++ ".args") →
      ((∃ c, find cases identifier = .ok c) ↔ ∃ c ∈ cases, Means identifier c) ∧
      ∀ c, find cases identifier = .ok c → c ∈ cases ∧ Means identifier c ∧
        ∀ other ∈ cases, Means identifier other → Text.bytewise c.name other.name := by
  constructor
  · intro c hc
    have hslash := hplain c hc
    have hpath : cutLead? (folder ++ "/") ("tests/" ++ c.name) = some c.name :=
      cutLead?_eq_some_iff.mpr rfl
    refine ⟨find_file hdistinct hc ?_, find_file hdistinct hc ?_,
      find_name hsorted hdistinct hc hslash⟩
    · rw [hpath, Option.getD_some]
    · rw [cutLead?_of_not_mem hslash, Option.getD_none]
  · intro identifier hslash hfile
    exact ⟨exists_find_iff hslash hfile, fun c => find_least hsorted hslash hfile⟩

/-- Tests whose names extend each other, one of them like the file of
another, and two of one number. -/
def kin : List Case :=
  ["1", "1_a", "1_a.args", "2_b", "2_c"].map fun name =>
    ⟨name, fileIn [] name ".args", fileIn [] name ".out"⟩

theorem find_law_kin :
    (kin.Pairwise fun a b => Text.bytewise a.name b.name) ∧ (kin.map Case.name).Nodup ∧
      (∀ c ∈ kin, '/' ∉ c.name.toList) ∧
      find kin "tests/1_a.args.args" =
        .ok ⟨"1_a.args", fileIn [] "1_a.args" ".args", fileIn [] "1_a.args" ".out"⟩ ∧
      find kin "1_a.args" = .ok ⟨"1_a", fileIn [] "1_a" ".args", fileIn [] "1_a" ".out"⟩ ∧
      find kin "1" = .ok ⟨"1", fileIn [] "1" ".args", fileIn [] "1" ".out"⟩ ∧
      ∃ c ∈ kin, find kin "2" = .ok c ∧ Means "2" c ∧
        ∀ other ∈ kin, Means "2" other → Text.bytewise c.name other.name := by
  have hsorted : kin.Pairwise fun a b => Text.bytewise a.name b.name := by decide
  have hdistinct : (kin.map Case.name).Nodup := by decide
  have hplain : ∀ c ∈ kin, '/' ∉ c.name.toList := by decide
  have hfile {s : String} (h : cutSuffix? ".args" s = none) (stem : String) :
      s ≠ stem ++ ".args" := by
    intro hs
    rw [cutSuffix?_eq_some_iff.mpr hs] at h
    cases h
  obtain ⟨htests, hidentifiers⟩ := find_law hsorted hdistinct hplain
  obtain ⟨hfound, hleast⟩ := hidentifiers "2" (by decide) (hfile (by decide))
  obtain ⟨c, hc⟩ := hfound.mpr
    ⟨⟨"2_b", fileIn [] "2_b" ".args", fileIn [] "2_b" ".out"⟩, by decide, .inr ⟨"b", rfl⟩⟩
  obtain ⟨hmem, hmeans⟩ := hleast c hc
  refine ⟨hsorted, hdistinct, hplain, ?_, ?_, ?_, c, hmem, hc, hmeans⟩
  · exact (htests ⟨"1_a.args", _, _⟩ (by decide)).1
  · exact (htests ⟨"1_a", _, _⟩ (by decide)).2.1
  · exact (htests ⟨"1", _, _⟩ (by decide)).2.2 (hfile (by decide))

end Golden

end PassPipeline
