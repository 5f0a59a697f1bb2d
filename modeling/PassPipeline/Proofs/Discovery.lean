import Mathlib.Data.List.Nodup
import PassPipeline.Golden

/-! Which golden tests are found. Command lines are looked for at any depth below the
searched folder, but the output of each in that folder itself. So a test is found with the
output next to it only where it lies in the searched folder, and it is said here for which
trees this makes no difference. -/
namespace PassPipeline

namespace FileTree

variable {t : FileTree} {p : Path}

/-- No two files lie in one place, and no file lies where a folder is. -/
structure Sound (t : FileTree) : Prop where
  distinct : (t.files.map Prod.fst).Nodup
  apart : ∀ p ∈ t.files.map Prod.fst, ¬t.isFolder p

theorem isSome_file?_iff : (t.file? p).isSome ↔ p ∈ t.files.map Prod.fst := by
  rw [file?, Option.isSome_map, List.find?_isSome, List.mem_map]
  simp

theorem exists?_iff : t.exists? p ↔ (t.file? p).isSome ∨ t.isFolder p := by
  rw [exists?, Bool.or_eq_true]

end FileTree

namespace Golden

variable {t : FileTree} {p within : Path} {c : Case} {s r lead suffix : String}

/-! ## Cutting off -/

theorem cutSuffix?_eq_some_iff : cutSuffix? suffix s = some r ↔ s = r ++ suffix := by
  have hsuffix :
      suffix.toList.reverse.isPrefixOf s.toList.reverse ↔ suffix.toList <:+ s.toList := by
    rw [List.isPrefixOf_iff_prefix, List.reverse_prefix]
  unfold cutSuffix?
  constructor
  · intro h
    split at h
    · rename_i hcut
      obtain ⟨front, hfront⟩ := hsuffix.mp hcut
      have hlength : s.length - suffix.length = front.length := by
        rw [← String.length_toList, ← String.length_toList, ← hfront, List.length_append]
        omega
      rw [hlength, ← hfront, List.take_left] at h
      apply String.toList_inj.mp
      rw [← Option.some.inj h, String.toList_append, String.toList_ofList, hfront]
    · cases h
  · rintro rfl
    have hlength : (r ++ suffix).length - suffix.length = r.toList.length := by
      rw [String.length_append, String.length_toList]
      omega
    rw [if_pos (hsuffix.mpr ⟨r.toList, String.toList_append.symm⟩), hlength, String.toList_append,
      List.take_left, String.ofList_toList]

theorem cutLead?_eq_some_iff : cutLead? lead s = some r ↔ s = lead ++ r := by
  unfold cutLead?
  constructor
  · intro h
    split at h
    · rename_i hcut
      obtain ⟨back, hback⟩ := List.isPrefixOf_iff_prefix.mp hcut
      rw [← hback, ← String.length_toList, List.drop_left] at h
      apply String.toList_inj.mp
      rw [← Option.some.inj h, String.toList_append, String.toList_ofList, hback]
    · cases h
  · rintro rfl
    rw [if_pos (List.isPrefixOf_iff_prefix.mpr ⟨r.toList, String.toList_append.symm⟩),
      String.toList_append, ← String.length_toList, List.drop_left, String.ofList_toList]

/-! ## What is found -/

/-- A file in a folder on the way down from the searched one, by its name and extension. -/
def fileIn (within : Path) (name extension : String) : Path :=
  folder :: (within ++ [name ++ extension])

/-- A file with a command line, at any depth. -/
def HasArguments (t : FileTree) (within : Path) (c : Case) : Prop :=
  c.arguments = fileIn within c.name ".args" ∧ (t.file? c.arguments).isSome

/-- A case whose expected output lies next to its command line. -/
def Paired (t : FileTree) (c : Case) : Prop :=
  ∃ within, HasArguments t within c ∧ c.expected = fileIn within c.name ".out" ∧
    (t.file? c.expected).isSome

/-- A case whose expected output lies in the searched folder. A folder
is taken for an output there. -/
def Found (t : FileTree) (c : Case) : Prop :=
  ∃ within, HasArguments t within c ∧ c.expected = fileIn [] c.name ".out" ∧ t.exists? c.expected

/-- A tree in which it does not matter where an output is looked for. -/
def Flat (t : FileTree) : Prop :=
  ∀ within name, (t.file? (fileIn within name ".args")).isSome →
    (within = [] → ¬t.isFolder (fileIn [] name ".out")) ∧
    (within ≠ [] → ¬t.exists? (fileIn [] name ".out") ∧
      ¬(t.file? (fileIn within name ".out")).isSome)

theorem fileIn_inj {other : Path} {name extension : String}
    (h : fileIn within name extension = fileIn other name extension) : within = other := by
  have htail := (List.cons.inj h).2
  exact List.append_cancel_right htail

theorem named_iff {name : String} : p.getLast?.bind (cutSuffix? argumentsSuffix) = some name ↔
    ∃ front, p = front ++ [name ++ ".args"] := by
  rw [Option.bind_eq_some_iff]
  constructor
  · rintro ⟨last, hlast, hcut⟩
    obtain ⟨front, rfl⟩ := List.getLast?_eq_some_iff.mp hlast
    exact ⟨front, congrArg (front ++ [·]) (cutSuffix?_eq_some_iff.mp hcut)⟩
  · rintro ⟨front, rfl⟩
    exact ⟨_, List.getLast?_concat, cutSuffix?_eq_some_iff.mpr rfl⟩

theorem case?_eq_some_iff : case? t p = some c ↔ (∃ front, p = front ++ [c.name ++ ".args"]) ∧
    c.arguments = p ∧ c.expected = fileIn [] c.name ".out" ∧ t.exists? c.expected := by
  rw [← named_iff]
  unfold case?
  cases p.getLast?.bind (cutSuffix? argumentsSuffix) with
  | none => exact iff_of_false nofun fun h => nomatch h.1
  | some name =>
    change (if t.exists? (fileIn [] name ".out") then
      some (Case.mk name p (fileIn [] name ".out")) else none) = some c ↔ _
    rw [Option.ite_none_right_eq_some]
    constructor
    · rintro ⟨houtput, h⟩
      obtain rfl := Option.some.inj h
      exact ⟨rfl, rfl, rfl, houtput⟩
    · rintro ⟨hname, rfl, hexpected, houtput⟩
      obtain rfl := Option.some.inj hname
      rw [← hexpected]
      exact ⟨houtput, rfl⟩

theorem folder_ne (name : String) : folder ≠ name ++ ".args" := by
  intro h
  have hcut : cutSuffix? ".args" folder = some name := cutSuffix?_eq_some_iff.mpr h
  have hnone : cutSuffix? ".args" folder = none := by decide
  rw [hnone] at hcut
  cases hcut

/-- A command line below the searched folder, as the walk meets it. -/
theorem exists_fileIn_iff {name : String} :
    [folder] <+: p ∧ (∃ front, p = front ++ [name ++ ".args"]) ↔
    ∃ within, p = fileIn within name ".args" := by
  constructor
  · rintro ⟨⟨rest, hrest⟩, front, rfl⟩
    cases front with
    | nil => exact absurd (List.cons.inj hrest).1 (folder_ne name)
    | cons first within =>
      obtain ⟨rfl, -⟩ := List.cons.inj hrest
      exact ⟨within, rfl⟩
  · rintro ⟨within, rfl⟩
    exact ⟨⟨_, rfl⟩, folder :: within, rfl⟩

theorem map_arguments_filterMap (t : FileTree) (ps : List Path) :
    (ps.filterMap (case? t)).map Case.arguments = ps.filter fun p => (case? t p).isSome := by
  induction ps with
  | nil => rfl
  | cons p ps ih =>
    cases h : case? t p with
    | none => simp [h, ih]
    | some c =>
      obtain ⟨-, harguments, -⟩ := case?_eq_some_iff.mp h
      simp [h, ih, harguments]

/-- Every command line below the searched folder gives one case at most,
with an output in that folder. -/
theorem exists_discover (hsound : t.Sound) (hfolder : t.isFolder [folder]) :
    ∃ cases, discover t = some cases ∧ (cases.map Case.arguments).Nodup ∧
      ∀ c, c ∈ cases ↔ Found t c := by
  refine ⟨_, if_pos (FileTree.exists?_iff.mpr (.inr hfolder)), ?_, ?_⟩
  · rw [map_arguments_filterMap]
    apply List.Nodup.filter
    exact (List.mergeSort_perm _ _).nodup_iff.mpr (hsound.distinct.filter _)
  · intro c
    simp only [List.mem_filterMap, List.mem_mergeSort, List.mem_filter, List.isPrefixOf_iff_prefix,
      case?_eq_some_iff]
    constructor
    · rintro ⟨p, ⟨hp, hbelow⟩, hname, rfl, hexpected, houtput⟩
      obtain ⟨within, hwithin⟩ := exists_fileIn_iff.mp ⟨hbelow, hname⟩
      exact ⟨within, ⟨hwithin, FileTree.isSome_file?_iff.mpr hp⟩, hexpected, houtput⟩
    · rintro ⟨within, ⟨hwithin, hfile⟩, hexpected, houtput⟩
      obtain ⟨hbelow, hname⟩ := exists_fileIn_iff.mpr ⟨within, hwithin⟩
      exact ⟨c.arguments, ⟨FileTree.isSome_file?_iff.mp hfile, hbelow⟩, hname, rfl,
        hexpected, houtput⟩

/-! ## What should be found -/

theorem HasArguments.isSome (h : HasArguments t within c) :
    (t.file? (fileIn within c.name ".args")).isSome := by
  rw [← h.1]
  exact h.2

theorem paired_of_found (hflat : Flat t) (h : Found t c) : Paired t c := by
  obtain ⟨within, harguments, hexpected, houtput⟩ := h
  obtain ⟨hnear, hdeep⟩ := hflat within c.name harguments.isSome
  rw [hexpected] at houtput
  by_cases hwithin : within = []
  · subst hwithin
    refine ⟨[], harguments, hexpected, ?_⟩
    rw [hexpected]
    exact (FileTree.exists?_iff.mp houtput).resolve_right (hnear rfl)
  · exact absurd houtput (hdeep hwithin).1

theorem found_of_paired (hflat : Flat t) (h : Paired t c) : Found t c := by
  obtain ⟨within, harguments, hexpected, houtput⟩ := h
  obtain ⟨-, hdeep⟩ := hflat within c.name harguments.isSome
  by_cases hwithin : within = []
  · subst hwithin
    exact ⟨[], harguments, hexpected, FileTree.exists?_iff.mpr (.inl houtput)⟩
  · rw [hexpected] at houtput
    exact absurd houtput (hdeep hwithin).2

/-- Each way of not being flat gives a case that is found or paired, and not the other. -/
theorem flat_of_forall (hsound : t.Sound) (h : ∀ c, Found t c ↔ Paired t c) : Flat t := by
  intro within name hthere
  constructor
  · rintro rfl hfolder
    have hfound : Found t ⟨name, fileIn [] name ".args", fileIn [] name ".out"⟩ :=
      ⟨[], ⟨rfl, hthere⟩, rfl, FileTree.exists?_iff.mpr (.inr hfolder)⟩
    obtain ⟨-, -, -, houtput⟩ := (h _).mp hfound
    exact hsound.apart _ (FileTree.isSome_file?_iff.mp houtput) hfolder
  · intro hwithin
    constructor
    · intro houtput
      have hfound : Found t ⟨name, fileIn within name ".args", fileIn [] name ".out"⟩ :=
        ⟨within, ⟨rfl, hthere⟩, rfl, houtput⟩
      obtain ⟨other, ⟨harguments, -⟩, hexpected, -⟩ := (h _).mp hfound
      exact hwithin ((fileIn_inj harguments).trans (fileIn_inj hexpected).symm)
    · intro houtput
      have hpaired : Paired t ⟨name, fileIn within name ".args", fileIn within name ".out"⟩ :=
        ⟨within, ⟨rfl, hthere⟩, rfl, houtput⟩
      obtain ⟨-, -, hexpected, -⟩ := (h _).mpr hpaired
      exact hwithin (fileIn_inj hexpected)

/-- The tests that are found are the command lines, at any depth, with an output in the searched
folder, each of them once. In flat trees, and in no others, that is the output next to them. -/
theorem discover_law (hsound : t.Sound) (hfolder : t.isFolder [folder]) :
    ∃ cases, discover t = some cases ∧ (cases.map Case.arguments).Nodup ∧
      (∀ c, c ∈ cases ↔ Found t c) ∧
      ((∀ c, c ∈ cases ↔ Paired t c) ↔ Flat t) := by
  obtain ⟨cases, hcases, hdistinct, hmem⟩ := exists_discover hsound hfolder
  refine ⟨cases, hcases, hdistinct, hmem, ?_⟩
  constructor
  · intro hpaired
    exact flat_of_forall hsound fun c => (hmem c).symm.trans (hpaired c)
  · intro hflat c
    rw [hmem]
    exact ⟨paired_of_found hflat, found_of_paired hflat⟩

/-- A test in the searched folder, and one of the same name with an
output of its own further down. -/
def namesakes : FileTree where
  files := [(fileIn [] "a" ".args", "-h"), (fileIn [] "a" ".out", ""),
    (fileIn ["sub"] "a" ".args", "-version"), (fileIn ["sub"] "a" ".out", "1\n")]

theorem discover_law_namesakes :
    namesakes.Sound ∧ namesakes.isFolder [folder] ∧
      ∃ cases, discover namesakes = some cases ∧ (cases.map Case.arguments).Nodup ∧
        ⟨"a", fileIn [] "a" ".args", fileIn [] "a" ".out"⟩ ∈ cases ∧
        ⟨"a", fileIn ["sub"] "a" ".args", fileIn [] "a" ".out"⟩ ∈ cases ∧
        ((∀ c, c ∈ cases ↔ Paired namesakes c) ↔ Flat namesakes) ∧ ¬Flat namesakes := by
  have hsound : namesakes.Sound := ⟨by decide, by decide⟩
  have hfolder : namesakes.isFolder [folder] := by decide
  obtain ⟨cases, hcases, hdistinct, hmem, hflat⟩ := discover_law hsound hfolder
  refine ⟨hsound, hfolder, cases, hcases, hdistinct, ?_, ?_, hflat, ?_⟩
  · exact (hmem _).mpr ⟨[], ⟨rfl, by decide⟩, rfl, by decide⟩
  · exact (hmem _).mpr ⟨["sub"], ⟨rfl, by decide⟩, rfl, by decide⟩
  · intro h
    exact ((h ["sub"] "a" (by decide)).2 (by decide)).1 (by decide)

/-- A test in a folder below the searched one, with its output next to it. -/
def nested : FileTree where
  files := [(fileIn ["sub"] "b" ".args",
      "-t aarch64-linux -O 0 -arguments -start-after=expand-isel-pseudos -stop-after=regalloc-fast unit\n"),
    (fileIn ["sub"] "b" ".out",
      "Pass Arguments: -localstackalloc -phi-node-elimination -twoaddressinstruction -regalloc-fast\n")]

/-- Nothing is found there, and so not the test. -/
theorem discover_misses_nested :
    nested.Sound ∧ nested.isFolder [folder] ∧
      Paired nested ⟨"b", fileIn ["sub"] "b" ".args", fileIn ["sub"] "b" ".out"⟩ ∧
      discover nested = some [] ∧
      ¬∃ cases, discover nested = some cases ∧ ∀ c, c ∈ cases ↔ Paired nested c := by
  have hsound : nested.Sound := ⟨by decide, by decide⟩
  have hfolder : nested.isFolder [folder] := by decide
  have hpaired : Paired nested ⟨"b", fileIn ["sub"] "b" ".args", fileIn ["sub"] "b" ".out"⟩ :=
    ⟨["sub"], ⟨rfl, by decide⟩, rfl, by decide⟩
  have hcase : ∀ p ∈ nested.files.map Prod.fst, case? nested p = none := by decide
  have hnone : discover nested = some [] := by
    refine (if_pos (by decide)).trans (congrArg some (List.filterMap_eq_nil_iff.mpr ?_))
    intro p hp
    exact hcase p (List.mem_of_mem_filter (List.mem_mergeSort.mp hp))
  refine ⟨hsound, hfolder, hpaired, hnone, ?_⟩
  rintro ⟨cases, hcases, hmem⟩
  rw [hnone] at hcases
  obtain rfl := Option.some.inj hcases
  exact List.not_mem_nil ((hmem _).mpr hpaired)

end Golden

end PassPipeline
