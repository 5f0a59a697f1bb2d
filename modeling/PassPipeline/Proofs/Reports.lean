import Mathlib.Data.List.DropRight
import PassPipeline.Pass.Standard
import PassPipeline.Proofs.Escaping
import PassPipeline.Proofs.Words
import PassPipeline.Report

/-! Reports that can be read back. A table has one line for its heading and one for each pass, with
the whole name on it, whatever the unit and the banners are called. A line of arguments tells the
names of its passes, in order. -/
namespace PassPipeline

namespace Text

variable {cs front : List Char}

theorem split_eq_splitOn (sep : Char) (cs : List Char) : split sep cs = cs.splitOn sep := by
  rw [split, splitBy_eq_splitOnP, List.splitOn_eq_splitOnP]
  rfl

theorem trimSpacesRight_spec (cs : List Char) :
    (∃ margin, trimSpacesRight cs ++ List.replicate margin ' ' = cs) ∧
      (trimSpacesRight cs).getLast? ≠ some ' ' := by
  change (∃ margin, cs.rdropWhile (· = ' ') ++ _ = cs) ∧ (cs.rdropWhile (· = ' ')).getLast? ≠ _
  induction cs using List.reverseRecOn with
  | nil => exact ⟨⟨0, rfl⟩, by simp⟩
  | append_singleton cs c ih =>
    by_cases hc : c = ' '
    · obtain ⟨⟨margin, hmargin⟩, hlast⟩ := ih
      rw [List.rdropWhile_concat_pos _ _ _ (by simpa using hc)]
      refine ⟨⟨margin + 1, ?_⟩, hlast⟩
      rw [List.replicate_succ', ← List.append_assoc, hmargin, hc]
    · rw [List.rdropWhile_concat_neg _ _ _ (by simpa using hc)]
      exact ⟨⟨0, List.append_nil _⟩, by simpa using hc⟩

theorem trimSpacesRight_of_getLast? (h : cs.getLast? ≠ some ' ') : trimSpacesRight cs = cs := by
  obtain ⟨⟨margin, hmargin⟩, -⟩ := trimSpacesRight_spec cs
  cases margin with
  | zero => simpa using hmargin
  | succ margin =>
    rw [← hmargin, List.replicate_succ', ← List.append_assoc, List.getLast?_concat] at h
    exact absurd rfl h

theorem prefix_trimSpacesRight (h : front.getLast? ≠ some ' ') (rest : List Char) :
    front <+: trimSpacesRight (front ++ rest) := by
  obtain ⟨⟨margin, hmargin⟩, -⟩ := trimSpacesRight_spec (front ++ rest)
  rcases List.append_eq_append_iff.mp hmargin with ⟨spaces, hfront, hspaces⟩ | ⟨more, hline, -⟩
  · cases spaces using List.reverseRecOn with
    | nil =>
      rw [List.append_nil] at hfront
      exact hfront ▸ List.prefix_rfl
    | append_singleton spaces c =>
      have hc : c = ' ' := List.eq_of_mem_replicate (n := margin) (by simp [hspaces])
      rw [hfront, ← List.append_assoc, List.getLast?_concat, hc] at h
      exact absurd rfl h
  · rw [hline]
    exact List.prefix_append front more

/-- A text at the right end of its column, which is as wide as the text at least. -/
def AlignedRight (width : Nat) (text cell : List Char) : Prop :=
  ∃ gap, cell = List.replicate gap ' ' ++ text ∧ cell.length = max width text.length

def AlignedLeft (width : Nat) (text cell : List Char) : Prop :=
  ∃ gap, cell = text ++ List.replicate gap ' ' ∧ cell.length = max width text.length

theorem alignedRight_padLeft (width : Nat) (text : List Char) :
    AlignedRight width text (padLeft width text) := by
  refine ⟨width - text.length, rfl, ?_⟩
  rw [padLeft, List.length_append, List.length_replicate]
  omega

theorem alignedLeft_padRight (width : Nat) (text : List Char) :
    AlignedLeft width text (padRight width text) := by
  refine ⟨width - text.length, rfl, ?_⟩
  rw [padRight, List.length_append, List.length_replicate]
  omega

end Text

/-- What a registry says of a kind, which is nothing if it does not know it. -/
def Registry.description (r : Registry) (id : PassId) : String :=
  ((r.kind? id).map Kind.description).getD ""

namespace Report

open Text

def heading (unit : String) (count : Nat) : List Char :=
  ("Pipeline for " ++ escape unit ++ " (" ++ toString count ++ " passes):").toList

/-- How a line tells of a pass. Without a banner, the spaces at the end are left out. -/
structure Tells (registry : Registry) (index : Nat) (p : Pass) (number name line : List Char) :
    Prop where
  numbered : AlignedRight 4 (toString index).toList number
  named : AlignedLeft 28 p.name.toList name
  start : number ++ "  ".toList ++ p.name.toList <+: line
  plain : p.banner = "" → ∃ margin, line ++ List.replicate margin ' ' =
    number ++ "  ".toList ++ name ++ " ".toList ++ (registry.description p.id).toList
  bannered : p.banner ≠ "" → line = number ++ "  ".toList ++ name ++ " ".toList ++
    (registry.description p.id).toList ++ (" [" ++ escape p.banner ++ "]").toList

variable {registry : Registry} {index : Nat} {p : Pass} {ps : List Pass}

/-- A row before the spaces at its end are cut. -/
def fullRow (registry : Registry) (index : Nat) (p : Pass) : List Char :=
  padLeft 4 (toString index).toList ++ "  ".toList ++ padRight 28 p.name.toList ++ " ".toList ++
    (registry.description p.id).toList ++
    if p.banner = "" then [] else (" [" ++ escape p.banner ++ "]").toList

theorem row_eq (registry : Registry) (index : Nat) (p : Pass) :
    row registry index p = trimSpacesRight (fullRow registry index p) := by
  unfold row fullRow Registry.description escape
  cases registry.kind? p.id <;> split_ifs <;> simp

theorem getLast?_fullRow (hbanner : p.banner ≠ "") :
    (fullRow registry index p).getLast? = some ']' := by
  rw [fullRow, if_neg hbanner, List.getLast?_append, String.toList_append, List.getLast?_append]
  rfl

theorem tells_row (hne : p.name ≠ "") (hend : p.name.toList.getLast? ≠ some ' ') :
    Tells registry index p (padLeft 4 (toString index).toList) (padRight 28 p.name.toList)
      (row registry index p) where
  numbered := alignedRight_padLeft 4 _
  named := alignedLeft_padRight 28 _
  start := by
    have hfull : padLeft 4 (toString index).toList ++ "  ".toList ++ p.name.toList <+:
        fullRow registry index p := by
      simp only [fullRow, padRight, List.append_assoc, List.prefix_append_right_inj,
        List.prefix_append]
    have hlast := List.getLast?_eq_some_getLast (mt String.toList_eq_nil_iff.mp hne)
    obtain ⟨rest, hrest⟩ := hfull
    rw [row_eq, ← hrest]
    apply prefix_trimSpacesRight
    rw [List.getLast?_append, hlast]
    rwa [hlast] at hend
  plain hbanner := by
    obtain ⟨hmargin, -⟩ := trimSpacesRight_spec (fullRow registry index p)
    rw [row_eq]
    simpa [fullRow, hbanner] using hmargin
  bannered hbanner := by
    rw [row_eq, trimSpacesRight_of_getLast? (by simp [getLast?_fullRow hbanner]), fullRow,
      if_neg hbanner]

theorem newline_not_mem_row (hname : '\n' ∉ p.name.toList)
    (hdescription : '\n' ∉ (registry.description p.id).toList) : '\n' ∉ row registry index p := by
  have hnumber := newline_not_mem_natural index
  have hbanner := newline_not_mem_escape p.banner
  have hfull : '\n' ∉ fullRow registry index p := by
    unfold fullRow padLeft padRight
    split_ifs <;> simpa [hname, hdescription, hbanner] using hnumber
  obtain ⟨⟨margin, hmargin⟩, -⟩ := trimSpacesRight_spec (fullRow registry index p)
  intro h
  apply hfull
  rw [← hmargin, ← row_eq]
  exact List.mem_append_left _ h

theorem getLast?_heading (unit : String) (count : Nat) :
    (heading unit count).getLast? = some ':' := by
  rw [heading, String.toList_append, List.getLast?_append]
  rfl

theorem newline_not_mem_heading (unit : String) (count : Nat) : '\n' ∉ heading unit count := by
  have hunit := newline_not_mem_escape unit
  have hcount := newline_not_mem_natural count
  simpa [heading, hunit] using hcount

/-- The rows of a list of which the first pass has the given index. -/
def rowList (registry : Registry) (index : Nat) (ps : List Pass) : List (List Char) :=
  (ps.zipIdx index).map fun entry => row registry entry.2 entry.1

theorem rowsFrom_eq (registry : Registry) (index : Nat) (ps : List Pass) :
    rowsFrom registry index ps = (rowList registry index ps).flatMap (· ++ ['\n']) := by
  induction ps generalizing index with
  | nil => rfl
  | cons p ps ih => simp [rowsFrom, rowList, List.zipIdx_cons, ih]

theorem table_eq (registry : Registry) (unit : String) (ps : List Pass) :
    (table registry unit ps).toList =
      (heading unit ps.length :: rowList registry 0 ps).flatMap (· ++ ['\n']) := by
  have hend : " passes):\n".toList = " passes):".toList ++ ['\n'] := by decide
  delta table heading
  simp only [String.toList_append, String.toList_ofList, rowsFrom_eq, List.flatMap_cons, hend,
    List.append_assoc]

/-- A table prints a heading and one clean line for each pass, if no name or description has an end
of line in it and no name is empty or ends in a space. -/
theorem table_lines (registry : Registry) (unit : String)
    (hnames : ∀ p ∈ ps, p.name ≠ "" ∧ '\n' ∉ p.name.toList ∧ p.name.toList.getLast? ≠ some ' ')
    (hdescriptions : ∀ p ∈ ps, '\n' ∉ (registry.description p.id).toList) :
    ∃ lines : List (List Char), lines.length = ps.length + 1 ∧
      (table registry unit ps).toList = lines.flatMap (· ++ ['\n']) ∧
      (∀ line ∈ lines, '\n' ∉ line ∧ line.getLast? ≠ some ' ') ∧
      lines.head? = some (heading unit ps.length) ∧
      ∀ i p, ps[i]? = some p →
        ∃ line number name, lines[i + 1]? = some line ∧ Tells registry i p number name line := by
  refine ⟨_, ?_, table_eq registry unit ps, ?_, rfl, ?_⟩
  · simp [rowList]
  · intro line hline
    rcases List.mem_cons.mp hline with hheading | hline
    · rw [hheading, getLast?_heading]
      exact ⟨newline_not_mem_heading unit _, by decide⟩
    · obtain ⟨⟨p, i⟩, hp, rfl⟩ := List.mem_map.mp hline
      have hmem := List.fst_mem_of_mem_zipIdx hp
      refine ⟨newline_not_mem_row (hnames p hmem).2.1 (hdescriptions p hmem), ?_⟩
      rw [row_eq]
      exact (trimSpacesRight_spec _).2
  · intro i p hp
    have hmem := List.mem_of_getElem? hp
    refine ⟨row registry i p, _, _, ?_, tells_row (hnames p hmem).1 (hnames p hmem).2.2⟩
    simp [rowList, hp]

/-- A pass of a known kind, a printer with a banner of two lines, and a pass of an unknown kind. -/
def assorted : List Pass :=
  [⟨Standard.typeBasedAliasAnalysis, "tbaa", .ordinary⟩,
    .printer .machineCode .collected "After\n\"ISel\"", ⟨⟨-1⟩, "ghost", .ordinary⟩]

theorem table_lines_assorted :
    (∀ p ∈ assorted, p.name ≠ "" ∧ '\n' ∉ p.name.toList ∧ p.name.toList.getLast? ≠ some ' ') ∧
      (∀ p ∈ assorted, '\n' ∉ (Standard.registry.description p.id).toList) ∧
      ∃ lines : List (List Char), lines.length = 4 ∧
        (table Standard.registry "a\tb" assorted).toList = lines.flatMap (· ++ ['\n']) ∧
        (∀ line ∈ lines, '\n' ∉ line ∧ line.getLast? ≠ some ' ') ∧
        lines.head? = some "Pipeline for a\\tb (3 passes):".toList ∧
        ∃ line number name, lines[2]? = some line ∧
          Tells Standard.registry 1 (.printer .machineCode .collected "After\n\"ISel\"")
            number name line := by
  have hnames :
      ∀ p ∈ assorted, p.name ≠ "" ∧ '\n' ∉ p.name.toList ∧ p.name.toList.getLast? ≠ some ' ' := by
    decide
  have hdescriptions : ∀ p ∈ assorted, '\n' ∉ (Standard.registry.description p.id).toList := by
    decide
  obtain ⟨lines, hlength, htext, hclean, hhead, hrows⟩ :=
    table_lines Standard.registry "a\tb" hnames hdescriptions
  refine ⟨hnames, hdescriptions, lines, hlength, htext, hclean, ?_, hrows 1 _ rfl⟩
  rw [hhead]
  decide

/-! ## Arguments -/

/-- A word without the dash in front of it. -/
def undashed : List Char → List Char
  | '-' :: word => word
  | word => word

/-- The names on a line of arguments: what stands behind its heading and before its end, cut at the
spaces, without the dashes. -/
def readArguments (line : String) : List String :=
  let rest := (line.toList.drop "Pass Arguments: ".toList.length).dropLast
  if rest = [] then [] else (split ' ' rest).map fun word => String.ofList (undashed word)

theorem toList_arguments (ps : List Pass) : (arguments ps).toList =
    "Pass Arguments: ".toList ++
      ([' '].intercalate (ps.map fun p => '-' :: p.name.toList) ++ ['\n']) := by
  have hspace : " ".toList = [' '] := by decide
  have hnewline : "\n".toList = ['\n'] := by decide
  have hwords : (ps.map fun p => "-" ++ p.name).map String.toList =
      ps.map fun p => '-' :: p.name.toList := by
    simp
  delta arguments
  simp only [String.toList_append, String.toList_intercalate, hwords, hspace, hnewline,
    List.append_assoc]

theorem readArguments_of_toList {line : String} {rest : List Char}
    (h : line.toList = "Pass Arguments: ".toList ++ (rest ++ ['\n'])) :
    readArguments line =
      if rest = [] then [] else (split ' ' rest).map fun word => String.ofList (undashed word) := by
  simp only [readArguments, h, List.drop_left, List.dropLast_concat]

theorem readArguments_arguments (hps : ∀ p ∈ ps, ' ' ∉ p.name.toList) :
    readArguments (arguments ps) = ps.map Pass.name := by
  rw [readArguments_of_toList (toList_arguments ps)]
  cases ps with
  | nil => rfl
  | cons p ps =>
    -- the dash of the first name keeps the line from being empty, whatever the name
    have hne : [' '].intercalate ((p :: ps).map fun p => '-' :: p.name.toList) ≠ [] := by
      cases ps <;> simp
    have hwords : ∀ word ∈ (p :: ps).map fun p => '-' :: p.name.toList, ' ' ∉ word := by
      intro word hword
      obtain ⟨q, hq, rfl⟩ := List.mem_map.mp hword
      simpa using hps q hq
    rw [if_neg hne, split_eq_splitOn, List.splitOn_intercalate ' ' hwords (by simp), List.map_map]
    exact List.map_congr_left fun q hq => String.ofList_toList

/-- Lines of arguments lose nothing, if no name has a space in it. -/
theorem arguments_lossless (hps : ∀ p ∈ ps, ' ' ∉ p.name.toList) :
    readArguments (arguments ps) = ps.map Pass.name ∧
      ∀ qs : List Pass, (∀ q ∈ qs, ' ' ∉ q.name.toList) →
        (arguments ps = arguments qs ↔ ps.map Pass.name = qs.map Pass.name) := by
  refine ⟨readArguments_arguments hps, ?_⟩
  intro qs hqs
  constructor
  · intro h
    rw [← readArguments_arguments hps, h, readArguments_arguments hqs]
  · intro h
    have hnames (rs : List Pass) : arguments rs =
        "Pass Arguments: " ++ " ".intercalate ((rs.map Pass.name).map ("-" ++ ·)) ++ "\n" := by
      rw [List.map_map]
      rfl
    rw [hnames, hnames, h]

/-- Passes without a name, and with names that begin with dashes. -/
def dashed : List Pass :=
  [⟨⟨0⟩, "", .ordinary⟩, ⟨⟨0⟩, "-", .ordinary⟩, ⟨⟨0⟩, "--a-b", .ordinary⟩, ⟨⟨0⟩, "", .cancel⟩]

theorem arguments_lossless_dashed :
    (∀ p ∈ dashed, ' ' ∉ p.name.toList) ∧
      arguments dashed = "Pass Arguments: - -- ---a-b -\n" ∧
      readArguments (arguments dashed) = ["", "-", "--a-b", ""] ∧
      (∀ q ∈ dashed.take 1, ' ' ∉ q.name.toList) ∧
      (arguments dashed = arguments (dashed.take 1) ↔ ["", "-", "--a-b", ""] = [""]) := by
  have hdashed : ∀ p ∈ dashed, ' ' ∉ p.name.toList := by decide
  have hone : ∀ q ∈ dashed.take 1, ' ' ∉ q.name.toList := by decide
  obtain ⟨hread, hsame⟩ := arguments_lossless hdashed
  exact ⟨hdashed, by decide, hread, hone, hsame _ hone⟩

end Report

end PassPipeline
