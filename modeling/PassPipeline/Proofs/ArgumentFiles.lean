import PassPipeline.Golden
import PassPipeline.Proofs.Decoding
import PassPipeline.Proofs.Words

/-! Files of arguments. A file is read line by line, and so the arguments of two files that are
joined by an end of line are those of the one and those of the other. Whatever the bytes, no
argument is empty or holds white space, and tokens that were written on lines are read as they are,
however wide the white space is and whatever is remarked between them. -/
namespace PassPipeline.Golden

open Text

/-! ## What can be written -/

/-- White space that stays on its line. -/
structure Gap where
  text : String
  blank : text.toList.all fun c => isBlank c && c ≠ '\n'

/-- A text with something in it, none of it white space. -/
structure Token where
  text : String
  nonempty : text ≠ ""
  solid : text.toList.all fun c => !isBlank c

/-- Tokens next to each other, with white space between them. Behind the last there may be none. -/
inductive Tokens where
  | last (token : Token) (trail : Gap)
  | more (token : Token) (gap : Gap) (apart : gap.text ≠ "") (rest : Tokens)

namespace Tokens

def first : Tokens → Token
  | .last token _ => token
  | .more token _ _ _ => token

def texts : Tokens → List String
  | .last token _ => [token.text]
  | .more token _ _ rest => token.text :: rest.texts

def content : Tokens → List UInt8
  | .last token trail => bytes token.text ++ bytes trail.text
  | .more token gap _ rest => bytes token.text ++ (bytes gap.text ++ rest.content)

end Tokens

/-- A line of a file. Of a remark only the beginning has to be text. -/
inductive Line where
  | blank (gap : Gap)
  | remark (lead : Gap) (rest : List UInt8) (inside : 0x0A ∉ rest)
  | command (lead : Gap) (tokens : Tokens) (plain : tokens.first.text.toList.head? ≠ some '#')

namespace Line

def texts : Line → List String
  | .blank _ => []
  | .remark _ _ _ => []
  | .command _ tokens _ => tokens.texts

def content : Line → List UInt8
  | .blank gap => bytes gap.text
  | .remark lead rest _ => bytes lead.text ++ (bytes "#" ++ rest)
  | .command lead tokens _ => bytes lead.text ++ tokens.content

end Line

variable {content : List UInt8} {arg : List UInt8} {p : Piece} {ps lead : List Piece}

theorem newline_not_mem_bytes {s : String} (h : '\n' ∉ s.toList) : 0x0A ∉ bytes s := by
  intro hmem
  rw [bytes_eq_flatMap] at hmem
  obtain ⟨c, hc, hbyte⟩ := List.mem_flatMap.mp hmem
  have hnumber := (mem_utf8EncodeChar_iff (by decide)).mp hbyte
  apply h
  rwa [← show c = '\n' from Char.toNat_inj.mp hnumber]

theorem flatMap_source_piecesOf (s : String) : (piecesOf s).flatMap Piece.source = bytes s := by
  rw [← pieces_bytes, flatMap_source_pieces]

namespace Gap

theorem isBlank_of_mem (gap : Gap) {c : Char} (h : c ∈ gap.text.toList) : isBlank c ∧ c ≠ '\n' := by
  simpa using List.all_eq_true.mp gap.blank c h

theorem isBlank_pieces (gap : Gap) : ∀ p ∈ piecesOf gap.text, p.isBlank := by
  intro p hp
  obtain ⟨c, hc, rfl⟩ := List.mem_map.mp hp
  exact (gap.isBlank_of_mem hc).1

theorem pieces_ne_nil {gap : Gap} (h : gap.text ≠ "") : piecesOf gap.text ≠ [] := by
  intro hnil
  exact h (String.toList_eq_nil_iff.mp (List.map_eq_nil_iff.mp hnil))

theorem newline_not_mem (gap : Gap) : 0x0A ∉ bytes gap.text := by
  apply newline_not_mem_bytes
  intro h
  exact (gap.isBlank_of_mem h).2 rfl

end Gap

namespace Token

theorem not_isBlank_of_mem (token : Token) {c : Char} (h : c ∈ token.text.toList) : ¬isBlank c := by
  simpa using List.all_eq_true.mp token.solid c h

theorem exists_toList (token : Token) : ∃ c cs, token.text.toList = c :: cs ∧ ¬isBlank c := by
  obtain ⟨c, cs, hcs⟩ := List.exists_cons_of_ne_nil (mt String.toList_eq_nil_iff.mp token.nonempty)
  exact ⟨c, cs, hcs, token.not_isBlank_of_mem (hcs ▸ List.mem_cons_self)⟩

theorem words_pieces (token : Token) : words (piecesOf token.text) = [piecesOf token.text] := by
  apply words_of_forall_not
  · obtain ⟨c, cs, hcs, -⟩ := token.exists_toList
    simp [piecesOf, hcs]
  · intro p hp
    obtain ⟨c, hc, rfl⟩ := List.mem_map.mp hp
    exact token.not_isBlank_of_mem hc

theorem newline_not_mem (token : Token) : 0x0A ∉ bytes token.text := by
  apply newline_not_mem_bytes
  intro h
  exact token.not_isBlank_of_mem h (by decide)

end Token

namespace Tokens

theorem newline_not_mem (tokens : Tokens) : 0x0A ∉ tokens.content := by
  induction tokens with
  | last token trail =>
    rw [content, List.mem_append]
    exact not_or.mpr ⟨token.newline_not_mem, trail.newline_not_mem⟩
  | more token gap apart rest ih =>
    rw [content, List.mem_append, List.mem_append]
    exact not_or.mpr ⟨token.newline_not_mem, not_or.mpr ⟨gap.newline_not_mem, ih⟩⟩

theorem exists_content (tokens : Tokens) :
    ∃ rest, tokens.content = bytes tokens.first.text ++ rest := by
  cases tokens with
  | last token trail => exact ⟨_, rfl⟩
  | more token gap apart rest => exact ⟨_, rfl⟩

theorem words_content (tokens : Tokens) :
    words (pieces tokens.content) = tokens.texts.map piecesOf := by
  induction tokens with
  | last token trail =>
    rw [content, pieces_bytes_append, pieces_bytes, words_append_gap trail.isBlank_pieces,
      token.words_pieces]
    rfl
  | more token gap apart rest ih =>
    rw [content, pieces_bytes_append, pieces_bytes_append,
      words_append_gap_append gap.isBlank_pieces (Gap.pieces_ne_nil apart), token.words_pieces, ih]
    rfl

end Tokens

/-! ## One line -/

/-- Trimming shows how a line begins, and changes nothing about its words. -/
theorem argumentsOn_eq (line : List Piece) :
    argumentsOn line = if (trim line).head? = some (.char '#') then [] else words line := by
  rw [← words_trim line]
  rfl

theorem argumentsOn_blank (h : ∀ p ∈ ps, p.isBlank) : argumentsOn ps = [] := by
  rw [argumentsOn_eq, words_gap h, ite_self]

theorem argumentsOn_remark (hlead : ∀ p ∈ lead, p.isBlank) (ps : List Piece) :
    argumentsOn (lead ++ .char '#' :: ps) = [] := by
  have hhead := head?_trim hlead (p := .char '#') (by decide) ps
  rw [argumentsOn_eq, if_pos hhead]

theorem argumentsOn_command (hlead : ∀ p ∈ lead, p.isBlank) (hp : ¬p.isBlank)
    (hplain : p ≠ .char '#') (ps : List Piece) :
    argumentsOn (lead ++ p :: ps) = words (p :: ps) := by
  have hhead := head?_trim hlead hp ps
  have hsays : (trim (lead ++ p :: ps)).head? ≠ some (.char '#') := by
    rw [hhead]
    intro h
    exact hplain (Option.some.inj h)
  rw [argumentsOn_eq, if_neg hsays, words_gap_append hlead]

theorem readArguments_of_not_mem (h : 0x0A ∉ content) :
    readArguments content = (argumentsOn (pieces content)).map (·.flatMap Piece.source) := by
  have hline : ∀ p ∈ pieces content, ¬decide (p = .char '\n') := by
    intro p hp hnewline
    apply h
    rw [← flatMap_source_pieces content]
    refine List.mem_flatMap.mpr ⟨p, hp, ?_⟩
    rw [of_decide_eq_true hnewline]
    decide
  rw [readArguments, splitBy_of_forall_not hline, List.flatMap_singleton]

namespace Line

theorem newline_not_mem (line : Line) : 0x0A ∉ line.content := by
  cases line with
  | blank gap => exact gap.newline_not_mem
  | remark lead rest inside =>
    rw [content, List.mem_append, List.mem_append]
    exact not_or.mpr ⟨lead.newline_not_mem, not_or.mpr ⟨by decide, inside⟩⟩
  | command lead tokens plain =>
    rw [content, List.mem_append]
    exact not_or.mpr ⟨lead.newline_not_mem, tokens.newline_not_mem⟩

theorem argumentsOn_content (line : Line) :
    argumentsOn (pieces line.content) = line.texts.map piecesOf := by
  cases line with
  | blank gap =>
    rw [content, pieces_bytes]
    exact argumentsOn_blank gap.isBlank_pieces
  | remark lead rest inside =>
    rw [content, pieces_bytes_append, pieces_bytes_append]
    exact argumentsOn_remark lead.isBlank_pieces (pieces rest)
  | command lead tokens plain =>
    obtain ⟨c, cs, hcs, hc⟩ := tokens.first.exists_toList
    obtain ⟨rest, hrest⟩ := tokens.exists_content
    have hpieces : pieces tokens.content = .char c :: (cs.map Piece.char ++ pieces rest) := by
      rw [hrest, pieces_bytes_append, piecesOf, hcs, List.map_cons, List.cons_append]
    have hplain : Piece.char c ≠ .char '#' := by
      intro h
      apply plain
      rw [hcs, Piece.char.inj h, List.head?_cons]
    have hfirst : ¬(Piece.char c).isBlank := hc
    rw [content, pieces_bytes_append, hpieces,
      argumentsOn_command lead.isBlank_pieces hfirst hplain, ← hpieces, tokens.words_content]
    rfl

theorem readArguments_content (line : Line) :
    readArguments line.content = line.texts.map bytes := by
  rw [readArguments_of_not_mem line.newline_not_mem, line.argumentsOn_content, List.map_map]
  exact List.map_congr_left fun s _ => flatMap_source_piecesOf s

end Line

/-! ## All lines -/

theorem readArguments_append (a b : List UInt8) :
    readArguments (a ++ 0x0A :: b) = readArguments a ++ readArguments b := by
  have hcut : pieces (a ++ 0x0A :: b) = pieces a ++ .char '\n' :: pieces b :=
    pieces_append_utf8EncodeChar a '\n' b
  unfold readArguments
  rw [hcut, splitBy_append_cons (by simp), List.flatMap_append, List.map_append]

theorem readArguments_lines (lines : List Line) :
    readArguments ([0x0A].intercalate (lines.map Line.content)) =
      (lines.flatMap Line.texts).map bytes := by
  induction lines with
  | nil => rfl
  | cons line lines ih =>
    rw [List.flatMap_cons, List.map_append, ← line.readArguments_content, ← ih]
    cases lines with
    | nil => simp [readArguments_of_not_mem, argumentsOn_blank]
    | cons next lines =>
      rw [List.map_cons, List.map_cons, List.intercalate_cons_cons, List.append_assoc]
      exact readArguments_append _ _

/-- What is read is cut out of the file, and a character is seen wherever it stands in it. -/
theorem mem_readArguments (h : arg ∈ readArguments content) :
    arg ≠ [] ∧ ∀ c, isBlank c → ¬String.utf8EncodeChar c <:+: arg := by
  obtain ⟨ps, hps, rfl⟩ := List.mem_map.mp h
  obtain ⟨line, hline, hps⟩ := List.mem_flatMap.mp hps
  rw [argumentsOn_eq] at hps
  split at hps
  · cases hps
  · obtain ⟨hne, hword, hsolid⟩ := mem_words hps
    have hwithin : ps <:+: pieces content := hword.trans (mem_splitBy hline).1
    have hread := pieces_source_of_infix hwithin
    constructor
    · intro hnil
      rw [hnil] at hread
      exact hne hread.symm
    · rintro c hc ⟨front, back, hcut⟩
      rw [← hcut, List.append_assoc, pieces_append_utf8EncodeChar] at hread
      apply hsolid (.char c) _ hc
      rw [← hread]
      exact List.mem_append_right _ List.mem_cons_self

/-- Arguments are read line by line, and what is read is never empty and holds no white space.
Tokens are read as they are written and in order, whatever is between them. -/
theorem readArguments_law :
    (∀ a b : List UInt8, readArguments (a ++ [0x0A] ++ b) = readArguments a ++ readArguments b) ∧
    (∀ content, ∀ arg ∈ readArguments content,
      arg ≠ [] ∧ ∀ c, isBlank c → ¬String.utf8EncodeChar c <:+: arg) ∧
    ∀ lines : List Line,
      readArguments ([0x0A].intercalate (lines.map Line.content)) =
        (lines.flatMap Line.texts).map bytes := by
  refine ⟨?_, fun content arg => mem_readArguments, readArguments_lines⟩
  intro a b
  rw [List.append_assoc]
  exact readArguments_append a b

/-- A file as it may come: an indented remark with a stray byte in it, a blank line, and a line with
marks within its tokens, wide white space and the end of line of other machines. -/
def untidy : List Line :=
  [.remark ⟨"\t", by decide⟩ [0x20, 0xFF] (by decide), .blank ⟨" ", by decide⟩,
    .command ⟨"\u00A0", by decide⟩
      (.more ⟨"-O", by decide, by decide⟩ ⟨"\t ", by decide⟩ (by decide)
        (.more ⟨"#2", by decide, by decide⟩ ⟨"\u3000", by decide⟩ (by decide)
          (.last ⟨"é#", by decide, by decide⟩ ⟨"\r", by decide⟩)))
      (by decide)]

theorem readArguments_law_untidy :
    readArguments ([0x0A].intercalate (untidy.map Line.content)) = ["-O", "#2", "é#"].map bytes ∧
      bytes "é#" ∈ readArguments ([0x0A].intercalate (untidy.map Line.content)) ∧ isBlank '\u3000' ∧
      bytes "é#" ≠ [] ∧ ¬String.utf8EncodeChar '\u3000' <:+: bytes "é#" ∧
      readArguments ([0x0A].intercalate (untidy.map Line.content) ++ [0x0A] ++ [0xFF]) =
        ["-O", "#2", "é#"].map bytes ++ [[0xFF]] := by
  obtain ⟨hjoined, hsolid, hlines⟩ := readArguments_law
  have hread := hlines untidy
  have hmem : bytes "é#" ∈ readArguments ([0x0A].intercalate (untidy.map Line.content)) := by
    rw [hread]
    decide
  have hblank : isBlank '\u3000' := by decide
  obtain ⟨hne, hfree⟩ := hsolid _ _ hmem
  refine ⟨hread, hmem, hblank, hne, hfree _ hblank, ?_⟩
  rw [hjoined, hread]
  decide

end PassPipeline.Golden
