import Mathlib.Data.List.Basic
import PassPipeline.Text.Bytewise
import PassPipeline.Text.Utf8

/-! Bytes read as text. What is read as a character is just what a character is written as, so that
reading loses nothing and goes on at the same place behind a text, whatever follows it. Below 0x80
bytes and characters are the same. -/
namespace PassPipeline.Text

/-- The well-formed sequences, each with the number of its character. -/
inductive Spells : Nat → List UInt8 → Prop
  | one {a : UInt8} {v : Nat} (ha : a.toNat < 0x80) (hv : v = a.toNat) : Spells v [a]
  | two {a b : UInt8} {v : Nat} (ha : 0xC2 ≤ a.toNat ∧ a.toNat ≤ 0xDF) (hb : isTail b)
    (hv : v = (a.toNat - 0xC0) * 64 + (b.toNat - 0x80)) : Spells v [a, b]
  | three {a b c : UInt8} {v : Nat} (ha : 0xE0 ≤ a.toNat ∧ a.toNat ≤ 0xEF) (hb : isTail b)
    (hc : isTail c)
    (hv : v = (a.toNat - 0xE0) * 4096 + (b.toNat - 0x80) * 64 + (c.toNat - 0x80))
    (hlong : 0x800 ≤ v) (hscalar : ¬(0xD800 ≤ v ∧ v ≤ 0xDFFF)) : Spells v [a, b, c]
  | four {a b c d : UInt8} {v : Nat} (ha : 0xF0 ≤ a.toNat ∧ a.toNat ≤ 0xF4) (hb : isTail b)
    (hc : isTail c) (hd : isTail d)
    (hv : v = (a.toNat - 0xF0) * 262144 + (b.toNat - 0x80) * 4096 + (c.toNat - 0x80) * 64 +
      (d.toNat - 0x80)) (hlong : 0x10000 ≤ v) (hlast : v ≤ 0x10FFFF) : Spells v [a, b, c, d]

variable {bs rest seq : List UInt8} {b : UInt8} {c : Char} {v more : Nat} {ps qs : List Piece}

theorem isTail_iff : isTail b ↔ 0x80 ≤ b.toNat ∧ b.toNat ≤ 0xBF := by simp [isTail]

theorem toNat_ofNat_of_isValidChar (h : v.isValidChar) : (Char.ofNat v).toNat = v := by
  rw [Char.ofNat, dif_pos h]
  rfl

theorem toNat_valid (c : Char) : c.toNat < 0xD800 ∨ 0xDFFF < c.toNat ∧ c.toNat < 0x110000 := c.valid

/-! ## One character -/

theorem map_toNat_utf8EncodeChar (c : Char) : (String.utf8EncodeChar c).map UInt8.toNat =
    if c.toNat < 0x80 then [c.toNat]
    else if c.toNat < 0x800 then [c.toNat / 64 + 0xC0, c.toNat % 64 + 0x80]
    else if c.toNat < 0x10000 then [c.toNat / 4096 + 0xE0, c.toNat / 64 % 64 + 0x80,
      c.toNat % 64 + 0x80]
    else [c.toNat / 262144 + 0xF0, c.toNat / 4096 % 64 + 0x80, c.toNat / 64 % 64 + 0x80,
      c.toNat % 64 + 0x80] := by
  have hvalid := toNat_valid c
  rw [String.utf8EncodeChar.eq_1, show c.val.toNat = c.toNat from rfl]
  generalize c.toNat = v at *
  split_ifs <;>
    simp only [List.map_cons, List.map_nil, UInt8.toNat_ofNat', List.cons.injEq, and_true] <;> omega

theorem spells_utf8EncodeChar (c : Char) : Spells c.toNat (String.utf8EncodeChar c) := by
  have hvalid := toNat_valid c
  have hbytes := map_toNat_utf8EncodeChar c
  generalize String.utf8EncodeChar c = seq at *
  split_ifs at hbytes with h1 h2 h3
  · obtain ⟨a, rfl, ha⟩ := List.map_eq_singleton_iff.mp hbytes
    exact .one (by omega) ha.symm
  · obtain ⟨a, seq, rfl, ha, hbytes⟩ := List.map_eq_cons_iff.mp hbytes
    obtain ⟨b, rfl, hb⟩ := List.map_eq_singleton_iff.mp hbytes
    exact .two (by omega) (isTail_iff.mpr (by omega)) (by omega)
  · obtain ⟨a, seq, rfl, ha, hbytes⟩ := List.map_eq_cons_iff.mp hbytes
    obtain ⟨b, seq, rfl, hb, hbytes⟩ := List.map_eq_cons_iff.mp hbytes
    obtain ⟨d, rfl, hd⟩ := List.map_eq_singleton_iff.mp hbytes
    exact .three (by omega) (isTail_iff.mpr (by omega)) (isTail_iff.mpr (by omega))
      (by omega) (by omega) (by omega)
  · obtain ⟨a, seq, rfl, ha, hbytes⟩ := List.map_eq_cons_iff.mp hbytes
    obtain ⟨b, seq, rfl, hb, hbytes⟩ := List.map_eq_cons_iff.mp hbytes
    obtain ⟨d, seq, rfl, hd, hbytes⟩ := List.map_eq_cons_iff.mp hbytes
    obtain ⟨e, rfl, he⟩ := List.map_eq_singleton_iff.mp hbytes
    exact .four (by omega) (isTail_iff.mpr (by omega)) (isTail_iff.mpr (by omega))
      (isTail_iff.mpr (by omega)) (by omega) (by omega) (by omega)

namespace Spells

theorem isValidChar (h : Spells v seq) : v.isValidChar := by
  cases h with
  | one ha hv => exact .inl (by omega)
  | two ha hb hv =>
    rw [isTail_iff] at hb
    exact .inl (by omega)
  | three ha hb hc hv hlong hscalar =>
    rw [isTail_iff] at hb hc
    unfold Nat.isValidChar
    omega
  | four ha hb hc hd hv hlong hlast => exact .inr (by omega)

/-- A number is spelled in one way. -/
theorem eq_utf8EncodeChar (h : Spells v seq) : seq = String.utf8EncodeChar (Char.ofNat v) := by
  have hnumber := toNat_ofNat_of_isValidChar h.isValidChar
  apply List.map_injective_iff.mpr fun _ _ => UInt8.toNat_inj.mp
  rw [map_toNat_utf8EncodeChar, hnumber]
  cases h with
  | one ha hv => simp [hv, ha]
  | two ha hb hv =>
    rw [isTail_iff] at hb
    rw [if_neg (by omega), if_pos (by omega)]
    simp only [List.map_cons, List.map_nil, List.cons.injEq, and_true]
    omega
  | three ha hb hc hv hlong hscalar =>
    rw [isTail_iff] at hb hc
    rw [if_neg (by omega), if_neg (by omega), if_pos (by omega)]
    simp only [List.map_cons, List.map_nil, List.cons.injEq, and_true]
    omega
  | four ha hb hc hd hv hlong hlast =>
    rw [isTail_iff] at hb hc hd
    rw [if_neg (by omega), if_neg (by omega), if_neg (by omega)]
    simp only [List.map_cons, List.map_nil, List.cons.injEq, and_true]
    omega

/-- The first byte begins a sequence, and all others continue it. -/
theorem isTail (h : Spells v (b :: rest)) : ¬isTail b ∧ ∀ x ∈ rest, isTail x := by
  cases h with
  | one ha hv =>
    rw [isTail_iff]
    exact ⟨by omega, by simp⟩
  | two ha hb hv =>
    rw [isTail_iff]
    exact ⟨by omega, by simpa using hb⟩
  | three ha hb hc hv hlong hscalar =>
    rw [isTail_iff]
    exact ⟨by omega, by simpa using ⟨hb, hc⟩⟩
  | four ha hb hc hd hv hlong hlast =>
    rw [isTail_iff]
    exact ⟨by omega, by simpa using ⟨hb, hc, hd⟩⟩

theorem headChar?_append (h : Spells v seq) (rest : List UInt8) :
    headChar? (seq ++ rest) = some (Char.ofNat v, seq.length - 1) := by
  cases h with
  | one ha hv => simp [headChar?, ha, hv]
  | @two a b v ha hb hv =>
    have hhigh : ¬a.toNat < 0x80 := by omega
    simp [headChar?, hb, ha, hhigh, hv]
  | @three a b c v ha hb hc hv hlong hscalar =>
    have hhigh : ¬a.toNat < 0x80 := by omega
    have hmore : ¬a.toNat ≤ 0xDF := by omega
    have hshort : ¬v < 0x800 := by omega
    rw [hv] at *
    simp only [headChar?, List.cons_append]
    simp [hb, hc, ha, hhigh, hmore, hshort, hscalar]
  | @four a b c d v ha hb hc hd hv hlong hlast =>
    have hhigh : ¬a.toNat < 0x80 := by omega
    have hmore : ¬a.toNat ≤ 0xDF := by omega
    have hmost : ¬a.toNat ≤ 0xEF := by omega
    have hshort : ¬v < 0x10000 := by omega
    rw [hv] at *
    simp only [headChar?, List.cons_append]
    simp [hb, hc, hd, ha, hhigh, hmore, hmost, hshort, hlast]

end Spells

/-- Nothing but a well-formed sequence is read as a character. -/
theorem exists_spells_of_headChar? (h : headChar? bs = some (c, more)) :
    ∃ v seq rest, Spells v seq ∧ bs = seq ++ rest ∧ c = Char.ofNat v := by
  revert h
  fun_cases headChar? bs with
  | case2 a rest n hn =>
    intro h
    obtain ⟨rfl, -⟩ := Prod.mk.inj (Option.some.inj h)
    exact ⟨_, [a], rest, .one hn rfl, rfl, rfl⟩
  | case5 a n hn b rest hb ha =>
    intro h
    obtain ⟨rfl, -⟩ := Prod.mk.inj (Option.some.inj h)
    exact ⟨_, [a, b], rest, .two (by simpa using ha) (by simpa using hb) rfl, rfl, rfl⟩
  | case9 a n hn b hb hn' c rest hc ha v hv =>
    intro h
    obtain ⟨rfl, -⟩ := Prod.mk.inj (Option.some.inj h)
    simp only [Bool.or_eq_true, Bool.and_eq_true, decide_eq_true_eq, not_or, Nat.not_lt] at hv
    exact ⟨v, [a, b, c], rest,
      .three (by simpa using ha) (by simpa using hb) (by simpa using hc) rfl hv.1 hv.2, rfl, rfl⟩
  | case13 a n hn b hb hn' c hc hn'' d rest hd ha v hv =>
    intro h
    obtain ⟨rfl, -⟩ := Prod.mk.inj (Option.some.inj h)
    simp only [Bool.or_eq_true, decide_eq_true_eq, not_or, Nat.not_lt] at hv
    exact ⟨v, [a, b, c, d], rest, .four (by simpa using ha) (by simpa using hb) (by simpa using hc)
      (by simpa using hd) rfl hv.1 hv.2, rfl, rfl⟩
  | _ =>
    intro h
    cases h

theorem headChar?_utf8EncodeChar_append (c : Char) (rest : List UInt8) :
    headChar? (String.utf8EncodeChar c ++ rest) =
      some (c, (String.utf8EncodeChar c).length - 1) := by
  rw [(spells_utf8EncodeChar c).headChar?_append, Char.ofNat_toNat]

theorem eq_append_of_headChar? (h : headChar? bs = some (c, more)) :
    ∃ rest, bs = String.utf8EncodeChar c ++ rest := by
  obtain ⟨v, seq, rest, hseq, rfl, rfl⟩ := exists_spells_of_headChar? h
  exact ⟨rest, by rw [← hseq.eq_utf8EncodeChar]⟩

theorem le_of_headChar?_eq_none (h : headChar? (b :: rest) = none) : 0x80 ≤ b.toNat := by
  by_contra hlow
  have hone := Spells.headChar?_append (.one (a := b) (by omega) rfl) rest
  simp [h] at hone

/-! ## All pieces -/

theorem piecesFrom_eq_pieces_drop (skip : Nat) (bs : List UInt8) :
    piecesFrom skip bs = pieces (bs.drop skip) := by
  induction bs generalizing skip with
  | nil => simp [pieces, piecesFrom]
  | cons b bs ih =>
    cases skip with
    | zero => rfl
    | succ skip => exact ih skip

@[simp] theorem pieces_nil : pieces [] = [] := rfl

@[simp] theorem pieces_utf8EncodeChar_append (c : Char) (rest : List UInt8) :
    pieces (String.utf8EncodeChar c ++ rest) = .char c :: pieces rest := by
  have hhead := headChar?_utf8EncodeChar_append c rest
  obtain ⟨b, tail, hb⟩ := List.exists_cons_of_ne_nil (String.utf8EncodeChar_ne_nil (c := c))
  rw [hb, List.cons_append] at hhead ⊢
  rw [pieces, piecesFrom, hhead]
  simp [piecesFrom_eq_pieces_drop]

theorem pieces_cons_of_headChar?_eq_none (h : headChar? (b :: rest) = none) :
    pieces (b :: rest) = .stray b :: pieces rest := by
  rw [pieces, piecesFrom, h]
  rfl

/-- Bytes are a character in front of other bytes, or a stray byte in front of them. -/
theorem pieces_induction {motive : List UInt8 → Prop} (nil : motive [])
    (char : ∀ c rest, motive rest → motive (String.utf8EncodeChar c ++ rest))
    (stray : ∀ b rest, headChar? (b :: rest) = none → motive rest → motive (b :: rest))
    (bs : List UInt8) : motive bs := by
  induction hlen : bs.length using Nat.strongRecOn generalizing bs with
  | ind n ih =>
    cases bs with
    | nil => exact nil
    | cons b rest =>
      cases h : headChar? (b :: rest) with
      | none => exact stray b rest h (ih rest.length (by simp [← hlen]) rest rfl)
      | some entry =>
        obtain ⟨tail, htail⟩ := eq_append_of_headChar? h
        have hpos := List.length_pos_of_ne_nil (String.utf8EncodeChar_ne_nil (c := entry.1))
        have hsum := congrArg List.length htail
        rw [List.length_append, hlen] at hsum
        rw [htail]
        exact char entry.1 tail (ih tail.length (by omega) tail rfl)

/-- Nothing is lost: the pieces tell the bytes. -/
theorem flatMap_source_pieces (bs : List UInt8) : (pieces bs).flatMap Piece.source = bs := by
  induction bs using pieces_induction with
  | nil => rfl
  | char c rest ih => rw [pieces_utf8EncodeChar_append, List.flatMap_cons, ih, Piece.source]
  | stray b rest h ih =>
    rw [pieces_cons_of_headChar?_eq_none h, List.flatMap_cons, ih, Piece.source,
      List.singleton_append]

theorem pieces_flatMap_append (cs : List Char) (rest : List UInt8) :
    pieces (cs.flatMap String.utf8EncodeChar ++ rest) = cs.map .char ++ pieces rest := by
  induction cs with
  | nil => rfl
  | cons c cs ih =>
    rw [List.flatMap_cons, List.append_assoc, pieces_utf8EncodeChar_append, ih, List.map_cons,
      List.cons_append]

/-! ## Cuts -/

theorem headChar?_eq_none_of_append (h : headChar? (bs ++ rest) = none) : headChar? bs = none := by
  cases hbs : headChar? bs with
  | none => rfl
  | some entry =>
    obtain ⟨tail, rfl⟩ := eq_append_of_headChar? hbs
    rw [List.append_assoc, headChar?_utf8EncodeChar_append] at h
    cases h

/-- A character that follows does not complete what was no character: its
first byte continues nothing. -/
theorem headChar?_append_utf8EncodeChar (h : headChar? (b :: bs) = none) (c : Char)
    (rest : List UInt8) : headChar? (b :: bs ++ (String.utf8EncodeChar c ++ rest)) = none := by
  cases hsome : headChar? (b :: bs ++ (String.utf8EncodeChar c ++ rest)) with
  | none => rfl
  | some entry =>
    obtain ⟨v, seq, tail, hseq, hsame, -⟩ := exists_spells_of_headChar? hsome
    rcases List.append_eq_append_iff.mp hsame with ⟨overlap, rfl, hoverlap⟩ | ⟨remains, hremains, -⟩
    · cases overlap with
      | nil =>
        have hread := hseq.headChar?_append []
        simp [h] at hread
      | cons x overlap =>
        have hc := spells_utf8EncodeChar c
        obtain ⟨y, ys, hy⟩ := List.exists_cons_of_ne_nil (String.utf8EncodeChar_ne_nil (c := c))
        rw [hy] at hc hoverlap
        obtain ⟨rfl, -⟩ := List.cons.inj hoverlap
        exact absurd (hseq.isTail.2 y (by simp)) hc.isTail.1
    · rw [hremains, hseq.headChar?_append] at h
      cases h

/-- A character is read wherever it stands, whatever is in front of it. -/
theorem pieces_append_utf8EncodeChar (bs : List UInt8) (c : Char) (rest : List UInt8) :
    pieces (bs ++ (String.utf8EncodeChar c ++ rest)) = pieces bs ++ .char c :: pieces rest := by
  induction bs using pieces_induction with
  | nil => exact pieces_utf8EncodeChar_append c rest
  | char d bs ih =>
    rw [List.append_assoc, pieces_utf8EncodeChar_append, pieces_utf8EncodeChar_append, ih,
      List.cons_append]
  | stray b bs h ih =>
    have hstray := headChar?_append_utf8EncodeChar h c rest
    rw [List.cons_append] at hstray ⊢
    rw [pieces_cons_of_headChar?_eq_none h, pieces_cons_of_headChar?_eq_none hstray, ih,
      List.cons_append]

theorem pieces_eq_cons {p : Piece} (h : pieces bs = p :: ps) :
    ∃ rest, bs = p.source ++ rest ∧ pieces rest = ps ∧ ∀ b, p = .stray b → headChar? bs = none := by
  cases bs using pieces_induction with
  | nil => cases h
  | char c rest =>
    rw [pieces_utf8EncodeChar_append] at h
    obtain ⟨rfl, hps⟩ := List.cons.inj h
    exact ⟨rest, rfl, hps, nofun⟩
  | stray b rest hnone =>
    rw [pieces_cons_of_headChar?_eq_none hnone] at h
    obtain ⟨rfl, hps⟩ := List.cons.inj h
    exact ⟨rest, rfl, hps, fun _ _ => hnone⟩

/-- Where a reading is cut in two, each part reads as it did. -/
theorem pieces_source_of_append (h : pieces bs = ps ++ qs) :
    pieces (ps.flatMap Piece.source) = ps ∧ pieces (qs.flatMap Piece.source) = qs := by
  induction ps generalizing bs with
  | nil =>
    rw [List.nil_append] at h
    rw [← h, flatMap_source_pieces]
    exact ⟨rfl, rfl⟩
  | cons p ps ih =>
    rw [List.cons_append] at h
    obtain ⟨rest, rfl, hrest, hstray⟩ := pieces_eq_cons h
    obtain ⟨hps, hqs⟩ := ih hrest
    refine ⟨?_, hqs⟩
    rw [List.flatMap_cons]
    cases p with
    | char c => rw [Piece.source, pieces_utf8EncodeChar_append, hps]
    | stray b =>
      -- the bytes that were cut off behind it are not what kept it from being a character
      have hsource := flatMap_source_pieces rest
      rw [hrest, List.flatMap_append] at hsource
      have hnone := hstray b rfl
      rw [← hsource, ← List.append_assoc] at hnone
      have hcut := headChar?_eq_none_of_append hnone
      rw [Piece.source, List.singleton_append] at hcut ⊢
      rw [pieces_cons_of_headChar?_eq_none hcut, hps]

theorem pieces_source_of_infix (h : ps <:+: pieces bs) : pieces (ps.flatMap Piece.source) = ps := by
  obtain ⟨front, back, h⟩ := h
  have hback := (pieces_source_of_append h.symm).1
  exact (pieces_source_of_append hback).2

/-! ## Texts -/

theorem bytes_ofList (cs : List Char) :
    bytes (String.ofList cs) = cs.flatMap String.utf8EncodeChar := by
  simp [bytes, List.utf8Encode]

theorem bytes_eq_flatMap (s : String) : bytes s = s.toList.flatMap String.utf8EncodeChar := by
  rw [← bytes_ofList, String.ofList_toList]

/-- A text is read by itself, whatever follows. -/
theorem pieces_bytes_append (s : String) (rest : List UInt8) :
    pieces (bytes s ++ rest) = piecesOf s ++ pieces rest := by
  rw [bytes_eq_flatMap, pieces_flatMap_append, piecesOf]

theorem pieces_bytes (s : String) : pieces (bytes s) = piecesOf s := by
  simpa using pieces_bytes_append s []

theorem decode_bytes_append (s : String) (rest : List UInt8) :
    decode (bytes s ++ rest) = s.toList ++ decode rest := by
  rw [decode, pieces_bytes_append, piecesOf, List.map_append, List.map_map, decode]
  exact congrArg (· ++ _) (List.map_id _)

theorem decode_bytes (s : String) : decode (bytes s) = s.toList := by
  simpa [decode] using decode_bytes_append s []

/-- The well-formed bytes are those of a text. -/
theorem isValidUTF8_iff : bs.toByteArray.IsValidUTF8 ↔ ∃ s, bs = bytes s := by
  constructor
  · rintro ⟨cs, hcs⟩
    refine ⟨String.ofList cs, ?_⟩
    rw [bytes_ofList, ← List.toList_data_toByteArray (l := bs), hcs]
    simp [List.utf8Encode]
  · rintro ⟨s, rfl⟩
    exact ⟨s.toList, by rw [bytes_eq_flatMap, List.utf8Encode]⟩

/-! ## ASCII -/

theorem toNat_ofNat_of_lt (h : v < 0x80) : (Char.ofNat v).toNat = v :=
  toNat_ofNat_of_isValidChar (.inl (by omega))

theorem utf8EncodeChar_of_lt (h : c.toNat < 0x80) :
    String.utf8EncodeChar c = [UInt8.ofNat c.toNat] := by
  rw [String.utf8EncodeChar.eq_1]
  exact if_pos (Nat.le_of_lt_succ h)

theorem mem_utf8EncodeChar_iff (hb : b.toNat < 0x80) :
    b ∈ String.utf8EncodeChar c ↔ c.toNat = b.toNat := by
  rw [← List.mem_map_of_injective fun _ _ => UInt8.toNat_inj.mp, map_toNat_utf8EncodeChar]
  split_ifs <;> simp only [List.mem_cons, List.not_mem_nil, or_false] <;> omega

theorem bytes_ofList_of_lt {cs : List Char} (h : ∀ c ∈ cs, c.toNat < 0x80) :
    bytes (String.ofList cs) = cs.map fun c => UInt8.ofNat c.toNat := by
  rw [bytes_ofList, List.map_eq_flatMap]
  exact List.flatMap_congr fun c hc => utf8EncodeChar_of_lt (h c hc)

theorem lt_of_mem_bytes_ofList {cs : List Char} (h : ∀ c ∈ cs, c.toNat < 0x80)
    (hb : b ∈ bytes (String.ofList cs)) : b.toNat < 0x80 := by
  rw [bytes_ofList_of_lt h] at hb
  obtain ⟨c, hc, rfl⟩ := List.mem_map.mp hb
  have hlow := h c hc
  rw [UInt8.toNat_ofNat']
  omega

theorem pieces_cons_of_lt (hb : b.toNat < 0x80) (rest : List UInt8) :
    pieces (b :: rest) = .char (Char.ofNat b.toNat) :: pieces rest := by
  have hspelled := Spells.eq_utf8EncodeChar (.one hb rfl)
  rw [← List.singleton_append, hspelled, pieces_utf8EncodeChar_append]

theorem decode_of_lt (h : ∀ b ∈ bs, b.toNat < 0x80) :
    decode bs = bs.map fun b => Char.ofNat b.toNat := by
  induction bs with
  | nil => rfl
  | cons b bs ih =>
    rw [List.forall_mem_cons] at h
    rw [decode, pieces_cons_of_lt h.1, List.map_cons, List.map_cons, ← ih h.2]
    rfl

theorem mem_decode_iff (hb : b.toNat < 0x80) : Char.ofNat b.toNat ∈ decode bs ↔ b ∈ bs := by
  have hnumber := toNat_ofNat_of_lt hb
  induction bs using pieces_induction with
  | nil => simp [decode]
  | char c rest ih =>
    have hc : Char.ofNat b.toNat = c ↔ c.toNat = b.toNat :=
      ⟨fun h => by rw [← h, hnumber], fun h => by rw [← h, Char.ofNat_toNat]⟩
    rw [decode, pieces_utf8EncodeChar_append, List.map_cons, List.mem_cons, List.mem_append,
      mem_utf8EncodeChar_iff hb]
    exact or_congr hc ih
  | stray a rest h ih =>
    have hhigh := le_of_headChar?_eq_none h
    have hne : b ≠ a := fun h => by rw [h] at hb; omega
    have hstray : Char.ofNat b.toNat ≠ '�' := by
      intro h
      rw [h] at hnumber
      have hlarge : '�'.toNat = 0xFFFD := rfl
      omega
    rw [decode, pieces_cons_of_headChar?_eq_none h, List.map_cons, List.mem_cons, List.mem_cons]
    exact or_congr (iff_of_false hstray hne) ih

theorem bytes_ofList_decode (h : '�' ∉ decode bs) : bytes (String.ofList (decode bs)) = bs := by
  have hsource : ∀ p ∈ pieces bs, String.utf8EncodeChar p.toChar = p.source := by
    intro p hp
    cases p with
    | char c => rfl
    | stray b => exact absurd (List.mem_map_of_mem hp) h
  rw [bytes_ofList, decode, List.flatMap_map]
  conv => rhs; rw [← flatMap_source_pieces bs]
  exact List.flatMap_congr hsource

end PassPipeline.Text
