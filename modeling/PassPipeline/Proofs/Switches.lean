import Mathlib.Data.List.Find
import PassPipeline.Proofs.Decoding
import PassPipeline.Settings.Tristate

/-! Words that set a switch. A word is taken in lower case by all of Unicode, and some letters
outside of ASCII become ASCII letters that way, but no word has one of these. So a word is known by
its bytes alone, with no regard to the case of ASCII letters. -/
namespace PassPipeline

namespace Text

variable {c : Char} {s : List UInt8} {w : String}

/-! ## Lower case -/

/-- Of the runs outside of ASCII, some lead to a single `i` or `k`, and all others
to letters outside of ASCII. -/
theorem lowerRuns_cases : ∀ r ∈ lowerRuns,
    (r.first = 0x41 ∧ r.last = 0x5A ∧ r.apart = 1 ∧ r.shift = 32) ∨
      0x80 ≤ r.first ∧
        (r.first = r.last ∧ (r.first + r.shift = 0x69 ∨ r.first + r.shift = 0x6B) ∨
          0x80 ≤ r.first + r.shift ∧
            (r.last + r.shift < 0xD800 ∨
              0xDFFF < r.first + r.shift ∧ r.last + r.shift < 0x110000)) := by
  decide +kernel

theorem holds_iff {r : CaseRun} {n : Nat} :
    r.holds n ↔ r.first ≤ n ∧ n ≤ r.last ∧ (n - r.first) % r.apart = 0 := by
  simp [CaseRun.holds, and_assoc]

theorem lowerChar_cases (c : Char) :
    (∃ r ∈ lowerRuns, r.holds c.toNat ∧ lowerChar c = Char.ofNat (c.toNat + r.shift).toNat) ∨
      (∀ r ∈ lowerRuns, ¬r.holds c.toNat) ∧ lowerChar c = c := by
  unfold lowerChar
  cases h : lowerRuns.find? fun r => r.holds c.toNat with
  | none => exact .inr ⟨by simpa using List.find?_eq_none.mp h, rfl⟩
  | some r =>
    have hholds := List.find?_some h
    exact .inl ⟨r, List.mem_of_find?_eq_some h, hholds, rfl⟩

theorem toNat_lowerChar_of_lt (h : c.toNat < 0x80) :
    (lowerChar c).toNat = if 0x41 ≤ c.toNat ∧ c.toNat ≤ 0x5A then c.toNat + 32 else c.toNat := by
  rcases lowerChar_cases c with ⟨r, hr, hholds, hc⟩ | ⟨hnone, hc⟩
  · rw [holds_iff] at hholds
    have hascii : r.first = 0x41 ∧ r.last = 0x5A ∧ r.apart = 1 ∧ r.shift = 32 := by
      rcases lowerRuns_cases r hr with hr | hr
      · exact hr
      · omega
    have hshift : (c.toNat + r.shift).toNat = c.toNat + 32 := by omega
    rw [hc, hshift, toNat_ofNat_of_lt (by omega), if_pos (by omega)]
  · have hout := hnone ⟨0x41, 0x5A, 1, 32⟩ List.mem_cons_self
    rw [holds_iff] at hout
    rw [hc, if_neg]
    intro hin
    exact hout ⟨hin.1, hin.2, Nat.mod_one _⟩

/-- Outside of ASCII, nothing becomes an ASCII letter but `i` and `k`. -/
theorem lowerChar_of_le (h : 0x80 ≤ c.toNat) :
    lowerChar c = 'i' ∨ lowerChar c = 'k' ∨ 0x80 ≤ (lowerChar c).toNat := by
  rcases lowerChar_cases c with ⟨r, hr, hholds, hc⟩ | ⟨-, hc⟩
  · rw [holds_iff] at hholds
    rcases lowerRuns_cases r hr with hr | ⟨-, ⟨hlast, hi | hk⟩ | ⟨hlow, hvalid⟩⟩
    · omega
    · have hnumber : (c.toNat + r.shift).toNat = 0x69 := by omega
      rw [hc, hnumber]
      exact .inl rfl
    · have hnumber : (c.toNat + r.shift).toNat = 0x6B := by omega
      rw [hc, hnumber]
      exact .inr (.inl rfl)
    · have hscalar : (c.toNat + r.shift).toNat.isValidChar := by
        unfold Nat.isValidChar
        omega
      rw [hc, toNat_ofNat_of_isValidChar hscalar]
      exact .inr (.inr (by omega))
  · rw [hc]
    exact .inr (.inr h)

/-- A byte with a capital letter of ASCII in lower case. -/
def lowerByte (b : UInt8) : UInt8 := if 0x41 ≤ b ∧ b ≤ 0x5A then b + 0x20 else b

theorem toNat_lowerByte (b : UInt8) :
    (lowerByte b).toNat = if 0x41 ≤ b.toNat ∧ b.toNat ≤ 0x5A then b.toNat + 32 else b.toNat := by
  have hcapital : (0x41 ≤ b ∧ b ≤ 0x5A) ↔ 0x41 ≤ b.toNat ∧ b.toNat ≤ 0x5A := by
    rw [UInt8.le_iff_toNat_le, UInt8.le_iff_toNat_le]
    rfl
  rw [lowerByte]
  simp only [hcapital]
  split_ifs with h
  · rw [UInt8.toNat_add]
    change (b.toNat + 32) % 256 = b.toNat + 32
    omega
  · rfl

theorem lt_of_lowerByte_lt {b : UInt8} (h : (lowerByte b).toNat < 0x80) : b.toNat < 0x80 := by
  rw [toNat_lowerByte] at h
  split_ifs at h <;> omega

theorem lowerByte_lt {b : UInt8} (h : b.toNat < 0x80) : (lowerByte b).toNat < 0x80 := by
  rw [toNat_lowerByte]
  split_ifs <;> omega

theorem lowerCase_pieces_of_lt (h : ∀ b ∈ s, b.toNat < 0x80) :
    lowerCase (pieces s) = decode (s.map lowerByte) := by
  have hlower : ∀ b ∈ s.map lowerByte, b.toNat < 0x80 := by
    intro b hb
    obtain ⟨a, ha, rfl⟩ := List.mem_map.mp hb
    exact lowerByte_lt (h a ha)
  have hdecode : lowerCase (pieces s) = (decode s).map lowerChar := by
    rw [lowerCase, decode, List.map_map]
    rfl
  rw [hdecode, decode_of_lt h, decode_of_lt hlower, List.map_map, List.map_map]
  apply List.map_congr_left
  intro b hb
  have hlow := h b hb
  have hnumber := toNat_ofNat_of_lt hlow
  change lowerChar (Char.ofNat b.toNat) = Char.ofNat (lowerByte b).toNat
  rw [← hnumber] at hlow
  rw [← Char.ofNat_toNat (lowerChar _), toNat_lowerChar_of_lt hlow, hnumber, toNat_lowerByte]

/-- A text of ASCII letters other than `i` and `k` is the lower case of ASCII bytes only. -/
theorem lt_of_lowerCase_eq (hw : ∀ c ∈ w.toList, c.toNat < 0x80 ∧ c ≠ 'i' ∧ c ≠ 'k')
    (h : w.toList = lowerCase (pieces s)) : ∀ b ∈ s, b.toNat < 0x80 := by
  have hchars : ∀ c ∈ decode s, c.toNat < 0x80 := by
    intro c hc
    obtain ⟨p, hp, rfl⟩ := List.mem_map.mp hc
    have hmem : lowerChar p.toChar ∈ w.toList := h ▸ List.mem_map_of_mem hp
    obtain ⟨hlow, hi, hk⟩ := hw _ hmem
    by_contra hhigh
    rcases lowerChar_of_le (Nat.le_of_not_lt hhigh) with he | he | he
    · exact hi he
    · exact hk he
    · omega
  have hstray : '�' ∉ decode s := fun hmem => absurd (hchars _ hmem) (by decide)
  intro b hb
  rw [← bytes_ofList_decode hstray] at hb
  exact lt_of_mem_bytes_ofList hchars hb

theorem lt_of_bytes_eq (hw : ∀ c ∈ w.toList, c.toNat < 0x80) (h : bytes w = s.map lowerByte) :
    ∀ b ∈ s, b.toNat < 0x80 := by
  intro b hb
  apply lt_of_lowerByte_lt
  have hmem : lowerByte b ∈ bytes w := h ▸ List.mem_map_of_mem hb
  rw [← String.ofList_toList (s := w)] at hmem
  exact lt_of_mem_bytes_ofList hw hmem

theorem eq_lowerCase_iff (hw : ∀ c ∈ w.toList, c.toNat < 0x80 ∧ c ≠ 'i' ∧ c ≠ 'k') :
    w.toList = lowerCase (pieces s) ↔ bytes w = s.map lowerByte := by
  constructor
  · intro h
    have hs := lt_of_lowerCase_eq hw h
    rw [lowerCase_pieces_of_lt hs] at h
    have hstray : '�' ∉ decode (s.map lowerByte) := by
      rw [← h]
      intro hmem
      exact absurd (hw _ hmem).1 (by decide)
    rw [← bytes_ofList_decode hstray, ← h, String.ofList_toList]
  · intro h
    have hs := lt_of_bytes_eq (fun c hc => (hw c hc).1) h
    rw [lowerCase_pieces_of_lt hs, ← h, decode_bytes]

end Text

namespace Tristate

open Text

variable {s : List UInt8} {t : Tristate}

/-! ## Words -/

def vocabulary : List String :=
  ["", "unset", "default", "1", "t", "true", "on", "0", "f", "false", "off"]

/-- What bytes stand for, with no regard to the case of ASCII letters. -/
def meaning? (s : List UInt8) : Option Tristate :=
  if s.map lowerByte ∈ ["", "unset", "default"].map bytes then some unset
  else if s.map lowerByte ∈ ["1", "t", "true", "on"].map bytes then some on
  else if s.map lowerByte ∈ ["0", "f", "false", "off"].map bytes then some off
  else none

theorem words_ascii : ∀ w ∈ words, ∀ c ∈ w.1.toList, c.toNat < 0x80 ∧ c ≠ 'i' ∧ c ≠ 'k' := by
  have hall :
      (words.all fun w => w.1.toList.all fun c => c.toNat < 0x80 ∧ c ≠ 'i' ∧ c ≠ 'k') = true := by
    decide
  intro w hw c hc
  exact of_decide_eq_true (List.all_eq_true.mp (List.all_eq_true.mp hall w hw) c hc)

theorem find?_group (ws : List String) (v : Tristate) (word : List UInt8) :
    ((ws.map fun w => (w, v)).find? fun w => bytes w.1 = word).map Prod.snd =
      if word ∈ ws.map bytes then some v else none := by
  induction ws with
  | nil => rfl
  | cons w ws ih =>
    rw [List.map_cons, List.find?_cons]
    by_cases h : bytes w = word
    · simp [h]
    · have hne : word ≠ bytes w := fun he => h he.symm
      simpa [h, hne] using ih

theorem ofPieces?_pieces (s : List UInt8) : ofPieces? (pieces s) = meaning? s := by
  have hbytes : (words.find? fun w => w.1.toList = lowerCase (pieces s)) =
      words.find? fun w => bytes w.1 = s.map lowerByte := by
    apply List.find?_congr
    intro w hw
    exact decide_eq_decide.mpr (eq_lowerCase_iff (words_ascii w hw))
  have hwords : words = (["", "unset", "default"].map fun w => (w, unset)) ++
      (["1", "t", "true", "on"].map fun w => (w, on)) ++
      ["0", "f", "false", "off"].map fun w => (w, off) := rfl
  rw [ofPieces?, hbytes, hwords, List.find?_append, List.find?_append, Option.map_or, Option.map_or,
    find?_group, find?_group, find?_group, meaning?]
  split_ifs <;> rfl

theorem meaning?_isSome_iff : (meaning? s).isSome ↔ s.map lowerByte ∈ vocabulary.map bytes := by
  have hgroups : vocabulary.map bytes = ["", "unset", "default"].map bytes ++
      ["1", "t", "true", "on"].map bytes ++ ["0", "f", "false", "off"].map bytes := rfl
  rw [hgroups, List.mem_append, List.mem_append, meaning?]
  split_ifs <;> simp only [Option.isSome_some, Option.isSome_none] <;> tauto

theorem lt_of_meaning? {v : Tristate} (h : meaning? s = some v) : ∀ b ∈ s, b.toNat < 0x80 := by
  have hword : s.map lowerByte ∈ vocabulary.map bytes :=
    meaning?_isSome_iff.mp (Option.isSome_of_eq_some h)
  have hvocabulary : vocabulary = words.map Prod.fst := rfl
  rw [hvocabulary, List.map_map] at hword
  obtain ⟨w, hw, he⟩ := List.mem_map.mp hword
  exact lt_of_bytes_eq (fun c hc => (words_ascii w hw c hc).1) he

/-! ## Settings one after another -/

def setAll (t : Tristate) (ss : List (List UInt8)) : Tristate :=
  ss.foldl (fun t s => (t.set (pieces s)).1) t

theorem set_of_meaning? {v : Tristate} (h : meaning? s = some v) :
    t.set (pieces s) = (v, none) := by
  simp [set, ofPieces?_pieces, h]

theorem set_of_meaning?_eq_none (h : meaning? s = none) :
    t.set (pieces s) = (t, some (invalidMessage (pieces s))) := by
  simp [set, ofPieces?_pieces, h]

/-- The last text that stands for something decides, whatever is refused after it. -/
theorem setAll_eq (t : Tristate) (ss : List (List UInt8)) :
    t.setAll ss = (ss.filterMap meaning?).getLast?.getD t := by
  induction ss generalizing t with
  | nil => rfl
  | cons s ss ih =>
    change (t.set (pieces s)).1.setAll ss = _
    cases h : meaning? s with
    | none => rw [set_of_meaning?_eq_none h, List.filterMap_cons_none h, ih]
    | some v =>
      rw [set_of_meaning? h, List.filterMap_cons_some h, List.getLast?_cons, ih]
      rfl

theorem meaning?_text (v : Tristate) :
    meaning? (bytes v.text) = some (if v = on ∨ v = off then v else unset) := by
  by_cases hon : v = on
  · subst hon
    decide
  · by_cases hoff : v = off
    · subst hoff
      decide
    · rw [text, if_neg hon, if_neg hoff, if_neg (not_or.mpr ⟨hon, hoff⟩)]
      decide

/-- A switch is set by the words of the vocabulary, in any case of ASCII letters, and by nothing
else. Of many texts the last one that is a word decides. -/
theorem set_law (t : Tristate) (ss : List (List UInt8)) :
    (∀ (u : Tristate) (s : List UInt8),
      ((u.set (pieces s)).2 = none ↔ s.map lowerByte ∈ vocabulary.map bytes) ∧
      ((u.set (pieces s)).2 = none → ∀ b ∈ s, b.toNat < 0x80) ∧
      ((u.set (pieces s)).2 ≠ none → (u.set (pieces s)).1 = u) ∧
      ∀ v, u.set (pieces s) = (v, none) ↔ meaning? s = some v) ∧
    t.setAll ss = (ss.filterMap meaning?).getLast?.getD t ∧
    ∀ u v : Tristate,
      u.set (pieces (bytes v.text)) = (if v = on ∨ v = off then v else unset, none) := by
  refine ⟨fun u s => ?_, setAll_eq t ss, fun u v => set_of_meaning? (meaning?_text v)⟩
  rw [← meaning?_isSome_iff]
  cases h : meaning? s with
  | none => simp [set_of_meaning?_eq_none h]
  | some v => simpa [set_of_meaning? h] using lt_of_meaning? h

/-- Words in mixed case, then `ON` with a stray byte and `ＯＮ` in wide letters. -/
def garbled : List (List UInt8) :=
  [bytes "TRUE", bytes "oFF", [0x4F, 0x4E, 0xFF], bytes "ＯＮ"]

theorem set_law_garbled :
    (Tristate.mk (-7)).setAll garbled = off ∧
      (off.set (pieces [0x4F, 0x4E, 0xFF])).2 ≠ none ∧
      (off.set (pieces [0x4F, 0x4E, 0xFF])).1 = off ∧
      (off.set (pieces (bytes "TRUE"))).2 = none ∧ 0x45 ∈ bytes "TRUE" ∧
      (0x45 : UInt8).toNat < 0x80 ∧
      off.set (pieces (bytes (Tristate.mk (-7)).text)) = (unset, none) := by
  obtain ⟨hset, hall, htext⟩ := set_law ⟨-7⟩ garbled
  obtain ⟨hstray, -, hrefused, -⟩ := hset off [0x4F, 0x4E, 0xFF]
  obtain ⟨htrue, hascii, -, -⟩ := hset off (bytes "TRUE")
  have hne : (off.set (pieces [0x4F, 0x4E, 0xFF])).2 ≠ none := by
    rw [Ne, hstray]
    decide
  have haccepted := htrue.mpr (by decide)
  have hmem : 0x45 ∈ bytes "TRUE" := by decide
  exact ⟨hall.trans (by decide), hne, hrefused hne, haccepted, hmem, hascii haccepted _ hmem,
    htext off ⟨-7⟩⟩

end Tristate

end PassPipeline
