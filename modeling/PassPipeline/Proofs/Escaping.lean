import PassPipeline.Proofs.Decoding
import PassPipeline.Proofs.Lines

/-! Escaping of bytes that need not be text. Nothing but printable ASCII is left, and no double
quote stands without a backslash before it. What is printable and no double quote stays as it is, so
that bytes can be escaped again without change unless there is a double quote among them. -/
namespace PassPipeline.Text

variable {c : Char} {cs front rest : List Char} {s : List UInt8}

/-! ## Characters -/

theorem isPlain_iff : isPlain c ↔ 0x20 ≤ c.toNat ∧ c.toNat ≤ 0x7E := by simp [isPlain]

theorem escapeChar_of_isPlain (h : isPlain c) (hquote : c ≠ '"') : escapeChar c = [c] := by
  rcases escapeChar_cases c with ⟨hc, -⟩ | ⟨-, -, hself⟩ | ⟨hc, -⟩
  · exact absurd hc hquote
  · exact hself
  · exact absurd h hc

theorem two_le_length_escapeChar (h : ¬(isPlain c ∧ c ≠ '"')) : 2 ≤ (escapeChar c).length := by
  rcases escapeChar_cases c with ⟨-, hc⟩ | ⟨hplain, hquote, -⟩ | ⟨-, code, hc, hne, -⟩
  · rw [hc]
    exact Nat.le_refl 2
  · exact absurd ⟨hplain, hquote⟩ h
  · have hpos := List.length_pos_of_ne_nil hne
    rw [hc, List.length_cons]
    omega

theorem length_escapeChar_pos (c : Char) : 0 < (escapeChar c).length := by
  by_cases h : isPlain c ∧ c ≠ '"'
  · rw [escapeChar_of_isPlain h.1 h.2]
    exact Nat.one_pos
  · have hlong := two_le_length_escapeChar h
    omega

/-- A double quote comes from a double quote, and behind a backslash. -/
theorem escapeChar_eq_append (h : escapeChar c = front ++ '"' :: rest) :
    c = '"' ∧ front = ['\\'] := by
  have hmem : '"' ∈ escapeChar c := h ▸ List.mem_append_right front List.mem_cons_self
  rcases escapeChar_cases c with ⟨rfl, hc⟩ | ⟨-, hquote, hc⟩ | ⟨-, code, hc, -, hcode⟩
  · refine ⟨rfl, ?_⟩
    rw [hc] at h
    rcases List.cons_eq_append_iff.mp h with ⟨-, hhead⟩ | ⟨tail, rfl, htail⟩
    · simp at hhead
    · rcases List.cons_eq_append_iff.mp htail with ⟨rfl, -⟩ | ⟨_, _, hnil⟩
      · rfl
      · simp at hnil
  · rw [hc] at hmem
    exact absurd (List.mem_singleton.mp hmem).symm hquote
  · rw [hc] at hmem
    rcases List.mem_cons.mp hmem with he | hmem
    · simp at he
    · exact absurd rfl (hcode _ hmem).2

theorem quote_mem_escapeChar : '"' ∈ escapeChar c ↔ c = '"' := by
  constructor
  · intro h
    obtain ⟨front, rest, h⟩ := List.append_of_mem h
    exact (escapeChar_eq_append h).1
  · rintro rfl
    decide

/-! ## Texts -/

theorem isPlain_of_mem_escapeChars (h : c ∈ escapeChars cs) : isPlain c := by
  obtain ⟨x, -, hx⟩ := List.mem_flatMap.mp h
  exact isPlain_of_mem_escapeChar hx

theorem quote_mem_escapeChars : '"' ∈ escapeChars cs ↔ '"' ∈ cs := by
  constructor
  · intro h
    obtain ⟨c, hc, h⟩ := List.mem_flatMap.mp h
    rwa [quote_mem_escapeChar.mp h] at hc
  · intro h
    exact List.mem_flatMap.mpr ⟨'"', h, quote_mem_escapeChar.mpr rfl⟩

theorem length_le_length_escapeChars (cs : List Char) : cs.length ≤ (escapeChars cs).length := by
  induction cs with
  | nil => exact Nat.le_refl 0
  | cons c cs ih =>
    have hpos := length_escapeChar_pos c
    rw [escapeChars, List.flatMap_cons, List.length_append, List.length_cons]
    rw [escapeChars] at ih
    omega

theorem escapeChars_eq_self_iff : escapeChars cs = cs ↔ ∀ c ∈ cs, isPlain c ∧ c ≠ '"' := by
  induction cs with
  | nil => simp [escapeChars]
  | cons c cs ih =>
    rw [escapeChars, List.flatMap_cons, List.forall_mem_cons, ← ih]
    by_cases h : isPlain c ∧ c ≠ '"'
    · rw [escapeChar_of_isPlain h.1 h.2]
      simp [h, escapeChars]
    · -- nothing behind `c` can make up for the length of what `c` is written as
      have hlong := two_le_length_escapeChar h
      have hrest := length_le_length_escapeChars cs
      rw [escapeChars] at hrest
      refine iff_of_false (fun he => ?_) fun he => h he.1
      have hlength := congrArg List.length he
      rw [List.length_append, List.length_cons] at hlength
      omega

theorem getLast?_of_escapeChars_eq (h : escapeChars cs = front ++ '"' :: rest) :
    front.getLast? = some '\\' := by
  induction cs generalizing front with
  | nil => simp [escapeChars] at h
  | cons c cs ih =>
    rw [escapeChars, List.flatMap_cons] at h
    rcases List.append_eq_append_iff.mp h with ⟨middle, rfl, hcs⟩ | ⟨middle, hc, hcs⟩
    · have hmiddle := ih hcs
      rw [List.getLast?_append, hmiddle]
      rfl
    · cases middle with
      | nil =>
        have hnil := @ih [] hcs.symm
        simp at hnil
      | cons x middle =>
        obtain ⟨rfl, -⟩ := List.cons.inj hcs
        obtain ⟨-, rfl⟩ := escapeChar_eq_append hc
        rfl

/-! ## Bytes -/

theorem toNat_byte_of_isPlain (h : isPlain c) : (UInt8.ofNat c.toNat).toNat = c.toNat := by
  rw [isPlain_iff] at h
  exact UInt8.toNat_ofNat_of_lt' (Nat.lt_of_le_of_lt h.2 (by decide))

theorem eq_ofNat_of_byte_eq {b : UInt8} (h : isPlain c) (hb : UInt8.ofNat c.toNat = b) :
    c = Char.ofNat b.toNat := by
  rw [← hb, toNat_byte_of_isPlain h, Char.ofNat_toNat]

theorem bytes_escapeBytes (s : List UInt8) :
    bytes (escapeBytes s) = (escapeChars (decode s)).map fun c => UInt8.ofNat c.toNat := by
  apply bytes_ofList_of_lt
  intro c hc
  have hplain := isPlain_iff.mp (isPlain_of_mem_escapeChars hc)
  omega

theorem plain_of_mem_bytes_escapeBytes {b : UInt8} (h : b ∈ bytes (escapeBytes s)) :
    0x20 ≤ b ∧ b ≤ 0x7E := by
  rw [bytes_escapeBytes] at h
  obtain ⟨c, hc, rfl⟩ := List.mem_map.mp h
  have hplain := isPlain_of_mem_escapeChars hc
  rw [UInt8.le_iff_toNat_le, UInt8.le_iff_toNat_le, toNat_byte_of_isPlain hplain]
  exact isPlain_iff.mp hplain

theorem quote_mem_bytes_escapeBytes : 0x22 ∈ bytes (escapeBytes s) ↔ 0x22 ∈ s := by
  have hdecode : '"' ∈ decode s ↔ 0x22 ∈ s := mem_decode_iff (b := 0x22) (by decide)
  rw [← hdecode, bytes_escapeBytes, List.mem_map]
  constructor
  · rintro ⟨c, hc, hquote⟩
    have hc' := eq_ofNat_of_byte_eq (isPlain_of_mem_escapeChars hc) hquote
    exact quote_mem_escapeChars.mp (hc' ▸ hc)
  · intro h
    exact ⟨'"', quote_mem_escapeChars.mpr h, rfl⟩

theorem getLast?_of_bytes_escapeBytes_eq {front rest : List UInt8}
    (h : bytes (escapeBytes s) = front ++ 0x22 :: rest) : front.getLast? = some 0x5C := by
  rw [bytes_escapeBytes] at h
  obtain ⟨front, tail, hcs, rfl, htail⟩ := List.map_eq_append_iff.mp h
  obtain ⟨c, tail, rfl, hc, -⟩ := List.map_eq_cons_iff.mp htail
  have hmem : c ∈ escapeChars (decode s) := by simp [hcs]
  obtain rfl := eq_ofNat_of_byte_eq (isPlain_of_mem_escapeChars hmem) hc
  rw [List.getLast?_map, getLast?_of_escapeChars_eq hcs]
  rfl

/-- The bytes that stay are the printable ones without the double quote. -/
theorem bytes_escapeBytes_eq_self_iff :
    bytes (escapeBytes s) = s ↔ ∀ b ∈ s, 0x20 ≤ b ∧ b ≤ 0x7E ∧ b ≠ 0x22 := by
  constructor
  · intro h b hb
    have hplain := plain_of_mem_bytes_escapeBytes (h.symm ▸ hb)
    refine ⟨hplain.1, hplain.2, ?_⟩
    rintro rfl
    have hself : escapeChars (decode s) = decode s := by
      conv => rhs; rw [← h, decode_bytes, escapeBytes, String.toList_ofList]
    have hquote := (mem_decode_iff (by decide)).mpr hb
    exact (escapeChars_eq_self_iff.mp hself _ hquote).2 rfl
  · intro h
    have hlow : ∀ b ∈ s, b.toNat < 0x80 := by
      intro b hb
      exact Nat.lt_of_le_of_lt (UInt8.le_iff_toNat_le.mp (h b hb).2.1) (by decide)
    have hself : escapeChars (decode s) = decode s := by
      rw [escapeChars_eq_self_iff, decode_of_lt hlow]
      intro c hc
      obtain ⟨b, hb, rfl⟩ := List.mem_map.mp hc
      obtain ⟨hspace, htilde, hne⟩ := h b hb
      have hnumber := toNat_ofNat_of_lt (hlow b hb)
      rw [isPlain_iff, hnumber]
      refine ⟨⟨UInt8.le_iff_toNat_le.mp hspace, UInt8.le_iff_toNat_le.mp htilde⟩, ?_⟩
      intro hquote
      apply hne
      apply UInt8.toNat_inj.mp
      rw [← hnumber, hquote]
      rfl
    rw [bytes_escapeBytes, hself, decode_of_lt hlow, List.map_map]
    refine (List.map_congr_left fun b hb => ?_).trans (List.map_id s)
    exact (congrArg UInt8.ofNat (toNat_ofNat_of_lt (hlow b hb))).trans UInt8.ofNat_toNat

/-- Escaping is safe and changes no more than it has to. Behind a well-formed beginning all bytes
are escaped as if they stood alone. -/
theorem escapeBytes_law (s : List UInt8) :
    (∀ b ∈ bytes (escapeBytes s), 0x20 ≤ b ∧ b ≤ 0x7E) ∧
      (∀ front rest, bytes (escapeBytes s) = front ++ 0x22 :: rest → front.getLast? = some 0x5C) ∧
      (bytes (escapeBytes s) = s ↔ ∀ b ∈ s, 0x20 ≤ b ∧ b ≤ 0x7E ∧ b ≠ 0x22) ∧
      (bytes (escapeBytes (bytes (escapeBytes s))) = bytes (escapeBytes s) ↔ 0x22 ∉ s) ∧
      ∀ a : List UInt8, a.toByteArray.IsValidUTF8 →
        bytes (escapeBytes (a ++ s)) = bytes (escapeBytes a) ++ bytes (escapeBytes s) := by
  refine ⟨fun b => plain_of_mem_bytes_escapeBytes,
    fun front rest => getLast?_of_bytes_escapeBytes_eq, bytes_escapeBytes_eq_self_iff, ?_, ?_⟩
  · rw [bytes_escapeBytes_eq_self_iff, ← quote_mem_bytes_escapeBytes (s := s)]
    constructor
    · intro h hquote
      exact (h _ hquote).2.2 rfl
    · intro h b hb
      have hplain := plain_of_mem_bytes_escapeBytes hb
      refine ⟨hplain.1, hplain.2, ?_⟩
      rintro rfl
      exact h hb
  · intro a ha
    obtain ⟨t, rfl⟩ := isValidUTF8_iff.mp ha
    rw [bytes_escapeBytes, bytes_escapeBytes, bytes_escapeBytes, decode_bytes_append, decode_bytes,
      escapeChars, List.flatMap_append, List.map_append, escapeChars, escapeChars]

/-- Two bytes that are left over from another character, a double quote and an end of line. -/
def debris : List UInt8 := [0x82, 0xAC, 0x22, 0x0A]

theorem escapeBytes_law_debris :
    bytes (escapeBytes debris) = bytes "\\xFFFD\\xFFFD\\" ++ 0x22 :: bytes "\\n" ∧
      (bytes "\\xFFFD\\xFFFD\\").getLast? = some 0x5C ∧
      0x46 ∈ bytes (escapeBytes debris) ∧ (0x20 : UInt8) ≤ 0x46 ∧ (0x46 : UInt8) ≤ 0x7E ∧
      [0xE2, 0x82, 0xAC].toByteArray.IsValidUTF8 ∧
      bytes (escapeBytes ([0xE2, 0x82, 0xAC] ++ debris)) =
        bytes "\\x20AC" ++ bytes "\\xFFFD\\xFFFD\\\"\\n" := by
  obtain ⟨hplain, hquote, -, -, happend⟩ := escapeBytes_law debris
  have hdebris : bytes (escapeBytes debris) = bytes "\\xFFFD\\xFFFD\\" ++ 0x22 :: bytes "\\n" := by
    decide
  have hmem : 0x46 ∈ bytes (escapeBytes debris) := by decide
  have hvalid : [0xE2, 0x82, 0xAC].toByteArray.IsValidUTF8 := isValidUTF8_iff.mpr ⟨"€", by decide⟩
  refine ⟨hdebris, hquote _ _ hdebris, hmem, (hplain _ hmem).1, (hplain _ hmem).2, hvalid, ?_⟩
  rw [happend _ hvalid]
  decide

end PassPipeline.Text
