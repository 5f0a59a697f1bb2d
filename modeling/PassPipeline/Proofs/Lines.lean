import Mathlib.Data.List.Basic
import PassPipeline.Text.Escape

/-! Text that keeps to its line. Whatever a text holds, nothing but printable characters is left of
it once it is escaped, and so no end of line. Texts that end their line and hold no other end of one
can be counted after they were joined. -/
namespace PassPipeline.Text

theorem exists_digit_of_mem_toDigits {n : Nat} {c : Char} (h : c ∈ Nat.toDigits 16 n) :
    ∃ d < 16, c = Nat.digitChar d := by
  induction n using Nat.strongRecOn with
  | ind n ih =>
    rw [Nat.toDigits_eq_if (by omega)] at h
    split at h
    · exact ⟨n, by assumption, List.mem_singleton.mp h⟩
    · rcases List.mem_append.mp h with h | h
      · exact ih (n / 16) (by omega) h
      · exact ⟨n % 16, by omega, List.mem_singleton.mp h⟩

theorem exists_digit_of_mem_hexUpper {width n : Nat} {c : Char} (h : c ∈ hexUpper width n) :
    ∃ d < 16, c = (Nat.digitChar d).toUpper := by
  obtain ⟨x, hx, rfl⟩ := List.mem_map.mp h
  rcases List.mem_append.mp hx with hx | hx
  · obtain rfl := List.eq_of_mem_replicate hx
    exact ⟨0, by omega, by decide⟩
  · obtain ⟨d, hd, rfl⟩ := exists_digit_of_mem_toDigits hx
    exact ⟨d, hd, rfl⟩

/-- What a character is written as: a double quote behind a backslash, itself,
or a code behind a backslash. -/
theorem escapeChar_cases (c : Char) :
    (c = '"' ∧ escapeChar c = ['\\', '"']) ∨ (isPlain c ∧ c ≠ '"' ∧ escapeChar c = [c]) ∨
      (¬isPlain c ∧ ∃ code, escapeChar c = '\\' :: code ∧ code ≠ [] ∧
        ∀ x ∈ code, isPlain x ∧ x ≠ '"') := by
  have hdigit : ∀ d < 16, isPlain (Nat.digitChar d).toUpper ∧ (Nat.digitChar d).toUpper ≠ '"' := by
    decide
  have hletter {x y : Char} (hy : isPlain y ∧ y ≠ '"') (h : x ∈ [y]) : isPlain x ∧ x ≠ '"' :=
    List.mem_singleton.mp h ▸ hy
  unfold escapeChar
  split
  · rename_i h
    subst h
    exact .inr (.inr ⟨by decide, _, rfl, by decide, fun x => hletter (by decide)⟩)
  · split
    · rename_i h
      subst h
      exact .inr (.inr ⟨by decide, _, rfl, by decide, fun x => hletter (by decide)⟩)
    · split
      · rename_i h
        exact .inl ⟨h, rfl⟩
      · split
        · rename_i hquote hplain
          exact .inr (.inl ⟨hplain, hquote, rfl⟩)
        · rename_i hplain
          refine .inr (.inr ⟨hplain, _, rfl, List.cons_ne_nil _ _, ?_⟩)
          intro x hx
          rcases List.mem_cons.mp hx with rfl | hx
          · decide
          · obtain ⟨d, hd, rfl⟩ := exists_digit_of_mem_hexUpper hx
            exact hdigit d hd

theorem isPlain_of_mem_escapeChar {c x : Char} (h : x ∈ escapeChar c) : isPlain x := by
  rcases escapeChar_cases c with ⟨-, hquote⟩ | ⟨hplain, -, hself⟩ | ⟨-, code, hcode, -, hall⟩
  · rw [hquote] at h
    rcases List.mem_pair.mp h with rfl | rfl <;> decide
  · rw [hself] at h
    rwa [List.mem_singleton.mp h]
  · rw [hcode] at h
    rcases List.mem_cons.mp h with rfl | h
    · decide
    · exact (hall x h).1

theorem isPlain_of_mem_escape {s : String} {c : Char} (h : c ∈ (escape s).toList) : isPlain c := by
  rw [escape, String.toList_ofList] at h
  obtain ⟨x, -, hx⟩ := List.mem_flatMap.mp h
  exact isPlain_of_mem_escapeChar hx

theorem newline_not_mem_escape (s : String) : '\n' ∉ (escape s).toList := by
  intro h
  have hplain := isPlain_of_mem_escape h
  revert hplain
  decide

theorem newline_not_mem_natural (n : Nat) : '\n' ∉ (toString n).toList := by
  intro h
  rw [Nat.toString_eq_repr, Nat.toList_repr] at h
  have hdigit := Nat.isDigit_of_mem_toDigits (by omega) (by omega) h
  revert hdigit
  decide

/-- A text that ends its line and holds no other end of a line. -/
def IsLine (s : String) : Prop := ∃ body : String, s = body ++ "\n" ∧ '\n' ∉ body.toList

theorem count_join {lines : List String} (h : ∀ line ∈ lines, IsLine line) :
    (String.join lines).toList.count '\n' = lines.length := by
  induction lines with
  | nil => rfl
  | cons line lines ih =>
    obtain ⟨body, rfl, hbody⟩ := h line List.mem_cons_self
    have hrest := ih fun other hother => h other (List.mem_cons_of_mem _ hother)
    rw [String.join_cons, String.toList_append, String.toList_append, List.count_append,
      List.count_append, List.count_eq_zero_of_not_mem hbody, hrest, List.length_cons]
    change 0 + 1 + lines.length = lines.length + 1
    omega

end PassPipeline.Text
