import Mathlib.Data.List.DropRight
import PassPipeline.Text.Blank

/-! Words and the white space between them. A word is cut out of its text whole, and however wide
the white space around words is, they stay the same. -/
namespace PassPipeline.Text

section Parts

variable {α : Type} {separates : α → Bool} {x : α} {xs ys part : List α}

theorem splitBy_eq_splitOnP (separates : α → Bool) (xs : List α) :
    splitBy separates xs = xs.splitOnP separates := by
  induction xs with
  | nil => rfl
  | cons x xs ih =>
    obtain ⟨part, parts, hparts⟩ := List.exists_cons_of_ne_nil (List.splitOnP_ne_nil separates xs)
    rw [splitBy, ih, List.splitOnP_cons_eq_if_modifyHead, hparts]
    rfl

theorem splitBy_append_cons (hx : separates x) (xs ys : List α) :
    splitBy separates (xs ++ x :: ys) = splitBy separates xs ++ splitBy separates ys := by
  simp only [splitBy_eq_splitOnP]
  exact List.splitOnP_append_cons xs ys hx

theorem splitBy_of_forall_not (h : ∀ x ∈ xs, ¬separates x) : splitBy separates xs = [xs] := by
  rw [splitBy_eq_splitOnP]
  apply List.splitOnP_eq_singleton
  simpa using h

/-- The first part stands at the beginning and the others within, and
none of them holds a separator. -/
theorem exists_splitBy (separates : α → Bool) (xs : List α) :
    ∃ part parts, splitBy separates xs = part :: parts ∧ part <+: xs ∧ (∀ x ∈ part, ¬separates x) ∧
      ∀ other ∈ parts, other <:+: xs ∧ ∀ x ∈ other, ¬separates x := by
  induction xs with
  | nil => exact ⟨[], [], rfl, List.prefix_rfl, nofun, nofun⟩
  | cons x xs ih =>
    obtain ⟨part, parts, hparts, hpart, hsolid, hothers⟩ := ih
    have hwithin : ∀ other ∈ parts, other <:+: x :: xs ∧ ∀ y ∈ other, ¬separates y := by
      intro other hother
      exact ⟨List.infix_cons (hothers other hother).1, (hothers other hother).2⟩
    rw [splitBy, hparts]
    by_cases hx : separates x
    · refine ⟨[], part :: parts, if_pos hx, List.nil_prefix, nofun, ?_⟩
      exact List.forall_mem_cons.mpr ⟨⟨List.infix_cons hpart.isInfix, hsolid⟩, hwithin⟩
    · refine ⟨x :: part, parts, if_neg hx, List.prefix_cons_inj x |>.mpr hpart, ?_, hwithin⟩
      exact List.forall_mem_cons.mpr ⟨hx, hsolid⟩

theorem mem_splitBy (h : part ∈ splitBy separates xs) :
    part <:+: xs ∧ ∀ x ∈ part, ¬separates x := by
  obtain ⟨first, parts, hparts, hfirst, hsolid, hothers⟩ := exists_splitBy separates xs
  rw [hparts] at h
  rcases List.mem_cons.mp h with rfl | h
  · exact ⟨hfirst.isInfix, hsolid⟩
  · exact hothers part h

end Parts

variable {p : Piece} {ps qs gap lead word : List Piece}

theorem mem_words (h : word ∈ words ps) : word ≠ [] ∧ word <:+: ps ∧ ∀ p ∈ word, ¬p.isBlank := by
  obtain ⟨hpart, hne⟩ := List.mem_filter.mp h
  exact ⟨by simpa using hne, mem_splitBy hpart⟩

theorem words_append_blank (hp : p.isBlank) (ps qs : List Piece) :
    words (ps ++ p :: qs) = words ps ++ words qs := by
  unfold words
  rw [splitBy_append_cons hp, List.filter_append]

theorem words_of_forall_not (hne : word ≠ []) (h : ∀ p ∈ word, ¬p.isBlank) :
    words word = [word] := by
  rw [words, splitBy_of_forall_not h]
  simp [hne]

theorem words_gap_append (h : ∀ p ∈ gap, p.isBlank) (ps : List Piece) :
    words (gap ++ ps) = words ps := by
  induction gap with
  | nil => rfl
  | cons p gap ih =>
    rw [List.forall_mem_cons] at h
    have hfront := words_append_blank h.1 [] (gap ++ ps)
    exact hfront.trans (ih h.2)

theorem words_gap (h : ∀ p ∈ gap, p.isBlank) : words gap = [] := by
  have hnone := words_gap_append h []
  rwa [List.append_nil] at hnone

/-- White space, if there is any, ends what stands before it. -/
theorem words_append_gap_append (h : ∀ p ∈ gap, p.isBlank) (hne : gap ≠ []) (ps qs : List Piece) :
    words (ps ++ (gap ++ qs)) = words ps ++ words qs := by
  obtain ⟨p, gap, rfl⟩ := List.exists_cons_of_ne_nil hne
  rw [List.forall_mem_cons] at h
  rw [List.cons_append, words_append_blank h.1, words_gap_append h.2]

theorem words_append_gap (h : ∀ p ∈ gap, p.isBlank) (ps : List Piece) :
    words (ps ++ gap) = words ps := by
  cases gap with
  | nil => rw [List.append_nil]
  | cons p gap =>
    have hend := words_append_gap_append h (List.cons_ne_nil p gap) ps []
    rw [List.append_nil] at hend
    exact hend.trans (List.append_nil _)

/-! ## Trimmed lines -/

theorem exists_trim (ps : List Piece) : ∃ lead gap, ps = lead ++ (trim ps ++ gap) ∧
    (∀ p ∈ lead, p.isBlank) ∧ ∀ p ∈ gap, p.isBlank := by
  refine ⟨ps.takeWhile Piece.isBlank, (ps.dropWhile Piece.isBlank).rtakeWhile Piece.isBlank, ?_,
    fun p => List.mem_takeWhile_imp, fun p => List.mem_rtakeWhile_imp⟩
  have hright : trim ps ++ (ps.dropWhile Piece.isBlank).rtakeWhile Piece.isBlank =
      ps.dropWhile Piece.isBlank := List.rdropWhile_append_rtakeWhile
  have hleft := List.takeWhile_append_dropWhile (p := Piece.isBlank) (l := ps)
  exact hleft.symm.trans (congrArg _ hright.symm)

theorem words_trim (ps : List Piece) : words (trim ps) = words ps := by
  obtain ⟨lead, gap, hps, hlead, hgap⟩ := exists_trim ps
  have hsame : words ps = words (lead ++ (trim ps ++ gap)) := congrArg words hps
  rw [hsame, words_gap_append hlead, words_append_gap hgap]

theorem head?_trim (hlead : ∀ p ∈ lead, p.isBlank) (hp : ¬p.isBlank) (ps : List Piece) :
    (trim (lead ++ p :: ps)).head? = some p := by
  have hdrop : (lead ++ p :: ps).dropWhile Piece.isBlank = p :: ps := by
    rw [List.dropWhile_append_of_pos hlead, List.dropWhile_cons_of_neg hp]
  have htrim : trim (lead ++ p :: ps) = (p :: ps).rdropWhile Piece.isBlank := by
    rw [trim, hdrop]
    rfl
  have hne : (p :: ps).rdropWhile Piece.isBlank ≠ [] := by
    intro hnil
    exact hp (List.rdropWhile_eq_nil_iff.mp hnil p List.mem_cons_self)
  obtain ⟨rest, hrest⟩ := List.rdropWhile_prefix Piece.isBlank (p :: ps)
  obtain ⟨q, kept, hkept⟩ := List.exists_cons_of_ne_nil hne
  rw [hkept] at hrest
  rw [htrim, hkept]
  exact congrArg some (List.cons.inj hrest).1

end PassPipeline.Text
