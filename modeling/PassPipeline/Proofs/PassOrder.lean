import PassPipeline.Order

/-! What the check of the order comes to, and how a list passes it: all constraints point
from a lower number to a higher one, so a list in which the constrained kinds climb
respects every one of them. -/
namespace PassPipeline

/-- All passes of the first kind stand before all passes of the second. -/
def Constraint.Respected (c : Constraint) (ids : List PassId) : Prop :=
  ∀ i j : Nat, ids[i]? = some c.first → ids[j]? = some c.second → i < j

namespace Order

/-- The last position of a kind is the first one from behind. -/
def lastIndex? (id : PassId) (ids : List PassId) : Option Nat :=
  (firstIndex? id ids.reverse).map (ids.length - 1 - ·)

def isBroken (ids : List PassId) (c : Constraint) : Bool :=
  meets (lastIndex? c.first ids) (firstIndex? c.second ids)

variable {ids : List PassId} {id : PassId} {c : Constraint} {i j : Nat} {m n : Int}

/-! One pass over a list is enough: the two tables have the first and the
last position of every kind. -/

theorem firstIndex?_concat (kind : PassId) (ids : List PassId) (id : PassId) :
    firstIndex? kind (ids ++ [id]) =
      (firstIndex? kind ids).or (if id = kind then some ids.length else none) := by
  rw [firstIndex?, List.findIdx?_append]
  by_cases h : id = kind <;> simp [firstIndex?, h]

theorem lastIndex?_concat (kind : PassId) (ids : List PassId) (id : PassId) :
    lastIndex? kind (ids ++ [id]) =
      if id = kind then some ids.length else lastIndex? kind ids := by
  have hcons : firstIndex? kind (id :: ids.reverse) =
      if id = kind then some 0 else (firstIndex? kind ids.reverse).map (· + 1) := by
    by_cases h : id = kind <;> simp [firstIndex?, List.findIdx?_cons, h]
  rw [lastIndex?, List.reverse_append, List.reverse_singleton, List.singleton_append, hcons]
  by_cases h : id = kind
  · simp [h]
  · rw [if_neg h, if_neg h, lastIndex?, Option.map_map]
    congr 1
    funext k
    simp only [Function.comp_apply, List.length_append, List.length_singleton]
    omega

/-- What the tables have to say of a list. -/
structure Positions.Records (ids : List PassId) (p : Positions) : Prop where
  next : p.next = ids.length
  first : ∀ id, p.first.lookup id = firstIndex? id ids
  last : ∀ id, p.last.lookup id = lastIndex? id ids

namespace Positions

variable {p : Positions}

theorem Records.visit (h : Records ids p) (id : PassId) : Records (ids ++ [id]) (p.visit id) where
  next := by simp [Positions.visit, h.next]
  first kind := by
    rw [firstIndex?_concat, ← h.first, Positions.visit, h.next]
    by_cases hk : id = kind
    · subst hk
      cases hf : p.first.lookup id <;> simp [hf]
    · have hne : (kind == id) = false := by simpa using Ne.symm hk
      rw [if_neg hk, Option.or_none]
      split
      · rfl
      · simp [List.lookup_cons, hne]
  last kind := by
    rw [lastIndex?_concat, ← h.last, Positions.visit, h.next, List.lookup_cons]
    by_cases hk : id = kind
    · simp [hk]
    · have hne : (kind == id) = false := by simpa using Ne.symm hk
      simp [hk, hne]

theorem Records.foldl (h : Records ids p) (rest : List PassId) :
    Records (ids ++ rest) (rest.foldl Positions.visit p) := by
  induction rest generalizing ids p with
  | nil => simpa using h
  | cons id rest ih => simpa using ih (h.visit id)

theorem records_ofList (ids : List PassId) : Records ids (ofList ids) := by
  have hstart : Records [] {} := ⟨rfl, fun _ => rfl, fun _ => rfl⟩
  exact hstart.foldl ids

end Positions

/-- The check by tables is the check by positions. -/
theorem broken?_eq (ids : List PassId) : broken? ids = constraints.find? (isBroken ids) := by
  have h := Positions.records_ofList ids
  have hbreaks : (Positions.ofList ids).breaks = isBroken ids := by
    funext c
    rw [Positions.breaks, isBroken, h.first, h.last]
  rw [← hbreaks]
  rfl

theorem getElem?_firstIndex? (h : firstIndex? id ids = some i) : ids[i]? = some id := by
  obtain ⟨hlt, he, -⟩ := List.findIdx?_eq_some_iff_getElem.mp h
  rw [List.getElem?_eq_getElem hlt, of_decide_eq_true he]

theorem exists_firstIndex? (h : ids[i]? = some id) : ∃ j ≤ i, firstIndex? id ids = some j := by
  cases hj : firstIndex? id ids with
  | none =>
    have hn := List.findIdx?_eq_none_iff.mp hj id (List.mem_of_getElem? h)
    simp at hn
  | some j =>
    refine ⟨j, Nat.le_of_not_lt fun hlt => ?_, rfl⟩
    obtain ⟨hlj, hej, hbefore⟩ := List.findIdx?_eq_some_iff_getElem.mp hj
    obtain ⟨hi, he⟩ := List.getElem?_eq_some_iff.mp h
    simpa [he] using hbefore i hlt

theorem getElem?_lastIndex? (h : lastIndex? id ids = some i) : ids[i]? = some id := by
  obtain ⟨k, hk, rfl⟩ := Option.map_eq_some_iff.mp h
  have he := getElem?_firstIndex? hk
  have hlt : k < ids.length := by simpa using (List.getElem?_eq_some_iff.mp he).1
  rwa [List.getElem?_reverse hlt] at he

theorem exists_lastIndex? (h : ids[i]? = some id) : ∃ j ≥ i, lastIndex? id ids = some j := by
  have hlt : i < ids.length := (List.getElem?_eq_some_iff.mp h).1
  have hr : ids.reverse[ids.length - 1 - i]? = some id := by
    rw [List.getElem?_reverse (by omega),
      show ids.length - 1 - (ids.length - 1 - i) = i by omega, h]
  obtain ⟨k, hk, hf⟩ := exists_firstIndex? hr
  exact ⟨ids.length - 1 - k, by omega, by rw [lastIndex?, hf]; rfl⟩

/-- The comparison of two positions speaks for all positions. -/
theorem isBroken_eq_false_iff : isBroken ids c = false ↔ c.Respected ids := by
  constructor
  · intro h i j hi hj
    obtain ⟨i', hii, hlast⟩ := exists_lastIndex? hi
    obtain ⟨j', hjj, hfirst⟩ := exists_firstIndex? hj
    simp only [isBroken, meets, hlast, hfirst, decide_eq_false_iff_not] at h
    omega
  · intro h
    unfold isBroken meets
    split
    · rename_i i j hlast hfirst
      have hlt := h i j (getElem?_lastIndex? hlast) (getElem?_firstIndex? hfirst)
      simpa using hlt
    · rfl

theorem broken?_eq_none_iff : broken? ids = none ↔ ∀ c ∈ constraints, c.Respected ids := by
  simp [broken?_eq, isBroken_eq_false_iff]

/-- Whether the order says anything about a kind. -/
def constrained (id : PassId) : Bool := constraints.any fun c => c.first = id || c.second = id

/-- The constrained kinds of a list come by their numbers, and `n` is not below any of them. -/
def Climbs (n : Int) (ids : List PassId) : Prop :=
  ids.Pairwise (fun a b => constrained a → constrained b → a.number ≤ b.number) ∧
    ∀ a ∈ ids, constrained a → a.number ≤ n

theorem climbs_nil (n : Int) : Climbs n [] := ⟨.nil, by simp⟩

theorem Climbs.mono (h : Climbs m ids) (hle : m ≤ n) : Climbs n ids :=
  ⟨h.1, fun a ha hc => Int.le_trans (h.2 a ha hc) hle⟩

/-- The bound behind a kind that comes under the bound `n`, if it may come there. -/
def climb (id : PassId) (n : Int) : Option Int :=
  if constrained id then if n ≤ id.number then some id.number else none else some n

theorem climb_bounds (h : climb id m = some n) :
    m ≤ n ∧ (constrained id → m ≤ id.number ∧ id.number ≤ n) := by
  unfold climb at h
  split at h
  · split at h
    · cases h
      rename_i hle
      exact ⟨hle, fun _ => ⟨hle, Int.le_refl _⟩⟩
    · cases h
  · cases h
    rename_i hc
    exact ⟨Int.le_refl _, fun hc' => absurd hc' hc⟩

theorem climb_of_not_constrained (h : constrained id = false) (n : Int) : climb id n = some n := by
  simp [climb, h]

/-- One more pass, where it may come. -/
theorem Climbs.concat (h : Climbs m ids) (hid : climb id m = some n) : Climbs n (ids ++ [id]) := by
  obtain ⟨hle, hid⟩ := climb_bounds hid
  refine ⟨List.pairwise_append.mpr ⟨h.1, List.pairwise_singleton _ _, ?_⟩, ?_⟩
  · intro a ha b hb hca hcb
    obtain rfl := List.mem_singleton.mp hb
    exact Int.le_trans (h.2 a ha hca) (hid hcb).1
  · intro a ha hca
    rcases List.mem_append.mp ha with ha | ha
    · exact (h.mono hle).2 a ha hca
    · obtain rfl := List.mem_singleton.mp ha
      exact (hid hca).2

theorem Climbs.respected (h : Climbs n ids) (hc : c ∈ constraints) : c.Respected ids := by
  have hup : c.first.number < c.second.number := by
    have hall : ∀ c ∈ constraints, c.first.number < c.second.number := by decide
    exact hall c hc
  have hfirst : constrained c.first := List.any_eq_true.mpr ⟨c, hc, by simp⟩
  have hsecond : constrained c.second := List.any_eq_true.mpr ⟨c, hc, by simp⟩
  intro i j hi hj
  obtain ⟨hli, hei⟩ := List.getElem?_eq_some_iff.mp hi
  obtain ⟨hlj, hej⟩ := List.getElem?_eq_some_iff.mp hj
  refine Nat.lt_of_not_le fun hle => ?_
  have hne : j ≠ i := by
    rintro rfl
    rw [hei] at hej
    rw [hej] at hup
    omega
  have hback := List.pairwise_iff_getElem.mp h.1 j i hlj hli (by omega)
  rw [hei, hej] at hback
  have := hback hsecond hfirst
  omega

theorem Climbs.broken?_eq_none (h : Climbs n ids) : broken? ids = none :=
  broken?_eq_none_iff.mpr fun _ hc => h.respected hc

end Order

end PassPipeline
