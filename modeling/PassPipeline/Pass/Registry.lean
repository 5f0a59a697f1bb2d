import PassPipeline.Pass.Basic
import PassPipeline.Text.Bytewise

/-! Registries of pass kinds. Kinds are numbered from one in the order of their registration, and no
two kinds of a registry share a name. -/
namespace PassPipeline

/-- How a kind makes its passes. -/
inductive Maker where
  | ordinary
  | printer (subject : Subject)
  | verifier
  deriving DecidableEq, Repr

/-- A pass kind. One without a maker is a pseudo kind: it can be asked for, and has to be
substituted by another kind before a pass is made. -/
structure Kind where
  name : String
  description : String
  maker : Option Maker
  deriving DecidableEq, Repr

def Kind.isPseudo (k : Kind) : Bool := k.maker.isNone

/-- A kind with its number, for people. -/
def Kind.label (k : Kind) (id : PassId) : String := k.name ++ " (" ++ toString id.number ++ ")"

inductive RegistryError where
  | duplicate (name : String)
  | notRegistered (id : PassId)
  | noImplementation (name : String)
  deriving DecidableEq, Repr

def RegistryError.message : RegistryError → String
  | .duplicate name => "pass registered twice: " ++ name
  | .notRegistered id => "pass ID not registered: " ++ toString id.number
  | .noImplementation name => "pass has no implementation: " ++ name

/-- What the two tables of a registry and its counter have to do with each other. -/
structure Registry.Sound (byId : List (PassId × Kind)) (byName : List (String × PassId))
    (next : Nat) : Prop where
  /-- The tables are inverse to each other. -/
  inverse : ∀ name id, byName.lookup name = some id ↔ ∃ k, byId.lookup id = some k ∧ k.name = name
  /-- The numbers in use are those below the next one. -/
  numbers : ∀ id, (byId.lookup id).isSome ↔ 0 < id.number ∧ id.number < next
  positive : 0 < next
  /-- No name has two rows. -/
  distinct : (byName.map Prod.fst).Nodup

/-- Two tables of the same kinds, and the next number. -/
structure Registry where
  byId : List (PassId × Kind)
  byName : List (String × PassId)
  next : Nat
  sound : Registry.Sound byId byName next

namespace Registry

theorem Sound.empty : Sound [] [] 1 where
  inverse := by simp
  numbers id := by
    simp only [List.lookup_nil, Option.isSome_none, Bool.false_eq_true, false_iff]
    omega
  positive := Nat.one_pos
  distinct := List.nodup_nil

theorem lookup_concat {α β : Type} [DecidableEq α] (rows : List (α × β)) (key : α) (value : β)
    (a : α) :
    (rows ++ [(key, value)]).lookup a =
      (rows.lookup a).or (if a = key then some value else none) := by
  rw [List.lookup_append]
  by_cases h : a = key
  · simp [h]
  · have hne : (a == key) = false := by simpa using h
    simp [List.lookup_cons, hne, h]

theorem Sound.lookup_next {byId : List (PassId × Kind)} {byName : List (String × PassId)}
    {next : Nat} (h : Sound byId byName next) : byId.lookup ⟨next⟩ = none := by
  rw [← Option.not_isSome_iff_eq_none, h.numbers]
  simp

/-- One more kind, under the next number and a name that is not taken. -/
theorem Sound.add {byId : List (PassId × Kind)} {byName : List (String × PassId)} {next : Nat}
    (h : Sound byId byName next) {k : Kind} (hk : byName.lookup k.name = none) :
    Sound (byId ++ [(⟨next⟩, k)]) (byName ++ [(k.name, ⟨next⟩)]) (next + 1) where
  inverse name id := by
    rw [lookup_concat, lookup_concat]
    constructor
    · intro hid
      cases hn : byName.lookup name with
      | some old =>
        rw [hn] at hid
        cases hid
        obtain ⟨k', hk', hname⟩ := (h.inverse name id).mp hn
        exact ⟨k', by rw [hk']; rfl, hname⟩
      | none =>
        rw [hn, Option.none_or, Option.ite_none_right_eq_some] at hid
        obtain ⟨rfl, hid⟩ := hid
        cases hid
        exact ⟨k, by simp [h.lookup_next], rfl⟩
    · rintro ⟨k', hk', rfl⟩
      cases hi : byId.lookup id with
      | some old =>
        rw [hi] at hk'
        cases hk'
        rw [(h.inverse k'.name id).mpr ⟨k', hi, rfl⟩]
        rfl
      | none =>
        rw [hi, Option.none_or, Option.ite_none_right_eq_some] at hk'
        obtain ⟨rfl, hk'⟩ := hk'
        cases hk'
        simp [hk]
  numbers id := by
    have hnew : id = ⟨next⟩ ↔ id.number = next := by
      obtain ⟨number⟩ := id
      simp
    have hold := h.numbers id
    have hpos := h.positive
    rw [lookup_concat, Option.isSome_or, Bool.or_eq_true, hold]
    by_cases he : id.number = next
    · simp only [if_pos (hnew.mpr he), Option.isSome_some, or_true, true_iff]
      omega
    · simp only [if_neg (mt hnew.mp he), Option.isSome_none, Bool.false_eq_true, or_false]
      omega
  positive := Nat.succ_pos next
  distinct := by
    rw [List.map_append, List.nodup_append]
    refine ⟨h.distinct, by simp, ?_⟩
    intro a ha b hb hab
    obtain ⟨row, hrow, rfl⟩ := List.mem_map.mp ha
    have hb : b = k.name := by simpa using hb
    have hne := List.lookup_eq_none_iff.mp hk row hrow
    simp [hab, hb] at hne

def empty : Registry := ⟨[], [], 1, .empty⟩

/-- The kind with a given identity. -/
def kind? (r : Registry) (id : PassId) : Option Kind := r.byId.lookup id

/-- The identity of the kind with a given name. -/
def lookup? (r : Registry) (name : String) : Option PassId := r.byName.lookup name

/-- The name of a kind, or a placeholder. -/
def name (r : Registry) (id : PassId) : String :=
  if id = .none then "<none>"
  else match r.kind? id with
    | some k => k.name
    | none => "<unregistered " ++ toString id.number ++ ">"

/-- All names in the order of their bytes. -/
def names (r : Registry) : List String := (r.byName.map Prod.fst).mergeSort Text.bytewise

/-- Adds a kind under the next number, unless its name is taken. -/
def register (r : Registry) (k : Kind) : Except RegistryError (Registry × PassId) :=
  match h : r.byName.lookup k.name with
  | some _ => .error (.duplicate k.name)
  | none =>
    .ok (⟨r.byId ++ [(⟨r.next⟩, k)], r.byName ++ [(k.name, ⟨r.next⟩)], r.next + 1, r.sound.add h⟩,
      ⟨r.next⟩)

/-- Adds kinds one after the other. -/
def registerAll (r : Registry) : List Kind → Except RegistryError Registry
  | [] => .ok r
  | k :: rest =>
    match r.register k with
    | .ok (r', _) => r'.registerAll rest
    | .error e => .error e

/-- Kinds in the order of their registration, with the numbers that they get. -/
def numbered (ks : List Kind) : List (PassId × Kind) :=
  ks.zipIdx.map fun row => (⟨row.2 + 1⟩, row.1)

theorem numbered_concat (ks : List Kind) (k : Kind) :
    numbered (ks ++ [k]) = numbered ks ++ [(⟨(ks.length + 1 : Nat)⟩, k)] := by
  simp [numbered, List.zipIdx_append]

theorem lookup_name_numbered {ks : List Kind} {k : Kind} (h : k.name ∉ ks.map Kind.name) :
    ((numbered ks).map fun row => (row.2.name, row.1)).lookup k.name = none := by
  rw [List.lookup_eq_none_iff]
  intro row hrow
  obtain ⟨row, hrow', rfl⟩ := List.mem_map.mp hrow
  obtain ⟨⟨old, i⟩, hold, rfl⟩ := List.mem_map.mp hrow'
  have hne : k.name ≠ old.name := by
    intro he
    exact h (he ▸ List.mem_map_of_mem (List.fst_mem_of_mem_zipIdx hold))
  simpa using hne

/-- Tables that are filled kind by kind. The induction goes from the last kind back to the first. -/
theorem sound_numbered_reverse (ks : List Kind) (h : (ks.reverse.map Kind.name).Nodup) :
    Sound (numbered ks.reverse) ((numbered ks.reverse).map fun row => (row.2.name, row.1))
      (ks.reverse.length + 1) := by
  induction ks with
  | nil => exact .empty
  | cons k ks ih =>
    rw [List.reverse_cons] at h ⊢
    rw [List.map_append, List.nodup_append] at h
    obtain ⟨hrest, -, hfree⟩ := h
    rw [numbered_concat, List.map_append, List.length_append]
    exact (ih hrest).add (lookup_name_numbered fun hmem => hfree _ hmem _ (by simp) rfl)

theorem sound_numbered (ks : List Kind) (h : (ks.map Kind.name).Nodup) :
    Sound (numbered ks) ((numbered ks).map fun row => (row.2.name, row.1)) (ks.length + 1) := by
  have hreverse := sound_numbered_reverse ks.reverse
  rw [List.reverse_reverse] at hreverse
  exact hreverse h

/-- The registry of kinds that have different names. -/
def ofKinds (ks : List Kind) (h : (ks.map Kind.name).Nodup) : Registry where
  byId := numbered ks
  byName := (numbered ks).map fun row => (row.2.name, row.1)
  next := ks.length + 1
  sound := sound_numbered ks h

/-- Makes a pass of a kind. A printer made this way has no banner and writes to the console. -/
def instantiate (r : Registry) (id : PassId) : Except RegistryError Pass :=
  match r.kind? id with
  | none => .error (.notRegistered id)
  | some k =>
    match k.maker with
    | none => .error (.noImplementation k.name)
    | some .ordinary => .ok ⟨id, k.name, .ordinary⟩
    | some (.printer subject) => .ok ⟨id, k.name, .print subject "" .console⟩
    | some .verifier => .ok ⟨id, k.name, .verify ""⟩

end Registry

end PassPipeline
