/-! Sorting by exchanges: insertion and heaps. Every step exchanges two elements, so nothing is
lost; positions outside the array are left alone. -/
namespace PassPipeline.Sorting

variable {α : Type} (less : α → α → Bool)

/-- Whether the element at `i` belongs before the one at `j`. -/
def before (xs : Array α) (i j : Nat) : Bool :=
  match xs[i]?, xs[j]? with
  | some a, some b => less a b
  | _, _ => false

/-- Lets an element sink toward `low` as long as it belongs before its neighbour. -/
def sink (low : Nat) : (position : Nat) → Array α → Array α
  | 0, xs => xs
  | i + 1, xs =>
    if low ≤ i && before less xs (i + 1) i then sink low i (xs.swapIfInBounds (i + 1) i) else xs

/-- Lets the element below `position` rise past at most `n` neighbours that belong before it. -/
def rise : (position n : Nat) → Array α → Array α
  | _, 0, xs => xs
  | i, n + 1, xs =>
    if before less xs i (i - 1) then rise (i + 1) n (xs.swapIfInBounds i (i - 1)) else xs

/-- Sorts the positions from `low` to below `high` by insertion. Equal elements keep their order. -/
def insertion (low high : Nat) (xs : Array α) : Array α :=
  (List.range' (low + 1) (high - (low + 1))).foldl (fun xs i => sink less low i xs) xs

/-- Moves the element at `root` down a heap of `size` elements that begins at `low`, until no child
is greater. It moves at most `steps` times. -/
def settle (low size : Nat) : (steps root : Nat) → Array α → Array α
  | 0, _, xs => xs
  | steps + 1, root, xs =>
    let left := 2 * root + 1
    if size ≤ left then xs
    else
      let child :=
        if left + 1 < size && before less xs (low + left) (low + left + 1) then left + 1 else left
      if before less xs (low + root) (low + child) then
        settle low size steps child (xs.swapIfInBounds (low + root) (low + child))
      else xs

/-- Sorts the positions from `low` to below `high` by a heap with the greatest element on top. -/
def heap (low high : Nat) (xs : Array α) : Array α :=
  let size := high - low
  let heaped := (List.range ((size - 1) / 2 + 1)).reverse.foldl
    (fun xs root => settle less low size size root xs) xs
  (List.range size).reverse.foldl
    (fun xs last => settle less low last last 0 (xs.swapIfInBounds low (low + last))) heaped

end PassPipeline.Sorting
