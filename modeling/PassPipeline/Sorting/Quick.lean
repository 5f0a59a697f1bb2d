import PassPipeline.Sorting.Basic

/-! Quicksort that looks for patterns. Short ranges are sorted by insertion, ranges that look sorted
are only mended, and after too many bad pivots a heap takes over. Equal elements keep their order
only in a short list. -/
namespace PassPipeline.Sorting

variable {α : Type} (less : α → α → Bool)

/-- Ranges up to this length are sorted by insertion. -/
def shortRange : Nat := 12

/-- From this length on a pivot is the median of medians, and single
misplaced elements are moved. -/
def longRange : Nat := 50

/-! ## Pivots -/

/-- Two positions in the order of their elements, and the number of exchanges so far. -/
def order (xs : Array α) (i j exchanges : Nat) : Nat × Nat × Nat :=
  if before less xs j i then (j, i, exchanges + 1) else (i, j, exchanges)

/-- The position of the median of three elements. -/
def median (xs : Array α) (i j k exchanges : Nat) : Nat × Nat :=
  let (i, j, exchanges) := order less xs i j exchanges
  let (j, _, exchanges) := order less xs j k exchanges
  let (_, j, exchanges) := order less xs i j exchanges
  (j, exchanges)

/-- The median of an element and its two neighbours. -/
def medianAround (xs : Array α) (i exchanges : Nat) : Nat × Nat :=
  median less xs (i - 1) i (i + 1) exchanges

/-- A pivot for the positions from `low` to below `high`, and how many exchanges its choice took:
none if the range looks sorted, `mostExchanges` if it looks reversed. -/
def choosePivot (xs : Array α) (low high : Nat) : Nat × Nat :=
  let quarter := (high - low) / 4
  let i := low + quarter
  let j := low + quarter * 2
  let k := low + quarter * 3
  if longRange ≤ high - low then
    let (i, exchanges) := medianAround less xs i 0
    let (j, exchanges) := medianAround less xs j exchanges
    let (k, exchanges) := medianAround less xs k exchanges
    median less xs i j k exchanges
  else median less xs i j k 0

/-- Four medians of three exchanges each. -/
def mostExchanges : Nat := 12

/-! ## Ranges that are not random -/

/-- The next number of a sequence without visible pattern. -/
def nextRandom (r : UInt64) : UInt64 :=
  let r := r ^^^ (r <<< 13)
  let r := r ^^^ (r >>> 7)
  r ^^^ (r <<< 17)

/-- How many binary digits a number has. -/
def binaryLength (n : Nat) : Nat := if n = 0 then 0 else n.log2 + 1

/-- Exchanges three elements in the middle of a range with elements from anywhere in it. -/
def scatter (low high : Nat) (xs : Array α) : Array α :=
  let length := high - low
  let middle := low + length / 4 * 2
  let step (s : UInt64 × Array α) (i : Nat) : UInt64 × Array α :=
    let r := nextRandom s.1
    let other := r.toNat % 1 <<< binaryLength length
    let other := if length ≤ other then other - length else other
    (r, s.2.swapIfInBounds (middle - 1 + i) (low + other))
  ([0, 1, 2].foldl step (length.toUInt64, xs)).2

/-- Turns a range around. -/
def turn (low high : Nat) (xs : Array α) : Array α :=
  (List.range ((high - low) / 2)).foldl
    (fun xs i => xs.swapIfInBounds (low + i) (high - 1 - i)) xs

/-- The first position from `i` to below `high` whose element belongs
before the one in front of it. -/
def descent? (xs : Array α) (i high : Nat) : Option Nat :=
  (List.range' i (high - i)).find? fun j => before less xs j (j - 1)

/-- Sorts a range in which at most a few elements are misplaced. The answer is whether it is sorted;
in a range that is not long, nothing is moved. -/
def mend (low high : Nat) : (steps i : Nat) → Array α → Array α × Bool
  | 0, _, xs => (xs, false)
  | steps + 1, i, xs =>
    match descent? less xs i high with
    | none => (xs, true)
    | some i =>
      if high - low < longRange then (xs, false)
      else
        let xs := xs.swapIfInBounds i (i - 1)
        let xs := if 2 ≤ i - low then sink less 0 (i - 1) xs else xs
        let xs := if 2 ≤ high - i then rise less (i + 1) (high - (i + 1)) xs else xs
        mend low high steps i xs

/-- How many misplaced elements are tried. -/
def mendSteps : Nat := 5

/-! ## Partitions -/

/-- Moves the elements of `n` positions from `first` on that satisfy `left` before the others: the
first misplaced element changes places with the last one, and so on. The answer has the first
position behind them, and whether everything was in place. -/
def separate (left : α → Bool) (first n : Nat) (xs : Array α) : Array α × Nat × Bool :=
  let isLeft i := xs[i]?.any left
  let positions := List.range' first n
  let bound := first + positions.countP isLeft
  let toRight := positions.filter fun i => i < bound && !isLeft i
  let toLeft := (positions.filter fun i => bound ≤ i && isLeft i).reverse
  ((toRight.zip toLeft).foldl (fun xs p => xs.swapIfInBounds p.1 p.2) xs, bound, toRight.isEmpty)

/-- Puts the pivot behind all elements that belong before it. The answer has its position. -/
def partition (low high pivot : Nat) (xs : Array α) : Array α × Nat × Bool :=
  let xs := xs.swapIfInBounds low pivot
  let (xs, bound, inPlace) :=
    separate (fun x => xs[low]?.any (less x)) (low + 1) (high - low - 1) xs
  (xs.swapIfInBounds (bound - 1) low, bound - 1, inPlace)

/-- Puts the elements equal to the pivot in front, where none belongs before it. The answer has the
first position behind them. -/
def partitionEqual (low high pivot : Nat) (xs : Array α) : Array α × Nat :=
  let xs := xs.swapIfInBounds low pivot
  let (xs, bound, _) :=
    separate (fun x => !xs[low]?.any (less · x)) (low + 1) (high - low - 1) xs
  (xs, bound)

/-! ## Sorting -/

/-- A range that is to be sorted, and what the partition it comes from was like. -/
structure Range where
  low : Nat
  high : Nat
  /-- How many more bad pivots are allowed. -/
  limit : Nat
  balanced : Bool := true
  inPlace : Bool := true
  deriving DecidableEq, Repr

/-- Sorts a range. Every partition leaves out its pivot, so the length of the
range is a sufficient `depth`. -/
def sortRange : (depth : Nat) → Range → Array α → Array α
  | 0, _, xs => xs
  | depth + 1, r, xs =>
    let length := r.high - r.low
    if length ≤ shortRange then insertion less r.low r.high xs
    else if r.limit = 0 then heap less r.low r.high xs
    else
      let limit := if r.balanced then r.limit else r.limit - 1
      let xs := if r.balanced then xs else scatter r.low r.high xs
      let (pivot, exchanges) := choosePivot less xs r.low r.high
      let reversed := exchanges = mostExchanges
      let xs := if reversed then turn r.low r.high xs else xs
      let pivot := if reversed then r.high - 1 - (pivot - r.low) else pivot
      let looksSorted := r.balanced && r.inPlace && (reversed || exchanges = 0)
      let (xs, sorted) :=
        if looksSorted then mend less r.low r.high mendSteps (r.low + 1) xs else (xs, false)
      if sorted then xs
      else if 0 < r.low && !before less xs (r.low - 1) pivot then
        let (xs, bound) := partitionEqual less r.low r.high pivot xs
        sortRange depth { r with low := bound, limit } xs
      else
        let (xs, middle, inPlace) := partition less r.low r.high pivot xs
        let lower : Range := { low := r.low, high := middle, limit }
        let upper : Range := { low := middle + 1, high := r.high, limit }
        let below := middle - r.low
        let above := r.high - middle
        if below < above then
          sortRange depth { upper with balanced := length / 8 ≤ below, inPlace }
            (sortRange depth lower xs)
        else
          sortRange depth { lower with balanced := length / 8 ≤ above, inPlace }
            (sortRange depth upper xs)

/-- Sorts a list. -/
def quick (xs : List α) : List α :=
  let n := xs.length
  (sortRange less n { low := 0, high := n, limit := binaryLength n } xs.toArray).toList

end PassPipeline.Sorting
