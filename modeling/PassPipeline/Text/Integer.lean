/-! Integers as they are written on a command line: an optional sign, an optional base mark
`0x`, `0o`, `0b` or `0`, and underscores between digits. -/
namespace PassPipeline.Text

inductive IntegerError where
  | malformed
  | outOfRange
  deriving DecidableEq, Repr

def IntegerError.message : IntegerError → String
  | .malformed => "parse error"
  | .outOfRange => "value out of range"

def digitValue? (c : Char) : Option Nat :=
  if '0' ≤ c && c ≤ '9' then some (c.toNat - 48)
  else if 'a' ≤ c && c ≤ 'z' then some (c.toNat - 87)
  else if 'A' ≤ c && c ≤ 'Z' then some (c.toNat - 55)
  else none

/-- The value of the digits after `acc`. The reading ends at the first digit that takes it above
64 bits, so a fault behind that digit is not seen. -/
def magnitudeFrom (base : Nat) (acc : Nat) : List Char → Except IntegerError Nat
  | [] => .ok acc
  | '_' :: rest => magnitudeFrom base acc rest
  | c :: rest =>
    match digitValue? c with
    | none => .error .malformed
    | some d =>
      if base ≤ d then .error .malformed
      else if 2 ^ 64 ≤ acc * base + d then .error .outOfRange
      else magnitudeFrom base (acc * base + d) rest

/-- The base and the digits behind its mark. A mark with nothing behind it is no mark. -/
def splitBase : List Char → Nat × List Char
  | '0' :: m :: d :: rest =>
    if m = 'x' || m = 'X' then (16, d :: rest)
    else if m = 'o' || m = 'O' then (8, d :: rest)
    else if m = 'b' || m = 'B' then (2, d :: rest)
    else (8, m :: d :: rest)
  | '0' :: rest => (8, rest)
  | cs => (10, cs)

/-- Every underscore stands behind a digit or a base mark and before a digit; `afterDigit` tells
what stands in front. -/
def underscoresSeparate (afterDigit : Bool) : List Char → Bool
  | [] => true
  | ['_'] => false
  | '_' :: c :: rest => afterDigit && c ≠ '_' && underscoresSeparate false (c :: rest)
  | _ :: rest => underscoresSeparate true rest

def magnitude (cs : List Char) : Except IntegerError Nat :=
  if cs.isEmpty then .error .malformed
  else
    let (base, digits) := splitBase cs
    match magnitudeFrom base 0 digits with
    | .error e => .error e
    | .ok n =>
      if underscoresSeparate (cs.head? = some '0') digits then .ok n else .error .malformed

/-- A signed integer of 64 bits. -/
def readInteger (s : String) : Except IntegerError Int :=
  let (negative, cs) := match s.toList with
    | '-' :: rest => (true, rest)
    | '+' :: rest => (false, rest)
    | cs => (false, cs)
  match magnitude cs with
  | .error e => .error e
  | .ok n =>
    if negative then if n ≤ 1 <<< 63 then .ok (-n) else .error .outOfRange
    else if n < 1 <<< 63 then .ok n else .error .outOfRange

end PassPipeline.Text
