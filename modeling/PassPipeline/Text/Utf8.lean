/-! Reading bytes as text. Every byte that is part of no well-formed sequence stands alone. -/
namespace PassPipeline.Text

/-- What one reading step finds: a character, or a byte that belongs to none. -/
inductive Piece where
  | char (c : Char)
  | stray (b : UInt8)
  deriving DecidableEq, Repr

/-- A stray byte reads as the replacement character. -/
def Piece.toChar : Piece → Char
  | .char c => c
  | .stray _ => '�'

/-- The bytes that a piece was read from. -/
def Piece.source : Piece → List UInt8
  | .char c => String.utf8EncodeChar c
  | .stray b => [b]

/-- A continuation byte carries six bits. -/
def isTail (b : UInt8) : Bool := 0x80 ≤ b.toNat && b.toNat ≤ 0xBF

/-- The character at the head of `bytes`, and how many bytes follow its first one. Overlong forms,
surrogates and numbers above U+10FFFF are not characters. -/
def headChar? : List UInt8 → Option (Char × Nat)
  | [] => none
  | a :: rest =>
    let n := a.toNat
    if n < 0x80 then some (Char.ofNat n, 0)
    else match rest with
      | [] => none
      | b :: rest =>
        if !isTail b then none
        else if 0xC2 ≤ n && n ≤ 0xDF then
          some (Char.ofNat ((n - 0xC0) * 64 + (b.toNat - 0x80)), 1)
        else match rest with
          | [] => none
          | c :: rest =>
            if !isTail c then none
            else if 0xE0 ≤ n && n ≤ 0xEF then
              let v := (n - 0xE0) * 4096 + (b.toNat - 0x80) * 64 + (c.toNat - 0x80)
              if v < 0x800 || (0xD800 ≤ v && v ≤ 0xDFFF) then none else some (Char.ofNat v, 2)
            else match rest with
              | [] => none
              | d :: _ =>
                if !isTail d then none
                else if 0xF0 ≤ n && n ≤ 0xF4 then
                  let v := (n - 0xF0) * 262144 + (b.toNat - 0x80) * 4096 + (c.toNat - 0x80) * 64 +
                    (d.toNat - 0x80)
                  if v < 0x10000 || 0x10FFFF < v then none else some (Char.ofNat v, 3)
                else none

/-- The pieces of the input after its first `skip` bytes. -/
def piecesFrom : (skip : Nat) → List UInt8 → List Piece
  | _, [] => []
  | skip + 1, _ :: rest => piecesFrom skip rest
  | 0, b :: rest =>
    match headChar? (b :: rest) with
    | some (c, more) => .char c :: piecesFrom more rest
    | none => .stray b :: piecesFrom 0 rest

def pieces (bytes : List UInt8) : List Piece := piecesFrom 0 bytes

/-- The characters of `bytes`, with the replacement character for each stray byte. -/
def decode (bytes : List UInt8) : List Char := (pieces bytes).map Piece.toChar

/-- The pieces of a text are its characters. -/
def piecesOf (s : String) : List Piece := s.toList.map Piece.char

end PassPipeline.Text
