import PassPipeline.Text.Split
import PassPipeline.Text.Utf8

/-! White space of every script, and the words between it. -/
namespace PassPipeline.Text

def isBlank (c : Char) : Bool :=
  let n := c.toNat
  (0x09 ≤ n && n ≤ 0x0D) || n = 0x20 || n = 0x85 || n = 0xA0 || n = 0x1680 ||
    (0x2000 ≤ n && n ≤ 0x200A) || n = 0x2028 || n = 0x2029 || n = 0x202F || n = 0x205F || n = 0x3000

/-- A stray byte is no white space. -/
def Piece.isBlank : Piece → Bool
  | .char c => Text.isBlank c
  | .stray _ => false

/-- Drops the white space at both ends. -/
def trim (ps : List Piece) : List Piece :=
  ((ps.dropWhile Piece.isBlank).reverse.dropWhile Piece.isBlank).reverse

/-- The longest runs without white space, in order. -/
def words (ps : List Piece) : List (List Piece) := (splitBy Piece.isBlank ps).filter (!·.isEmpty)

end PassPipeline.Text
