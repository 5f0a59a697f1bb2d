import PassPipeline.Text.Hex
import PassPipeline.Text.Printable
import PassPipeline.Text.Utf8

/-! Text between double quotes, with everything that does not print spelled out. -/
namespace PassPipeline.Text

def quotedChar (c : Char) : List Char :=
  if c = '"' || c = '\\' then ['\\', c]
  else if isPrintable c then [c]
  else match c.toNat with
    | 7 => ['\\', 'a']
    | 8 => ['\\', 'b']
    | 9 => ['\\', 't']
    | 10 => ['\\', 'n']
    | 11 => ['\\', 'v']
    | 12 => ['\\', 'f']
    | 13 => ['\\', 'r']
    | n =>
      if n < 0x20 || n = 0x7F then '\\' :: 'x' :: hex 2 n
      else if n < 0x10000 then '\\' :: 'u' :: hex 4 n
      else '\\' :: 'U' :: hex 8 n

def quotedPiece : Piece → List Char
  | .char c => quotedChar c
  | .stray b => '\\' :: 'x' :: hex 2 b.toNat

def quotePieces (ps : List Piece) : String :=
  String.ofList ('"' :: ps.flatMap quotedPiece ++ ['"'])

def quote (s : String) : String := quotePieces (piecesOf s)

end PassPipeline.Text
