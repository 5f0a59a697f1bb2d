import PassPipeline.Text.Hex
import PassPipeline.Text.Utf8

/-! Text made safe for a single diagnostic line. A backslash is left alone, so a text with quotes
cannot be escaped twice without change. -/
namespace PassPipeline.Text

/-- Printable ASCII stands for itself. -/
def isPlain (c : Char) : Bool := 0x20 ≤ c.toNat && c.toNat ≤ 0x7E

def escapeChar (c : Char) : List Char :=
  if c = '\n' then ['\\', 'n']
  else if c = '\t' then ['\\', 't']
  else if c = '"' then ['\\', '"']
  else if isPlain c then [c]
  else '\\' :: 'x' :: hexUpper 2 c.toNat

def escapeChars (cs : List Char) : List Char := cs.flatMap escapeChar

def escape (s : String) : String := String.ofList (escapeChars s.toList)

/-- Escapes bytes that need not be well-formed text. -/
def escapeBytes (bytes : List UInt8) : String := String.ofList (escapeChars (decode bytes))

end PassPipeline.Text
