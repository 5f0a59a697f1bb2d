/-! Hexadecimal numbers with a least number of digits. -/
namespace PassPipeline.Text

/-- The digits of `n` in base sixteen, lower case, with zeros in front up to `width`. -/
def hex (width n : Nat) : List Char :=
  let digits := Nat.toDigits 16 n
  List.replicate (width - digits.length) '0' ++ digits

def hexUpper (width n : Nat) : List Char := (hex width n).map Char.toUpper

end PassPipeline.Text
