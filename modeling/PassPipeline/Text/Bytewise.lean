/-! Texts in the order of their bytes. -/
namespace PassPipeline.Text

def bytes (s : String) : List UInt8 := s.toUTF8.data.toList

/-- A text comes before its extensions. -/
def bytewise (a b : String) : Bool := bytes a ≤ bytes b

/-- Lists of texts in the order of the first text they differ in. -/
def bytewiseList (a b : List String) : Bool := a.map bytes ≤ b.map bytes

end PassPipeline.Text
