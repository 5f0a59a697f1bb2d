/-! Columns of a report. Widths count characters. -/
namespace PassPipeline.Text

/-- Fills up with spaces on the right. -/
def padRight (width : Nat) (cs : List Char) : List Char :=
  cs ++ List.replicate (width - cs.length) ' '

/-- Fills up with spaces on the left. -/
def padLeft (width : Nat) (cs : List Char) : List Char :=
  List.replicate (width - cs.length) ' ' ++ cs

/-- Drops the spaces at the end, and no other white space. -/
def trimSpacesRight (cs : List Char) : List Char := (cs.reverse.dropWhile (· = ' ')).reverse

end PassPipeline.Text
