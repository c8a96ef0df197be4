/-! # Lines and blanks -/

set_option autoImplicit false

namespace ClosureConversion.Text

/-- The characters with the Unicode property `White_Space`. -/
def isBlankChar (c : Char) : Bool :=
  let n := c.toNat
  (0x9 ≤ n && n ≤ 0xD) || n == 0x20 || n == 0x85 || n == 0xA0 || n == 0x1680
    || (0x2000 ≤ n && n ≤ 0x200A) || n == 0x2028 || n == 0x2029 || n == 0x202F
    || n == 0x205F || n == 0x3000

def isBlank (line : List Char) : Bool := line.all isBlankChar

/-- The line whose characters were collected in reverse, at its newline. -/
def endOfLine : List Char → List Char
  | '\r' :: rest => rest.reverse
  | rest => rest.reverse

/-- The lines of `text` after a start of line that was collected in reverse. -/
def linesFrom (start : List Char) : List Char → List (List Char)
  | [] => if start.isEmpty then [] else [start.reverse]
  | c :: text =>
    if c = '\n' then endOfLine start :: linesFrom [] text else linesFrom (c :: start) text

/-- The lines of a text. A text that ends in a newline has no further, empty line. -/
def lines (text : List Char) : List (List Char) := linesFrom [] text

@[simp] theorem lines_nil : lines [] = [] := rfl

example : lines "a\r\n\nb\r".toList = ["a".toList, [], "b\r".toList] := by decide

end ClosureConversion.Text
