import ExprCalc.Text.CodeRanges

/-!
# Blank characters

What counts as blank when the ends of a text are trimmed: the line and tab controls, the four
information separators, and the spaces and line breaks of Unicode.
-/

namespace ExprCalc

/-- The code points that are blank. -/
def blanks : CodeRanges := [
  (0x0009, 0x000D), (0x001C, 0x0020), (0x0085, 0x0085), (0x00A0, 0x00A0), (0x1680, 0x1680),
  (0x2000, 0x200A), (0x2028, 0x2029), (0x202F, 0x202F), (0x205F, 0x205F), (0x3000, 0x3000)]

theorem increasing_blanks : blanks.increasing = true := by decide +kernel

/-- Is `c` blank? -/
def isBlank (c : Char) : Bool := blanks.contains c

/-- Without the elements that satisfy `p` at the front and at the back. -/
def trimBoth {α : Type} (p : α → Bool) (l : List α) : List α :=
  ((l.dropWhile p).reverse.dropWhile p).reverse

/-- A text without the blanks at its ends. -/
def trimBlanks (s : String) : String := String.ofList (trimBoth isBlank s.toList)

end ExprCalc
