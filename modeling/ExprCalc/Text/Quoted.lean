import ExprCalc.Text.Printable

/-!
# Quoted text

How a text is shown inside a message: between single quotes (double ones if it holds a single quote
and no double quote), with the quote in use and the backslash escaped, and with every character
that has no printed form written by its code. A quoted text is therefore always on one line.
-/

namespace ExprCalc

namespace Quoted

def singleQuote : Char := '\x27'
def doubleQuote : Char := '\x22'
def backslash : Char := '\x5c'

/-- The quote to put around a text. -/
def delimiter (cs : List Char) : Char :=
  if cs.contains singleQuote && !cs.contains doubleQuote then doubleQuote else singleQuote

/-- The code point `n` in lower-case hexadecimal digits, filled up with zeros to `width`. -/
def hex (width n : Nat) : List Char := (Nat.toDigits 16 n).leftpad width '0'

/-- A character by its code: two, four or eight digits, the shortest that holds it. -/
def byCode (c : Char) : List Char :=
  let n := c.toNat
  if n < 0x100 then backslash :: 'x' :: hex 2 n
  else if n < 0x10000 then backslash :: 'u' :: hex 4 n
  else backslash :: 'U' :: hex 8 n

/-- A character as it stands between quotes `quote`. -/
def escape (quote c : Char) : List Char :=
  if c = quote ∨ c = backslash then [backslash, c]
  else if c = '\n' then [backslash, 'n']
  else if c = '\r' then [backslash, 'r']
  else if c = '\t' then [backslash, 't']
  else if isPrintable c then [c]
  else byCode c

/-- The quoted form of a text, as characters. -/
def encode (cs : List Char) : List Char :=
  let quote := delimiter cs
  quote :: cs.flatMap (escape quote) ++ [quote]

end Quoted

/-- The quoted form of a text. -/
def quoted (s : String) : String := String.ofList (Quoted.encode s.toList)

/-- The quoted forms of several texts, between brackets. -/
def quotedList (ss : List String) : String :=
  "[" ++ ", ".intercalate (ss.map quoted) ++ "]"

end ExprCalc
