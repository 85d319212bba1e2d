import ExprCalc.Text.Decimal

/-!
# JSON

JSON values whose objects keep the order of their members, and their text: members and items each
on a line of their own, indented by two spaces for each level. Only quotes, backslashes and control
characters are escaped; all else stands as it is.
-/

namespace ExprCalc

/-- A JSON value. -/
inductive Json
  | bool (b : Bool)
  | int (n : Int)
  | string (s : String)
  | array (items : List Json)
  | object (members : List (String × Json))

namespace Json

/-- The code of a control character, which has two hexadecimal digits at most. -/
def controlCode (c : Char) : List Char :=
  ['\x5c', 'u', '0', '0', Nat.digitChar (c.toNat / 16), Nat.digitChar (c.toNat % 16)]

/-- A character as it stands in a string. -/
def escape (c : Char) : List Char :=
  if c = '\x22' ∨ c = '\x5c' then ['\x5c', c]
  else if c = '\n' then ['\x5c', 'n']
  else if c = '\r' then ['\x5c', 'r']
  else if c = '\t' then ['\x5c', 't']
  else if c = '\x08' then ['\x5c', 'b']
  else if c = '\x0c' then ['\x5c', 'f']
  else if c.toNat < 0x20 then controlCode c
  else [c]

/-- A string between its quotes. -/
def writeString (s : String) : List Char := '\x22' :: s.toList.flatMap escape ++ ['\x22']

/-- The start of a line, `depth` levels deep. -/
def newLine (depth : Nat) : List Char := '\n' :: List.replicate (2 * depth) ' '

mutual

/-- The text of a value that stands `depth` levels deep. -/
def write (depth : Nat) : Json → List Char
  | .bool true => ['t', 'r', 'u', 'e']
  | .bool false => ['f', 'a', 'l', 's', 'e']
  | .int n => decimalChars n
  | .string s => writeString s
  | .array [] => ['[', ']']
  | .array (item :: items) =>
    '[' :: newLine (depth + 1) ++ write (depth + 1) item ++ writeItems (depth + 1) items ++
      newLine depth ++ [']']
  | .object [] => ['\x7b', '\x7d']
  | .object ((key, value) :: members) =>
    '\x7b' :: newLine (depth + 1) ++ writeString key ++ [':', ' '] ++ write (depth + 1) value ++
      writeMembers (depth + 1) members ++ newLine depth ++ ['\x7d']

/-- The items behind the first one. -/
def writeItems (depth : Nat) : List Json → List Char
  | [] => []
  | item :: items => ',' :: newLine depth ++ write depth item ++ writeItems depth items

/-- The members behind the first one. -/
def writeMembers (depth : Nat) : List (String × Json) → List Char
  | [] => []
  | (key, value) :: members =>
    ',' :: newLine depth ++ writeString key ++ [':', ' '] ++ write depth value ++
      writeMembers depth members

end

/-- The text of a value. -/
def render (value : Json) : String := String.ofList (value.write 0)

end Json

end ExprCalc
