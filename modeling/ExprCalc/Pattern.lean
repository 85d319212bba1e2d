/-!
# Patterns

The patterns that tokens are found by: one of several words, or a run of characters of a set.
`Pattern.search` finds a pattern's matches in a text from left to right, none overlapping another.
A pattern may match the empty text; such a match does not keep the search from a longer one at the
same place.
-/

namespace ExprCalc

inductive Pattern
  /-- one of `words`, the first that fits -/
  | anyOf (words : List (List Char))
  /-- as many characters of `chars` as there are, at least `least` -/
  | runOf (chars : List Char) (least : Nat)
deriving DecidableEq, Repr

namespace Pattern

/-- The lengths of the matches at the start of `cs`, the preferred one first. -/
def lengths : Pattern → List Char → List Nat
  | anyOf words, cs => (words.filter (·.isPrefixOf cs)).map List.length
  | runOf chars least, cs =>
    let n := (cs.takeWhile chars.contains).length
    if least ≤ n then [n] else []

/-- The lengths of the matches found at the start of `cs`: the preferred one and, if that is empty,
the preferred one that is not. -/
def found (p : Pattern) (cs : List Char) : List Nat :=
  match p.lengths cs with
  | [] => []
  | 0 :: rest => 0 :: (rest.find? (· ≠ 0)).toList
  | n :: _ => [n]

/-- The matches in `cs`, each with its offset, where `cs` begins at offset `pos` and the last match
covers `skip` more characters. -/
def searchFrom (p : Pattern) (pos : Nat) : (skip : Nat) → List Char → List (Nat × List Char)
  | _, [] => (p.found []).map fun _ => (pos, [])
  | skip + 1, _ :: cs => searchFrom p (pos + 1) skip cs
  | 0, c :: cs =>
    let ns := p.found (c :: cs)
    ns.map (fun n => (pos, (c :: cs).take n)) ++ searchFrom p (pos + 1) (ns.getLastD 0 - 1) cs

/-- The matches in `cs` with their offsets, from left to right. -/
def search (p : Pattern) (cs : List Char) : List (Nat × List Char) := p.searchFrom 0 0 cs

end Pattern

end ExprCalc
