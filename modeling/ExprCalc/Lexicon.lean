import ExprCalc.Fault
import ExprCalc.Limits
import ExprCalc.Pattern

/-!
# Lexicons

A lexicon has a pattern for each kind of token. Every pattern is searched for on its own; of the
matches together, in the order of `Occurrence.precedes`, each is taken that overlaps none taken
before (`Occurrence.disjoint`). A text is thereby cut into the tokens taken and the gaps around them
(`Segment`), and the tokens of a text are those of its segments.
-/

namespace ExprCalc

/-- A pattern for each kind of token. -/
abbrev Lexicon := List (TokenKind × Pattern)

/-- A non-empty match of the pattern for `kind`: `text`, found at offset `start`. -/
structure Occurrence where
  kind : TokenKind
  start : Nat
  text : List Char
deriving DecidableEq, Repr

namespace Occurrence

/-- The offset behind the match. -/
def stop (o : Occurrence) : Nat := o.start + o.text.length

/-- The match that starts first comes first, then the longer one. -/
def precedes (a b : Occurrence) : Bool :=
  a.start < b.start || a.start == b.start && b.text.length ≤ a.text.length

/-- The matches, of those from offset `cursor` on, that overlap none taken before. -/
def disjoint : (cursor : Nat) → List Occurrence → List Occurrence
  | _, [] => []
  | cursor, o :: os =>
    if o.start < cursor then disjoint cursor os else o :: disjoint o.stop os

def token (o : Occurrence) : Token := ⟨o.kind, String.ofList o.text, some o.start⟩

end Occurrence

/-- A piece of a text: a token taken, or a gap before, between or behind the tokens. -/
inductive Segment
  | gap (start : Nat) (text : List Char)
  | taken (o : Occurrence)
deriving DecidableEq, Repr

namespace Segment

def text : Segment → List Char
  | gap _ text => text
  | taken o => o.text

def token? : Segment → Option Token
  | gap .. => none
  | taken o => some o.token

/-- Cuts `cs`, which begins at offset `pos`, into the matches given and the gaps around them. -/
def cut : (pos : Nat) → List Char → List Occurrence → List Segment
  | pos, cs, [] => [.gap pos cs]
  | pos, cs, o :: os =>
    .gap pos (cs.take (o.start - pos)) :: .taken o :: cut o.stop (cs.drop (o.stop - pos)) os

end Segment

namespace Lexicon

/-- The non-empty matches of one pattern of a lexicon. -/
def occurrences (entry : TokenKind × Pattern) (cs : List Char) : List Occurrence :=
  ((entry.2.search cs).filter (!·.2.isEmpty)).map fun (start, text) => ⟨entry.1, start, text⟩

/-- The non-empty matches of all patterns, in the order in which they are considered. -/
def candidates (lexicon : Lexicon) (cs : List Char) : List Occurrence :=
  (lexicon.flatMap (occurrences · cs)).mergeSort Occurrence.precedes

/-- The matches that become tokens. -/
def selection (lexicon : Lexicon) (cs : List Char) : List Occurrence :=
  Occurrence.disjoint 0 (lexicon.candidates cs)

/-- The pieces of a text. -/
def segments (lexicon : Lexicon) (cs : List Char) : List Segment :=
  Segment.cut 0 cs (lexicon.selection cs)

/-- The pieces of an expression that is not too long. -/
def scan (lexicon : Lexicon) (limits : Limits) (expression : String) :
    Except Fault (List Segment) :=
  if limits.maxLength < expression.length then .error (.tooLong limits.maxLength)
  else .ok (lexicon.segments expression.toList)

/-- The tokens of an expression, in the order in which they stand. -/
def tokenize (lexicon : Lexicon) (limits : Limits) (expression : String) :
    Except Fault (List Token) :=
  return (← lexicon.scan limits expression).filterMap Segment.token?

/-- Runs of ASCII digits, the five operators, and parentheses. -/
def arithmetic : Lexicon := [
  (.number, .runOf ['0', '1', '2', '3', '4', '5', '6', '7', '8', '9'] 1),
  (.operator, .anyOf [['*', '*'], ['*'], ['/'], ['+'], ['-']]),
  (.leftParen, .anyOf [['(']]),
  (.rightParen, .anyOf [[')']])]

end Lexicon

end ExprCalc
