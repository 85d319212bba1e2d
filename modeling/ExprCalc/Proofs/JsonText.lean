import ExprCalc.Json
import Mathlib.Tactic.IntervalCases

/-!
# The texts of a JSON value

`ValueText v t` is the grammar of JSON, for the values there are here: `t` is one of the texts that
stand for `v`. A value has many texts, with gaps between its parts and characters escaped or not;
`Json.write` writes one of them (`valueText_write`), and with gaps around it that is a document
(`isDocument_render`).
-/

namespace ExprCalc.Json

/-! ### Gaps and numbers -/

/-- The characters that may stand between the parts of a document. -/
def isGap (c : Char) : Bool := c = ' ' || c = '\t' || c = '\n' || c = '\r'

def Gap (w : List Char) : Prop := ∀ c ∈ w, isGap c = true

/-- A number that is not negative: no zero stands before other digits. -/
inductive NatText : Nat → List Char → Prop
  | zero : NatText 0 ['0']
  | digits {d : Char} {ds : List Char} (hd : d.isDigit = true) (h0 : d ≠ '0')
      (hds : ∀ c ∈ ds, c.isDigit = true) : NatText (Nat.ofDigitChars 10 (d :: ds) 0) (d :: ds)

inductive IntText : Int → List Char → Prop
  | plain {n : Nat} {t : List Char} (h : NatText n t) : IntText n t
  | minus {n : Nat} {t : List Char} (h : NatText n t) : IntText (-n) ('-' :: t)

/-! ### Strings -/

def hexValue (c : Char) : Option Nat :=
  if c.isDigit then some (c.toNat - 48)
  else if 'a' ≤ c ∧ c ≤ 'f' then some (c.toNat - 87)
  else if 'A' ≤ c ∧ c ≤ 'F' then some (c.toNat - 55)
  else none

/-- The number that four hexadecimal digits write. -/
def codeUnit (a b c d : Char) : Option Nat := do
  let a ← hexValue a
  let b ← hexValue b
  let c ← hexValue c
  let d ← hexValue d
  return ((a * 16 + b) * 16 + c) * 16 + d

/-- The character that a backslash and a single character stand for. -/
def shortEscape (c : Char) : Option Char :=
  if c = '\x22' ∨ c = '\x5c' ∨ c = '/' then some c
  else if c = 'n' then some '\n'
  else if c = 'r' then some '\r'
  else if c = 't' then some '\t'
  else if c = 'b' then some '\x08'
  else if c = 'f' then some '\x0c'
  else none

def IsHigh (n : Nat) : Prop := 0xD800 ≤ n ∧ n < 0xDC00

def IsLow (n : Nat) : Prop := 0xDC00 ≤ n ∧ n < 0xE000

instance (n : Nat) : Decidable (IsHigh n) := inferInstanceAs (Decidable (_ ∧ _))

instance (n : Nat) : Decidable (IsLow n) := inferInstanceAs (Decidable (_ ∧ _))

/-- The code of the character that two halves stand for. -/
def joined (high low : Nat) : Nat := 0x10000 + (high - 0xD800) * 0x400 + (low - 0xDC00)

/-- A character of a string: as it stands, behind a backslash, by its code, or by the two halves of
a code that does not fit four digits. -/
inductive CharText : Char → List Char → Prop
  | plain {c : Char} (h : 0x20 ≤ c.toNat) (hq : c ≠ '\x22') (hb : c ≠ '\x5c') : CharText c [c]
  | short {c e : Char} (h : shortEscape e = some c) : CharText c ['\x5c', e]
  | code {c x y z w : Char} (h : codeUnit x y z w = some c.toNat) :
      CharText c ['\x5c', 'u', x, y, z, w]
  | pair {c x y z w x' y' z' w' : Char} {high low : Nat} (hx : codeUnit x y z w = some high)
      (hx' : codeUnit x' y' z' w' = some low) (hh : IsHigh high) (hl : IsLow low)
      (hc : c.toNat = joined high low) :
      CharText c ['\x5c', 'u', x, y, z, w, '\x5c', 'u', x', y', z', w']

/-- The characters of a string and its closing quote. -/
inductive CharsText : List Char → List Char → Prop
  | last : CharsText [] ['\x22']
  | more {c : Char} {cs t ts : List Char} (hc : CharText c t) (hcs : CharsText cs ts) :
      CharsText (c :: cs) (t ++ ts)

/-- A key with its quotes and the colon behind it. -/
inductive KeyText : String → List Char → Prop
  | mk {key : String} {t w w' : List Char} (h : CharsText key.toList t) (hw : Gap w)
      (hw' : Gap w') : KeyText key ('\x22' :: (t ++ (w ++ ':' :: w')))

/-! ### Values -/

mutual

inductive ValueText : Json → List Char → Prop
  | true : ValueText (.bool .true) ['t', 'r', 'u', 'e']
  | false : ValueText (.bool .false) ['f', 'a', 'l', 's', 'e']
  | int {n : Int} {t : List Char} (h : IntText n t) : ValueText (.int n) t
  | string {s : String} {t : List Char} (h : CharsText s.toList t) :
      ValueText (.string s) ('\x22' :: t)
  | noItems {w : List Char} (hw : Gap w) : ValueText (.array []) ('[' :: (w ++ [']']))
  | items {v : Json} {vs : List Json} {w t ts : List Char} (hw : Gap w) (h : ValueText v t)
      (hs : ItemsText vs ts) : ValueText (.array (v :: vs)) ('[' :: (w ++ (t ++ ts)))
  | noMembers {w : List Char} (hw : Gap w) :
      ValueText (.object []) ('\x7b' :: (w ++ ['\x7d']))
  | members {key : String} {v : Json} {ms : List (String × Json)} {w k t ts : List Char}
      (hw : Gap w) (hk : KeyText key k) (h : ValueText v t) (hs : MembersText ms ts) :
      ValueText (.object ((key, v) :: ms)) ('\x7b' :: (w ++ (k ++ (t ++ ts))))

/-- The items behind the first one, and the closing bracket. -/
inductive ItemsText : List Json → List Char → Prop
  | last {w : List Char} (hw : Gap w) : ItemsText [] (w ++ [']'])
  | more {v : Json} {vs : List Json} {w w' t ts : List Char} (hw : Gap w) (hw' : Gap w')
      (h : ValueText v t) (hs : ItemsText vs ts) :
      ItemsText (v :: vs) (w ++ ',' :: (w' ++ (t ++ ts)))

/-- The members behind the first one, and the closing brace. -/
inductive MembersText : List (String × Json) → List Char → Prop
  | last {w : List Char} (hw : Gap w) : MembersText [] (w ++ ['\x7d'])
  | more {key : String} {v : Json} {ms : List (String × Json)} {w w' k t ts : List Char}
      (hw : Gap w) (hw' : Gap w') (hk : KeyText key k) (h : ValueText v t)
      (hs : MembersText ms ts) :
      MembersText ((key, v) :: ms) (w ++ ',' :: (w' ++ (k ++ (t ++ ts))))

end

/-- A document for `v`: one text of it, with gaps around. -/
inductive IsDocument (v : Json) : List Char → Prop
  | mk {w t w' : List Char} (hw : Gap w) (h : ValueText v t) (hw' : Gap w') :
      IsDocument v (w ++ (t ++ w'))

/-! ### What is written is in the grammar -/

theorem gap_nil : Gap [] := fun _ h => nomatch h

theorem gap_newLine (depth : Nat) : Gap (newLine depth) := by
  intro c hc
  rcases List.mem_cons.1 hc with rfl | hc
  · rfl
  · rw [List.eq_of_mem_replicate hc]
    rfl

theorem toDigits_eq_cons {n : Nat} (h : n ≠ 0) :
    ∃ d ds, Nat.toDigits 10 n = d :: ds ∧ d ≠ '0' := by
  induction n using Nat.strongRecOn with
  | ind n ih =>
    rw [Nat.toDigits_eq_if (by decide)]
    split
    · next hn =>
      have hz : ∀ m < 10, m ≠ 0 → Nat.digitChar m ≠ '0' := by decide
      exact ⟨_, _, rfl, hz n hn h⟩
    · next hn =>
      obtain ⟨d, ds, hds, hd⟩ := ih (n / 10) (by omega) (by omega)
      exact ⟨d, ds ++ [Nat.digitChar (n % 10)], by rw [hds, List.cons_append], hd⟩

theorem natText_toDigits (n : Nat) : NatText n (Nat.toDigits 10 n) := by
  by_cases h : n = 0
  · subst h
    exact .zero
  · obtain ⟨d, ds, hds, h0⟩ := toDigits_eq_cons h
    have hd : ∀ c ∈ d :: ds, c.isDigit = true := fun c hc =>
      Nat.isDigit_of_mem_toDigits (by decide) (by decide) (hds ▸ hc)
    have hn : Nat.ofDigitChars 10 (d :: ds) 0 = n := by
      rw [← hds, Nat.ofDigitChars_ten_toDigits]
    rw [hds]
    exact hn ▸ .digits (hd d (by simp)) h0 fun c hc => hd c (by simp [hc])

theorem intText_decimalChars (n : Int) : IntText n (decimalChars n) := by
  unfold decimalChars
  split
  · next h =>
    have := IntText.minus (natText_toDigits n.natAbs)
    rwa [show -(n.natAbs : Int) = n by omega] at this
  · next h =>
    have := IntText.plain (natText_toDigits n.natAbs)
    rwa [show (n.natAbs : Int) = n by omega] at this

theorem hexValue_digitChar {n : Nat} (h : n < 16) : hexValue (Nat.digitChar n) = some n := by
  interval_cases n <;> decide

theorem charText_controlCode {c : Char} (h : c.toNat < 0x20) : CharText c (controlCode c) := by
  refine .code ?_
  have h0 : hexValue '0' = some 0 := by decide
  have h1 : hexValue (Nat.digitChar (c.toNat / 16)) = some (c.toNat / 16) :=
    hexValue_digitChar (by omega)
  have h2 : hexValue (Nat.digitChar (c.toNat % 16)) = some (c.toNat % 16) :=
    hexValue_digitChar (by omega)
  simp only [codeUnit, h0, h1, h2, Option.bind_eq_bind, Option.bind_some, Option.pure_def,
    Option.some.injEq]
  omega

theorem charText_escape (c : Char) : CharText c (escape c) := by
  unfold escape
  split_ifs with h1 h2 h3 h4 h5 h6 h7
  · exact .short (if_pos (by tauto))
  · exact .short (h2 ▸ rfl)
  · exact .short (h3 ▸ rfl)
  · exact .short (h4 ▸ rfl)
  · exact .short (h5 ▸ rfl)
  · exact .short (h6 ▸ rfl)
  · exact charText_controlCode h7
  · exact .plain (by omega) (fun h => h1 (.inl h)) (fun h => h1 (.inr h))

theorem charsText_escape (cs : List Char) : CharsText cs (cs.flatMap escape ++ ['\x22']) := by
  induction cs with
  | nil => exact .last
  | cons c cs ih =>
    rw [List.flatMap_cons, List.append_assoc]
    exact .more (charText_escape c) ih

theorem keyText_writeString (key : String) : KeyText key (writeString key ++ [':', ' ']) := by
  have hspace : Gap [' '] := by simp [Gap, isGap]
  have h := KeyText.mk (charsText_escape key.toList) gap_nil hspace
  simpa [writeString] using h

mutual

theorem valueText_write (depth : Nat) : ∀ v : Json, ValueText v (v.write depth)
  | .bool .true => by rw [write]; exact .true
  | .bool .false => by rw [write]; exact .false
  | .int n => by rw [write]; exact .int (intText_decimalChars n)
  | .string s => by rw [write]; exact .string (charsText_escape s.toList)
  | .array [] => by rw [write]; exact .noItems gap_nil
  | .array (v :: vs) => by
    have h := ValueText.items (gap_newLine (depth + 1)) (valueText_write (depth + 1) v)
      (itemsText_writeItems (depth + 1) vs (gap_newLine depth))
    simpa [write] using h
  | .object [] => by rw [write]; exact .noMembers gap_nil
  | .object ((key, v) :: ms) => by
    have h := ValueText.members (gap_newLine (depth + 1)) (keyText_writeString key)
      (valueText_write (depth + 1) v)
      (membersText_writeMembers (depth + 1) ms (gap_newLine depth))
    simpa [write] using h

theorem itemsText_writeItems (depth : Nat) : ∀ (vs : List Json) {w : List Char}, Gap w →
    ItemsText vs (writeItems depth vs ++ (w ++ [']']))
  | [], w, hw => by rw [writeItems]; exact .last hw
  | v :: vs, w, hw => by
    have h := ItemsText.more gap_nil (gap_newLine depth) (valueText_write depth v)
      (itemsText_writeItems depth vs hw)
    simpa [writeItems] using h

theorem membersText_writeMembers (depth : Nat) : ∀ (ms : List (String × Json)) {w : List Char},
    Gap w → MembersText ms (writeMembers depth ms ++ (w ++ ['\x7d']))
  | [], w, hw => by rw [writeMembers]; exact .last hw
  | (key, v) :: ms, w, hw => by
    have h := MembersText.more gap_nil (gap_newLine depth) (keyText_writeString key)
      (valueText_write depth v) (membersText_writeMembers depth ms hw)
    simpa [writeMembers] using h

end

/-- What is written of a value is a document for it, whatever gap follows. -/
theorem isDocument_render (v : Json) {w : List Char} (hw : Gap w) :
    IsDocument v (v.render.toList ++ w) := by
  rw [render, String.toList_ofList]
  exact .mk gap_nil (valueText_write 0 v) hw

end ExprCalc.Json
