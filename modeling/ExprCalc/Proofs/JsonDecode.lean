import ExprCalc.Proofs.JsonText

/-!
# Decoding JSON

`decode` reads a document from left to right. Every text of the grammar is read to its end, whatever
comes behind it (`readValue_of_valueText`); only a number needs that no digit follows. So the value of
every document is found (`decode_of_isDocument`).
-/

namespace ExprCalc.Json

/-! ### The reader -/

def skipGap (cs : List Char) : List Char := cs.dropWhile isGap

def readNat : List Char → Option (Nat × List Char)
  | [] => none
  | c :: cs =>
    if c = '0' then some (0, cs)
    else if c.isDigit then
      some (Nat.ofDigitChars 10 (c :: cs.takeWhile Char.isDigit) 0, cs.dropWhile Char.isDigit)
    else none

def readInt : List Char → Option (Int × List Char)
  | '-' :: cs => do
    let (n, cs) ← readNat cs
    return (-n, cs)
  | cs => do
    let (n, cs) ← readNat cs
    return (n, cs)

/-- The character with a code; the halves of a code have none. -/
def charOfCode (n : Nat) : Option Char :=
  if n.isValidChar then some (Char.ofNat n) else none

/-- Four hexadecimal digits. -/
def readUnit : List Char → Option (Nat × List Char)
  | x :: y :: z :: w :: cs => do
    let n ← codeUnit x y z w
    return (n, cs)
  | _ => none

/-- The second half of a code. -/
def readLow (high : Nat) : List Char → Option (Char × List Char)
  | '\x5c' :: 'u' :: cs => do
    let (low, cs) ← readUnit cs
    if IsLow low then
      let c ← charOfCode (joined high low)
      return (c, cs)
    else none
  | _ => none

/-- What stands behind a backslash and a `u`. -/
def readCode (cs : List Char) : Option (Char × List Char) := do
  let (n, cs) ← readUnit cs
  if IsHigh n then readLow n cs
  else
    let c ← charOfCode n
    return (c, cs)

def readChar : List Char → Option (Char × List Char)
  | '\x5c' :: 'u' :: cs => readCode cs
  | '\x5c' :: e :: cs => do
    let c ← shortEscape e
    return (c, cs)
  | c :: cs => if 0x20 ≤ c.toNat ∧ c ≠ '\x22' ∧ c ≠ '\x5c' then some (c, cs) else none
  | [] => none

/-- The characters up to the closing quote. -/
def readChars : Nat → List Char → Option (List Char × List Char)
  | 0, _ => none
  | n + 1, cs =>
    match cs with
    | '\x22' :: cs => some ([], cs)
    | cs => do
      let (c, cs) ← readChar cs
      let (s, cs) ← readChars n cs
      return (c :: s, cs)

def readString (cs : List Char) : Option (String × List Char) := do
  let (s, cs) ← readChars cs.length cs
  return (String.ofList s, cs)

/-- A value that has no values in it. -/
def readAtom : List Char → Option (Json × List Char)
  | 't' :: 'r' :: 'u' :: 'e' :: cs => some (.bool true, cs)
  | 'f' :: 'a' :: 'l' :: 's' :: 'e' :: cs => some (.bool false, cs)
  | '\x22' :: cs => do
    let (s, cs) ← readString cs
    return (.string s, cs)
  | cs => do
    let (n, cs) ← readInt cs
    return (.int n, cs)

def readKey : List Char → Option (String × List Char)
  | '\x22' :: cs => do
    let (key, cs) ← readString cs
    match skipGap cs with
    | ':' :: cs => some (key, skipGap cs)
    | _ => none
  | _ => none

mutual

/-- A value. The bound `n` is spent on levels and on items; the length of the text is always enough. -/
def readValue : Nat → List Char → Option (Json × List Char)
  | 0, _ => none
  | n + 1, cs =>
    match cs with
    | '[' :: cs =>
      match skipGap cs with
      | ']' :: cs => some (.array [], cs)
      | cs => do
        let (v, cs) ← readValue n cs
        let (vs, cs) ← readItems n cs
        return (.array (v :: vs), cs)
    | '\x7b' :: cs =>
      match skipGap cs with
      | '\x7d' :: cs => some (.object [], cs)
      | cs => do
        let (key, cs) ← readKey cs
        let (v, cs) ← readValue n cs
        let (ms, cs) ← readMembers n cs
        return (.object ((key, v) :: ms), cs)
    | cs => readAtom cs

def readItems : Nat → List Char → Option (List Json × List Char)
  | 0, _ => none
  | n + 1, cs =>
    match skipGap cs with
    | ']' :: cs => some ([], cs)
    | ',' :: cs => do
      let (v, cs) ← readValue n (skipGap cs)
      let (vs, cs) ← readItems n cs
      return (v :: vs, cs)
    | _ => none

def readMembers : Nat → List Char → Option (List (String × Json) × List Char)
  | 0, _ => none
  | n + 1, cs =>
    match skipGap cs with
    | '\x7d' :: cs => some ([], cs)
    | ',' :: cs => do
      let (key, cs) ← readKey (skipGap cs)
      let (v, cs) ← readValue n cs
      let (ms, cs) ← readMembers n cs
      return ((key, v) :: ms, cs)
    | _ => none

end

/-- The value of a document. -/
def decode (cs : List Char) : Option Json := do
  let (v, cs) ← readValue cs.length (skipGap cs)
  if skipGap cs = [] then return v else none

/-! ### Every document is read -/

/-- A number ends where such a text starts. -/
def NoDigit (cs : List Char) : Prop := ∀ c ∈ cs.head?, c.isDigit = false

section Complete

variable {w t r cs : List Char} {c : Char}

theorem skipGap_append (hw : Gap w) (cs : List Char) : skipGap (w ++ cs) = skipGap cs :=
  List.dropWhile_append_of_pos hw

theorem skipGap_cons (hw : Gap w) (hc : isGap c = false) (cs : List Char) :
    skipGap (w ++ c :: cs) = c :: cs := by
  rw [skipGap_append hw, skipGap, List.dropWhile_cons_of_neg (by simp [hc])]

theorem noDigit_nil : NoDigit [] := fun _ h => nomatch h

theorem noDigit_cons (hc : c.isDigit = false) (cs : List Char) : NoDigit (c :: cs) := by
  simpa [NoDigit] using hc

theorem noDigit_gap_append (hw : Gap w) (hr : NoDigit r) : NoDigit (w ++ r) := by
  have hgap : ∀ d, isGap d = true → d.isDigit = false := by
    intro d hd
    simp only [isGap, Bool.or_eq_true, decide_eq_true_eq] at hd
    rcases hd with ((rfl | rfl) | rfl) | rfl <;> rfl
  cases w with
  | nil => exact hr
  | cons d w => exact noDigit_cons (hgap d (hw d (by simp))) (w ++ r)

theorem readNat_of_natText {n : Nat} (h : NatText n t) (hr : NoDigit r) :
    readNat (t ++ r) = some (n, r) := by
  have hnil : r.takeWhile Char.isDigit = [] ∧ r.dropWhile Char.isDigit = r := by
    cases r with
    | nil => exact ⟨rfl, rfl⟩
    | cons c r => simp [hr c rfl]
  cases h with
  | zero => rfl
  | @digits d ds hd h0 hds =>
    rw [List.cons_append, readNat, if_neg h0, if_pos hd, List.takeWhile_append_of_pos hds,
      List.dropWhile_append_of_pos hds, hnil.1, hnil.2, List.append_nil]

/-- The first character of a number is a digit. -/
theorem natText_cons {n : Nat} (h : NatText n t) : ∃ d ds, t = d :: ds ∧ d.isDigit = true := by
  cases h with
  | zero => exact ⟨_, _, rfl, rfl⟩
  | digits hd _ _ => exact ⟨_, _, rfl, hd⟩

theorem readInt_of_intText {n : Int} (h : IntText n t) (hr : NoDigit r) :
    readInt (t ++ r) = some (n, r) := by
  cases h with
  | plain h =>
    obtain ⟨d, ds, rfl, hd⟩ := natText_cons h
    have hn := readNat_of_natText h hr
    rw [List.cons_append] at hn ⊢
    unfold readInt
    split
    · next heq =>
      rw [(List.cons.inj heq).1] at hd
      exact absurd hd (by decide)
    · simp [hn]
  | minus h => simp [readInt, readNat_of_natText h hr]

theorem charOfCode_toNat (c : Char) : charOfCode c.toNat = some c := by
  unfold charOfCode
  rw [if_pos (show c.toNat.isValidChar from c.valid), Char.ofNat_toNat]

theorem not_isHigh_toNat (c : Char) : ¬ IsHigh c.toNat := by
  have hc : c.toNat.isValidChar := c.valid
  unfold IsHigh
  unfold Nat.isValidChar at hc
  omega

theorem readChar_of_charText (h : CharText c t) (r : List Char) :
    readChar (t ++ r) = some (c, r) := by
  cases h with
  | plain h hq hb =>
    rw [List.singleton_append, readChar, if_pos ⟨h, hq, hb⟩]
    · rintro cs rfl
      exact absurd rfl hb
    · rintro e cs rfl
      exact absurd rfl hb
  | @short e h =>
    have he : e ≠ 'u' := by
      rintro rfl
      exact nomatch h
    rw [List.cons_append, List.singleton_append, readChar, h]
    · rfl
    · exact fun h => absurd h he
  | code h =>
    simp [readChar, readCode, readUnit, h, not_isHigh_toNat, charOfCode_toNat]
  | pair hx hx' hh hl hc =>
    simp [readChar, readCode, readUnit, readLow, hx, hx', hh, hl, ← hc, charOfCode_toNat]

theorem charText_cons (h : CharText c t) : ∃ d ds, t = d :: ds ∧ d ≠ '\x22' := by
  cases h with
  | plain _ hq _ => exact ⟨_, _, rfl, hq⟩
  | short _ | code _ | pair _ _ _ _ _ => exact ⟨_, _, rfl, by decide⟩

theorem readChars_of_charsText {s : List Char} (h : CharsText s t) (r : List Char) :
    ∀ {n : Nat}, t.length ≤ n → readChars n (t ++ r) = some (s, r) := by
  induction h with
  | last =>
    intro n hn
    obtain ⟨n, rfl⟩ := Nat.exists_eq_succ_of_ne_zero (Nat.ne_of_gt hn)
    rfl
  | @more c cs t ts hc hcs ih =>
    intro n hn
    obtain ⟨d, ds, rfl, hd⟩ := charText_cons hc
    have hchar := readChar_of_charText hc (ts ++ r)
    rw [List.length_append, List.length_cons] at hn
    obtain ⟨n, rfl⟩ : ∃ m, n = m + 1 := ⟨n - 1, by omega⟩
    have hrest : readChars n (ts ++ r) = some (cs, r) := ih (by omega)
    rw [List.append_assoc, List.cons_append, readChars] at *
    · simp [hchar, hrest]
    · rintro cs heq
      exact hd (List.cons.inj heq).1

theorem readString_of_charsText {s : String} (h : CharsText s.toList t) (r : List Char) :
    readString (t ++ r) = some (s, r) := by
  have hs := readChars_of_charsText h r (n := (t ++ r).length) (by simp)
  rw [readString, hs]
  simp

theorem readKey_of_keyText {key : String} {k : List Char} (h : KeyText key k)
    (hc : isGap c = false) (cs : List Char) :
    readKey (k ++ c :: cs) = some (key, c :: cs) := by
  cases h with
  | @mk t w w' h hw hw' =>
    have hs := readString_of_charsText h (w ++ (':' :: (w' ++ c :: cs)))
    have hcolon := skipGap_cons hw (c := ':') rfl (w' ++ c :: cs)
    simp [readKey, hs, hcolon, skipGap_cons hw' hc]

/-- The characters a number can start with. -/
def StartsNumber (c : Char) : Prop := c.isDigit = true ∨ c = '-'

theorem StartsNumber.ne {d : Char} (hc : StartsNumber c) (hd : d.isDigit = false) (hm : d ≠ '-') :
    c ≠ d := by
  rintro rfl
  rcases hc with hc | hc
  · exact absurd hc (by simp [hd])
  · exact hm hc

theorem intText_cons {n : Int} (h : IntText n t) : ∃ c cs, t = c :: cs ∧ StartsNumber c := by
  cases h with
  | plain h =>
    obtain ⟨d, ds, rfl, hd⟩ := natText_cons h
    exact ⟨d, ds, rfl, .inl hd⟩
  | minus h => exact ⟨_, _, rfl, .inr rfl⟩

theorem readAtom_of_intText {n : Int} (h : IntText n t) (hr : NoDigit r) :
    readAtom (t ++ r) = some (.int n, r) := by
  have hn := readInt_of_intText h hr
  obtain ⟨c, cs, rfl, hc⟩ := intText_cons h
  rw [List.cons_append] at hn ⊢
  rw [readAtom, hn]
  · rfl
  · exact fun _ h => hc.ne rfl (by decide) (List.cons.inj h).1
  · exact fun _ h => hc.ne rfl (by decide) (List.cons.inj h).1
  · exact fun _ h => hc.ne rfl (by decide) (List.cons.inj h).1

/-- The first character of a value. -/
theorem valueText_cons {v : Json} (h : ValueText v t) :
    ∃ c cs, t = c :: cs ∧ isGap c = false ∧ c ≠ ']' := by
  cases h with
  | int h =>
    obtain ⟨c, cs, rfl, hc⟩ := intText_cons h
    refine ⟨c, cs, rfl, ?_, hc.ne rfl (by decide)⟩
    simp [isGap, hc.ne (d := ' ') rfl (by decide), hc.ne (d := '\t') rfl (by decide),
      hc.ne (d := '\n') rfl (by decide), hc.ne (d := '\r') rfl (by decide)]
  | true | false | string | noItems | items | noMembers | members =>
    exact ⟨_, _, rfl, rfl, by decide⟩

theorem keyText_cons {key : String} (h : KeyText key t) : ∃ cs, t = '\x22' :: cs := by
  cases h with
  | mk => exact ⟨_, rfl⟩

theorem noDigit_itemsText {vs : List Json} (h : ItemsText vs t) (r : List Char) :
    NoDigit (t ++ r) := by
  cases h with
  | last hw => simpa using noDigit_gap_append hw (noDigit_cons (c := ']') rfl r)
  | more hw => simpa using noDigit_gap_append hw (noDigit_cons (c := ',') rfl _)

theorem noDigit_membersText {ms : List (String × Json)} (h : MembersText ms t) (r : List Char) :
    NoDigit (t ++ r) := by
  cases h with
  | last hw => simpa using noDigit_gap_append hw (noDigit_cons (c := '\x7d') rfl r)
  | more hw => simpa using noDigit_gap_append hw (noDigit_cons (c := ',') rfl _)

end Complete

/-! A bracket opens an array, a brace an object; all else is read as it stands. -/

section Read

variable {n : Nat} {c : Char} {cs cs' cs'' r : List Char}

theorem readValue_atom (h1 : c ≠ '[') (h2 : c ≠ '\x7b') :
    readValue (n + 1) (c :: cs) = readAtom (c :: cs) := by
  rw [readValue]
  · exact fun _ h => h1 (List.cons.inj h).1
  · exact fun _ h => h2 (List.cons.inj h).1

theorem readValue_items {v : Json} {vs : List Json} (hs : skipGap cs = c :: cs') (hc : c ≠ ']')
    (hv : readValue n (c :: cs') = some (v, cs'')) (hvs : readItems n cs'' = some (vs, r)) :
    readValue (n + 1) ('[' :: cs) = some (.array (v :: vs), r) := by
  rw [readValue, hs]
  split
  · next heq => exact absurd (List.cons.inj heq).1 hc
  · simp [hv, hvs]

end Read

/-! The induction is on the value, along which its text falls into parts. Each part is shorter than the
whole, so what is left of the bound is enough for it. -/

mutual

theorem readValue_of_valueText : ∀ {v : Json} {n : Nat} {t r : List Char}, ValueText v t →
    t.length ≤ n → NoDigit r → readValue n (t ++ r) = some (v, r)
  | v, 0, t, r, h, hn, hr => by
    obtain ⟨c, cs, rfl, -⟩ := valueText_cons h
    simp at hn
  | .bool b, n + 1, t, r, h, hn, hr => by
    cases h with
    | true => rfl
    | false => rfl
  | .int i, n + 1, t, r, h, hn, hr => by
    cases h with
    | int h =>
      have ha := readAtom_of_intText h hr
      obtain ⟨c, cs, rfl, hc⟩ := intText_cons h
      rw [List.cons_append] at ha ⊢
      rw [readValue_atom (hc.ne rfl (by decide)) (hc.ne rfl (by decide)), ha]
  | .string s, n + 1, t, r, h, hn, hr => by
    cases h with
    | string h =>
      rw [List.cons_append, readValue_atom (by decide) (by decide)]
      simp [readAtom, readString_of_charsText h r]
  | .array [], n + 1, t, r, h, hn, hr => by
    cases h with
    | noItems hw =>
      have hs := skipGap_cons hw (c := ']') rfl r
      simp [readValue, hs]
  | .array (v :: vs), n + 1, t, r, h, hn, hr => by
    cases h with
    | @items _ _ w t ts hw h hs =>
      simp only [List.length_cons, List.length_append] at hn
      have hv := readValue_of_valueText (n := n) h (by omega) (noDigit_itemsText hs r)
      have hvs := readItems_of_itemsText (n := n) hs (by omega) r
      obtain ⟨c, cs, rfl, hgap, hc⟩ := valueText_cons h
      simp only [List.cons_append, List.append_assoc] at hv ⊢
      exact readValue_items (skipGap_cons hw hgap _) hc hv hvs
  | .object [], n + 1, t, r, h, hn, hr => by
    cases h with
    | noMembers hw =>
      have hs := skipGap_cons hw (c := '\x7d') rfl r
      simp [readValue, hs]
  | .object ((key, v) :: ms), n + 1, t, r, h, hn, hr => by
    cases h with
    | @members _ _ _ w k t ts hw hk h hs =>
      simp only [List.length_cons, List.length_append] at hn
      have hv := readValue_of_valueText (n := n) h (by omega) (noDigit_membersText hs r)
      have hms := readMembers_of_membersText (n := n) hs (by omega) r
      obtain ⟨c, cs, rfl, hgap, -⟩ := valueText_cons h
      have hkey := readKey_of_keyText hk hgap (cs ++ (ts ++ r))
      obtain ⟨ks, rfl⟩ := keyText_cons hk
      have hquote := skipGap_cons hw (c := '\x22') rfl (ks ++ c :: (cs ++ (ts ++ r)))
      simp only [List.cons_append] at hv hkey
      simp [readValue, hquote, hkey, hv, hms]

theorem readItems_of_itemsText : ∀ {vs : List Json} {n : Nat} {t : List Char}, ItemsText vs t →
    t.length ≤ n → ∀ r, readItems n (t ++ r) = some (vs, r)
  | vs, 0, t, h, hn, r => by
    cases h <;> simp at hn
  | [], n + 1, t, h, hn, r => by
    cases h with
    | last hw =>
      have hs := skipGap_cons hw (c := ']') rfl r
      simp [readItems, hs]
  | v :: vs, n + 1, t, h, hn, r => by
    cases h with
    | @more _ _ w w' t ts hw hw' h hs =>
      simp only [List.length_cons, List.length_append] at hn
      have hv := readValue_of_valueText (n := n) h (by omega) (noDigit_itemsText hs r)
      have hvs := readItems_of_itemsText (n := n) hs (by omega) r
      have hcomma := skipGap_cons hw (c := ',') rfl (w' ++ (t ++ (ts ++ r)))
      obtain ⟨c, cs, rfl, hgap, hc⟩ := valueText_cons h
      have hskip := skipGap_cons hw' hgap (cs ++ (ts ++ r))
      simp only [List.cons_append] at hv hcomma
      simp [readItems, hcomma, hskip, hv, hvs]

theorem readMembers_of_membersText : ∀ {ms : List (String × Json)} {n : Nat} {t : List Char},
    MembersText ms t → t.length ≤ n → ∀ r, readMembers n (t ++ r) = some (ms, r)
  | ms, 0, t, h, hn, r => by
    cases h <;> simp at hn
  | [], n + 1, t, h, hn, r => by
    cases h with
    | last hw =>
      have hs := skipGap_cons hw (c := '\x7d') rfl r
      simp [readMembers, hs]
  | (key, v) :: ms, n + 1, t, h, hn, r => by
    cases h with
    | @more _ _ _ w w' k t ts hw hw' hk h hs =>
      simp only [List.length_cons, List.length_append] at hn
      have hv := readValue_of_valueText (n := n) h (by omega) (noDigit_membersText hs r)
      have hms := readMembers_of_membersText (n := n) hs (by omega) r
      have hcomma := skipGap_cons hw (c := ',') rfl (w' ++ (k ++ (t ++ (ts ++ r))))
      obtain ⟨c, cs, rfl, hgap, -⟩ := valueText_cons h
      have hkey := readKey_of_keyText hk hgap (cs ++ (ts ++ r))
      obtain ⟨ks, rfl⟩ := keyText_cons hk
      have hquote := skipGap_cons hw' (c := '\x22') rfl (ks ++ c :: (cs ++ (ts ++ r)))
      simp only [List.cons_append] at hv hkey hcomma
      simp [readMembers, hcomma, hquote, hkey, hv, hms]

end

theorem decode_of_isDocument {v : Json} {cs : List Char} (h : IsDocument v cs) :
    decode cs = some v := by
  cases h with
  | @mk w t w' hw h hw' =>
    have hr : NoDigit w' := by simpa using noDigit_gap_append hw' noDigit_nil
    have hv := readValue_of_valueText (n := (w ++ (t ++ w')).length) h
      (by simp only [List.length_append]; omega) hr
    have hend : skipGap w' = [] := by simpa [skipGap] using skipGap_append hw' []
    obtain ⟨c, cs, rfl, hgap, -⟩ := valueText_cons h
    rw [List.cons_append] at hv ⊢
    rw [decode, skipGap_cons hw hgap, hv]
    simp [hend]

end ExprCalc.Json
