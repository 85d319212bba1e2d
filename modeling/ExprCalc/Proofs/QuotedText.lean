import ExprCalc.Proofs.JsonText
import ExprCalc.Text.Quoted

/-!
# Quoted text read back

Between quotes every character is written so that it can be told from what follows: it stands for
itself, or a backslash and the sign behind that say how many digits of its code there are
(`readChar_escape`). No character is written with a quote in front. So it is seen where a quoted text
ends and which text was quoted, whatever stands behind it (`quoted_append_inj`).
-/

namespace ExprCalc

namespace Quoted

/-- The number that hexadecimal digits write. -/
def hexNumber (ds : List Char) : Nat := ds.foldl (fun n d => n * 16 + (Json.hexValue d).getD 0) 0

/-- The character whose code has the next `width` digits, and the text behind them. -/
def readCode (width : Nat) (cs : List Char) : Char × List Char :=
  (Char.ofNat (hexNumber (cs.take width)), cs.drop width)

/-- The character that a backslash and `sign` begin in front of `cs`, and the text behind it. -/
def readSign (sign : Char) (cs : List Char) : Char × List Char :=
  if sign = 'n' then ('\n', cs)
  else if sign = 'r' then ('\r', cs)
  else if sign = 't' then ('\t', cs)
  else if sign = 'x' then readCode 2 cs
  else if sign = 'u' then readCode 4 cs
  else if sign = 'U' then readCode 8 cs
  else (sign, cs)

/-- The first character of a text between quotes, and the text behind it. -/
def readChar : List Char → Option (Char × List Char)
  | [] => none
  | c :: cs => if c = backslash then cs.head?.map (readSign · cs.tail) else some (c, cs)

/-! ### Codes -/

theorem hexNumber_append_singleton (ds : List Char) (d : Char) :
    hexNumber (ds ++ [d]) = hexNumber ds * 16 + (Json.hexValue d).getD 0 := by
  rw [hexNumber, List.foldl_append]
  rfl

theorem hexNumber_toDigits (n : Nat) : hexNumber (Nat.toDigits 16 n) = n := by
  induction n using Nat.strongRecOn with
  | ind n ih =>
    rw [Nat.toDigits_eq_if (by decide)]
    split
    · next hn => simp [hexNumber, Json.hexValue_digitChar hn]
    · next hn =>
      rw [hexNumber_append_singleton, ih (n / 16) (by omega),
        Json.hexValue_digitChar (Nat.mod_lt n (by decide)), Option.getD_some]
      omega

theorem hexNumber_hex (width n : Nat) : hexNumber (hex width n) = n := by
  have hzeros : ∀ k ds, hexNumber (List.replicate k '0' ++ ds) = hexNumber ds := by
    intro k ds
    induction k with
    | zero => rfl
    | succ k ih => exact ih
  show hexNumber (List.replicate _ '0' ++ Nat.toDigits 16 n) = n
  rw [hzeros, hexNumber_toDigits]

theorem length_hex {width n : Nat} (hwidth : 0 < width) (h : n < 16 ^ width) :
    (hex width n).length = width := by
  rw [hex, List.length_leftpad]
  exact Nat.max_eq_left ((Nat.length_toDigits_le_iff (by decide) hwidth).2 h)

theorem readCode_hex {c : Char} {width : Nat} (hwidth : 0 < width) (h : c.toNat < 16 ^ width)
    (rest : List Char) : readCode width (hex width c.toNat ++ rest) = (c, rest) := by
  have hlength := length_hex hwidth h
  rw [readCode, List.take_left' hlength, List.drop_left' hlength, hexNumber_hex, Char.ofNat_toNat]

/-! ### Characters -/

section
variable {quote c : Char}

theorem readChar_byCode (c : Char) (rest : List Char) :
    readChar (byCode c ++ rest) = some (c, rest) := by
  unfold byCode
  dsimp only
  split_ifs with h2 h4
  · exact congrArg some (readCode_hex (by decide) h2 rest)
  · exact congrArg some (readCode_hex (by decide) h4 rest)
  · have h8 : c.toNat < 16 ^ 8 := c.val.toNat_lt
    exact congrArg some (readCode_hex (by decide) h8 rest)

theorem readChar_escape (hquote : quote = singleQuote ∨ quote = doubleQuote) (c : Char)
    (rest : List Char) : readChar (escape quote c ++ rest) = some (c, rest) := by
  unfold escape
  split_ifs with hsign hn hr ht
  · have hc : c = singleQuote ∨ c = doubleQuote ∨ c = backslash := by
      rcases hsign with rfl | rfl
      · exact hquote.imp_right .inl
      · exact .inr (.inr rfl)
    rcases hc with rfl | rfl | rfl <;> rfl
  · exact hn ▸ rfl
  · exact hr ▸ rfl
  · exact ht ▸ rfl
  · exact if_neg fun hc => hsign (.inr hc)
  · exact readChar_byCode c rest

/-- The quote in use does not begin a character. -/
theorem cons_ne_escape_append (hquote : quote = singleQuote ∨ quote = doubleQuote) (c : Char)
    (cs rest : List Char) : quote :: cs ≠ escape quote c ++ rest := by
  intro h
  have hne : quote ≠ backslash := by rcases hquote with rfl | rfl <;> decide
  have hread : some (quote, cs) = some (c, rest) := by
    rw [← readChar_escape hquote c rest, ← h]
    exact (if_neg hne).symm
  obtain ⟨rfl, rfl⟩ := Prod.mk.inj (Option.some.inj hread)
  rw [escape, if_pos (.inl rfl)] at h
  exact hne (List.cons.inj h).1

theorem flatMap_escape_append_inj (hquote : quote = singleQuote ∨ quote = doubleQuote)
    {cs ds rest rest' : List Char}
    (h : cs.flatMap (escape quote) ++ quote :: rest = ds.flatMap (escape quote) ++ quote :: rest') :
    cs = ds ∧ rest = rest' := by
  induction cs generalizing ds with
  | nil =>
    cases ds with
    | nil => exact ⟨rfl, (List.cons.inj h).2⟩
    | cons d ds =>
      rw [List.flatMap_cons, List.append_assoc] at h
      exact absurd h (cons_ne_escape_append hquote d _ _)
  | cons c cs ih =>
    rw [List.flatMap_cons, List.append_assoc] at h
    cases ds with
    | nil => exact absurd h.symm (cons_ne_escape_append hquote c _ _)
    | cons d ds =>
      rw [List.flatMap_cons, List.append_assoc] at h
      have hread := congrArg readChar h
      rw [readChar_escape hquote, readChar_escape hquote] at hread
      obtain ⟨rfl, htails⟩ := Prod.mk.inj (Option.some.inj hread)
      obtain ⟨rfl, hrest⟩ := ih htails
      exact ⟨rfl, hrest⟩

end

theorem delimiter_cases (cs : List Char) :
    delimiter cs = singleQuote ∨ delimiter cs = doubleQuote := by
  unfold delimiter
  split_ifs
  · exact .inr rfl
  · exact .inl rfl

end Quoted

/-- A quoted text ends where its quote does, and tells which text it is. -/
theorem quoted_append_inj {s t : String} {rest rest' : List Char}
    (h : (quoted s).toList ++ rest = (quoted t).toList ++ rest') : s = t ∧ rest = rest' := by
  simp only [quoted, String.toList_ofList, Quoted.encode, List.append_assoc, List.cons_append,
    List.cons.injEq] at h
  obtain ⟨hquote, h⟩ := h
  rw [← hquote] at h
  obtain ⟨hs, hrest⟩ := Quoted.flatMap_escape_append_inj (Quoted.delimiter_cases _) h
  exact ⟨String.toList_inj.1 hs, hrest⟩

end ExprCalc
