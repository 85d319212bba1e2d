import ExprCalc.Proofs.JsonDecode
import Mathlib.Data.List.TakeWhile

/-!
# What the JSON reader reads

The reader takes nothing that the grammar does not allow: what it has read is a text of the value it
found, and the rest is left as it was (`valueText_of_readValue`). So `decode` decides the grammar, and no
text is a document for two values (`decode_eq_some_iff`).
-/

namespace ExprCalc.Json

variable {cs r : List Char}

theorem gap_of_skipGap (h : skipGap cs = r) : ∃ w, Gap w ∧ cs = w ++ r :=
  ⟨cs.takeWhile isGap, fun _ => List.mem_takeWhile_imp,
    by rw [← h, skipGap, List.takeWhile_append_dropWhile]⟩

theorem natText_of_readNat {n : Nat} (h : readNat cs = some (n, r)) :
    ∃ t, NatText n t ∧ cs = t ++ r := by
  cases cs with
  | nil => exact nomatch h
  | cons c cs =>
    rw [readNat] at h
    split_ifs at h with h0 hd
    · obtain ⟨rfl, rfl⟩ := Prod.mk.inj (Option.some.inj h)
      exact ⟨['0'], .zero, by rw [h0, List.singleton_append]⟩
    · obtain ⟨rfl, rfl⟩ := Prod.mk.inj (Option.some.inj h)
      exact ⟨_, .digits hd h0 fun _ => List.mem_takeWhile_imp, by
        rw [List.cons_append, List.takeWhile_append_dropWhile]⟩

theorem intText_of_readInt {n : Int} (h : readInt cs = some (n, r)) :
    ∃ t, IntText n t ∧ cs = t ++ r := by
  unfold readInt at h
  split at h
  · obtain ⟨⟨m, r'⟩, hm, h1⟩ := Option.bind_eq_some_iff.1 h
    obtain ⟨rfl, rfl⟩ := Prod.mk.inj (Option.some.inj h1)
    obtain ⟨t, ht, rfl⟩ := natText_of_readNat hm
    exact ⟨_, .minus ht, rfl⟩
  · obtain ⟨⟨m, r'⟩, hm, h1⟩ := Option.bind_eq_some_iff.1 h
    obtain ⟨rfl, rfl⟩ := Prod.mk.inj (Option.some.inj h1)
    obtain ⟨t, ht, rfl⟩ := natText_of_readNat hm
    exact ⟨_, .plain ht, rfl⟩

/-! ### Strings -/

theorem toNat_of_charOfCode {n : Nat} {c : Char} (h : charOfCode n = some c) : c.toNat = n := by
  unfold charOfCode at h
  split_ifs at h with hn
  · have hc : Char.ofNat n = Char.ofNatAux n hn := dif_pos hn
    rw [← Option.some.inj h, hc]
    rfl

theorem codeUnit_of_readUnit {n : Nat} (h : readUnit cs = some (n, r)) :
    ∃ x y z w, codeUnit x y z w = some n ∧ cs = x :: y :: z :: w :: r := by
  unfold readUnit at h
  split at h
  · obtain ⟨m, hm, h1⟩ := Option.bind_eq_some_iff.1 h
    obtain ⟨rfl, rfl⟩ := Prod.mk.inj (Option.some.inj h1)
    exact ⟨_, _, _, _, hm, rfl⟩
  · exact nomatch h

theorem codeUnit_of_readLow {high : Nat} {c : Char} (h : readLow high cs = some (c, r)) :
    ∃ low x y z w, codeUnit x y z w = some low ∧ IsLow low ∧ c.toNat = joined high low ∧
      cs = '\x5c' :: 'u' :: x :: y :: z :: w :: r := by
  unfold readLow at h
  split at h
  · obtain ⟨⟨low, r'⟩, hlow, h1⟩ := Option.bind_eq_some_iff.1 h
    obtain ⟨x, y, z, w, hx, rfl⟩ := codeUnit_of_readUnit hlow
    dsimp only at h1
    split_ifs at h1 with hl
    obtain ⟨c', hc, h2⟩ := Option.bind_eq_some_iff.1 h1
    obtain ⟨rfl, rfl⟩ := Prod.mk.inj (Option.some.inj h2)
    exact ⟨low, x, y, z, w, hx, hl, toNat_of_charOfCode hc, rfl⟩
  · exact nomatch h

theorem charText_of_readCode {c : Char} (h : readCode cs = some (c, r)) :
    ∃ t, CharText c ('\x5c' :: 'u' :: t) ∧ cs = t ++ r := by
  obtain ⟨⟨n, cs'⟩, hn, h1⟩ := Option.bind_eq_some_iff.1 h
  obtain ⟨x, y, z, w, hx, rfl⟩ := codeUnit_of_readUnit hn
  dsimp only at h1
  split_ifs at h1 with hh
  · obtain ⟨low, x', y', z', w', hx', hl, hc, rfl⟩ := codeUnit_of_readLow h1
    exact ⟨_, .pair hx hx' hh hl hc, rfl⟩
  · obtain ⟨c', hc, h2⟩ := Option.bind_eq_some_iff.1 h1
    obtain ⟨rfl, rfl⟩ := Prod.mk.inj (Option.some.inj h2)
    exact ⟨_, .code (toNat_of_charOfCode hc ▸ hx), rfl⟩

theorem charText_of_readChar {c : Char} (h : readChar cs = some (c, r)) :
    ∃ t, CharText c t ∧ cs = t ++ r := by
  unfold readChar at h
  split at h
  · obtain ⟨t, ht, rfl⟩ := charText_of_readCode h
    exact ⟨_, ht, rfl⟩
  · obtain ⟨c', hc, h1⟩ := Option.bind_eq_some_iff.1 h
    obtain ⟨rfl, rfl⟩ := Prod.mk.inj (Option.some.inj h1)
    exact ⟨_, .short hc, rfl⟩
  · split_ifs at h with hc
    obtain ⟨rfl, rfl⟩ := Prod.mk.inj (Option.some.inj h)
    exact ⟨_, .plain hc.1 hc.2.1 hc.2.2, rfl⟩
  · exact nomatch h

theorem charsText_of_readChars : ∀ {n : Nat} {cs r s : List Char},
    readChars n cs = some (s, r) → ∃ t, CharsText s t ∧ cs = t ++ r
  | 0, _, _, _, h => nomatch h
  | n + 1, cs, r, s, h => by
    unfold readChars at h
    split at h
    · obtain ⟨rfl, rfl⟩ := Prod.mk.inj (Option.some.inj h)
      exact ⟨_, .last, rfl⟩
    · obtain ⟨⟨c, cs'⟩, hc, h1⟩ := Option.bind_eq_some_iff.1 h
      obtain ⟨⟨s', r'⟩, hs, h2⟩ := Option.bind_eq_some_iff.1 h1
      obtain ⟨rfl, rfl⟩ := Prod.mk.inj (Option.some.inj h2)
      obtain ⟨t, ht, rfl⟩ := charText_of_readChar hc
      obtain ⟨ts, hts, rfl⟩ := charsText_of_readChars hs
      exact ⟨_, .more ht hts, by rw [List.append_assoc]⟩

theorem charsText_of_readString {s : String} (h : readString cs = some (s, r)) :
    ∃ t, CharsText s.toList t ∧ cs = t ++ r := by
  obtain ⟨⟨s', r'⟩, hs, h1⟩ := Option.bind_eq_some_iff.1 h
  obtain ⟨rfl, rfl⟩ := Prod.mk.inj (Option.some.inj h1)
  rw [String.toList_ofList]
  exact charsText_of_readChars hs

theorem keyText_of_readKey {key : String} (h : readKey cs = some (key, r)) :
    ∃ k, KeyText key k ∧ cs = k ++ r := by
  unfold readKey at h
  split at h
  · obtain ⟨⟨s, cs'⟩, hs, h1⟩ := Option.bind_eq_some_iff.1 h
    obtain ⟨t, ht, rfl⟩ := charsText_of_readString hs
    dsimp only at h1
    split at h1
    · next hcolon =>
      obtain ⟨rfl, hr⟩ := Prod.mk.inj (Option.some.inj h1)
      obtain ⟨w, hw, rfl⟩ := gap_of_skipGap hcolon
      obtain ⟨w', hw', rfl⟩ := gap_of_skipGap hr
      exact ⟨_, .mk ht hw hw', by simp⟩
    · exact nomatch h1
  · exact nomatch h

/-! ### Values -/

theorem valueText_of_readAtom {v : Json} (h : readAtom cs = some (v, r)) :
    ∃ t, ValueText v t ∧ cs = t ++ r := by
  unfold readAtom at h
  split at h
  · obtain ⟨rfl, rfl⟩ := Prod.mk.inj (Option.some.inj h)
    exact ⟨_, .true, rfl⟩
  · obtain ⟨rfl, rfl⟩ := Prod.mk.inj (Option.some.inj h)
    exact ⟨_, .false, rfl⟩
  · obtain ⟨⟨s, r'⟩, hs, h1⟩ := Option.bind_eq_some_iff.1 h
    obtain ⟨rfl, rfl⟩ := Prod.mk.inj (Option.some.inj h1)
    obtain ⟨t, ht, rfl⟩ := charsText_of_readString hs
    exact ⟨_, .string ht, rfl⟩
  · obtain ⟨⟨n, r'⟩, hn, h1⟩ := Option.bind_eq_some_iff.1 h
    obtain ⟨rfl, rfl⟩ := Prod.mk.inj (Option.some.inj h1)
    obtain ⟨t, ht, rfl⟩ := intText_of_readInt hn
    exact ⟨_, .int ht, rfl⟩

mutual

theorem valueText_of_readValue : ∀ {n : Nat} {cs r : List Char} {v : Json},
    readValue n cs = some (v, r) → ∃ t, ValueText v t ∧ cs = t ++ r
  | 0, _, _, _, h => nomatch h
  | n + 1, cs, r, v, h => by
    unfold readValue at h
    split at h
    · split at h
      · next hend =>
        obtain ⟨rfl, rfl⟩ := Prod.mk.inj (Option.some.inj h)
        obtain ⟨w, hw, rfl⟩ := gap_of_skipGap hend
        exact ⟨_, .noItems hw, by simp⟩
      · obtain ⟨⟨v, cs'⟩, hv, h1⟩ := Option.bind_eq_some_iff.1 h
        obtain ⟨⟨vs, r'⟩, hvs, h2⟩ := Option.bind_eq_some_iff.1 h1
        obtain ⟨rfl, rfl⟩ := Prod.mk.inj (Option.some.inj h2)
        obtain ⟨t, ht, hcs⟩ := valueText_of_readValue hv
        obtain ⟨ts, hts, rfl⟩ := itemsText_of_readItems hvs
        obtain ⟨w, hw, rfl⟩ := gap_of_skipGap hcs
        exact ⟨_, .items hw ht hts, by simp⟩
    · split at h
      · next hend =>
        obtain ⟨rfl, rfl⟩ := Prod.mk.inj (Option.some.inj h)
        obtain ⟨w, hw, rfl⟩ := gap_of_skipGap hend
        exact ⟨_, .noMembers hw, by simp⟩
      · obtain ⟨⟨key, cs'⟩, hkey, h1⟩ := Option.bind_eq_some_iff.1 h
        obtain ⟨⟨v, cs''⟩, hv, h2⟩ := Option.bind_eq_some_iff.1 h1
        obtain ⟨⟨ms, r'⟩, hms, h3⟩ := Option.bind_eq_some_iff.1 h2
        obtain ⟨rfl, rfl⟩ := Prod.mk.inj (Option.some.inj h3)
        obtain ⟨k, hk, hcs⟩ := keyText_of_readKey hkey
        obtain ⟨t, ht, rfl⟩ := valueText_of_readValue hv
        obtain ⟨ts, hts, rfl⟩ := membersText_of_readMembers hms
        obtain ⟨w, hw, rfl⟩ := gap_of_skipGap hcs
        exact ⟨_, .members hw hk ht hts, by simp⟩
    · exact valueText_of_readAtom h

theorem itemsText_of_readItems : ∀ {n : Nat} {cs r : List Char} {vs : List Json},
    readItems n cs = some (vs, r) → ∃ t, ItemsText vs t ∧ cs = t ++ r
  | 0, _, _, _, h => nomatch h
  | n + 1, cs, r, vs, h => by
    unfold readItems at h
    split at h
    · next hend =>
      obtain ⟨rfl, rfl⟩ := Prod.mk.inj (Option.some.inj h)
      obtain ⟨w, hw, rfl⟩ := gap_of_skipGap hend
      exact ⟨_, .last hw, by simp⟩
    · next hcomma =>
      obtain ⟨⟨v, cs'⟩, hv, h1⟩ := Option.bind_eq_some_iff.1 h
      obtain ⟨⟨vs, r'⟩, hvs, h2⟩ := Option.bind_eq_some_iff.1 h1
      obtain ⟨rfl, rfl⟩ := Prod.mk.inj (Option.some.inj h2)
      obtain ⟨t, ht, hcs⟩ := valueText_of_readValue hv
      obtain ⟨ts, hts, rfl⟩ := itemsText_of_readItems hvs
      obtain ⟨w', hw', rfl⟩ := gap_of_skipGap hcs
      obtain ⟨w, hw, rfl⟩ := gap_of_skipGap hcomma
      exact ⟨_, .more hw hw' ht hts, by simp⟩
    · exact nomatch h

theorem membersText_of_readMembers : ∀ {n : Nat} {cs r : List Char} {ms : List (String × Json)},
    readMembers n cs = some (ms, r) → ∃ t, MembersText ms t ∧ cs = t ++ r
  | 0, _, _, _, h => nomatch h
  | n + 1, cs, r, ms, h => by
    unfold readMembers at h
    split at h
    · next hend =>
      obtain ⟨rfl, rfl⟩ := Prod.mk.inj (Option.some.inj h)
      obtain ⟨w, hw, rfl⟩ := gap_of_skipGap hend
      exact ⟨_, .last hw, by simp⟩
    · next hcomma =>
      obtain ⟨⟨key, cs'⟩, hkey, h1⟩ := Option.bind_eq_some_iff.1 h
      obtain ⟨⟨v, cs''⟩, hv, h2⟩ := Option.bind_eq_some_iff.1 h1
      obtain ⟨⟨ms, r'⟩, hms, h3⟩ := Option.bind_eq_some_iff.1 h2
      obtain ⟨rfl, rfl⟩ := Prod.mk.inj (Option.some.inj h3)
      obtain ⟨k, hk, hcs⟩ := keyText_of_readKey hkey
      obtain ⟨t, ht, rfl⟩ := valueText_of_readValue hv
      obtain ⟨ts, hts, rfl⟩ := membersText_of_readMembers hms
      obtain ⟨w', hw', rfl⟩ := gap_of_skipGap hcs
      obtain ⟨w, hw, rfl⟩ := gap_of_skipGap hcomma
      exact ⟨_, .more hw hw' hk ht hts, by simp⟩
    · exact nomatch h

end

/-- A text is decoded to a value exactly if it is a document for it. -/
theorem decode_eq_some_iff {v : Json} : decode cs = some v ↔ IsDocument v cs := by
  refine ⟨fun h => ?_, decode_of_isDocument⟩
  obtain ⟨⟨v, r⟩, hv, h1⟩ := Option.bind_eq_some_iff.1 h
  dsimp only at h1
  split_ifs at h1 with hend
  obtain rfl := Option.some.inj h1
  obtain ⟨t, ht, hcs⟩ := valueText_of_readValue hv
  obtain ⟨w', hw', rfl⟩ := gap_of_skipGap hend
  obtain ⟨w, hw, rfl⟩ := gap_of_skipGap hcs
  rw [List.append_nil]
  exact .mk hw ht hw'

end ExprCalc.Json
