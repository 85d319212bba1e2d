import ExprCalc.Proofs.Scan
import Mathlib.Data.List.Pairwise
import Mathlib.Data.Nat.Find

/-!
# Which tokens a text has

`IsToken` says of a single match, without reading the text from the left, that it is a token of
arithmetic text: a maximal run of digits is one, a maximal run of stars is cut into pairs and perhaps
a last star, and every other operator or parenthesis stands by itself. Two such tokens never share a
character (`IsToken.eq_of_covers`), and `Scan` finds them all, because in front of every token it
takes a run of digits has ended and an even number of stars has been read (`Boundary`).
-/

namespace ExprCalc

/-! ### Runs of characters -/

/-- The character at offset `i` satisfies `P`. -/
def Holds (P : Char → Bool) (cs : List Char) (i : Nat) : Prop := ∃ c ∈ cs[i]?, P c = true

/-- No character that satisfies `P` stands right in front of offset `start`. -/
def Fresh (P : Char → Bool) (cs : List Char) (start : Nat) : Prop :=
  ∀ i, i + 1 = start → ¬ Holds P cs i

/-- All characters between two offsets satisfy `P`, and the ones next to them do not. -/
structure MaximalRun (P : Char → Bool) (cs : List Char) (start stop : Nat) : Prop where
  lt : start < stop
  holds : ∀ i, start ≤ i → i < stop → Holds P cs i
  fresh : Fresh P cs start
  ends : ¬ Holds P cs stop

def isStar (c : Char) : Bool := c == '*'

theorem isStar_iff {c : Char} : isStar c = true ↔ c = '*' := beq_iff_eq

theorem isDigit_of_isStar {c : Char} (h : isStar c = true) : c.isDigit = false := by
  rw [isStar_iff.1 h]
  rfl

section
variable {P : Char → Bool} {cs : List Char} {start stop start' stop' i : Nat}

theorem Holds.lt (h : Holds P cs i) : i < cs.length := by
  obtain ⟨c, hc, -⟩ := h
  exact (List.getElem?_eq_some_iff.1 hc).1

theorem MaximalRun.stop_le (h : MaximalRun P cs start stop) : stop ≤ cs.length := by
  have hlast := (h.holds (stop - 1) (Nat.le_sub_one_of_lt h.lt) (Nat.sub_one_lt_of_lt h.lt)).lt
  omega

/-- A maximal run that reaches into another lies in it. -/
theorem MaximalRun.within (h : MaximalRun P cs start stop) (h' : MaximalRun P cs start' stop')
    (hi : start' ≤ i) (hi' : i < stop) : start' ≤ start ∧ stop' ≤ stop := by
  refine ⟨?_, ?_⟩ <;> by_contra hlt
  · exact h'.fresh (start' - 1) (by omega) (h.holds _ (by omega) (by omega))
  · exact h.ends (h'.holds _ (by omega) (by omega))

theorem MaximalRun.unique (h : MaximalRun P cs start stop) (h' : MaximalRun P cs start' stop')
    (hi : start ≤ i ∧ i < stop) (hi' : start' ≤ i ∧ i < stop') : start = start' ∧ stop = stop' := by
  have hle := h.within h' hi'.1 hi.2
  have hge := h'.within h hi.1 hi'.2
  exact ⟨Nat.le_antisymm hge.1 hle.1, Nat.le_antisymm hge.2 hle.2⟩

theorem exists_run_end (P : Char → Bool) (cs : List Char) (start : Nat) :
    ∃ stop, start ≤ stop ∧ (∀ i, start ≤ i → i < stop → Holds P cs i) ∧ ¬ Holds P cs stop := by
  classical
  have hex : ∃ stop, start ≤ stop ∧ ¬ Holds P cs stop :=
    ⟨max start cs.length, Nat.le_max_left .., fun h => absurd h.lt (by omega)⟩
  refine ⟨Nat.find hex, (Nat.find_spec hex).1, fun i hle hlt => ?_, (Nat.find_spec hex).2⟩
  by_contra hnot
  exact Nat.find_min hex hlt ⟨hle, hnot⟩

end

/-! ### Tokens -/

def Occurrence.Covers (o : Occurrence) (i : Nat) : Prop := o.start ≤ i ∧ i < o.stop

/-- The tokens of a run of `k` stars that begins at offset `start`. -/
def starTokens (start k : Nat) : List Occurrence :=
  (List.range (k / 2)).map (fun j => ⟨.operator, start + 2 * j, ['*', '*']⟩) ++
    if k % 2 = 1 then [⟨.operator, start + (k - 1), ['*']⟩] else []

/-- The characters that are tokens by themselves. -/
def singles : List (Char × TokenKind) :=
  [('+', .operator), ('-', .operator), ('/', .operator), ('(', .leftParen), (')', .rightParen)]

inductive IsToken (cs : List Char) : Occurrence → Prop
  | number {start stop : Nat} : MaximalRun Char.isDigit cs start stop →
      IsToken cs ⟨.number, start, (cs.drop start).take (stop - start)⟩
  | star {start stop : Nat} {o : Occurrence} : MaximalRun isStar cs start stop →
      o ∈ starTokens start (stop - start) → IsToken cs o
  | single {i : Nat} {c : Char} {kind : TokenKind} : cs[i]? = some c → (c, kind) ∈ singles →
      IsToken cs ⟨kind, i, [c]⟩

theorem mem_starTokens {start k : Nat} {o : Occurrence} : o ∈ starTokens start k ↔
    (∃ j, 2 * j + 2 ≤ k ∧ o = ⟨.operator, start + 2 * j, ['*', '*']⟩) ∨
      k % 2 = 1 ∧ o = ⟨.operator, start + (k - 1), ['*']⟩ := by
  simp only [starTokens, List.mem_append, List.mem_map, List.mem_range]
  refine or_congr (exists_congr fun j => and_congr (by omega) eq_comm) ?_
  split
  · next h => simp [h]
  · next h => simp [h]

theorem starTokens_pairwise (start k : Nat) :
    (starTokens start k).Pairwise fun a b => a.start < b.start ∧ a.stop ≤ b.start := by
  refine List.pairwise_append.2 ⟨List.pairwise_map.2 ?_, ?_, ?_⟩
  · refine List.pairwise_lt_range.imp fun {a b} hab => ?_
    show start + 2 * a < start + 2 * b ∧ start + 2 * a + 2 ≤ start + 2 * b
    omega
  · split
    · exact List.pairwise_singleton _ _
    · exact .nil
  · intro a ha b hb
    obtain ⟨j, hj, rfl⟩ := List.mem_map.1 ha
    split at hb
    · cases List.mem_singleton.1 hb
      have := List.mem_range.1 hj
      show start + 2 * j < start + (k - 1) ∧ start + 2 * j + 2 ≤ start + (k - 1)
      omega
    · cases hb

theorem starTokens_covers {start k i : Nat} {o : Occurrence} (ho : o ∈ starTokens start k)
    (hi : o.Covers i) : start ≤ i ∧ i < start + k := by
  rcases mem_starTokens.1 ho with ⟨j, hj, rfl⟩ | ⟨hk, rfl⟩
  · obtain ⟨h1, h2⟩ : start + 2 * j ≤ i ∧ i < start + 2 * j + 2 := hi
    omega
  · obtain ⟨h1, h2⟩ : start + (k - 1) ≤ i ∧ i < start + (k - 1) + 1 := hi
    omega

theorem lexicalClass_of_single {c : Char} {kind : TokenKind} (h : (c, kind) ∈ singles) :
    lexicalClass c = some kind ∧ c.isDigit = false ∧ c ≠ '*' ∧ kind ≠ .number := by
  simp only [singles, List.mem_cons, Prod.mk.injEq, List.not_mem_nil, or_false] at h
  rcases h with ⟨rfl, rfl⟩ | ⟨rfl, rfl⟩ | ⟨rfl, rfl⟩ | ⟨rfl, rfl⟩ | ⟨rfl, rfl⟩ <;> decide

theorem eq_of_pairwise_stop_le {os : List Occurrence} (h : os.Pairwise fun a b => a.stop ≤ b.start)
    {a b : Occurrence} (ha : a ∈ os) (hb : b ∈ os) {i : Nat} (hai : a.Covers i)
    (hbi : b.Covers i) : a = b := by
  by_contra hne
  have hsymm : Std.Symm fun a b : Occurrence => a.stop ≤ b.start ∨ b.stop ≤ a.start :=
    ⟨fun _ _ => Or.symm⟩
  have hpair : os.Pairwise fun a b => a.stop ≤ b.start ∨ b.stop ≤ a.start := h.imp Or.inl
  have := hpair.forall ha hb hne
  obtain ⟨h1, h2⟩ := hai
  obtain ⟨h3, h4⟩ := hbi
  omega

theorem stop_number {cs : List Char} {start stop : Nat}
    (h : MaximalRun Char.isDigit cs start stop) :
    Occurrence.stop ⟨.number, start, (cs.drop start).take (stop - start)⟩ = stop := by
  have hlt := h.lt
  have hstop := h.stop_le
  show start + ((cs.drop start).take (stop - start)).length = stop
  rw [List.length_take, List.length_drop]
  omega

namespace IsToken
variable {cs : List Char} {o o' : Occurrence} {i : Nat}

theorem covers_start (h : IsToken cs o) : o.Covers o.start := by
  refine ⟨Nat.le_refl _, ?_⟩
  cases h with
  | number hr =>
    rw [stop_number hr]
    exact hr.lt
  | star _ ho =>
    rcases mem_starTokens.1 ho with ⟨j, -, rfl⟩ | ⟨-, rfl⟩
    · exact Nat.lt_add_of_pos_right Nat.two_pos
    · exact Nat.lt_add_of_pos_right Nat.one_pos
  | single => exact Nat.lt_succ_self _

/-- The character at an offset tells which kind of run the token there belongs to. -/
theorem cases_of_covers (h : IsToken cs o) (hi : o.Covers i) : ∃ c, cs[i]? = some c ∧
    ((c.isDigit = true ∧ ∃ start stop, MaximalRun Char.isDigit cs start stop ∧
        (start ≤ i ∧ i < stop) ∧ o = ⟨.number, start, (cs.drop start).take (stop - start)⟩) ∨
      (c = '*' ∧ ∃ start stop, MaximalRun isStar cs start stop ∧ (start ≤ i ∧ i < stop) ∧
        o ∈ starTokens start (stop - start)) ∨
      ∃ kind, (c, kind) ∈ singles ∧ o = ⟨kind, i, [c]⟩) := by
  cases h with
  | @number start stop hr =>
    obtain ⟨h1, h2⟩ := hi
    rw [stop_number hr] at h2
    obtain ⟨c, hc, hd⟩ := hr.holds i h1 h2
    exact ⟨c, hc, .inl ⟨hd, start, stop, hr, ⟨h1, h2⟩, rfl⟩⟩
  | @star start stop o hr ho =>
    have hlt := hr.lt
    obtain ⟨h1, h2⟩ := starTokens_covers ho hi
    obtain ⟨c, hc, hs⟩ := hr.holds i h1 (by omega)
    exact ⟨c, hc, .inr (.inl ⟨isStar_iff.1 hs, start, stop, hr, ⟨h1, by omega⟩, ho⟩)⟩
  | @single j c kind hc hs =>
    obtain ⟨h1, h2⟩ : j ≤ i ∧ i < j + 1 := hi
    obtain rfl : j = i := by omega
    exact ⟨c, hc, .inr (.inr ⟨kind, hs, rfl⟩)⟩

theorem eq_of_covers (h : IsToken cs o) (h' : IsToken cs o') (hi : o.Covers i)
    (hi' : o'.Covers i) : o = o' := by
  obtain ⟨c, hc, hcase⟩ := h.cases_of_covers hi
  obtain ⟨c', hc', hcase'⟩ := h'.cases_of_covers hi'
  cases hc.symm.trans hc'
  -- the character leaves one of the three kinds of run, and both tokens come from that run
  rcases hcase with ⟨hd, start, stop, hr, hin, rfl⟩ | ⟨rfl, start, stop, hr, hin, ho⟩ |
    ⟨kind, hs, rfl⟩
  · rcases hcase' with ⟨-, start', stop', hr', hin', rfl⟩ | ⟨rfl, -⟩ | ⟨kind', hs', rfl⟩
    · obtain ⟨rfl, rfl⟩ := hr.unique hr' hin hin'
      rfl
    · exact absurd hd (by decide)
    · exact absurd hd (by simp [(lexicalClass_of_single hs').2.1])
  · rcases hcase' with ⟨hd, -⟩ | ⟨-, start', stop', hr', hin', ho'⟩ | ⟨kind', hs', rfl⟩
    · exact absurd hd (by decide)
    · obtain ⟨rfl, rfl⟩ := hr.unique hr' hin hin'
      exact eq_of_pairwise_stop_le ((starTokens_pairwise _ _).imp And.right) ho ho' hi hi'
    · exact absurd rfl (lexicalClass_of_single hs').2.2.1
  · rcases hcase' with ⟨hd, -⟩ | ⟨rfl, -⟩ | ⟨kind', hs', rfl⟩
    · exact absurd hd (by simp [(lexicalClass_of_single hs).2.1])
    · exact absurd rfl (lexicalClass_of_single hs).2.2.1
    · cases (lexicalClass_of_single hs).1.symm.trans (lexicalClass_of_single hs').1
      rfl

theorem lexicalClass_ne_none (h : IsToken cs o) (hi : o.Covers i) :
    ∃ c, cs[i]? = some c ∧ lexicalClass c ≠ none := by
  obtain ⟨c, hc, ⟨hd, -⟩ | ⟨rfl, -⟩ | ⟨kind, hs, -⟩⟩ := h.cases_of_covers hi
  · exact ⟨c, hc, by simp [lexicalClass, hd]⟩
  · exact ⟨_, hc, by decide⟩
  · exact ⟨c, hc, by simp [(lexicalClass_of_single hs).1]⟩

theorem maximalRun_of_number (h : IsToken cs o) (hk : o.kind = .number) :
    MaximalRun Char.isDigit cs o.start o.stop := by
  cases h with
  | number hr => rwa [stop_number hr]
  | star _ ho => rcases mem_starTokens.1 ho with ⟨j, -, rfl⟩ | ⟨-, rfl⟩ <;> cases hk
  | single _ hs => exact absurd hk (lexicalClass_of_single hs).2.2.2

theorem mem_starTokens_of_run {start stop : Nat} (h : IsToken cs o)
    (hr : MaximalRun isStar cs start stop) (hin : start ≤ o.start ∧ o.start < stop) :
    o ∈ starTokens start (stop - start) := by
  obtain ⟨c, hc, hs⟩ := hr.holds o.start hin.1 hin.2
  obtain rfl := isStar_iff.1 hs
  obtain ⟨d, hd, hcase⟩ := h.cases_of_covers h.covers_start
  cases (Option.mem_def.1 hc).symm.trans hd
  rcases hcase with ⟨hdigit, -⟩ | ⟨-, start', stop', hr', hin', ho⟩ | ⟨kind, hsingle, -⟩
  · exact absurd hdigit (by decide)
  · obtain ⟨rfl, rfl⟩ := hr.unique hr' hin hin'
    exact ho
  · exact absurd rfl (lexicalClass_of_single hsingle).2.2.1

end IsToken

/-! ### The scan finds all tokens -/

/-- Offset `pos` is where no token of a left-to-right reading is cut: it does not stand inside a run of
digits, and in a run of stars an even number of them comes before. -/
structure Boundary (cs : List Char) (pos : Nat) : Prop where
  digit : Holds Char.isDigit cs pos → Fresh Char.isDigit cs pos
  star : Holds isStar cs pos → ∃ start, start ≤ pos ∧ (pos - start) % 2 = 0 ∧
    Fresh isStar cs start ∧ ∀ i, start ≤ i → i < pos → Holds isStar cs i

section
variable {cs text rest : List Char} {pos : Nat} {P : Char → Bool}

theorem holds_of_drop {i : Nat} (h : cs.drop pos = text ++ rest) (hi : i < text.length)
    (hP : ∀ c ∈ text, P c = true) : Holds P cs (pos + i) := by
  refine ⟨text[i], ?_, hP _ (List.getElem_mem hi)⟩
  rw [← List.getElem?_drop, h, List.getElem?_append_left hi]
  exact List.getElem?_eq_getElem hi

theorem not_holds_of_drop {i : Nat} (h : cs.drop pos = text ++ rest) (hi : i < text.length)
    (hP : ∀ c ∈ text, P c = false) : ¬ Holds P cs (pos + i) := by
  rintro ⟨c, hc, hPc⟩
  rw [← List.getElem?_drop, h, List.getElem?_append_left hi] at hc
  rw [hP c (List.mem_of_getElem? hc)] at hPc
  cases hPc

theorem holds_length_of_drop (h : cs.drop pos = text ++ rest) :
    Holds P cs (pos + text.length) ↔ ∃ c ∈ rest.head?, P c = true := by
  rw [Holds, ← List.getElem?_drop, h, List.getElem?_append_right (Nat.le_refl _), Nat.sub_self,
    List.head?_eq_getElem?]

theorem drop_length_of_drop (h : cs.drop pos = text ++ rest) :
    cs.drop (pos + text.length) = rest := by
  rw [← List.drop_drop, h, List.drop_left]

theorem Boundary.of_not_holds (hd : ¬ Holds Char.isDigit cs pos) (hs : ¬ Holds isStar cs pos) :
    Boundary cs (pos + 1) := by
  refine ⟨fun _ i hi => ?_, fun _ => ⟨pos + 1, Nat.le_refl _, by simp, fun i hi => ?_, ?_⟩⟩
  · cases hi
    exact hd
  · cases hi
    exact hs
  · exact fun i h1 h2 => absurd h1 (Nat.not_le.2 h2)

theorem Boundary.exists_star_run (hb : Boundary cs pos) (hs : Holds isStar cs pos) :
    ∃ start stop, start ≤ pos ∧ (pos - start) % 2 = 0 ∧ pos < stop ∧
      MaximalRun isStar cs start stop := by
  obtain ⟨start, hle, heven, hfresh, hbefore⟩ := hb.star hs
  obtain ⟨stop, hstop, hbehind, hend⟩ := exists_run_end isStar cs pos
  have hlt : pos < stop := Nat.lt_of_le_of_ne hstop fun h => hend (h ▸ hs)
  refine ⟨start, stop, hle, heven, hlt, by omega, fun i h1 h2 => ?_, hfresh, hend⟩
  rcases Nat.lt_or_ge i pos with hi | hi
  · exact hbefore i h1 hi
  · exact hbehind i hi h2

/-! #### One token, by the kinds of `Munch` -/

theorem isToken_digits (h : cs.drop pos = text ++ rest) (hb : Boundary cs pos) (hne : text ≠ [])
    (hd : ∀ c ∈ text, c.isDigit = true) (hrest : ∀ c ∈ rest.head?, c.isDigit = false) :
    IsToken cs ⟨.number, pos, text⟩ ∧ Boundary cs (pos + text.length) := by
  have hlen := List.length_pos_iff.2 hne
  have hend : ¬ Holds Char.isDigit cs (pos + text.length) := by
    rw [holds_length_of_drop h]
    rintro ⟨c, hc, hdc⟩
    rw [hrest c hc] at hdc
    cases hdc
  have hrun : MaximalRun Char.isDigit cs pos (pos + text.length) := by
    refine ⟨by omega, fun i h1 h2 => ?_, hb.digit (holds_of_drop h hlen hd), hend⟩
    obtain ⟨j, rfl⟩ := Nat.exists_eq_add_of_le h1
    exact holds_of_drop h (by omega) hd
  have htoken := IsToken.number hrun
  rw [h, Nat.add_sub_cancel_left, List.take_left] at htoken
  refine ⟨htoken, fun hdigit => absurd hdigit hend, fun _ => ⟨pos + text.length, Nat.le_refl _,
    by simp, fun i hi => ?_, fun i h1 h2 => absurd h1 (Nat.not_le.2 h2)⟩⟩
  obtain rfl : i = pos + (text.length - 1) := by omega
  refine not_holds_of_drop h (by omega) fun c hc => ?_
  by_contra hstar
  cases (isDigit_of_isStar (by simpa using hstar)).symm.trans (hd c hc)

theorem isToken_single {c : Char} {kind : TokenKind} (h : cs.drop pos = [c] ++ rest)
    (hs : (c, kind) ∈ singles) : IsToken cs ⟨kind, pos, [c]⟩ ∧ Boundary cs (pos + 1) := by
  obtain ⟨-, hd, hstar, -⟩ := lexicalClass_of_single hs
  have hc : cs[pos]? = some c := by
    rw [← Nat.add_zero pos, ← List.getElem?_drop, h]
    rfl
  refine ⟨.single hc hs, .of_not_holds ?_ ?_⟩
  · exact not_holds_of_drop h Nat.zero_lt_one (by simp [hd])
  · exact not_holds_of_drop h Nat.zero_lt_one (by simp [isStar, hstar])

theorem isToken_pow (h : cs.drop pos = ['*', '*'] ++ rest) (hb : Boundary cs pos) :
    IsToken cs ⟨.operator, pos, ['*', '*']⟩ ∧ Boundary cs (pos + 2) := by
  have hstar : ∀ c ∈ ['*', '*'], isStar c = true := by simp [isStar]
  have hstars : ∀ i < 2, Holds isStar cs (pos + i) := fun i hi => holds_of_drop h hi hstar
  obtain ⟨start, stop, hle, heven, hlt, hrun⟩ := hb.exists_star_run (hstars 0 (by decide))
  have hlt' : pos + 1 < stop :=
    Nat.lt_of_le_of_ne hlt fun heq => hrun.ends (heq ▸ hstars 1 (by decide))
  refine ⟨.star hrun (mem_starTokens.2 (.inl ⟨(pos - start) / 2, by omega, ?_⟩)), fun _ i hi => ?_,
    fun _ => ⟨start, by omega, by omega, hrun.fresh, fun i h1 h2 => hrun.holds i h1 (by omega)⟩⟩
  · rw [show start + 2 * ((pos - start) / 2) = pos by omega]
  · obtain rfl : i = pos + 1 := by omega
    exact not_holds_of_drop h Nat.one_lt_two fun c hc => isDigit_of_isStar (hstar c hc)

theorem isToken_mul (h : cs.drop pos = ['*'] ++ rest) (hb : Boundary cs pos)
    (hrest : rest.head? ≠ some '*') :
    IsToken cs ⟨.operator, pos, ['*']⟩ ∧ Boundary cs (pos + 1) := by
  have hstar : ∀ c ∈ ['*'], isStar c = true := by simp [isStar]
  obtain ⟨start, stop, hle, heven, hlt, hrun⟩ :=
    hb.exists_star_run (holds_of_drop (i := 0) h Nat.one_pos hstar)
  have hend : ¬ Holds isStar cs (pos + 1) := by
    intro hs
    obtain ⟨c, hc, hs⟩ := (holds_length_of_drop h).1 hs
    rw [isStar_iff.1 hs] at hc
    exact hrest hc
  have hstop : stop = pos + 1 := by
    by_contra hne
    exact hend (hrun.holds _ (by omega) (by omega))
  subst hstop
  refine ⟨.star hrun (mem_starTokens.2 (.inr ⟨by omega, ?_⟩)), fun _ i hi => ?_,
    fun hs => absurd hs hend⟩
  · rw [show start + (pos + 1 - start - 1) = pos by omega]
  · obtain rfl : i = pos := by omega
    exact not_holds_of_drop (i := 0) h Nat.one_pos fun c hc => isDigit_of_isStar (hstar c hc)

theorem Munch.isToken {kind : TokenKind} (hm : Munch kind text rest)
    (h : cs.drop pos = text ++ rest) (hb : Boundary cs pos) :
    IsToken cs ⟨kind, pos, text⟩ ∧ Boundary cs (pos + text.length) := by
  cases hm with
  | number hne hd hrest => exact isToken_digits h hb hne hd hrest
  | operator op hmul =>
    cases op with
    | pow => exact isToken_pow h hb
    | mul => exact isToken_mul h hb (hmul rfl)
    | div | add | sub => exact isToken_single h (by decide)
  | leftParen | rightParen => exact isToken_single h (by decide)

end

namespace Scan
variable {cs text : List Char} {pos : Nat} {os : List Occurrence}

theorem isToken (h : Scan pos text os) (htext : cs.drop pos = text) (hb : Boundary cs pos) :
    ∀ o ∈ os, IsToken cs o := by
  induction h with
  | done => nofun
  | @skip pos c text os hc _ ih =>
    have hdrop : cs.drop pos = [c] ++ text := htext
    refine ih (drop_length_of_drop hdrop) (.of_not_holds ?_ ?_)
    · refine not_holds_of_drop hdrop Nat.zero_lt_one fun d hd => ?_
      cases List.mem_singleton.1 hd
      by_contra hdigit
      rw [lexicalClass, if_pos (by simpa using hdigit)] at hc
      cases hc
    · refine not_holds_of_drop hdrop Nat.zero_lt_one fun d hd => ?_
      cases List.mem_singleton.1 hd
      by_contra hstar
      obtain rfl := isStar_iff.1 (Bool.not_eq_false _ ▸ hstar)
      cases hc
  | token hm _ ih =>
    obtain ⟨htoken, hb'⟩ := hm.isToken htext hb
    intro o ho
    rcases List.mem_cons.1 ho with rfl | ho
    · exact htoken
    · exact ih (drop_length_of_drop htext) hb' o ho

theorem exists_covers (h : Scan pos cs os) {i : Nat} {c : Char} (hi : cs[i]? = some c)
    (hc : lexicalClass c ≠ none) : ∃ o ∈ os, o.Covers (pos + i) := by
  induction h generalizing i with
  | done => cases hi
  | @skip pos d cs os hd _ ih =>
    cases i with
    | zero =>
      cases hi
      exact absurd hd hc
    | succ i =>
      obtain ⟨o, ho, hcov⟩ := ih hi
      exact ⟨o, ho, by rwa [Nat.add_right_comm] at hcov⟩
  | @token pos kind text rest os _ _ ih =>
    rcases Nat.lt_or_ge i text.length with hlt | hge
    · exact ⟨_, List.mem_cons_self, Nat.le_add_right _ _, Nat.add_lt_add_left hlt _⟩
    · rw [List.getElem?_append_right hge] at hi
      obtain ⟨o, ho, hcov⟩ := ih hi
      refine ⟨o, List.mem_cons_of_mem _ ho, ?_⟩
      rwa [Nat.add_assoc, Nat.add_sub_cancel' hge] at hcov

theorem prefix_drop (h : Scan pos text os) (htext : cs.drop pos = text) :
    ∀ o ∈ os, o.text <+: cs.drop o.start := by
  induction h with
  | done => nofun
  | @skip pos c text os _ _ ih =>
    exact ih (drop_length_of_drop (show cs.drop pos = [c] ++ text from htext))
  | token _ _ ih =>
    intro o ho
    rcases List.mem_cons.1 ho with rfl | ho
    · exact htext ▸ List.prefix_append _ _
    · exact ih (drop_length_of_drop htext) o ho

/-- The tokens of a text are what the scan consists of. -/
theorem mem_iff_isToken (h : Scan 0 cs os) {o : Occurrence} : o ∈ os ↔ IsToken cs o := by
  have hstart : Boundary cs 0 :=
    ⟨fun _ => nofun, fun _ => ⟨0, Nat.le_refl _, rfl, nofun, fun _ _ h => absurd h (Nat.not_lt_zero _)⟩⟩
  refine ⟨h.isToken rfl hstart o, fun ho => ?_⟩
  obtain ⟨c, hc, hclass⟩ := ho.lexicalClass_ne_none ho.covers_start
  obtain ⟨o', ho', hcov⟩ := h.exists_covers hc hclass
  rw [Nat.zero_add] at hcov
  rwa [ho.eq_of_covers (h.isToken rfl hstart o' ho') ho.covers_start hcov]

end Scan

end ExprCalc
