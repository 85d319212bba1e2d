import ExprCalc.Proofs.QuotedText
import ExprCalc.Proofs.Selection

/-!
# What is told about the gaps

The tokens of a text and the gaps before, between and behind them make up the text
(`Interleaved`), and the tokens alone determine the gaps (`Interleaved.unique`). A record is written
for each gap that is not blank. Its message determines the gap (`TextGap.record_injective`), and gaps do not
overlap. So a character that is dropped and not blank is shown by one record, at its place, and nothing
else is shown.
-/

namespace ExprCalc

/-- A piece of a text that belongs to no token, and its offset. -/
structure TextGap where
  start : Nat
  text : List Char

namespace TextGap

def blank (g : TextGap) : Bool := g.text.all isBlank

/-- The gap has the character `c` of the text, at offset `i`. -/
def Has (g : TextGap) (i : Nat) (c : Char) : Prop := g.start ≤ i ∧ g.text[i - g.start]? = some c

/-- What is told about a gap. -/
def record (g : TextGap) : Record :=
  ⟨.debug, "tokenizer", "Skipping unrecognized input " ++ quoted (String.ofList g.text) ++ " at " ++
    decimal g.start⟩

end TextGap

/-- What is told at the end about a text with `n` tokens. -/
def countRecord (s : String) (n : Nat) : Record :=
  ⟨.debug, "tokenizer", "Tokenized " ++ quoted s ++ " into " ++ decimal n ++ " tokens"⟩

/-- The record tells that the character `c` at offset `i` is dropped. -/
def Record.Shows (r : Record) (i : Nat) (c : Char) : Prop := ∃ g : TextGap, r = g.record ∧ g.Has i c

/-- The character at offset `i` belongs to the token. -/
def Token.Covers (t : Token) (i : Nat) : Prop :=
  ∃ start ∈ t.position, start ≤ i ∧ (i : Int) < start + t.lexeme.length

theorem Token.covers_iff {t : Token} {start i : Nat} (h : t.position = some (start : Int)) :
    t.Covers i ↔ start ≤ i ∧ i < start + t.lexeme.length := by
  simp only [Covers, h, Option.mem_some_iff, exists_eq_left']
  omega

/-- The text, which begins at offset `pos`, consists of the lexemes of the tokens and of the gaps before,
between and behind them. -/
inductive Interleaved : (pos : Nat) → List Char → List Token → List TextGap → Prop
  | last {pos : Nat} {text : List Char} : Interleaved pos text [] [⟨pos, text⟩]
  | token {pos : Nat} {text rest : List Char} {t : Token} {ts : List Token} {gaps : List TextGap} :
      t.position = some ((pos + text.length : Nat) : Int) →
      Interleaved (pos + text.length + t.lexeme.length) rest ts gaps →
      Interleaved pos (text ++ t.lexeme.toList ++ rest) (t :: ts) (⟨pos, text⟩ :: gaps)

/-! ### Records -/

theorem decimal_injective {m n : Int} (h : decimal m = decimal n) : m = n := by
  rw [← decimalValue_decimalChars m, ← decimalValue_decimalChars n, String.ofList_injective h]

theorem TextGap.record_injective {g g' : TextGap} (h : g.record = g'.record) : g = g' := by
  have hmessage := congrArg String.toList (congrArg Record.message h)
  simp only [record, String.toList_append, List.append_assoc, List.append_cancel_left_eq] at hmessage
  obtain ⟨htext, hstart⟩ := quoted_append_inj hmessage
  have htext := String.ofList_injective htext
  have hstart := decimal_injective (String.toList_inj.1 (List.append_cancel_left hstart))
  cases g
  cases g'
  simp_all

theorem countRecord_ne_record (s : String) (n : Nat) (g : TextGap) : countRecord s n ≠ g.record := by
  intro h
  have hmessage := congrArg (·.message.toList.head?) h
  simp [countRecord, TextGap.record] at hmessage

/-- The last resort is none for records of the lowest level. -/
theorem Logging.receivers_of_debug {r : Record} (h : r.level = .debug) (l : Logging) :
    l.receivers r = l.sinks := by
  unfold receivers
  rw [h]
  split
  · next hl => exact hl.symm
  · rfl

theorem Logging.deliver_of_debug {rs : List Record} (h : ∀ r ∈ rs, r.level = .debug) (l : Logging) :
    l.deliver rs = if l.level = .debug then rs.flatMap fun r => l.sinks.map (·, r) else [] := by
  unfold deliver
  split
  · next hl =>
    rw [List.filter_eq_self.2 fun r hr => by simp [accepts, hl, h r hr]]
    exact List.flatMap_congr fun r hr => by rw [receivers_of_debug (h r hr)]
  · next hl =>
    rw [List.filter_eq_nil_iff.2 fun r hr => ?_, List.flatMap_nil]
    rw [accepts, h r hr]
    cases hlevel : l.level <;> simp_all [Level.severity]

/-! ### Tokens and gaps make up the text -/

namespace Interleaved
variable {pos i : Nat} {cs : List Char} {c : Char} {t : Token} {ts : List Token} {g : TextGap}
  {gaps gaps' : List TextGap}

theorem start_ge (h : Interleaved pos cs ts gaps) : ∀ g ∈ gaps, pos ≤ g.start := by
  induction h with
  | last => exact List.forall_mem_singleton.2 (Nat.le_refl _)
  | token _ _ ih =>
    refine List.forall_mem_cons.2 ⟨Nat.le_refl _, fun g hg => ?_⟩
    have := ih g hg
    omega

theorem covers_ge (h : Interleaved pos cs ts gaps) : ∀ t ∈ ts, t.Covers i → pos ≤ i := by
  induction h with
  | last => nofun
  | token hpos _ ih =>
    refine List.forall_mem_cons.2 ⟨fun hi => ?_, fun t ht hi => ?_⟩
    · have := (Token.covers_iff hpos).1 hi
      omega
    · have := ih t ht hi
      omega

theorem pairwise_gaps (h : Interleaved pos cs ts gaps) :
    gaps.Pairwise fun a b => a.start + a.text.length ≤ b.start := by
  induction h with
  | last => exact List.pairwise_singleton _ _
  | token _ hrest ih =>
    refine .cons (fun g hg => ?_) ih
    exact Nat.le_trans (Nat.le_add_right _ _) (hrest.start_ge g hg)

theorem exists_of_cons (h : Interleaved pos cs (t :: ts) gaps) : ∃ text rest gaps',
    cs = text ++ t.lexeme.toList ++ rest ∧ t.position = some ((pos + text.length : Nat) : Int) ∧
      Interleaved (pos + text.length + t.lexeme.length) rest ts gaps' ∧
      gaps = ⟨pos, text⟩ :: gaps' := by
  cases h with
  | token hpos hrest => exact ⟨_, _, _, rfl, hpos, hrest, rfl⟩

theorem unique (h : Interleaved pos cs ts gaps) (h' : Interleaved pos cs ts gaps') :
    gaps = gaps' := by
  induction h generalizing gaps' with
  | last => cases h' with | last => rfl
  | @token pos text rest t ts gaps hpos _ ih =>
    obtain ⟨text', rest', gaps', hcs, hpos', hrest', rfl⟩ := h'.exists_of_cons
    have hlength : text.length = text'.length := by
      rw [hpos, Option.some.injEq] at hpos'
      omega
    rw [List.append_assoc, List.append_assoc] at hcs
    obtain ⟨rfl, hbehind⟩ := List.append_inj hcs hlength
    obtain rfl := List.append_cancel_left hbehind
    rw [ih hrest']

/-- A character of no token is in a gap. -/
theorem exists_has (h : Interleaved pos cs ts gaps) (hc : cs[i]? = some c)
    (hts : ∀ t ∈ ts, ¬ t.Covers (pos + i)) : ∃ g ∈ gaps, g.Has (pos + i) c := by
  induction h generalizing i with
  | last => exact ⟨_, List.mem_cons_self, Nat.le_add_right _ _, by rwa [Nat.add_sub_cancel_left]⟩
  | @token pos text rest t ts gaps hpos _ ih =>
    obtain ⟨ht, hts⟩ := List.forall_mem_cons.1 hts
    rw [List.append_assoc] at hc
    rcases Nat.lt_or_ge i text.length with hlt | hge
    · refine ⟨_, List.mem_cons_self, Nat.le_add_right _ _, ?_⟩
      rwa [Nat.add_sub_cancel_left, ← List.getElem?_append_left hlt]
    · rw [List.getElem?_append_right hge] at hc
      have hbehind : t.lexeme.length ≤ i - text.length := by
        by_contra hwithin
        exact ht ((Token.covers_iff hpos).2 ⟨by omega, by omega⟩)
      rw [List.getElem?_append_right (by rwa [String.length_toList]), String.length_toList] at hc
      obtain ⟨j, hj⟩ := Nat.exists_eq_add_of_le hbehind
      have hi : pos + i = pos + text.length + t.lexeme.length + j := by omega
      rw [hj, Nat.add_sub_cancel_left] at hc
      rw [hi] at hts ⊢
      obtain ⟨g, hg, hhas⟩ := ih hc hts
      exact ⟨g, List.mem_cons_of_mem _ hg, hhas⟩

/-- What a gap has is in the text, and in no token. -/
theorem of_has (h : Interleaved pos cs ts gaps) (hg : g ∈ gaps) (hc : g.Has i c) :
    cs[i - pos]? = some c ∧ ∀ t ∈ ts, ¬ t.Covers i := by
  induction h with
  | last =>
    obtain rfl := List.mem_singleton.1 hg
    exact ⟨hc.2, nofun⟩
  | @token pos text rest t ts gaps hpos hrest ih =>
    rw [List.append_assoc]
    rcases List.mem_cons.1 hg with rfl | hg
    · obtain ⟨hlt, -⟩ := List.getElem?_eq_some_iff.1 hc.2
      dsimp only at hlt
      refine ⟨(List.getElem?_append_left hlt).trans hc.2, List.forall_mem_cons.2 ⟨?_, fun t ht hi => ?_⟩⟩
      · rw [Token.covers_iff hpos]
        omega
      · have := hrest.covers_ge t ht hi
        omega
    · obtain ⟨hcs, hts⟩ := ih hg
      have hge := Nat.le_trans (hrest.start_ge g hg) hc.1
      refine ⟨?_, List.forall_mem_cons.2 ⟨?_, hts⟩⟩
      · have hlexeme : t.lexeme.toList.length = t.lexeme.length := String.length_toList
        rw [List.getElem?_append_right (by omega), List.getElem?_append_right (by omega), ← hcs]
        congr 1
        omega
      · rw [Token.covers_iff hpos]
        omega

end Interleaved

/-! ### The pieces of a text -/

def Segment.gap? : Segment → Option TextGap
  | gap start text => some ⟨start, text⟩
  | taken _ => none

/-- A text that begins at offset `pos` is cut in front of a match and behind it. -/
theorem Occurrence.exists_split {pos : Nat} {cs : List Char} {o : Occurrence} (hge : pos ≤ o.start)
    (hne : o.text ≠ []) (hstands : o.text <+: cs.drop (o.start - pos)) : ∃ text rest,
      cs = text ++ o.text ++ rest ∧ pos + text.length = o.start ∧
        cs.take (o.start - pos) = text ∧ cs.drop (o.stop - pos) = rest := by
  obtain ⟨rest, hrest⟩ := hstands
  have hpos := List.length_pos_iff.2 hne
  have hlength := congrArg List.length hrest
  rw [List.length_append, List.length_drop] at hlength
  have htake : (cs.take (o.start - pos)).length = o.start - pos := List.length_take_of_le (by omega)
  have hstop : o.stop - pos = (o.start - pos) + o.text.length := by
    unfold stop
    omega
  refine ⟨cs.take (o.start - pos), rest, ?_, by omega, rfl, ?_⟩
  · rw [List.append_assoc, hrest, List.take_append_drop]
  · rw [hstop, ← List.drop_drop, ← hrest, List.drop_left]

theorem Segment.interleaved_cut {pos : Nat} {cs : List Char} {os : List Occurrence}
    (hplaces : ∀ o ∈ os, pos ≤ o.start ∧ o.text ≠ [] ∧ o.text <+: cs.drop (o.start - pos))
    (hos : os.Pairwise fun a b => a.stop ≤ b.start) :
    Interleaved pos cs (os.map Occurrence.token) ((cut pos cs os).filterMap gap?) := by
  induction os generalizing pos cs with
  | nil => exact .last
  | cons o os ih =>
    obtain ⟨⟨hge, hne, hstands⟩, hplaces⟩ := List.forall_mem_cons.1 hplaces
    obtain ⟨hbehind, hos⟩ := List.pairwise_cons.1 hos
    obtain ⟨text, rest, hcs, hstart, htake, hdrop⟩ := o.exists_split hge hne hstands
    have hrest : Interleaved o.stop rest (os.map Occurrence.token)
        ((cut o.stop rest os).filterMap gap?) := by
      refine ih (fun o' ho' => ?_) hos
      have hle := hbehind o' ho'
      obtain ⟨-, hne', hstands'⟩ := hplaces o' ho'
      have hstop : pos ≤ o.stop := Nat.le_trans hge (Nat.le_add_right _ _)
      refine ⟨hle, hne', ?_⟩
      rwa [← hdrop, List.drop_drop, show o.stop - pos + (o'.start - o.stop) = o'.start - pos by omega]
    have hlexeme : o.token.lexeme.toList = o.text := String.toList_ofList
    have hlength : o.token.lexeme.length = o.text.length := String.length_ofList
    rw [cut, htake, hdrop, hcs, ← hlexeme]
    refine .token (by rw [hstart]; rfl) ?_
    rwa [hstart, hlength]

theorem gapRecord?_eq (segment : Segment) :
    Calculator.gapRecord? segment = (segment.gap?.filter (!·.blank)).map TextGap.record := by
  cases segment with
  | taken o => rfl
  | gap start text =>
    show (if TextGap.blank ⟨start, text⟩ then none else some (TextGap.record ⟨start, text⟩)) = _
    cases hblank : TextGap.blank ⟨start, text⟩ with
    | true => simp [Segment.gap?, hblank]
    | false => simp [Segment.gap?, hblank]

namespace Lexicon
variable {lexicon : Lexicon} {cs : List Char} {limits : Limits} {s : String}

theorem pairwise_selection (lexicon : Lexicon) (cs : List Char) :
    (lexicon.selection cs).Pairwise fun a b => a.stop ≤ b.start := by
  rw [← map_chosen]
  exact List.pairwise_map.2 (Finding.pairwise_choose 0 _)

theorem prefix_of_mem_selection {o : Occurrence} (h : o ∈ lexicon.selection cs) :
    o.text ≠ [] ∧ o.text <+: cs.drop o.start := by
  rw [← map_chosen] at h
  obtain ⟨m, hm, rfl⟩ := List.mem_map.1 h
  obtain ⟨p, -, hsearch, hne⟩ := finds_of_mem_chosen hm
  have hmem : m.toOccurrence ∈ occurrences (m.kind, p) cs := mem_occurrences.2 ⟨rfl, hsearch, hne⟩
  exact prefix_of_mem_occurrences hmem

/-- The gaps between the tokens of a text. -/
def gaps (lexicon : Lexicon) (cs : List Char) : List TextGap :=
  (lexicon.segments cs).filterMap Segment.gap?

theorem interleaved_gaps (lexicon : Lexicon) (cs : List Char) :
    Interleaved 0 cs ((lexicon.selection cs).map Occurrence.token) (lexicon.gaps cs) := by
  refine Segment.interleaved_cut (fun o ho => ?_) (lexicon.pairwise_selection cs)
  obtain ⟨hne, hstands⟩ := prefix_of_mem_selection ho
  exact ⟨Nat.zero_le _, hne, hstands⟩

/-- What is told about a text: a record for each gap that is not blank, and the number of tokens. -/
theorem records_tokenizeTraced (lexicon : Lexicon) (hl : (s.length : Int) ≤ limits.maxLength) :
    (Calculator.tokenizeTraced lexicon limits s).records =
      ((lexicon.gaps s.toList).filter (!·.blank)).map TextGap.record ++
        [countRecord s (lexicon.selection s.toList).length] := by
  have hscan : lexicon.scan limits s = .ok (lexicon.segments s.toList) :=
    if_neg (Int.not_lt.2 hl)
  have hrecords : (lexicon.segments s.toList).filterMap Calculator.gapRecord? =
      ((lexicon.gaps s.toList).filter (!·.blank)).map TextGap.record := by
    rw [gaps, List.filter_filterMap, List.map_filterMap]
    exact congrArg (List.filterMap · _) (funext gapRecord?_eq)
  have hcount : ((lexicon.segments s.toList).filterMap Segment.token?).length =
      (lexicon.selection s.toList).length := by
    rw [segments, filterMap_token?_cut, List.length_map]
  rw [← hrecords, ← hcount, ← List.append_nil [countRecord s _], ← List.append_assoc]
  unfold Calculator.tokenizeTraced
  rw [hscan]
  rfl

end Lexicon

/-! ### What the records show -/

section
variable {c : Char} {gaps : List TextGap} {g g' : TextGap} {i j k n : Nat} {s : String} {r : Record}

theorem TextGap.blank_of_has (h : g.Has i c) (hc : isBlank c = false) : g.blank = false := by
  refine List.all_eq_false.2 ⟨c, List.mem_of_getElem? h.2, ?_⟩
  simp [hc]

/-- Two gaps that have the same offset are one. -/
theorem TextGap.index_unique (hgaps : gaps.Pairwise fun a b => a.start + a.text.length ≤ b.start)
    (hj : gaps[j]? = some g) (hk : gaps[k]? = some g') (h : g.Has i c) (h' : g'.Has i c) : j = k := by
  obtain ⟨hjl, rfl⟩ := List.getElem?_eq_some_iff.1 hj
  obtain ⟨hkl, rfl⟩ := List.getElem?_eq_some_iff.1 hk
  obtain ⟨hlt, -⟩ := List.getElem?_eq_some_iff.1 h.2
  obtain ⟨hlt', -⟩ := List.getElem?_eq_some_iff.1 h'.2
  have hge := h.1
  have hge' := h'.1
  rcases Nat.lt_trichotomy j k with hjk | hjk | hkj
  · have := List.pairwise_iff_getElem.1 hgaps j k hjl hkl hjk
    omega
  · exact hjk
  · have := List.pairwise_iff_getElem.1 hgaps k j hkl hjl hkj
    omega

/-- A record that shows a character is the record of a gap that has it. -/
theorem getElem?_of_shows (hk : (gaps.map TextGap.record ++ [countRecord s n])[k]? = some r)
    (h : r.Shows i c) : ∃ g, gaps[k]? = some g ∧ g.Has i c := by
  obtain ⟨g, rfl, hhas⟩ := h
  rcases Nat.lt_or_ge k (gaps.map TextGap.record).length with hlt | hge
  · rw [List.getElem?_append_left hlt, List.getElem?_map] at hk
    obtain ⟨g', hg', heq⟩ := Option.map_eq_some_iff.1 hk
    obtain rfl := TextGap.record_injective heq
    exact ⟨_, hg', hhas⟩
  · rw [List.getElem?_append_right hge] at hk
    have hlast := List.mem_of_getElem? hk
    exact absurd (List.mem_singleton.1 hlast).symm (countRecord_ne_record s n g)

/-- A character of a gap is shown by the record of the gap, and by no other one. -/
theorem existsUnique_shows (hgaps : gaps.Pairwise fun a b => a.start + a.text.length ≤ b.start)
    (hg : g ∈ gaps) (h : g.Has i c) :
    ∃! k : Nat, ∃ r : Record,
      (gaps.map TextGap.record ++ [countRecord s n])[k]? = some r ∧ r.Shows i c := by
  obtain ⟨k, hk⟩ := List.mem_iff_getElem?.1 hg
  refine ⟨k, ⟨g.record, ?_, g, rfl, h⟩, ?_⟩
  · obtain ⟨hlt, -⟩ := List.getElem?_eq_some_iff.1 hk
    rw [List.getElem?_append_left (by simpa using hlt), List.getElem?_map, hk]
    rfl
  · rintro j ⟨r, hr, hshows⟩
    obtain ⟨g', hj, hhas⟩ := getElem?_of_shows hr hshows
    exact TextGap.index_unique hgaps hj hk hhas h

end

/-- The tokens of a text and the gaps around them make up the text, in one way only. For each gap that is
not blank there is a record with the gap and its offset, and at the end one with the number of tokens;
they are written at the level `DEBUG` and at no other. So each character that belongs to no token and is
not blank is shown once, and what is shown is in the text and belongs to no token. -/
theorem tokenize_accounts (lexicon : Lexicon) (limits : Limits) (s : String)
    (hl : (s.length : Int) ≤ limits.maxLength) :
    ∃ ts gaps records, lexicon.tokenize limits s = .ok ts ∧
      (Interleaved 0 s.toList ts gaps ∧ ∀ gaps', Interleaved 0 s.toList ts gaps' → gaps' = gaps) ∧
      (Calculator.tokenizeTraced lexicon limits s).records = records ∧
      records = (gaps.filter (!·.blank)).map TextGap.record ++ [countRecord s ts.length] ∧
      (∀ l : Logging, l.deliver records =
        if l.level = .debug then records.flatMap fun r => l.sinks.map (·, r) else []) ∧
      (∀ i c, s.toList[i]? = some c → (∀ t ∈ ts, ¬ t.Covers i) → isBlank c = false →
        ∃! k : Nat, ∃ r : Record, records[k]? = some r ∧ r.Shows i c) ∧
      ∀ r ∈ records, ∀ i c, r.Shows i c → s.toList[i]? = some c ∧ ∀ t ∈ ts, ¬ t.Covers i := by
  have hwoven := lexicon.interleaved_gaps s.toList
  have hrecords := lexicon.records_tokenizeTraced hl
  rw [← List.length_map Occurrence.token] at hrecords
  refine ⟨_, _, _, lexicon.tokenize_eq_selection hl, ⟨hwoven, fun _ h => h.unique hwoven⟩, hrecords, rfl,
    Logging.deliver_of_debug ?_, ?_, ?_⟩
  · intro r hr
    rcases List.mem_append.1 hr with hr | hr
    · obtain ⟨g, -, rfl⟩ := List.mem_map.1 hr
      rfl
    · rw [List.mem_singleton.1 hr]
      rfl
  · intro i c hc hts hblank
    rw [← Nat.zero_add i] at hts ⊢
    obtain ⟨g, hg, hhas⟩ := hwoven.exists_has hc hts
    have hkept : g ∈ (lexicon.gaps s.toList).filter (!·.blank) :=
      List.mem_filter.2 ⟨hg, by rw [TextGap.blank_of_has hhas hblank]; rfl⟩
    exact existsUnique_shows (hwoven.pairwise_gaps.filter _) hkept hhas
  · intro r hr i c hshows
    obtain ⟨k, hk⟩ := List.mem_iff_getElem?.1 hr
    obtain ⟨g, hg, hhas⟩ := getElem?_of_shows hk hshows
    exact hwoven.of_has (List.mem_filter.1 (List.mem_of_getElem? hg)).1 hhas

/-- The match of the second pattern begins inside `ab` and is no token, so `c` is dropped with the blank
behind it. Nothing stands behind the parenthesis. -/
theorem tokenize_accounts_shadowed :
    let lexicon : Lexicon := [(.number, .anyOf [['a', 'b']]), (.operator, .runOf ['b', 'c'] 1),
      (.leftParen, .anyOf [['(']])]
    let limits : Limits := ⟨10, 1, 3, some 4300⟩
    let records := (Calculator.tokenizeTraced lexicon limits "  abc (").records
    (("  abc (".length : Nat) : Int) ≤ limits.maxLength ∧
      records.map Record.message =
        ["Skipping unrecognized input 'c ' at 4", "Tokenized '  abc (' into 2 tokens"] ∧
      ∃! k : Nat, ∃ r : Record, records[k]? = some r ∧ r.Shows 4 'c' := by
  intro lexicon limits records
  have hl : (("  abc (".length : Nat) : Int) ≤ limits.maxLength := by decide
  have hrun : lexicon.tokenize limits "  abc (" =
      .ok [⟨.number, "ab", some 2⟩, ⟨.leftParen, "(", some 6⟩] :=
    Lexicon.tokenize_of_pairwise hl (by decide)
  obtain ⟨ts, gaps, _, hts, ⟨-, hunique⟩, rfl, hrecords, -, hshown, -⟩ :=
    tokenize_accounts lexicon limits "  abc (" hl
  cases hrun.symm.trans hts
  have hparen : Interleaved 4 ['c', ' ', '('] [⟨.leftParen, "(", some 6⟩]
      [⟨4, ['c', ' ']⟩, ⟨7, []⟩] :=
    @Interleaved.token 4 ['c', ' '] [] ⟨.leftParen, "(", some 6⟩ _ _ rfl .last
  have hgaps : Interleaved 0 "  abc (".toList [⟨.number, "ab", some 2⟩, ⟨.leftParen, "(", some 6⟩]
      [⟨0, [' ', ' ']⟩, ⟨4, ['c', ' ']⟩, ⟨7, []⟩] :=
    @Interleaved.token 0 [' ', ' '] _ ⟨.number, "ab", some 2⟩ _ _ rfl hparen
  rw [← hunique _ hgaps] at hrecords
  refine ⟨hl, ?_, hshown 4 'c' rfl ?_ (by decide)⟩
  · show List.map Record.message (Calculator.tokenizeTraced lexicon limits "  abc (").records = _
    rw [hrecords]
    decide +kernel
  · refine List.forall_mem_cons.2 ⟨?_, List.forall_mem_singleton.2 ?_⟩
    · exact (Token.covers_iff rfl).not.2 (by decide)
    · exact (Token.covers_iff rfl).not.2 (by decide)

end ExprCalc
