import ExprCalc.Proofs.Nesting
import ExprCalc.Proofs.Rearrangement

/-!
# Why a conversion fails

Reading stops at the first token that `Stops` it: an operator without a rank, or a `)` where every `(`
is closed already. If there is none, the whole text is read, and the conversion fails only if a `(`
is never closed; it then names the last one of them.

The yard does not look at the text behind it. That it knows which parentheses are open is the
invariant: the `(` that wait are those that are `Open` in the text read so far
(`Reached.exists_open`).
-/

namespace ExprCalc

/-- What a token does to the nesting of parentheses. -/
def Token.side (t : Token) : Side :=
  match t.kind with
  | .leftParen => .opening
  | .rightParen => .closing
  | .number | .operator => .inner

namespace Token
variable {t : Token}

theorem side_eq_opening_iff : t.side = .opening ↔ t.kind = .leftParen := by
  unfold side
  cases t.kind <;> simp

theorem side_eq_closing_iff : t.side = .closing ↔ t.kind = .rightParen := by
  unfold side
  cases t.kind <;> simp

theorem side_eq_inner_iff : t.side = .inner ↔ t.kind = .number ∨ t.kind = .operator := by
  unfold side
  cases t.kind <;> simp

end Token

/-- The conversion cannot go past `t`: it is an operator without a rank, or a `)` behind `before`
that closes nothing. -/
def Stops (table : Precedence) (before : List Token) (t : Token) : Prop :=
  (t.kind = .operator ∧ table.lookup t.lexeme = none) ∨ Stray Token.side before t

/-- The fault of a token that stops the conversion. -/
def stopFault (t : Token) : Fault :=
  if t.kind = .operator then .unknownOperator t.lexeme else .unmatchedRight t.position

def atPosition : Option Int → String
  | none => ""
  | some p => " at position " ++ decimal p

/-- What a caller is told about a text that cannot be converted. -/
inductive Rejected (table : Precedence) (ts : List Token) : Diagnosis → Prop
  | unknownOperator {before : List Token} {t : Token} : FirstAt (Stops table) ts before t →
      t.kind = .operator →
      Rejected table ts ⟨.malformed, "Unknown operator: " ++ quoted t.lexeme, "UNKNOWN_OPERATOR"⟩
  | unmatchedRight {before : List Token} {t : Token} : FirstAt (Stops table) ts before t →
      t.kind = .rightParen →
      Rejected table ts
        ⟨.parentheses, "Unmatched ')'" ++ atPosition t.position, "UNBALANCED_PARENTHESES"⟩
  | unmatchedLeft {before after : List Token} {t : Token} : Never (Stops table) ts →
      ts = before ++ t :: after → Dangling Token.side t after →
      Rejected table ts
        ⟨.parentheses, "Unmatched '('" ++ atPosition t.position, "UNBALANCED_PARENTHESES"⟩

/-! ### Messages -/

theorem join_place (start : String) (p : Option Int) :
    String.join (start :: Fault.place p) = start ++ atPosition p := by
  cases p with
  | none => simp [Fault.place, atPosition, String.join]
  | some p => simp [Fault.place, atPosition, String.join, String.append_assoc]

namespace Fault

theorem diagnosis_unknownOperator (lexeme : String) : (unknownOperator lexeme).diagnosis =
    ⟨.malformed, "Unknown operator: " ++ quoted lexeme, "UNKNOWN_OPERATOR"⟩ := by
  have hmessage : (unknownOperator lexeme).message = "Unknown operator: " ++ quoted lexeme := by
    simp [message, parts, String.join]
  rw [← hmessage]
  rfl

theorem diagnosis_unmatchedRight (p : Option Int) : (unmatchedRight p).diagnosis =
    ⟨.parentheses, "Unmatched ')'" ++ atPosition p, "UNBALANCED_PARENTHESES"⟩ := by
  rw [← join_place]
  rfl

theorem diagnosis_unmatchedLeft (p : Option Int) : (unmatchedLeft p).diagnosis =
    ⟨.parentheses, "Unmatched '('" ++ atPosition p, "UNBALANCED_PARENTHESES"⟩ := by
  rw [← join_place]
  rfl

end Fault

/-! ### Open parentheses -/

section
variable {read : List Token} {t : Token} {st st' : List Token} {opened : List (Token × Nat)}

theorem Open.nest (h : Open Token.side read opened) (hn : nest (opened.map Prod.fst) t = some st) :
    ∃ opened', Open Token.side (read ++ [t]) opened' ∧ opened'.map Prod.fst = st := by
  cases ht : t.kind with
  | number | operator =>
    have hside : t.side = .inner := Token.side_eq_inner_iff.2 (by simp [ht])
    simp only [ExprCalc.nest, ht, Option.some.injEq] at hn
    exact ⟨opened, h.append (.inner hside .nil), hn⟩
  | leftParen =>
    have hside : t.side = .opening := Token.side_eq_opening_iff.2 ht
    simp only [ExprCalc.nest, ht, Option.some.injEq] at hn
    exact ⟨(t, read.length) :: opened, h.opening hside, hn⟩
  | rightParen =>
    have hside : t.side = .closing := Token.side_eq_closing_iff.2 ht
    simp only [ExprCalc.nest, ht] at hn
    cases opened with
    | nil => cases hn
    | cons p opened =>
      simp only [List.map_cons, List.tail?_cons, Option.some.injEq] at hn
      exact ⟨opened, h.closing hside, hn⟩

theorem exists_open_of_foldlM_nest (h : read.foldlM nest [] = some st) :
    ∃ opened, Open Token.side read opened ∧ opened.map Prod.fst = st := by
  induction read using List.reverseRecOn generalizing st with
  | nil =>
    cases h
    exact ⟨[], .balanced .nil, rfl⟩
  | append_singleton read t ih =>
    rw [List.foldlM_append] at h
    obtain ⟨mid, hmid, h⟩ := Option.bind_eq_some_iff.1 h
    obtain ⟨opened, hopen, rfl⟩ := ih hmid
    refine hopen.nest ?_
    simpa using h

theorem foldlM_nest_of_balanced (h : Balanced Token.side read) (st : List Token) :
    read.foldlM nest st = some st := by
  induction h generalizing st with
  | nil => rfl
  | @inner t ts ht _ ih =>
    have hsame : nest st t = some st := by
      rcases Token.side_eq_inner_iff.1 ht with hk | hk <;> simp [nest, hk]
    rw [List.foldlM_cons, hsame]
    exact ih st
  | @group l r as bs hl hr _ _ ihas ihbs =>
    have hlp := Token.side_eq_opening_iff.1 hl
    have hrp := Token.side_eq_closing_iff.1 hr
    simp [nest, hlp, hrp, ihas, ihbs]

theorem matched_iff_balanced : Matched read ↔ Balanced Token.side read := by
  refine ⟨fun h => ?_, fun h => foldlM_nest_of_balanced h []⟩
  obtain ⟨opened, hopen, hnone⟩ := exists_open_of_foldlM_nest h
  obtain rfl := List.map_eq_nil_iff.1 hnone
  exact hopen.balanced_of_nil

end

namespace Yard
variable {table : Precedence} {read ts : List Token} {y y' : Yard} {t : Token} {f : Fault}

theorem Reached.exists_open (h : Reached table read y) :
    ∃ opened, Open Token.side read opened ∧ opened.map Prod.fst = y.opened :=
  exists_open_of_foldlM_nest h.nested

theorem Reached.allClosed_iff (h : Reached table read y) :
    AllClosed Token.side read ↔ y.opened = [] := by
  obtain ⟨opened, hopen, hst⟩ := h.exists_open
  rw [hopen.allClosed_iff, ← hst, List.map_eq_nil_iff]

/-! ### One token -/

theorem Reached.stops_of_step (h : Reached table read y) (hs : Yard.step table y t = .error f) :
    Stops table read t ∧ f = stopFault t := by
  have hm : Move table y t (.error f) := hs ▸ step_move h.ranked t
  cases hm with
  | unknown ho hnone => exact ⟨.inl ⟨ho, hnone⟩, by simp [stopFault, ho]⟩
  | unmatched hr hall =>
    have hopened : y.opened = [] := filter_leftParen_eq_nil hall
    have hside : t.side = .closing := Token.side_eq_closing_iff.2 hr
    exact ⟨.inr ⟨hside, h.allClosed_iff.2 hopened⟩, by simp [stopFault, hr]⟩

theorem Reached.not_stops_of_step (h : Reached table read y) (hs : Yard.step table y t = .ok y') :
    ¬ Stops table read t := by
  have hm : Move table y t (.ok y') := hs ▸ step_move h.ranked t
  rintro (⟨ho, hnone⟩ | ⟨hside, hall⟩)
  · cases hm with
    | operator _ hk => simp [hnone] at hk
    | number hk | leftParen hk | rightParen hk => simp [ho] at hk
  · cases hm with
    | rightParen _ hsplit _ hlp =>
      have hopened := h.allClosed_iff.1 hall
      rw [Yard.opened, hsplit, List.filter_append, List.filter_cons_of_pos (by simpa using hlp)]
        at hopened
      simp at hopened
    | number hk | operator hk | leftParen hk => simp [Token.side_eq_closing_iff.1 hside] at hk

/-- The ranks that decide what an operator sends to the output are all there. -/
theorem Reached.exists_release (h : Reached table read y)
    (hk : (table.lookup t.lexeme).isSome) :
    ∃ gone stay, release table t y.waiting = .ok (gone, stay) := by
  obtain ⟨k, hk⟩ := Option.isSome_iff_exists.1 hk
  obtain ⟨gone, stay, hsplit, hgone, hstay⟩ := h.ranked.exists_release k
  exact ⟨gone, stay, hsplit ▸ release_append hk hgone hstay⟩

/-! ### The whole text -/

theorem never_stops_of_foldlM (h : ts.foldlM (step table) empty = .ok y) :
    Never (Stops table) ts := by
  rintro before t after rfl
  obtain ⟨mid, hmid, h⟩ := foldlM_append_eq_ok.1 h
  obtain ⟨next, hnext, -⟩ := foldlM_cons_eq_ok.1 h
  exact (reached_of_foldlM hmid).not_stops_of_step hnext

theorem foldlM_step_eq_error : ts.foldlM (step table) empty = .error f ↔
    ∃ before t, FirstAt (Stops table) ts before t ∧ f = stopFault t := by
  have hfirst : ∀ {g}, ts.foldlM (step table) empty = .error g →
      ∃ before t, FirstAt (Stops table) ts before t ∧ g = stopFault t := by
    intro g h
    obtain ⟨before, t, after, y, hts, hrun, hstep⟩ := foldlM_eq_error.1 h
    obtain ⟨hstop, hg⟩ := (reached_of_foldlM hrun).stops_of_step hstep
    exact ⟨before, t, ⟨⟨after, hts⟩, hstop, never_stops_of_foldlM hrun⟩, hg⟩
  refine ⟨hfirst, ?_⟩
  rintro ⟨before, t, hat, rfl⟩
  cases hrun : ts.foldlM (step table) empty with
  | ok y =>
    obtain ⟨⟨after, hts⟩, hstop, -⟩ := hat
    exact absurd hstop (never_stops_of_foldlM hrun before t after hts)
  | error g =>
    obtain ⟨before', t', hat', rfl⟩ := hfirst hrun
    rw [(hat'.unique hat).2]

end Yard

section
variable {table : Precedence} {ts : List Token} {f : Fault}

theorem toPostfix_eq_error_iff : toPostfix table ts = .error f ↔
    (∃ before t, FirstAt (Stops table) ts before t ∧ f = stopFault t) ∨
      Never (Stops table) ts ∧ ∃ before t after, ts = before ++ t :: after ∧
        Dangling Token.side t after ∧ f = .unmatchedLeft t.position := by
  unfold toPostfix
  rw [bind_eq_error, Yard.foldlM_step_eq_error]
  refine or_congr_right ⟨?_, ?_⟩
  · rintro ⟨y, hrun, hfinish⟩
    refine ⟨Yard.never_stops_of_foldlM hrun, ?_⟩
    obtain ⟨t, rest, hopened, rfl⟩ := Yard.finish_eq_error_iff.1 hfinish
    obtain ⟨opened, hopen, hst⟩ := (Yard.reached_of_foldlM hrun).exists_open
    rw [hopened] at hst
    cases opened with
    | nil => cases hst
    | cons p opened =>
      obtain ⟨before, after, hts, -, hdangling⟩ := hopen.dangling
      obtain rfl : p.1 = t := (List.cons.inj hst).1
      exact ⟨before, p.1, after, hts, hdangling, rfl⟩
  · rintro ⟨hnever, before, t, after, hts, hdangling, rfl⟩
    cases hrun : ts.foldlM (Yard.step table) Yard.empty with
    | error g =>
      obtain ⟨before', t', ⟨⟨after', hts'⟩, hstop, -⟩, -⟩ := Yard.foldlM_step_eq_error.1 hrun
      exact absurd hstop (hnever before' t' after' hts')
    | ok y =>
      refine ⟨y, rfl, Yard.finish_eq_error_iff.2 ?_⟩
      obtain ⟨opened, hopen, hst⟩ := (Yard.reached_of_foldlM hrun).exists_open
      cases opened with
      | nil =>
        have hclosed := hopen.allClosed_iff.2 rfl before t after hts hdangling.1
        exact absurd hclosed hdangling.2.1
      | cons p opened =>
        obtain ⟨before', after', hts', -, hdangling'⟩ := hopen.dangling
        obtain ⟨-, rfl⟩ := hdangling'.unique hdangling (hts'.symm.trans hts)
        exact ⟨p.1, opened.map Prod.fst, hst.symm, rfl⟩

theorem rejected_of_toPostfix (h : toPostfix table ts = .error f) :
    Rejected table ts f.diagnosis := by
  rcases toPostfix_eq_error_iff.1 h with ⟨before, t, hat, rfl⟩ |
    ⟨hnever, before, t, after, hts, hdangling, rfl⟩
  · rcases hat.2.1 with ⟨ho, -⟩ | ⟨hside, -⟩
    · rw [stopFault, if_pos ho, Fault.diagnosis_unknownOperator]
      exact .unknownOperator hat ho
    · have hr : t.kind = .rightParen := Token.side_eq_closing_iff.1 hside
      rw [stopFault, if_neg (by simp [hr]), Fault.diagnosis_unmatchedRight]
      exact .unmatchedRight hat hr
  · rw [Fault.diagnosis_unmatchedLeft]
    exact .unmatchedLeft hnever hts hdangling

theorem Rejected.exists_fault {d : Diagnosis} (h : Rejected table ts d) :
    ∃ f, toPostfix table ts = .error f ∧ f.diagnosis = d := by
  cases h with
  | unknownOperator hat ho =>
    refine ⟨_, toPostfix_eq_error_iff.2 (.inl ⟨_, _, hat, rfl⟩), ?_⟩
    rw [stopFault, if_pos ho, Fault.diagnosis_unknownOperator]
  | unmatchedRight hat hr =>
    refine ⟨_, toPostfix_eq_error_iff.2 (.inl ⟨_, _, hat, rfl⟩), ?_⟩
    rw [stopFault, if_neg (by simp [hr]), Fault.diagnosis_unmatchedRight]
  | unmatchedLeft hnever hts hdangling =>
    refine ⟨_, toPostfix_eq_error_iff.2 (.inr ⟨hnever, _, _, _, hts, hdangling, rfl⟩), ?_⟩
    rw [Fault.diagnosis_unmatchedLeft]

theorem exists_toPostfix_iff :
    (∃ ps, toPostfix table ts = .ok ps) ↔ Never (Stops table) ts ∧ AllClosed Token.side ts := by
  constructor
  · rintro ⟨ps, h⟩
    obtain ⟨y, hrun, hfinish⟩ := bind_eq_ok.1 h
    have hopened := Yard.exists_finish_iff.1 ⟨ps, hfinish⟩
    exact ⟨Yard.never_stops_of_foldlM hrun, (Yard.reached_of_foldlM hrun).allClosed_iff.2 hopened⟩
  · rintro ⟨hnever, hall⟩
    cases h : toPostfix table ts with
    | ok ps => exact ⟨ps, rfl⟩
    | error f =>
      rcases toPostfix_eq_error_iff.1 h with ⟨before, t, ⟨⟨after, hts⟩, hstop, -⟩, -⟩ |
        ⟨-, before, t, after, hts, hdangling, -⟩
      · exact absurd hstop (hnever before t after hts)
      · exact absurd (hall before t after hts hdangling.1) hdangling.2.1

/-- A conversion fails at the first token that stops it, or else for the last `(` never closed, and in
no other case. The rank of an operator that waits is never missing. -/
theorem toPostfix_rejects (table : Precedence) (ts : List Token) :
    (∀ d, (∃ f, toPostfix table ts = .error f ∧ f.diagnosis = d) ↔ Rejected table ts d) ∧
    ((∃ ps, toPostfix table ts = .ok ps) ↔ Never (Stops table) ts ∧ AllClosed Token.side ts) ∧
    ∀ (read : List Token) y t, read.foldlM (Yard.step table) .empty = .ok y → t.kind = .operator →
      (table.lookup t.lexeme).isSome →
        ∃ gone stay, Yard.release table t y.waiting = .ok (gone, stay) := by
  refine ⟨fun d => ⟨?_, Rejected.exists_fault⟩, exists_toPostfix_iff, ?_⟩
  · rintro ⟨f, h, rfl⟩
    exact rejected_of_toPostfix h
  · intro read y t hrun _ hk
    exact (Yard.reached_of_foldlM hrun).exists_release hk

end

end ExprCalc
