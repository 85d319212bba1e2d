import ExprCalc.Proofs.ExactScan
import ExprCalc.Proofs.Places
import ExprCalc.Proofs.TextFault

/-!
# Cutting a text in two

Where a text is cut between two of its tokens, or beside one, each part has the tokens that it contributes
to the whole (`Scan.split`). Text of no lexical class may then stand between the parts, since no token is
continued by it (`Munch.append`): the tokens are the same, those behind it moved by its length. As
positions play no part in a value, the value is the same, and so is what is wrong if there is none.
-/

namespace ExprCalc

/-- The token, `k` characters further on. -/
def Token.shift (k : Nat) (t : Token) : Token :=
  { t with position := t.position.map (· + (k : Int)) }

/-- Offset `i` lies strictly inside the token. -/
def Token.Straddles (t : Token) (i : Nat) : Prop :=
  ∃ p ∈ t.position, p < i ∧ (i : Int) < p + t.lexeme.length

instance (t : Token) (i : Nat) : Decidable (t.Straddles i) :=
  inferInstanceAs (Decidable (∃ p ∈ t.position, _))

namespace Occurrence

def shift (k : Nat) (o : Occurrence) : Occurrence := { o with start := o.start + k }

theorem unplaced_shift (k : Nat) (o : Occurrence) :
    (o.shift k).token.unplaced = o.token.unplaced := rfl

theorem straddles_iff {o : Occurrence} {i : Nat} :
    o.token.Straddles i ↔ o.start < i ∧ i < o.stop := by
  simp [Token.Straddles, token, stop]
  omega

end Occurrence

/-! ### The scan of a part -/

namespace Munch
variable {kind : TokenKind} {text rest cs : List Char}

/-- A token goes no further in a shorter text. -/
theorem of_append (h : Munch kind text (rest ++ cs)) : Munch kind text rest := by
  have hhead : ∀ c ∈ rest.head?, c ∈ (rest ++ cs).head? := by
    intro c hc
    rw [List.head?_append, Option.mem_def.1 hc]
    rfl
  cases h with
  | number hne hd hrest => exact .number hne hd fun c hc => hrest c (hhead c hc)
  | operator op hmul => exact .operator op fun hop hstar => hmul hop (hhead _ hstar)
  | leftParen => exact .leftParen
  | rightParen => exact .rightParen

/-- A token is not continued by a character of no class. -/
theorem append (h : Munch kind text rest) (hcs : ∀ c ∈ cs.head?, lexicalClass c = none) :
    Munch kind text (rest ++ cs) := by
  have hhead : ∀ c ∈ (rest ++ cs).head?, c ∈ rest.head? ∨ lexicalClass c = none := by
    intro c hc
    rw [List.head?_append] at hc
    rcases Option.or_eq_some_iff.1 hc with hc | ⟨-, hc⟩
    · exact .inl hc
    · exact .inr (hcs c hc)
  cases h with
  | number hne hd hrest =>
    refine .number hne hd ?_
    intro c hc
    rcases hhead c hc with hc | hclass
    · exact hrest c hc
    · by_contra hdigit
      rw [lexicalClass, if_pos (by simpa using hdigit)] at hclass
      cases hclass
  | operator op hmul =>
    refine .operator op ?_
    intro hop hstar
    rcases hhead _ hstar with hc | hclass
    · exact hmul hop hc
    · cases hclass
  | leftParen => exact .leftParen
  | rightParen => exact .rightParen

end Munch

namespace Scan
variable {pos k : Nat} {a b w cs : List Char} {os os' : List Occurrence}

theorem shift (h : Scan pos cs os) (k : Nat) : Scan (pos + k) cs (os.map (Occurrence.shift k)) := by
  induction h with
  | done => exact .done
  | skip hc _ ih =>
    refine .skip hc ?_
    rwa [Nat.add_right_comm]
  | token hm _ ih =>
    refine .token hm ?_
    rwa [Nat.add_right_comm]

/-- What is found does not depend on where the text begins. -/
theorem exists_shift (h : Scan (pos + k) cs os) :
    ∃ os', Scan pos cs os' ∧ os = os'.map (Occurrence.shift k) := by
  generalize hstart : pos + k = start at h
  induction h generalizing pos with
  | done => exact ⟨[], .done, rfl⟩
  | skip hc _ ih =>
    subst hstart
    have hnext : pos + 1 + k = pos + k + 1 := Nat.add_right_comm ..
    obtain ⟨os', hos', rfl⟩ := ih hnext
    exact ⟨os', .skip hc hos', rfl⟩
  | @token start kind text rest os hm _ ih =>
    subst hstart
    have hnext : pos + text.length + k = pos + k + text.length := Nat.add_right_comm ..
    obtain ⟨os', hos', rfl⟩ := ih hnext
    exact ⟨⟨kind, pos, text⟩ :: os', .token hm hos', rfl⟩

/-- A text that goes on with a character of no class. -/
theorem append (h : Scan pos a os) (hb : ∀ c ∈ b.head?, lexicalClass c = none)
    (h' : Scan (pos + a.length) b os') : Scan pos (a ++ b) (os ++ os') := by
  induction h with
  | done => exact h'
  | @skip pos c a os hc _ ih =>
    refine .skip hc (ih ?_)
    rwa [List.length_cons, Nat.add_comm a.length, ← Nat.add_assoc] at h'
  | @token pos kind text rest os hm _ ih =>
    rw [List.append_assoc]
    refine .token (hm.append hb) (ih ?_)
    rwa [List.length_append, ← Nat.add_assoc] at h'

/-- A text that is cut where no token is. -/
theorem split (h : Scan pos (a ++ b) os)
    (hcut : ∀ o ∈ os, ¬ (o.start < pos + a.length ∧ pos + a.length < o.stop)) :
    ∃ os₁ os₂, os = os₁ ++ os₂ ∧ Scan pos a os₁ ∧ Scan (pos + a.length) b os₂ := by
  generalize htext : a ++ b = cs at h
  induction h generalizing a with
  | done =>
    obtain ⟨rfl, rfl⟩ := List.append_eq_nil_iff.1 htext
    exact ⟨[], [], rfl, .done, .done⟩
  | @skip pos c cs os hc hcs ih =>
    cases a with
    | nil =>
      obtain rfl : b = c :: cs := htext
      exact ⟨[], os, rfl, .done, .skip hc hcs⟩
    | cons d a =>
      obtain ⟨rfl, rfl⟩ := List.cons.inj htext
      have hpos : pos + (d :: a).length = pos + 1 + a.length := by
        rw [List.length_cons]
        omega
      rw [hpos] at hcut ⊢
      obtain ⟨os₁, os₂, rfl, h₁, h₂⟩ := ih hcut rfl
      exact ⟨os₁, os₂, rfl, .skip hc h₁, h₂⟩
  | @token pos kind text rest os hm hrest ih =>
    rcases List.append_eq_append_iff.1 htext with ⟨mid, rfl, rfl⟩ | ⟨mid, rfl, rfl⟩
    · -- the cut does not go through the token, so it is in front of it or right behind it
      have hout : ¬ (pos < pos + a.length ∧ pos + a.length < pos + (a ++ mid).length) :=
        hcut _ List.mem_cons_self
      rw [List.length_append] at hout
      by_cases ha : a = []
      · subst ha
        exact ⟨[], _, rfl, .done, .token hm hrest⟩
      · have hlength := List.length_pos_iff.2 ha
        obtain rfl : mid = [] := List.length_eq_zero_iff.1 (by omega)
        rw [List.append_nil] at hm hrest
        have hend : Munch kind a ([] ++ rest) := hm
        have hscan : Scan pos (a ++ []) [⟨kind, pos, a⟩] := .token hend.of_append .done
        rw [List.append_nil] at hscan ⊢
        exact ⟨[_], os, rfl, hscan, hrest⟩
    · have hpos : pos + (text ++ mid).length = pos + text.length + mid.length := by
        rw [List.length_append]
        omega
      rw [hpos] at hcut ⊢
      obtain ⟨os₁, os₂, rfl, h₁, h₂⟩ := ih (fun o ho => hcut o (List.mem_cons_of_mem _ ho)) rfl
      exact ⟨_ :: os₁, os₂, rfl, .token hm.of_append h₁, h₂⟩

/-- Text of no class between two parts moves the tokens of the second one. -/
theorem insert (hw : Gap w) (h : Scan 0 (a ++ b) os)
    (hcut : ∀ o ∈ os, ¬ (o.start < a.length ∧ a.length < o.stop)) :
    ∃ os₁ os₂, Scan 0 a os₁ ∧ Scan 0 b os₂ ∧ os = os₁ ++ os₂.map (Occurrence.shift a.length) ∧
      Scan 0 (a ++ (w ++ b)) (os₁ ++ os₂.map (Occurrence.shift (a.length + w.length))) := by
  rw [← Nat.zero_add a.length] at hcut
  obtain ⟨os₁, _, rfl, h₁, hbehind⟩ := h.split hcut
  obtain ⟨os₂, h₂, rfl⟩ := hbehind.exists_shift
  refine ⟨os₁, os₂, h₁, h₂, rfl, ?_⟩
  have hmoved := h₂.shift (a.length + w.length)
  rw [← Nat.add_assoc] at hmoved
  cases w with
  | nil => exact h
  | cons c w =>
    refine h₁.append ?_ (hw.scan hmoved)
    rintro d ⟨⟩
    exact hw c List.mem_cons_self

end Scan

/-! ### Tokens and values -/

/-- A text that is cut beside its tokens, with text of no class put in between, has the tokens of its first
part and behind them those of its second one, moved by what is in front of it now. It has the value it
had, or a fault of the kind and with the code that it had. -/
theorem tokenize_insert {limits : Limits} {a w b : String} {ts : List Token}
    (h : Lexicon.arithmetic.tokenize limits (a ++ b) = .ok ts)
    (hcut : ∀ t ∈ ts, ¬ t.Straddles a.length) (hw : ∀ c ∈ w.toList, c ∉ alphabet)
    (hl : ((a ++ w ++ b).length : Int) ≤ limits.maxLength) :
    (∃ ts₁ ts₂, Lexicon.arithmetic.tokenize limits a = .ok ts₁ ∧
      Lexicon.arithmetic.tokenize limits b = .ok ts₂ ∧
      Lexicon.arithmetic.tokenize limits (a ++ w ++ b) =
        .ok (ts₁ ++ ts₂.map (Token.shift (a.length + w.length)))) ∧
    (∀ v, Calculator.evaluateExpression limits (a ++ w ++ b) = .ok v ↔
      Calculator.evaluateExpression limits (a ++ b) = .ok v) ∧
    ∀ kind code,
      (∃ f, Calculator.evaluateExpression limits (a ++ w ++ b) = .error f ∧ f.kind = kind ∧
        f.code = code) ↔
      ∃ f, Calculator.evaluateExpression limits (a ++ b) = .error f ∧ f.kind = kind ∧
        f.code = code := by
  obtain ⟨-, os, hscan, rfl⟩ := tokenize_eq_ok h
  have hgap : Gap w.toList := by
    intro c hc
    by_contra hclass
    exact hw c hc (lexicalClass_ne_none_iff.1 hclass)
  have houtside : ∀ o ∈ os, ¬ (o.start < a.toList.length ∧ a.toList.length < o.stop) := by
    intro o ho hinside
    rw [String.length_toList] at hinside
    exact hcut _ (List.mem_map_of_mem ho) (Occurrence.straddles_iff.2 hinside)
  rw [String.toList_append] at hscan
  obtain ⟨os₁, os₂, h₁, h₂, rfl, hall⟩ := hscan.insert hgap houtside
  rw [String.length_toList, String.length_toList] at hall
  rw [← List.append_assoc, ← String.toList_append, ← String.toList_append] at hall
  have hwhole := hall.tokenize_eq hl
  rw [String.length_append, String.length_append] at hl
  have halike : Alike (Calculator.evaluateExpression limits (a ++ w ++ b))
      (Calculator.evaluateExpression limits (a ++ b)) := by
    rw [Calculator.evaluateExpression_of_tokenize hwhole, Calculator.evaluateExpression_of_tokenize h]
    apply toPostfix_evaluate_alike
    simp [Function.comp_def, Occurrence.unplaced_shift]
  refine ⟨⟨os₁.map Occurrence.token, os₂.map Occurrence.token, h₁.tokenize_eq (by omega),
    h₂.tokenize_eq (by omega), ?_⟩, ?_, ?_⟩
  · rw [hwhole, List.map_append, List.map_map, List.map_map]
    rfl
  · intro v
    exact halike.eq_ok_iff
  · intro kind code
    exact halike.exists_error_iff

/-- The cut is between the two operators of a run of stars. -/
theorem tokenize_insert_between_stars :
    let limits : Limits := ⟨20, 5, 16, some 4300⟩
    let ts : List Token := [⟨.number, "2", some 0⟩, ⟨.operator, "**", some 1⟩, ⟨.operator, "*", some 3⟩,
      ⟨.leftParen, "(", some 4⟩, ⟨.number, "4", some 5⟩]
    Lexicon.arithmetic.tokenize limits ("2**" ++ "*(4") = .ok ts ∧
      (∀ t ∈ ts, ¬ t.Straddles "2**".length) ∧ (∀ c ∈ "é\n".toList, c ∉ alphabet) ∧
      (("2**" ++ "é\n" ++ "*(4").length : Int) ≤ limits.maxLength ∧
      (∃ ts₁ ts₂, Lexicon.arithmetic.tokenize limits "2**" = .ok ts₁ ∧
        Lexicon.arithmetic.tokenize limits "*(4" = .ok ts₂ ∧
        Lexicon.arithmetic.tokenize limits ("2**" ++ "é\n" ++ "*(4") =
          .ok (ts₁ ++ ts₂.map (Token.shift 5))) ∧
      ∃ f, Calculator.evaluateExpression limits ("2**" ++ "é\n" ++ "*(4") = .error f ∧
        f.kind = .parentheses ∧ f.code = "UNBALANCED_PARENTHESES" := by
  intro limits ts
  have hscan : Scan 0 ("2**" ++ "*(4").toList
      [⟨.number, 0, ['2']⟩, ⟨.operator, 1, ['*', '*']⟩, ⟨.operator, 3, ['*']⟩, ⟨.leftParen, 4, ['(']⟩,
        ⟨.number, 5, ['4']⟩] :=
    .token (.digit rfl rfl) (.token (.operator .pow nofun) (.token (.operator .mul fun _ => by decide)
      (.token .leftParen (.token (.digit rfl rfl) .done))))
  have htokens : Lexicon.arithmetic.tokenize limits ("2**" ++ "*(4") = .ok ts :=
    hscan.tokenize_eq (by decide)
  have hcut : ∀ t ∈ ts, ¬ t.Straddles "2**".length := by decide
  have hgap : ∀ c ∈ "é\n".toList, c ∉ alphabet := by
    have htext : "é\n".toList = ['é', '\n'] := rfl
    simp [htext, alphabet]
  have hlength : (("2**" ++ "é\n" ++ "*(4").length : Int) ≤ limits.maxLength := by decide
  have hfault : Calculator.evaluateExpression limits ("2**" ++ "*(4") =
      .error (.unmatchedLeft (some 4)) := by
    rw [Calculator.evaluateExpression_of_tokenize htokens]
    rfl
  obtain ⟨hparts, -, hfails⟩ := tokenize_insert htokens hcut hgap hlength
  exact ⟨htokens, hcut, hgap, hlength, hparts, (hfails _ _).2 ⟨_, hfault, rfl, rfl⟩⟩

end ExprCalc
