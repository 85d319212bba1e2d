import ExprCalc.Proofs.Rejection

/-!
# In which order the output comes

Reading a token inserts it into the content of the yard, the output followed by what waits, and moves
nothing else (`Move.content_sublist`). So the order of two tokens is settled when the later one has
been read. A number is then in the output. An operator `a` is in the output or waits below whatever
was read behind it, and which of the two depends on the operators that stand directly in the same
parentheses: `a` waits through a balanced text as long as they rank above it
(`exists_waiting_of_balanced`), and the first one that does not sends it away.
-/

namespace ExprCalc

namespace Yard
variable {table : Precedence} {y y' : Yard} {a b c t : Token} {k : Int}
  {read rest ts ps before mid after : List Token}

theorem Move.content_sublist (h : Move table y t (.ok y')) : y.content.Sublist y'.content := by
  cases h with
  | number hn =>
    simp only [content, Array.toList_push, List.append_assoc]
    exact (List.Sublist.refl _).append (List.sublist_append_right [t] _)
  | @operator k gone stay ho hk hsplit hgone =>
    have hfilter := filter_kept_eq_self fun w hw => (hgone w hw).1
    simp only [content, hsplit, List.filter_append, hfilter, Array.toList_appendList,
      List.append_assoc]
    have hstay := (List.sublist_cons_self t stay).filter kept
    exact (List.Sublist.refl _).append ((List.Sublist.refl _).append hstay)
  | leftParen hp => exact (List.Sublist.refl _).append ((List.sublist_cons_self t _).filter kept)
  | @rightParen gone stay lp hr hsplit hgone hp =>
    have hlp : kept lp = false := by simp [kept, hp]
    simp [content, hsplit, filter_kept_eq_self hgone, hlp]

theorem Move.output_prefix (h : Move table y t (.ok y')) : y.output.toList <+: y'.output.toList := by
  cases h with
  | number => simp
  | operator => simp
  | leftParen => exact List.prefix_rfl
  | rightParen => simp

/-- What has been put out stays in front, and what has been read keeps its order. -/
theorem Reached.run (h : Reached table read y) (hrun : rest.foldlM (Yard.step table) y = .ok y') :
    Reached table (read ++ rest) y' ∧ y.output.toList <+: y'.output.toList ∧
      y.content.Sublist y'.content := by
  refine foldlM_invariant (fun more z => Reached table (read ++ more) z ∧
    y.output.toList <+: z.output.toList ∧ y.content.Sublist z.content) ?_ ?_ hrun
  · rw [List.append_nil]
    exact ⟨h, List.prefix_rfl, .refl _⟩
  · rintro more z t z' ⟨hz, hprefix, hsub⟩ hstep
    have hm : Move table z t (.ok z') := hstep ▸ step_move hz.ranked t
    rw [← List.append_assoc]
    exact ⟨hz.step hstep, hprefix.trans hm.output_prefix, hsub.trans hm.content_sublist⟩

/-- The tokens read so far stand in the output in the order that they have in the yard. -/
theorem exists_reached_of_toPostfix (h : toPostfix table (read ++ rest) = .ok ps) :
    ∃ y, read.foldlM (step table) empty = .ok y ∧ y.content.Sublist ps := by
  obtain ⟨z, hz, hfinish⟩ := bind_eq_ok.1 h
  obtain ⟨y, hread, hrest⟩ := foldlM_append_eq_ok.1 hz
  obtain ⟨hreached, -, hsub⟩ := (reached_of_foldlM hread).run hrest
  exact ⟨y, hread, hreached.eq_content_of_finish hfinish ▸ hsub⟩

theorem pair_sublist_content (ha : a ∈ y.output.toList) (hb : b ∈ y.waiting) (hk : kept b = true) :
    [a, b].Sublist y.content :=
  (List.singleton_sublist.2 ha).append (List.singleton_sublist.2 (List.mem_filter.2 ⟨hb, hk⟩))

/-! ### Numbers -/

theorem Reached.mem_output (h : Reached table read y) (ha : a ∈ read) (hn : a.kind = .number) :
    a ∈ y.output.toList := by
  have hkept : a ∈ read.filter kept := List.mem_filter.2 ⟨ha, by simp [kept, hn]⟩
  rcases List.mem_append.1 (h.perm.symm.subset hkept) with hout | hwait
  · exact hout
  · rcases h.ranked a (List.mem_filter.1 hwait).1 with hp | ⟨ho, -⟩
    · simp [hn] at hp
    · simp [hn] at ho

theorem Move.filter_number (h : Move table y t (.ok y')) :
    y'.output.toList.filter (·.kind = .number) =
      y.output.toList.filter (·.kind = .number) ++ [t].filter (·.kind = .number) := by
  have hops : ∀ gone : List Token, (∀ w ∈ gone, w.kind = .operator) →
      gone.filter (·.kind = .number) = [] :=
    fun gone hgone => List.filter_eq_nil_iff.2 fun w hw => by simp [hgone w hw]
  cases h with
  | number hn => simp
  | operator ho hk hsplit hgone => simp [ho, hops _ fun w hw => (hgone w hw).1]
  | leftParen hp => simp [hp]
  | rightParen hr hsplit hgone hp => simp [hr, hops _ hgone]

theorem filter_number_output (h : ts.foldlM (step table) empty = .ok y) :
    y.output.toList.filter (·.kind = .number) = ts.filter (·.kind = .number) := by
  refine (foldlM_invariant (fun read y => Reached table read y ∧
    y.output.toList.filter (·.kind = .number) = read.filter (·.kind = .number)) ?_ ?_ h).2
  · exact ⟨reached_of_foldlM rfl, rfl⟩
  · rintro read y t y' ⟨hy, hnumbers⟩ hstep
    have hm : Move table y t (.ok y') := hstep ▸ step_move hy.ranked t
    refine ⟨hy.step hstep, ?_⟩
    rw [hm.filter_number, hnumbers, List.filter_append]

/-- A number comes out in front of every number and operator behind it. -/
theorem number_sublist (h : toPostfix table (before ++ b :: after) = .ok ps) (ha : a ∈ before)
    (hn : a.kind = .number) (hb : kept b = true) : [a, b].Sublist ps := by
  rw [← List.singleton_append, ← List.append_assoc] at h
  obtain ⟨y', hrun, hsub⟩ := exists_reached_of_toPostfix h
  obtain ⟨y, hy, hrun⟩ := foldlM_append_eq_ok.1 hrun
  obtain ⟨_, hstep, ⟨⟩⟩ := foldlM_cons_eq_ok.1 hrun
  have hreached := reached_of_foldlM hy
  have hm : Move table y b (.ok y') := hstep ▸ step_move hreached.ranked b
  have hout := hreached.mem_output ha hn
  refine List.Sublist.trans ?_ hsub
  cases hm with
  | number =>
    simp only [content, Array.toList_push, List.append_assoc]
    exact (List.singleton_sublist.2 hout).append (List.sublist_append_left [b] _)
  | operator => exact pair_sublist_content (by simp [hout]) List.mem_cons_self hb
  | leftParen hp => simp [kept, hp] at hb
  | rightParen hr => simp [kept, hr] at hb

/-! ### Operators -/

theorem step_operator_cases (hy : Ranked table y.waiting) (ho : t.kind = .operator)
    (hs : step table y t = .ok y') : ∃ r gone stay, table.lookup t.lexeme = some r ∧
      y.waiting = gone ++ stay ∧
      (∀ w ∈ gone, w.kind = .operator ∧ ∃ i, table.lookup w.lexeme = some i ∧ r ≤ i) ∧
      Fits table r stay ∧ y' = ⟨y.output ++ gone, t :: stay⟩ := by
  have hm : Move table y t (.ok y') := hs ▸ step_move hy t
  cases hm with
  | operator _ hr hsplit hgone hstay => exact ⟨_, _, _, hr, hsplit, hgone, hstay, rfl⟩
  | number hk | leftParen hk | rightParen hk => simp [ho] at hk

/-- Tokens that an operator of rank `r` can send away end in front of those that it fits on. -/
theorem gone_within {r : Int} {tops base gone stay : List Token} (hsplit : tops ++ base = gone ++ stay)
    (hgone : ∀ w ∈ gone, w.kind = .operator ∧ ∃ i, table.lookup w.lexeme = some i ∧ r ≤ i)
    (hfits : Fits table r base) : ∃ tops', tops = gone ++ tops' ∧ stay = tops' ++ base := by
  rcases List.append_eq_append_iff.1 hsplit with ⟨more, rfl, hbase⟩ | ⟨tops', htops, hstay⟩
  · cases more with
    | nil => exact ⟨[], by simp, by simpa using hbase.symm⟩
    | cons w more =>
      obtain ⟨ho, i, hi, hle⟩ := hgone w (by simp)
      obtain ⟨j, hj, hlt⟩ := hfits w (by simp [hbase]) (by simp [ho])
      rw [hi] at hj
      cases hj
      omega
  · exact ⟨tops', htops, hstay⟩

/-- What waits at the bottom keeps waiting while a balanced text is read, if it is left alone by the
operators that stand directly in that text. -/
theorem exists_waiting_of_balanced {P : Token → Prop} {tops base : List Token}
    (hmid : Balanced Token.side mid) (hy : Ranked table y.waiting) (hw : y.waiting = tops ++ base)
    (htops : ∀ w ∈ tops, P w) (hP : ∀ w, P w → w.kind = .operator)
    (hdirect : ∀ m₁ c m₂ r, mid = m₁ ++ c :: m₂ → Balanced Token.side m₁ → c.kind = .operator →
      table.lookup c.lexeme = some r → P c ∧ Fits table r base)
    (hrun : mid.foldlM (step table) y = .ok y') :
    ∃ tops', y'.waiting = tops' ++ base ∧ ∀ w ∈ tops', P w := by
  induction hmid generalizing P tops base y y' with
  | nil =>
    cases hrun
    exact ⟨tops, hw, htops⟩
  | @inner c cs hc _ ih =>
    obtain ⟨z, hstep, hrun⟩ := foldlM_cons_eq_ok.1 hrun
    have hz : Ranked table z.waiting := (hstep ▸ step_move hy c : Move table y c (.ok z)).ranked hy
    have hrest : ∀ m₁ d m₂ r, cs = m₁ ++ d :: m₂ → Balanced Token.side m₁ → d.kind = .operator →
        table.lookup d.lexeme = some r → P d ∧ Fits table r base := by
      rintro m₁ d m₂ r rfl hm₁ hd hr
      exact hdirect (c :: m₁) d m₂ r rfl (.inner hc hm₁) hd hr
    cases hk : c.kind with
    | number =>
      rw [step_number hk] at hstep
      cases hstep
      exact ih hz hw htops hP hrest hrun
    | operator =>
      obtain ⟨r, gone, stay, hr, hsplit, hgone, -, rfl⟩ := step_operator_cases hy hk hstep
      obtain ⟨hPc, hfits⟩ := hdirect [] c cs r rfl .nil hk hr
      obtain ⟨tops', rfl, rfl⟩ := gone_within (hw.symm.trans hsplit) hgone hfits
      have htops' : ∀ w ∈ c :: tops', P w :=
        List.forall_mem_cons.2 ⟨hPc, fun w hw => htops w (List.mem_append_right _ hw)⟩
      exact ih hz rfl htops' hP hrest hrun
    | leftParen | rightParen => simp [Token.side_eq_inner_iff, hk] at hc
  | @group l r xs ys hl hr hxs _ ihx ihy =>
    have hlp := Token.side_eq_opening_iff.1 hl
    have hrp := Token.side_eq_closing_iff.1 hr
    obtain ⟨z₁, hstep, hrun⟩ := foldlM_cons_eq_ok.1 hrun
    rw [step_leftParen hlp] at hstep
    cases hstep
    obtain ⟨z₂, hinside, hrun⟩ := foldlM_append_eq_ok.1 hrun
    obtain ⟨z₃, hstep, hrun⟩ := foldlM_cons_eq_ok.1 hrun
    have hy₁ : Ranked table (l :: y.waiting) := .cons (.inl hlp) hy
    -- inside the parentheses the `(` is at the bottom, and every operator leaves it alone
    obtain ⟨ops, hops, hkind⟩ : ∃ ops, z₂.waiting = ops ++ l :: y.waiting ∧
        ∀ w ∈ ops, w.kind = .operator := by
      refine ihx hy₁ (List.nil_append _).symm (List.forall_mem_nil _) (fun _ hw => hw) ?_ hinside
      intro _ c _ _ _ _ hc _
      refine ⟨hc, ?_⟩
      rintro w ⟨⟩ hne
      exact absurd hlp hne
    rw [step_rightParen hrp hops (fun w hw => by simp [hkind w hw]) hlp] at hstep
    cases hstep
    have hy₃ : Ranked table (Yard.mk (z₂.output ++ ops) y.waiting).waiting := hy
    refine ihy hy₃ hw htops hP ?_ hrun
    rintro m₁ d m₂ i rfl hm₁ hd hi
    exact hdirect (l :: xs ++ r :: m₁) d m₂ i (by simp) (.group hl hr hxs hm₁) hd hi

theorem fits_of_lt {r : Int} {stay : List Token} (hk : table.lookup a.lexeme = some k)
    (hlt : k < r) : Fits table r (a :: stay) := by
  rintro w ⟨⟩ -
  exact ⟨k, hk, hlt⟩

/-- An operator waits, below others that rank above it, through a balanced text in which the operators
that stand directly there rank above it. -/
theorem exists_waiting_above (ha : a.kind = .operator) (hk : table.lookup a.lexeme = some k)
    (hmid : Balanced Token.side mid)
    (hdirect : ∀ m₁ c m₂ r, mid = m₁ ++ c :: m₂ → Balanced Token.side m₁ → c.kind = .operator →
      table.lookup c.lexeme = some r → k < r)
    (hrun : (before ++ a :: mid).foldlM (step table) empty = .ok y) :
    ∃ tops stay, y.waiting = tops ++ a :: stay ∧
      ∀ w ∈ tops, w.kind = .operator ∧ ∃ i, table.lookup w.lexeme = some i ∧ k < i := by
  obtain ⟨y₀, hy₀, hrun⟩ := foldlM_append_eq_ok.1 hrun
  obtain ⟨y₁, hstep, hinside⟩ := foldlM_cons_eq_ok.1 hrun
  have hreached := reached_of_foldlM hy₀
  have hranked := (hreached.step hstep).ranked
  obtain ⟨_, _, stay, -, -, -, -, rfl⟩ := step_operator_cases hreached.ranked ha hstep
  obtain ⟨tops, hw, htops⟩ : ∃ tops, y.waiting = tops ++ a :: stay ∧
      ∀ w ∈ tops, w.kind = .operator ∧ ∃ i, table.lookup w.lexeme = some i ∧ k < i := by
    refine exists_waiting_of_balanced hmid hranked (List.nil_append _).symm nofun
      (fun _ hw => hw.1) ?_ hinside
    intro m₁ c m₂ r hsplit hm₁ hc hr
    have hlt := hdirect m₁ c m₂ r hsplit hm₁ hc hr
    exact ⟨⟨hc, r, hr, hlt⟩, fits_of_lt hk hlt⟩
  exact ⟨tops, stay, hw, htops⟩

/-- An operator is sent away by the first operator directly in the same parentheses that does not rank
above it. -/
theorem mem_output_of_released {m₁ m₂ : List Token} {r : Int} (ha : a.kind = .operator)
    (hk : table.lookup a.lexeme = some k) (hm₁ : Balanced Token.side m₁) (hc : c.kind = .operator)
    (hr : table.lookup c.lexeme = some r) (hle : r ≤ k)
    (hrun : (before ++ a :: (m₁ ++ c :: m₂)).foldlM (step table) empty = .ok y) :
    a ∈ y.output.toList := by
  induction hn : m₁.length using Nat.strongRecOn generalizing m₁ c m₂ r with
  | _ n ih =>
    subst hn
    by_cases hfirst : ∃ n₁ d n₂ i, m₁ = n₁ ++ d :: n₂ ∧ Balanced Token.side n₁ ∧
        d.kind = .operator ∧ table.lookup d.lexeme = some i ∧ i ≤ k
    · obtain ⟨n₁, d, n₂, i, rfl, hn₁, hd, hi, hle'⟩ := hfirst
      have hrun' : (before ++ a :: (n₁ ++ d :: (n₂ ++ c :: m₂))).foldlM (step table) empty =
          .ok y := by simpa using hrun
      exact ih n₁.length (by simp) hn₁ hd hi hle' hrun' rfl
    · have hdirect : ∀ n₁ d n₂ i, m₁ = n₁ ++ d :: n₂ → Balanced Token.side n₁ →
          d.kind = .operator → table.lookup d.lexeme = some i → k < i := by
        intro n₁ d n₂ i hsplit hn₁ hd hi
        by_contra hge
        exact hfirst ⟨n₁, d, n₂, i, hsplit, hn₁, hd, hi, Int.not_lt.1 hge⟩
      rw [← List.cons_append, ← List.append_assoc] at hrun
      obtain ⟨y₁, hy₁, hrun⟩ := foldlM_append_eq_ok.1 hrun
      obtain ⟨y₂, hstep, hrun⟩ := foldlM_cons_eq_ok.1 hrun
      have hreached := reached_of_foldlM hy₁
      obtain ⟨tops, below, hw, htops⟩ := exists_waiting_above ha hk hm₁ hdirect hy₁
      have hranks : ∀ w ∈ tops ++ [a], w.kind = .operator ∧
          ∃ i, table.lookup w.lexeme = some i ∧ r ≤ i := by
        intro w hw
        rcases List.mem_append.1 hw with hw | hw
        · obtain ⟨ho, i, hi, hlt⟩ := htops w hw
          exact ⟨ho, i, hi, Int.le_trans hle (Int.le_of_lt hlt)⟩
        · cases List.mem_singleton.1 hw
          exact ⟨ha, k, hk, hle⟩
      obtain ⟨r', gone, stay, hr', hsplit, -, hstay, rfl⟩ :=
        step_operator_cases hreached.ranked hc hstep
      rw [hr] at hr'
      cases hr'
      have hends : gone ++ stay = (tops ++ [a]) ++ below := by
        rw [← hsplit, hw, List.append_assoc]
        rfl
      obtain ⟨more, rfl, -⟩ := gone_within hends hranks hstay
      have hprefix := ((hreached.step hstep).run hrun).2.1
      exact hprefix.subset (by simp)

theorem mem_waiting_of_operator (hb : b.kind = .operator)
    (hrun : (read ++ [b]).foldlM (step table) empty = .ok y) : b ∈ y.waiting := by
  obtain ⟨y₀, hy₀, hstep⟩ := foldlM_append_eq_ok.1 hrun
  obtain ⟨y₁, hstep, ⟨⟩⟩ := foldlM_cons_eq_ok.1 hstep
  obtain ⟨_, _, _, -, -, -, -, rfl⟩ :=
    step_operator_cases (reached_of_foldlM hy₀).ranked hb hstep
  exact List.mem_cons_self

/-- Of two operators the first comes out first if an operator behind it, up to the second one, that
stands directly in the same parentheses does not rank above it. -/
theorem operator_sublist_of_released {m₁ m₂ : List Token} {r : Int}
    (h : toPostfix table (before ++ a :: (mid ++ b :: after)) = .ok ps) (ha : a.kind = .operator)
    (hb : b.kind = .operator) (hk : table.lookup a.lexeme = some k)
    (hsplit : mid ++ [b] = m₁ ++ c :: m₂) (hm₁ : Balanced Token.side m₁) (hc : c.kind = .operator)
    (hr : table.lookup c.lexeme = some r) (hle : r ≤ k) : [a, b].Sublist ps := by
  have hts : before ++ a :: (mid ++ b :: after) = before ++ a :: mid ++ [b] ++ after := by simp
  rw [hts] at h
  obtain ⟨y, hrun, hsub⟩ := exists_reached_of_toPostfix h
  have hwait := mem_waiting_of_operator hb hrun
  have hout : a ∈ y.output.toList := by
    rw [List.append_assoc, List.cons_append, hsplit] at hrun
    exact mem_output_of_released ha hk hm₁ hc hr hle hrun
  exact (pair_sublist_content hout hwait (by simp [kept, hb])).trans hsub

/-- Of two operators directly in the same parentheses the second comes out first if all operators
directly there, behind the first and up to the second, rank above the first. -/
theorem operator_sublist_of_waiting
    (h : toPostfix table (before ++ a :: (mid ++ b :: after)) = .ok ps) (ha : a.kind = .operator)
    (hb : b.kind = .operator) (hk : table.lookup a.lexeme = some k)
    (hmid : Balanced Token.side mid)
    (hdirect : ∀ m₁ c m₂ r, mid ++ [b] = m₁ ++ c :: m₂ → Balanced Token.side m₁ →
      c.kind = .operator → table.lookup c.lexeme = some r → k < r) : [b, a].Sublist ps := by
  have hts : before ++ a :: (mid ++ b :: after) = before ++ a :: mid ++ [b] ++ after := by simp
  rw [hts] at h
  obtain ⟨y, hrun, hsub⟩ := exists_reached_of_toPostfix h
  obtain ⟨y₁, hy₁, hrun⟩ := foldlM_append_eq_ok.1 hrun
  obtain ⟨y₂, hstep, ⟨⟩⟩ := foldlM_cons_eq_ok.1 hrun
  obtain ⟨tops, stay₀, hw, -⟩ := exists_waiting_above ha hk hmid
    (fun m₁ c m₂ r hsplit => hdirect m₁ c (m₂ ++ [b]) r (by simp [hsplit])) hy₁
  obtain ⟨r, gone, stay, hr, hsplit, hgone, -, rfl⟩ :=
    step_operator_cases (reached_of_foldlM hy₁).ranked hb hstep
  have hlt := hdirect mid b [] r rfl hmid hb hr
  obtain ⟨tops', -, rfl⟩ := gone_within (hw.symm.trans hsplit) hgone (fits_of_lt hk hlt)
  have hkept : [b, a].Sublist ((b :: (tops' ++ a :: stay₀)).filter kept) := by
    simp [kept, ha, hb]
  exact (hkept.trans (List.sublist_append_right _ _)).trans hsub

end Yard

end ExprCalc
