import ExprCalc.Proofs.Respelling

/-!
# One line for each record

A text is split into lines at ten characters. None of them has a printed form, so none stands in a
quoted text (`oneLine_quoted`), whatever the text is. What is logged without quotes, the postfix form,
the value and the message of a fault, is made of lexemes of arithmetic, decimal forms and fixed texts,
and these have no line breaks either. So a record is always one line (`Options.oneLine_execute`), and a
log has as many lines as records (`splitLines_logText`).
-/

namespace ExprCalc

/-! ### Lines -/

/-- The characters that end a line. -/
def lineBreaks : List Char :=
  ['\n', '\x0b', '\x0c', '\r', '\x1c', '\x1d', '\x1e', '\u0085', '\u2028', '\u2029']

def isLineBreak (c : Char) : Bool := lineBreaks.contains c

/-- The lines of a text. A carriage return and a line feed behind it end one line together, and a last
line need not be ended. -/
def splitLines : List Char → List (List Char)
  | [] => []
  | '\r' :: '\n' :: cs => [] :: splitLines cs
  | c :: cs =>
    if isLineBreak c then [] :: splitLines cs
    else
      match splitLines cs with
      | [] => [[c]]
      | line :: lines => (c :: line) :: lines

/-- There is no line break among some characters. -/
def Unbroken (cs : List Char) : Prop := cs.any isLineBreak = false

def OneLine (s : String) : Prop := Unbroken s.toList

instance (cs : List Char) : Decidable (Unbroken cs) := instDecidableEqBool (cs.any isLineBreak) false

instance (s : String) : Decidable (OneLine s) :=
  instDecidableEqBool (s.toList.any isLineBreak) false

section
variable {c : Char} {cs ds : List Char} {s t : String}

theorem unbroken_iff : Unbroken cs ↔ ∀ c ∈ cs, isLineBreak c = false := by
  simp [Unbroken]

theorem unbroken_cons : Unbroken (c :: cs) ↔ isLineBreak c = false ∧ Unbroken cs := by
  simp [Unbroken]

theorem unbroken_singleton : Unbroken [c] ↔ isLineBreak c = false := by
  simp [Unbroken]

theorem unbroken_append : Unbroken (cs ++ ds) ↔ Unbroken cs ∧ Unbroken ds := by
  simp [Unbroken, -List.any_eq_false]

theorem unbroken_flatMap {f : Char → List Char} (h : ∀ c ∈ cs, Unbroken (f c)) :
    Unbroken (cs.flatMap f) := by
  refine unbroken_iff.2 fun d hd => ?_
  obtain ⟨c, hc, hd⟩ := List.mem_flatMap.1 hd
  exact unbroken_iff.1 (h c hc) d hd

theorem OneLine.append (hs : OneLine s) (ht : OneLine t) : OneLine (s ++ t) := by
  unfold OneLine
  rw [String.toList_append]
  exact unbroken_append.2 ⟨hs, ht⟩

theorem oneLine_ofList : OneLine (String.ofList cs) ↔ Unbroken cs := by
  unfold OneLine
  rw [String.toList_ofList]

theorem oneLine_join {ss : List String} (h : ∀ s ∈ ss, OneLine s) : OneLine (String.join ss) := by
  refine unbroken_iff.2 fun c hc => ?_
  rw [String.toList_join] at hc
  obtain ⟨s, hs, hc⟩ := List.mem_flatMap.1 hc
  exact unbroken_iff.1 (h s hs) c hc

theorem splitLines_unbroken_append (h : Unbroken cs) (rest : List Char) :
    splitLines (cs ++ '\n' :: rest) = cs :: splitLines rest := by
  induction cs with
  | nil => rfl
  | cons c cs ih =>
    obtain ⟨hc, hcs⟩ := unbroken_cons.1 h
    rw [List.cons_append, splitLines, if_neg (by simp [hc]), ih hcs]
    rintro _ ⟨⟩
    cases hc

/-- Lines that are each ended by a line feed. -/
theorem splitLines_flatMap {lines : List (List Char)} (h : ∀ line ∈ lines, Unbroken line) :
    splitLines (lines.flatMap (· ++ ['\n'])) = lines := by
  induction lines with
  | nil => rfl
  | cons line lines ih =>
    obtain ⟨hline, hlines⟩ := List.forall_mem_cons.1 h
    rw [List.flatMap_cons, List.append_assoc, List.singleton_append,
      splitLines_unbroken_append hline, ih hlines]

example : splitLines "a\r\nb\u2028\nc".toList = [['a'], ['b'], [], ['c']] := by decide

end

/-! ### Texts without line breaks -/

theorem isPrintable_of_isLineBreak {c : Char} (h : isLineBreak c = true) : isPrintable c = false := by
  have hall : (lineBreaks.all fun c => !isPrintable c) = true := by decide +kernel
  have hc := List.all_eq_true.1 hall c (List.contains_iff_mem.1 h)
  rwa [Bool.not_eq_true'] at hc

theorem unbroken_toDigits {b : Nat} (h1 : 1 < b) (h16 : b ≤ 16) (n : Nat) :
    Unbroken (Nat.toDigits b n) := by
  have hdigit : ∀ k < 16, isLineBreak (Nat.digitChar k) = false := by decide
  induction n using Nat.strongRecOn with
  | ind n ih =>
    rw [Nat.toDigits_eq_if h1]
    split
    · next hn => exact unbroken_singleton.2 (hdigit n (by omega))
    · next hn =>
      have hless : n / b < n := Nat.div_lt_self (by omega) h1
      have hlast : n % b < b := Nat.mod_lt n (by omega)
      exact unbroken_append.2 ⟨ih _ hless, unbroken_singleton.2 (hdigit _ (by omega))⟩

theorem oneLine_decimal (n : Int) : OneLine (decimal n) := by
  have hdigits := unbroken_toDigits (b := 10) (by decide) (by decide) n.natAbs
  rw [decimal, oneLine_ofList, decimalChars]
  split
  · exact unbroken_cons.2 ⟨rfl, hdigits⟩
  · exact hdigits

namespace Quoted

theorem unbroken_hex (width n : Nat) : Unbroken (hex width n) := by
  show Unbroken (List.replicate _ '0' ++ Nat.toDigits 16 n)
  refine unbroken_append.2 ⟨unbroken_iff.2 fun c hc => ?_, unbroken_toDigits (by decide) (by decide) n⟩
  rw [List.eq_of_mem_replicate hc]
  rfl

theorem unbroken_byCode (c : Char) : Unbroken (byCode c) := by
  have hlead : ∀ mark, isLineBreak mark = false → ∀ width,
      Unbroken (backslash :: mark :: hex width c.toNat) := fun mark hmark width =>
    unbroken_cons.2 ⟨rfl, unbroken_cons.2 ⟨hmark, unbroken_hex width c.toNat⟩⟩
  unfold byCode
  dsimp only
  split_ifs
  · exact hlead 'x' rfl 2
  · exact hlead 'u' rfl 4
  · exact hlead 'U' rfl 8

theorem unbroken_escape {quote : Char} (hquote : isLineBreak quote = false) (c : Char) :
    Unbroken (escape quote c) := by
  unfold escape
  split_ifs with hsign _ _ _ hprintable
  · have hc : isLineBreak c = false := by
      rcases hsign with rfl | rfl
      · exact hquote
      · rfl
    exact unbroken_cons.2 ⟨rfl, unbroken_singleton.2 hc⟩
  · rfl
  · rfl
  · rfl
  · refine unbroken_singleton.2 (Bool.eq_false_iff.2 fun hc => ?_)
    rw [isPrintable_of_isLineBreak hc] at hprintable
    cases hprintable
  · exact unbroken_byCode c

theorem isLineBreak_delimiter (cs : List Char) : isLineBreak (delimiter cs) = false := by
  unfold delimiter
  split_ifs <;> rfl

end Quoted

/-- Whatever a text is, its quoted form is on one line. -/
theorem oneLine_quoted (s : String) : OneLine (quoted s) := by
  have hquote := Quoted.isLineBreak_delimiter s.toList
  rw [quoted, oneLine_ofList, Quoted.encode]
  exact unbroken_append.2 ⟨unbroken_cons.2 ⟨hquote, unbroken_flatMap fun c _ =>
    Quoted.unbroken_escape hquote c⟩, unbroken_singleton.2 hquote⟩

theorem Operator.oneLine_lexeme (op : Operator) : OneLine op.lexeme := by cases op <;> rfl

theorem Token.Arithmetic.oneLine {t : Token} (h : t.Arithmetic) : OneLine t.lexeme := by
  cases h with
  | number _ hd =>
    refine unbroken_iff.2 fun c hc => Bool.eq_false_iff.2 fun hbreak => ?_
    have hno : (lineBreaks.all fun c => !c.isDigit) = true := rfl
    have hdigit := List.all_eq_true.1 hno c (List.contains_iff_mem.1 hbreak)
    rw [hd c hc] at hdigit
    cases hdigit
  | operator op => exact op.oneLine_lexeme
  | leftParen =>
    show OneLine "("
    decide
  | rightParen =>
    show OneLine ")"
    decide

theorem Token.oneLine_spell {ts : List Token} (h : ∀ t ∈ ts, t.Arithmetic) : OneLine (spell ts) := by
  induction ts with
  | nil => rfl
  | cons t ts ih =>
    obtain ⟨ht, hts⟩ := List.forall_mem_cons.1 h
    unfold OneLine
    rw [toList_spell_cons]
    refine unbroken_append.2 ⟨ht.oneLine, ?_⟩
    split_ifs
    · rfl
    · exact unbroken_cons.2 ⟨rfl, ih hts⟩

namespace Fault.OfText
variable {limits : Limits} {f : Fault}

theorem oneLine_message (h : f.OfText limits) : OneLine f.message := by
  refine oneLine_join ?_
  cases h with
  | tooLong | resultTooLarge | leftoverValues =>
    simp only [parts, List.forall_mem_cons]
    exact ⟨rfl, oneLine_decimal _, rfl, List.forall_mem_nil _⟩
  | unmatchedRight offset | unmatchedLeft offset =>
    simp only [parts, place, List.forall_mem_cons]
    exact ⟨rfl, rfl, oneLine_decimal _, List.forall_mem_nil _⟩
  | missingOperand op =>
    simp only [parts, List.forall_mem_cons]
    exact ⟨rfl, oneLine_quoted _, rfl, List.forall_mem_nil _⟩
  | emptyExpression | divisionByZero | zeroToNegativePower => exact List.forall_mem_singleton.2 rfl
  | unconvertible =>
    simp only [parts, conversionComplaint, List.forall_mem_cons]
    exact ⟨rfl, oneLine_decimal _, rfl, oneLine_decimal _, rfl, List.forall_mem_nil _⟩

theorem oneLine_code (h : f.OfText limits) (hf : f.reported = true) : OneLine f.code := by
  have hcodes : ∀ d ∈ textDiagnoses, OneLine d.2 := by decide
  exact hcodes _ (h.diagnosis_mem hf)

end Fault.OfText

/-! ### Records -/

theorem Record.oneLine_line (level : Level) {channel message : String} (hchannel : OneLine channel)
    (hmessage : OneLine message) : OneLine (Record.line ⟨level, channel, message⟩) := by
  have hlead : OneLine ("[" ++ level.name ++ "] " ++ programName ++ ".") := by cases level <;> rfl
  show OneLine ("[" ++ level.name ++ "] " ++ programName ++ "." ++ channel ++ ": " ++ message)
  exact ((hlead.append hchannel).append (by decide)).append hmessage

namespace Traced
variable {ε α β : Type} {P : Record → Prop}

theorem forall_records_ofOutcome {outcome : Except ε α} {records : α → List Record}
    (h : ∀ a, outcome = .ok a → ∀ r ∈ records a, P r) : ∀ r ∈ (ofOutcome outcome records).records, P r := by
  cases outcome with
  | error e => exact List.forall_mem_nil P
  | ok a => exact h a rfl

theorem forall_records_bind {x : Traced ε α} {f : α → Traced ε β} (hx : ∀ r ∈ x.records, P r)
    (hf : ∀ a, x.outcome = .ok a → ∀ r ∈ (f a).records, P r) : ∀ r ∈ (x >>= f).records, P r := by
  show ∀ r ∈ (Traced.bind x f).records, P r
  unfold Traced.bind
  cases hout : x.outcome with
  | error e => exact hx
  | ok a => exact List.forall_mem_append.2 ⟨hx, hf a hout⟩

end Traced

namespace Calculator
variable {limits : Limits} {s : String} {ts : List Token}

theorem oneLine_of_gapRecord? {segment : Segment} {r : Record} (h : gapRecord? segment = some r) :
    OneLine r.line := by
  cases segment with
  | taken o => cases h
  | gap start text =>
    unfold gapRecord? at h
    dsimp only at h
    split_ifs at h
    cases h
    refine Record.oneLine_line _ rfl ?_
    show OneLine ("Skipping unrecognized input " ++ quoted (String.ofList text) ++ " at " ++ decimal start)
    have hlead : OneLine "Skipping unrecognized input " := rfl
    exact ((hlead.append (oneLine_quoted _)).append (by decide)).append (oneLine_decimal _)

theorem oneLine_tokenizeTraced (lexicon : Lexicon) (limits : Limits) (s : String) :
    ∀ r ∈ (tokenizeTraced lexicon limits s).records, OneLine r.line := by
  refine Traced.forall_records_bind ?_ fun _ _ => List.forall_mem_nil _
  refine Traced.forall_records_ofOutcome fun segments _ => ?_
  refine List.forall_mem_append.2 ⟨fun r hr => ?_, List.forall_mem_singleton.2 ?_⟩
  · obtain ⟨segment, -, hsegment⟩ := List.mem_filterMap.1 hr
    exact oneLine_of_gapRecord? hsegment
  · refine Record.oneLine_line _ rfl ?_
    show OneLine ("Tokenized " ++ quoted s ++ " into " ++ decimal _ ++ " tokens")
    have hlead : OneLine "Tokenized " := rfl
    exact (((hlead.append (oneLine_quoted s)).append (by decide)).append (oneLine_decimal _)).append (by decide)

/-- The lexemes in the postfix form of a text are not quoted, but they are lexemes of arithmetic. -/
theorem oneLine_toPostfixTraced (hts : Lexicon.arithmetic.tokenize limits s = .ok ts) :
    ∀ r ∈ (toPostfixTraced .arithmetic ts).records, OneLine r.line := by
  refine Traced.forall_records_ofOutcome fun ps hps => List.forall_mem_singleton.2 ?_
  refine Record.oneLine_line _ rfl ?_
  show OneLine ("Postfix: " ++ Token.spell ps)
  exact .append (by decide) (Token.oneLine_spell (arithmetic_of_mem_postfixForm hts hps))

theorem oneLine_evaluateTraced (limits : Limits) (operations : Operations) (ts : List Token) :
    ∀ r ∈ (evaluateTraced limits operations ts).records, OneLine r.line := by
  refine Traced.forall_records_ofOutcome fun v _ => ?_
  split
  · refine List.forall_mem_singleton.2 (Record.oneLine_line _ rfl ?_)
    show OneLine ("Evaluated to " ++ decimal v)
    exact .append (by decide) (oneLine_decimal v)
  · exact List.forall_mem_nil _

theorem oneLine_runTraced (limits : Limits) (s : String) :
    ∀ r ∈ (runTraced limits s).records, OneLine r.line := by
  refine Traced.forall_records_bind (oneLine_tokenizeTraced _ limits s) fun ts hts => ?_
  rw [outcome_tokenizeTraced] at hts
  refine Traced.forall_records_bind (oneLine_toPostfixTraced hts) fun ps _ => ?_
  exact Traced.forall_records_bind (oneLine_evaluateTraced limits _ ps) fun _ _ => List.forall_mem_nil _

theorem oneLine_failureRecords (limits : Limits) (s : String) :
    ∀ r ∈ failureRecords s (run limits s), OneLine r.line := by
  cases h : run limits s with
  | ok e => exact List.forall_mem_nil _
  | error f =>
    by_cases hreported : f.reported = true
    · rw [failureRecords, if_pos hreported]
      have hf := ofText_of_evaluateExpression (evaluateExpression_eq_error.2 h)
      refine List.forall_mem_singleton.2 (Record.oneLine_line _ rfl ?_)
      show OneLine ("Evaluation of " ++ quoted s ++ " failed: " ++ f.message ++ " (" ++ f.code ++ ")")
      have hsubject : OneLine ("Evaluation of " ++ quoted s ++ " failed: ") :=
        (OneLine.append (by decide) (oneLine_quoted s)).append (by decide)
      exact (((hsubject.append hf.oneLine_message).append (by decide)).append
        (hf.oneLine_code hreported)).append (by decide)
    · rw [failureRecords, if_neg hreported]
      exact List.forall_mem_nil _

theorem oneLine_calculateTraced (limits : Limits) (s : String) :
    ∀ r ∈ (calculateTraced limits s).records, OneLine r.line := by
  refine List.forall_mem_append.2 ⟨oneLine_runTraced limits s, ?_⟩
  rw [outcome_runTraced]
  exact oneLine_failureRecords limits s

end Calculator

namespace HealthCheck

theorem oneLine_lexemes (limits : Limits) : ∀ r ∈ (lexemes limits).records, OneLine r.line :=
  Traced.forall_records_bind (Calculator.oneLine_tokenizeTraced _ limits _) fun _ _ =>
    List.forall_mem_nil _

theorem oneLine_postfixForm (limits : Limits) :
    ∀ r ∈ (postfixForm limits).records, OneLine r.line := by
  refine Traced.forall_records_bind (Calculator.oneLine_tokenizeTraced _ limits _) fun ts hts => ?_
  rw [Calculator.outcome_tokenizeTraced] at hts
  exact Traced.forall_records_bind (Calculator.oneLine_toPostfixTraced hts) fun _ _ =>
    List.forall_mem_nil _

theorem records_expect {α : Type} [DecidableEq α] (run : Traced Fault α) (expected : α)
    (render : α → String) (good bad : String) :
    (expect run expected render good bad).records = run.records := by
  unfold expect
  cases run.outcome <;> rfl

theorem records_inspect (run : Traced Fault Report) (passes : Report → Bool) (good bad : String) :
    (inspect run passes good bad).records = run.records := by
  unfold inspect
  cases run.outcome <;> rfl

theorem oneLine_checks (limits : Limits) : ∀ c ∈ checks limits, ∀ r ∈ c.records, OneLine r.line := by
  simp only [checks, List.forall_mem_cons, records_expect, records_inspect]
  exact ⟨oneLine_lexemes limits, oneLine_postfixForm limits, Calculator.oneLine_calculateTraced _ _,
    Calculator.oneLine_calculateTraced _ _, List.forall_mem_nil _⟩

/-- What is reported is what has been recorded by some of the checks. -/
theorem exists_check_of_mem_records {limits : Limits} {r : Record}
    (hr : r ∈ (HealthCheck.report limits).records) : ∃ c ∈ checks limits, r ∈ c.records := by
  unfold HealthCheck.report at hr
  dsimp only at hr
  split at hr
  · exact List.mem_flatMap.1 hr
  · next c rest hbroken =>
    obtain ⟨c', hc', hr⟩ := List.mem_flatMap.1 hr
    refine ⟨c', ?_, hr⟩
    rcases List.mem_append.1 hc' with hc' | hc'
    · exact List.takeWhile_subset _ hc'
    · have hmem : c ∈ (checks limits).dropWhile (·.broken.isNone) := hbroken ▸ List.mem_cons_self
      rw [List.mem_singleton.1 hc']
      exact List.dropWhile_subset _ hmem

theorem oneLine_report (limits : Limits) :
    ∀ r ∈ (HealthCheck.report limits).records, OneLine r.line := by
  intro r hr
  obtain ⟨c, hc, hr⟩ := exists_check_of_mem_records hr
  exact oneLine_checks limits c hc r hr

end HealthCheck

theorem records_answer (limits : Limits) (format : OutputFormat) (showPostfix : Bool) (s : String) :
    (answer limits format showPostfix s).records = (Calculator.calculateTraced limits s).records := by
  unfold answer
  dsimp only
  split
  · rfl
  · split <;> rfl

theorem oneLine_answer (limits : Limits) (format : OutputFormat) (showPostfix : Bool) (s : String) :
    ∀ r ∈ (answer limits format showPostfix s).records, OneLine r.line := by
  rw [records_answer]
  exact Calculator.oneLine_calculateTraced limits s

theorem Repl.oneLine_turn (limits : Limits) (format : OutputFormat) (showPostfix : Bool)
    (i : Option Input) : ∀ r ∈ (turn limits format showPostfix i).records, OneLine r.line := by
  rcases i with _ | text | _
  · exact List.forall_mem_nil _
  · rw [turn, respond]
    cases Command.ofLine text with
    | nothing | quit | help => exact List.forall_mem_nil _
    | evaluate expression => exact oneLine_answer limits format showPostfix expression
  · exact List.forall_mem_nil _

theorem Repl.oneLine_converse (limits : Limits) (format : OutputFormat) (showPostfix : Bool)
    (inputs : List Input) :
    ∀ r ∈ (converse limits format showPostfix inputs).records, OneLine r.line := by
  induction inputs with
  | nil => exact oneLine_turn limits format showPostfix none
  | cons i is ih =>
    unfold converse
    dsimp only
    split_ifs
    · exact oneLine_turn limits format showPostfix (some i)
    · exact List.forall_mem_append.2 ⟨oneLine_turn limits format showPostfix (some i), ih⟩

theorem Options.oneLine_evaluateRecord (expression : String) :
    OneLine (evaluateRecord expression).line := by
  refine Record.oneLine_line _ rfl ?_
  show OneLine ("Evaluating " ++ quoted expression ++ " from the command line")
  exact (OneLine.append (by decide) (oneLine_quoted expression)).append (by decide)

theorem Options.oneLine_execute (o : Options) (mode : Mode) (limits : Limits)
    (inputs : List Repl.Input) : ∀ r ∈ (o.execute mode limits inputs).records, OneLine r.line := by
  cases mode with
  | version => exact List.forall_mem_nil _
  | healthCheck => exact HealthCheck.oneLine_report limits
  | evaluate expression =>
    exact List.forall_mem_cons.2 ⟨oneLine_evaluateRecord expression, oneLine_answer limits _ _ expression⟩
  | converse => exact Repl.oneLine_converse limits _ _ inputs

/-! ### Logs -/

/-- The records written to a sink, in order. -/
def Outcome.writtenTo (outcome : Outcome) (sink : Sink) : List Record :=
  outcome.written.filterMap fun w => if w.1 = sink then some w.2 else none

/-- A record as it stands in a log, behind its time stamp. -/
def stamped (entry : String × Record) : String := entry.1 ++ " " ++ entry.2.line

/-- The text of a log. -/
def logText (entries : List (String × Record)) : String :=
  String.join (entries.map fun entry => stamped entry ++ "\n")

theorem splitLines_logText {entries : List (String × Record)}
    (h : ∀ entry ∈ entries, OneLine entry.1 ∧ OneLine entry.2.line) :
    splitLines (logText entries).toList = entries.map fun entry => (stamped entry).toList := by
  have htext : (logText entries).toList =
      (entries.map fun entry => (stamped entry).toList).flatMap (· ++ ['\n']) := by
    simp [logText, String.toList_join, List.flatMap_map]
  rw [htext]
  refine splitLines_flatMap fun line hline => ?_
  obtain ⟨entry, hentry, rfl⟩ := List.mem_map.1 hline
  obtain ⟨hstamp, hrecord⟩ := h entry hentry
  exact (hstamp.append (by decide)).append hrecord

/-- What a command writes are records of what it does. -/
theorem exists_of_mem_written {files : Files} {settings : Settings} {arguments : List String}
    {inputs : List Repl.Input} {w : Sink × Record}
    (h : w ∈ (runCommand files settings arguments inputs).written) :
    ∃ (o : Options) (mode : Mode), w.2 ∈ (o.execute mode settings.limits inputs).records := by
  cases ho : Options.ofArguments arguments with
  | error stop =>
    rw [runCommand, startCommand, ho] at h
    cases stop <;> cases h
  | ok o =>
    cases hfile : files.refusal o.logFile with
    | some reason =>
      rw [runCommand_of_refusal settings inputs ho hfile] at h
      cases h
    | none =>
      cases hmode : o.mode with
      | error e =>
        rw [runCommand_of_mode_eq_error settings inputs ho hfile hmode] at h
        cases h
      | ok mode =>
        rw [runCommand_of_mode settings inputs ho hfile hmode] at h
        obtain ⟨r, hr, hsink⟩ := List.mem_flatMap.1 h
        obtain ⟨_, -, rfl⟩ := List.mem_map.1 hsink
        exact ⟨o, mode, List.mem_of_mem_filter hr⟩

theorem oneLine_of_mem_writtenTo {files : Files} {settings : Settings} {arguments : List String}
    {inputs : List Repl.Input} {sink : Sink} :
    ∀ r ∈ (runCommand files settings arguments inputs).writtenTo sink, OneLine r.line := by
  intro r hr
  obtain ⟨⟨sink', r'⟩, hwritten, heq⟩ := List.mem_filterMap.1 hr
  obtain rfl : r' = r := by
    dsimp only at heq
    split_ifs at heq
    exact Option.some.inj heq
  obtain ⟨o, mode, hrecord⟩ := exists_of_mem_written hwritten
  exact o.oneLine_execute mode settings.limits inputs r' hrecord

/-- The records of the evaluation of a text, and all those of a command, whatever it does, are each
formatted as one line. So if records of evaluations and of commands stand in a log, each behind a time
stamp without a line break, then they are the lines of the log, and there are as many lines as records. -/
theorem log_lines :
    (∀ limits s, ∀ r ∈ (Calculator.calculateTraced limits s).records, OneLine r.line) ∧
    (∀ (o : Options) mode limits inputs, ∀ r ∈ (o.execute mode limits inputs).records,
      OneLine r.line) ∧
    ∀ records : List Record, (∀ r ∈ records,
        (∃ limits s, r ∈ (Calculator.calculateTraced limits s).records) ∨
        ∃ files settings arguments inputs sink,
          r ∈ (runCommand files settings arguments inputs).writtenTo sink) →
      ∀ entries, (∀ entry ∈ entries, OneLine entry.1) → entries.map Prod.snd = records →
        splitLines (logText entries).toList = (entries.map fun entry => (stamped entry).toList) ∧
          (splitLines (logText entries).toList).length = records.length := by
  refine ⟨Calculator.oneLine_calculateTraced, Options.oneLine_execute, ?_⟩
  rintro records hrecords entries hstamps rfl
  have hlines : splitLines (logText entries).toList = entries.map fun entry => (stamped entry).toList := by
    refine splitLines_logText fun entry hentry => ⟨hstamps entry hentry, ?_⟩
    rcases hrecords entry.2 (List.mem_map_of_mem hentry) with ⟨limits, s, hr⟩ |
      ⟨files, settings, arguments, inputs, sink, hr⟩
    · exact Calculator.oneLine_calculateTraced limits s _ hr
    · exact oneLine_of_mem_writtenTo _ hr
  refine ⟨hlines, ?_⟩
  rw [hlines, List.length_map, List.length_map]

/-- A line feed and what looks like a record behind it do not make a line. -/
theorem log_lines_line_feed :
    let settings : Settings := ⟨⟨2, 1, 3, some 4300⟩, "WARNING"⟩
    let arguments := ["--log-level", "DEBUG", "--log-file", "a.log", "-e", "1\n[ERROR] x: 2"]
    ∃ records, (runCommand (fun _ => none) settings arguments []).writtenTo (.file "a.log") = records ∧
      records.map Record.message =
        ["Evaluating '1\\n[ERROR] x: 2' from the command line",
          "Evaluation of '1\\n[ERROR] x: 2' failed: Input too long (max 2 characters) (TOO_LONG)"] ∧
      (splitLines (logText (records.map ("noon", ·))).toList).length = 2 := by
  intro settings arguments
  obtain ⟨-, -, hlog⟩ := log_lines
  obtain ⟨records, hrecords⟩ : ∃ records,
    (runCommand (fun _ => none) settings arguments []).writtenTo (.file "a.log") = records := ⟨_, rfl⟩
  have hmessages : records.map Record.message =
      ["Evaluating '1\\n[ERROR] x: 2' from the command line",
        "Evaluation of '1\\n[ERROR] x: 2' failed: Input too long (max 2 characters) (TOO_LONG)"] := by
    rw [← hrecords]
    decide +kernel
  have hstamps : ∀ entry ∈ records.map (Prod.mk "noon"), OneLine entry.1 := by
    intro entry hentry
    obtain ⟨r, -, rfl⟩ := List.mem_map.1 hentry
    show OneLine "noon"
    decide
  obtain ⟨-, hcount⟩ := hlog records
    (fun r hr => .inr ⟨_, settings, arguments, [], _, hrecords.symm ▸ hr⟩) _ hstamps (by simp)
  refine ⟨records, hrecords, hmessages, hcount.trans ?_⟩
  rw [← List.length_map Record.message, hmessages]
  rfl

end ExprCalc
