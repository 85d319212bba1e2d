import ExprCalc.CommandLine.Run
import ExprCalc.Proofs.Acceptance
import ExprCalc.Proofs.Delivery
import ExprCalc.Proofs.Magnitude

/-!
# Ways in

A text is given for its value, for a report or only to be validated, and a command takes one from its
arguments. What comes back is in each case determined by the outcome of `Calculator.run`: a report
tells as much of it as there is to tell, and a text that does not pass validation has failed for the
same cause in every other way. A command comes to its expression only if the log file that it is to write
can be opened (`runCommand_of_refusal`), and shows the report on it only if the value can be written,
which every value can be within limits of up to 4300 digits (`unwritable_of_calculate`).
-/

namespace ExprCalc

/-- A command with these options evaluates `a`, without the blanks at its ends. -/
structure Options.Evaluates (o : Options) (a : String) : Prop where
  version : o.version = false
  healthCheck : o.healthCheck = false
  expression : o.evalExpression = some (some a) ∨ o.evalExpression = none ∧ o.expression = some a

namespace Calculator

/-! ### Stages -/

section
variable {limits : Limits} {s : String} {e : Evaluated} {v : Int} {f : Fault}

theorem run_eq_ok : run limits s = .ok e ↔ Lexicon.arithmetic.tokenize limits s = .ok e.tokens ∧
    toPostfix .arithmetic e.tokens = .ok e.postfixForm ∧
      evaluate limits (.arithmetic limits) e.postfixForm = .ok e.value := by
  unfold run
  constructor
  · intro h
    obtain ⟨ts, hts, h⟩ := bind_eq_ok.1 h
    obtain ⟨ps, hps, h⟩ := bind_eq_ok.1 h
    obtain ⟨v, hv, ⟨⟩⟩ := bind_eq_ok.1 h
    exact ⟨hts, hps, hv⟩
  · rintro ⟨hts, hps, hv⟩
    exact bind_eq_ok.2 ⟨_, hts, bind_eq_ok.2 ⟨_, hps, bind_eq_ok.2 ⟨_, hv, rfl⟩⟩⟩

theorem validate_eq_error : validate limits s = .error f ↔
    Lexicon.arithmetic.tokenize limits s = .error f ∨
      ∃ ts, Lexicon.arithmetic.tokenize limits s = .ok ts ∧ toPostfix .arithmetic ts = .error f := by
  unfold validate
  rw [bind_eq_error]
  refine or_congr_right (exists_congr fun ts => and_congr_right fun _ => ?_)
  rw [bind_eq_error]
  exact or_iff_left (by rintro ⟨_, _, ⟨⟩⟩)

theorem run_of_validate_eq_error (h : validate limits s = .error f) : run limits s = .error f := by
  rcases validate_eq_error.1 h with h | ⟨ts, hts, h⟩
  · exact bind_eq_error.2 (.inl h)
  · exact bind_eq_error.2 (.inr ⟨ts, hts, bind_eq_error.2 (.inl h)⟩)

/-! ### Reports -/

theorem result_eq_some_iff {report : Report} (h : calculate limits s = .ok report) :
    (report.ok = true ∧ report.result = some v) ↔ evaluateExpression limits s = .ok v := by
  rw [evaluateExpression_eq_ok]
  cases hrun : run limits s with
  | ok e =>
    cases h.symm.trans (calculate_of_ok hrun)
    simp [reportValue]
  | error f => simp [ok_eq_false h hrun]

theorem eq_reportFault {report : Report} (h : calculate limits s = .ok report)
    (hf : evaluateExpression limits s = .error f) : report = reportFault s f := by
  rw [calculate, evaluateExpression_eq_error.1 hf, reportOn] at h
  split_ifs at h
  exact (Except.ok.inj h).symm

theorem exists_stack_of_evaluateExpression (h : evaluateExpression limits s = .ok v) :
    ∃ (ts : List Token) (stack : List Int),
      ts.foldlM (evalStep limits (.arithmetic limits)) [] = .ok stack ∧ v ∈ stack := by
  obtain ⟨e, he, rfl⟩ := evaluateExpression_eq_ok.1 h
  obtain ⟨-, -, hv⟩ := run_eq_ok.1 he
  obtain ⟨stack, hrun, hsole⟩ := bind_eq_ok.1 hv
  exact ⟨_, stack, hrun, mem_of_soleValue hsole⟩

/-- Where results can be written, so can what is reported. -/
theorem unwritable_of_calculate (hwrites : limits.Writable) {report : Report}
    (h : calculate limits s = .ok report) : report.unwritable limits = none := by
  cases hrun : evaluateExpression limits s with
  | ok v =>
    obtain ⟨ts, stack, hstack, hmem⟩ := exists_stack_of_evaluateExpression hrun
    rw [Report.unwritable, ((result_eq_some_iff h).2 hrun).2]
    exact unwritable_of_mem_stack hwrites hstack v hmem
  | error f =>
    rw [eq_reportFault h hrun]
    rfl

theorem error_eq_some_iff {report : Report} (h : calculate limits s = .ok report) {m c : String} :
    (report.ok = false ∧ report.error = some m ∧ report.errorCode = some c) ↔
      ∃ f, evaluateExpression limits s = .error f ∧ f.message = m ∧ f.code = c := by
  cases hrun : evaluateExpression limits s with
  | ok v => simp [((result_eq_some_iff h).2 hrun).1]
  | error f => simp [eq_reportFault h hrun, reportFault]

/-- Nothing is computed in validation, so what it has against a text is reported. -/
theorem calculate_of_validate_eq_error (h : validate limits s = .error f) :
    calculate limits s = .ok (reportFault s f) := by
  refine calculate_of_reported (run_of_validate_eq_error h) ?_
  rcases validate_eq_error.1 h with h | ⟨ts, -, h⟩
  · rw [tokenize_eq_error h]
    rfl
  · exact reported_of_toPostfix h

end

end Calculator

/-! ### Commands -/

section
variable {arguments : List String} {o : Options} {a : String}

theorem Options.Evaluates.mode_eq (h : o.Evaluates a) :
    o.mode = .ok (.evaluate (trimBlanks a)) := by
  unfold Options.mode
  rw [h.version, h.healthCheck]
  rcases h.expression with he | ⟨hnone, he⟩
  · rw [he]
    rfl
  · rw [hnone, he]
    rfl

variable {files : Files} (settings : Settings) (inputs : List Repl.Input)

theorem Options.logging_snd (o : Options) (files : Files) (fallback : String) :
    (o.logging files fallback).2 = files.refusal o.logFile := by
  rw [logging, Logging.setUp_eq]

theorem Options.logging_of_opens (hfile : files.refusal o.logFile = none) (fallback : String) :
    o.logging files fallback = ((o.logging files fallback).1, none) :=
  Prod.ext rfl ((o.logging_snd files fallback).trans hfile)

theorem runCommand_of_mode {mode : Mode} (ho : Options.ofArguments arguments = .ok o)
    (hfile : files.refusal o.logFile = none) (hm : o.mode = .ok mode) :
    runCommand files settings arguments inputs =
      (o.execute mode settings.limits inputs).outcome (o.logging files settings.logLevel).1 := by
  rw [runCommand, startCommand, ho]
  dsimp only
  rw [Options.logging_of_opens hfile settings.logLevel, hm]

theorem runCommand_of_mode_eq_error {e : CommandError} (ho : Options.ofArguments arguments = .ok o)
    (hfile : files.refusal o.logFile = none) (hm : o.mode = .error e) :
    runCommand files settings arguments inputs = e.outcome := by
  rw [runCommand, startCommand, ho]
  dsimp only
  rw [Options.logging_of_opens hfile settings.logLevel, hm]

/-- A log file that cannot be opened ends a command before anything else. -/
theorem runCommand_of_refusal {reason : String} (ho : Options.ofArguments arguments = .ok o)
    (hfile : files.refusal o.logFile = some reason) :
    runCommand files settings arguments inputs = (CommandError.unopenable reason).outcome := by
  have hlogging : o.logging files settings.logLevel =
      ((o.logging files settings.logLevel).1, some reason) :=
    Prod.ext rfl ((o.logging_snd files _).trans hfile)
  rw [runCommand, startCommand, ho]
  dsimp only
  rw [hlogging]

theorem answer_of_ok {limits : Limits} {s : String} {report : Report}
    (h : Calculator.calculate limits s = .ok report) (hw : report.unwritable limits = none)
    (format : OutputFormat) (showPostfix : Bool) : answer limits format showPostfix s =
      { output := report.print format showPostfix, exit := if report.ok then 0 else 1
        records := (Calculator.calculateTraced limits s).records } := by
  rw [← Calculator.outcome_calculateTraced] at h
  simp only [answer, h, hw]

theorem answer_of_unwritable {limits : Limits} {s : String} {report : Report} {most : Nat}
    (h : Calculator.calculate limits s = .ok report) (hw : report.unwritable limits = some most)
    (format : OutputFormat) (showPostfix : Bool) : answer limits format showPostfix s =
      { output := report.opening format showPostfix, exit := 1
        records := (Calculator.calculateTraced limits s).records
        broken := some (.unwritable most) } := by
  rw [← Calculator.outcome_calculateTraced] at h
  simp only [answer, h, hw]

section
variable {report : Report}

theorem runCommand_evaluates (ho : Options.ofArguments arguments = .ok o) (h : o.Evaluates a)
    (hfile : files.refusal o.logFile = none)
    (hreport : Calculator.calculate settings.limits (trimBlanks a) = .ok report)
    (hw : report.unwritable settings.limits = none) :
    (runCommand files settings arguments inputs).broken = none ∧
      (runCommand files settings arguments inputs).exit = (if report.ok then 0 else 1) ∧
      (runCommand files settings arguments inputs).output = report.print o.format o.showPostfix := by
  rw [runCommand_of_mode settings inputs ho hfile h.mode_eq, Options.execute, answer_of_ok hreport hw]
  exact ⟨rfl, rfl, rfl⟩

theorem runCommand_of_unwritable {most : Nat} (ho : Options.ofArguments arguments = .ok o)
    (h : o.Evaluates a) (hfile : files.refusal o.logFile = none)
    (hreport : Calculator.calculate settings.limits (trimBlanks a) = .ok report)
    (hw : report.unwritable settings.limits = some most) :
    (runCommand files settings arguments inputs).broken = some (.uncaught (.unwritable most)) ∧
      (runCommand files settings arguments inputs).exit = 1 ∧
      (runCommand files settings arguments inputs).output =
        report.opening o.format o.showPostfix := by
  rw [runCommand_of_mode settings inputs ho hfile h.mode_eq, Options.execute,
    answer_of_unwritable hreport hw]
  exact ⟨rfl, rfl, rfl⟩

end

/-- Every text can be given to a command, behind the separator. -/
theorem ofArguments_separator (a : String) :
    Options.ofArguments ["--", a] = .ok { expression := some a } := rfl

end

namespace Calculator

/-- A report has a value if and only if the evaluation of the text returns it, and then the tokens and
their postfix form beside it; else it has the message and the code of the fault of the evaluation, and
nothing beside them. There is a report on every text if the literals within the limits can be read, and
it can be shown if the results can be written, both of which is so for limits of up to 4300 digits. A text
that fails in the first two stages does not pass validation, and is reported with the message that
validation has for it. A command can be given any text, and its exit code tells whether the report on the
text is one of a value, if it can be shown, unless its log file cannot be opened: then the command breaks
off at once. -/
theorem entryPoints_agree :
    (∀ limits s report, calculate limits s = .ok report →
      (∀ v, (report.ok = true ∧ report.result = some v) ↔ evaluateExpression limits s = .ok v) ∧
      (∀ v, evaluateExpression limits s = .ok v →
        ∃ ts ps, Lexicon.arithmetic.tokenize limits s = .ok ts ∧ toPostfix .arithmetic ts = .ok ps ∧
          report = ⟨true, s, some v, some (ts.map Token.describe), some (ps.map Token.lexeme),
            none, none⟩) ∧
      (∀ m c, (report.ok = false ∧ report.error = some m ∧ report.errorCode = some c) ↔
        ∃ f, evaluateExpression limits s = .error f ∧ f.message = m ∧ f.code = c) ∧
      ∀ f, evaluateExpression limits s = .error f →
        report = ⟨false, s, none, none, none, some f.message, some f.code⟩) ∧
    (∀ limits, limits.Convertible → ∀ s, ∃ report, calculate limits s = .ok report ∧
      (limits.Writable → report.unwritable limits = none)) ∧
    (∀ maxLength maxDigits, maxDigits ≤ 4300 →
      (Limits.ofDigits maxLength maxDigits).Convertible ∧
        (Limits.ofDigits maxLength maxDigits).Writable) ∧
    (∀ limits s,
      (∀ m, (∃ f, validate limits s = .error f ∧ f.message = m) ↔
        ∃ f, (Lexicon.arithmetic.tokenize limits s = .error f ∨
          ∃ ts, Lexicon.arithmetic.tokenize limits s = .ok ts ∧
            toPostfix .arithmetic ts = .error f) ∧ f.message = m) ∧
      ∀ f, validate limits s = .error f → ∃ report, calculate limits s = .ok report ∧
        report.ok = false ∧ report.error = some f.message) ∧
    (∀ a, ∃ arguments o, Options.ofArguments arguments = .ok o ∧ o.Evaluates a) ∧
    ∀ files settings arguments inputs o a, Options.ofArguments arguments = .ok o → o.Evaluates a →
      (files.refusal o.logFile = none → ∀ report,
        calculate settings.limits (trimBlanks a) = .ok report →
          (report.unwritable settings.limits = none →
            (runCommand files settings arguments inputs).broken = none ∧
            (runCommand files settings arguments inputs).exit = (if report.ok then 0 else 1) ∧
            (runCommand files settings arguments inputs).output =
              report.print o.format o.showPostfix) ∧
          ∀ most, report.unwritable settings.limits = some most →
            (runCommand files settings arguments inputs).broken =
                some (.uncaught (.unwritable most)) ∧
            (runCommand files settings arguments inputs).exit = 1 ∧
            (runCommand files settings arguments inputs).output =
              report.opening o.format o.showPostfix) ∧
      ∀ reason, files.refusal o.logFile = some reason →
        runCommand files settings arguments inputs =
          { exit := 1, output := "", broken := some (.unopenable reason) } := by
  refine ⟨fun limits s report hreport => ⟨fun v => result_eq_some_iff hreport, fun v h => ?_,
      fun m c => error_eq_some_iff hreport, fun f h => eq_reportFault hreport h⟩,
    fun limits hconv s => ?_, fun maxLength maxDigits hle =>
      ⟨Limits.convertible_ofDigits hle, Limits.writable_ofDigits hle⟩,
    fun limits s => ⟨fun m => ?_, fun f h => ?_⟩, fun a => ?_,
    fun files settings arguments inputs o a ho h => ⟨fun hfile report hreport =>
      ⟨fun hw => ?_, fun most hw => ?_⟩, fun reason hfile => ?_⟩⟩
  · obtain ⟨e, he, rfl⟩ := evaluateExpression_eq_ok.1 h
    obtain ⟨hts, hps, -⟩ := run_eq_ok.1 he
    exact ⟨_, _, hts, hps, Except.ok.inj (hreport.symm.trans (calculate_of_ok he))⟩
  · obtain ⟨report, hreport⟩ := exists_calculate_eq_ok hconv s
    exact ⟨report, hreport, fun hwrites => unwritable_of_calculate hwrites hreport⟩
  · simp only [validate_eq_error]
  · exact ⟨_, calculate_of_validate_eq_error h, rfl, rfl⟩
  · exact ⟨_, _, ofArguments_separator a, rfl, rfl, .inr ⟨rfl, rfl⟩⟩
  · exact runCommand_evaluates settings inputs ho h hfile hreport hw
  · exact runCommand_of_unwritable settings inputs ho h hfile hreport hw
  · exact runCommand_of_refusal settings inputs ho hfile

/-- What validation has against a text is reported, though the text divides by zero before. -/
theorem entryPoints_agree_unmatched :
    let settings : Settings := ⟨⟨10, 2, 6, some 4300⟩, "WARNING"⟩
    let arguments := ["--format", "json", "-e", " 1/0) "]
    settings.limits.Convertible ∧ settings.limits.Writable ∧
      validate settings.limits "1/0)" = .error (.unmatchedRight (some 3)) ∧
      ∃ report, calculate settings.limits "1/0)" = .ok report ∧ report.ok = false ∧
        report.error = some "Unmatched ')' at position 3" ∧
        (runCommand (fun _ => none) settings arguments []).exit = 1 ∧
        (runCommand (fun _ => some "no room") settings ("--log-file" :: "a.log" :: arguments) []).broken =
          some (.unopenable "no room") := by
  intro settings arguments
  obtain ⟨-, hall, hsmall, hvalid, -, hcommand⟩ := entryPoints_agree
  have hlimits : settings.limits = .ofDigits 10 2 := by decide +kernel
  obtain ⟨hconv, hwrites⟩ : settings.limits.Convertible ∧ settings.limits.Writable :=
    hlimits ▸ hsmall 10 2 (by decide)
  have hscan : Scan 0 "1/0)".toList
      [⟨.number, 0, ['1']⟩, ⟨.operator, 1, ['/']⟩, ⟨.number, 2, ['0']⟩, ⟨.rightParen, 3, [')']⟩] :=
    .token (.digit rfl rfl) (.token (.operator .div nofun)
      (.token (.digit rfl rfl) (.token .rightParen .done)))
  have hlength : ("1/0)".length : Int) ≤ settings.limits.maxLength := by decide
  have htokens := hscan.tokenize_eq hlength
  have hvalidate : validate settings.limits "1/0)" = .error (.unmatchedRight (some 3)) :=
    validate_eq_error.2 (.inr ⟨_, htokens, rfl⟩)
  obtain ⟨report, hreport, hok, herror⟩ := (hvalid settings.limits "1/0)").2 _ hvalidate
  have ho : Options.ofArguments arguments =
      .ok { evalExpression := some (some " 1/0) "), format := .json } := by rfl
  have ho' : Options.ofArguments ("--log-file" :: "a.log" :: arguments) =
      .ok { evalExpression := some (some " 1/0) "), format := .json, logFile := some "a.log" } := by
    rfl
  have htrim : trimBlanks " 1/0) " = "1/0)" := by decide +kernel
  obtain ⟨report', hreport', hwritten⟩ := hall settings.limits hconv "1/0)"
  cases hreport.symm.trans hreport'
  obtain ⟨hruns, -⟩ :=
    hcommand (fun _ => none) settings arguments [] _ " 1/0) " ho ⟨rfl, rfl, .inl rfl⟩
  obtain ⟨hshows, -⟩ := hruns rfl report (htrim.symm ▸ hreport)
  obtain ⟨-, hexit, -⟩ := hshows (hwritten hwrites)
  obtain ⟨-, hbreaks⟩ :=
    hcommand (fun _ => some "no room") settings _ [] _ " 1/0) " ho' ⟨rfl, rfl, .inl rfl⟩
  rw [hok] at hexit
  refine ⟨hconv, hwrites, hvalidate, report, hreport, hok, herror, hexit, ?_⟩
  rw [hbreaks "no room" rfl]

/-- With a directory as its log file a command has exit code 1 and shows nothing, though there is a value
to show. -/
theorem runCommand_unopenable :
    let files : Files := fun path => if path = "/" then some "[Errno 21] Is a directory: '/'" else none
    let arguments := ["--log-file", "/", "1+1"]
    (∃ o, Options.ofArguments arguments = .ok o ∧ o.Evaluates "1+1") ∧
      (∃ report, calculate Settings.default.limits (trimBlanks "1+1") = .ok report ∧
        report.ok = true ∧ report.result = some 2) ∧
      (runCommand files .default arguments []).exit = 1 ∧
      (runCommand files .default arguments []).output = "" ∧
      (runCommand files .default arguments []).broken =
        some (.unopenable "[Errno 21] Is a directory: '/'") := by
  intro files arguments
  have hlimits : Settings.default.limits = ⟨10000, 4300, 14284, some 4300⟩ := by decide +kernel
  have hscan : Scan 0 "1+1".toList
      [⟨.number, 0, ['1']⟩, ⟨.operator, 1, ['+']⟩, ⟨.number, 2, ['1']⟩] :=
    .token (.digit rfl rfl) (.token (.operator .add nofun) (.token (.digit rfl rfl) .done))
  have htrim : trimBlanks "1+1" = "1+1" := by decide +kernel
  have hvalue : Evaluated.value <$> run ⟨10000, 4300, 14284, some 4300⟩ "1+1" = .ok 2 := by
    rw [run_of_tokenize (hscan.tokenize_eq (by decide))]
    rfl
  obtain ⟨e, he, hv⟩ := map_eq_ok.1 hvalue
  have ho : Options.ofArguments arguments = .ok { expression := some "1+1", logFile := some "/" } := by
    rfl
  have hfile : files.refusal (some "/") = some "[Errno 21] Is a directory: '/'" := by rfl
  have hrun := runCommand_of_refusal .default [] ho hfile
  refine ⟨⟨_, ho, rfl, rfl, .inr ⟨rfl, rfl⟩⟩, ⟨reportValue "1+1" e, ?_, rfl, congrArg some hv⟩, ?_⟩
  · rw [htrim, hlimits]
    exact calculate_of_ok he
  · rw [hrun]
    exact ⟨rfl, rfl, rfl⟩

end Calculator

end ExprCalc
