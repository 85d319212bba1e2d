import ExprCalc.Proofs.EntryPoints
import Mathlib.Data.List.Forall2
import Mathlib.Tactic.SplitIfs

/-!
# Transcripts

What a conversation shows is a block of text for each input, in order, behind a prompt
(`converse_append`). The block belongs to the input alone, wherever that stands, and for a line that is no
command it is what a command shows that evaluates the line. The first input that quits is the last one
that counts (`converse_unread`). Where literals within the limits can be read and results within them can
be written, nothing else ends a conversation before its inputs do (`last_turn_iff`).
-/

namespace ExprCalc

/-! ### Trimmed texts -/

section
variable {α : Type} {p : α → Bool}

theorem exists_trimBoth (p : α → Bool) (l : List α) : ∃ before after,
    l = before ++ trimBoth p l ++ after ∧ (∀ a ∈ before, p a = true) ∧ ∀ a ∈ after, p a = true := by
  refine ⟨l.takeWhile p, ((l.dropWhile p).reverse.takeWhile p).reverse, ?_,
    fun a => List.mem_takeWhile_imp, fun a ha => List.mem_takeWhile_imp (List.mem_reverse.1 ha)⟩
  rw [List.append_assoc, trimBoth, ← List.reverse_append, List.takeWhile_append_dropWhile,
    List.reverse_reverse, List.takeWhile_append_dropWhile]

theorem trimBoth_eq_nil_iff {l : List α} : trimBoth p l = [] ↔ ∀ a ∈ l, p a = true := by
  constructor
  · intro h a ha
    obtain ⟨before, after, hl, hbefore, hafter⟩ := exists_trimBoth p l
    rw [h, List.append_nil] at hl
    rw [hl] at ha
    exact (List.mem_append.1 ha).elim (hbefore a) (hafter a)
  · intro h
    rw [trimBoth, List.dropWhile_eq_nil_iff.2 h]
    rfl

theorem dropWhile_append_of_not {l : List α} (h : ∀ a ∈ l, p a = false) (hne : l ≠ []) (r : List α) :
    (l ++ r).dropWhile p = l ++ r := by
  cases l with
  | nil => exact absurd rfl hne
  | cons a l =>
    rw [List.cons_append, List.dropWhile_cons, h a List.mem_cons_self]
    rfl

theorem trimBoth_append {before mid after : List α} (hbefore : ∀ a ∈ before, p a = true)
    (hmid : ∀ a ∈ mid, p a = false) (hne : mid ≠ []) (hafter : ∀ a ∈ after, p a = true) :
    trimBoth p (before ++ mid ++ after) = mid := by
  have hback := dropWhile_append_of_not (l := mid.reverse) (by simpa using hmid) (by simpa using hne)
  rw [trimBoth, List.append_assoc, List.dropWhile_append_of_pos hbefore,
    dropWhile_append_of_not hmid hne, List.reverse_append,
    List.dropWhile_append_of_pos (by simpa using hafter), ← List.append_nil mid.reverse, hback,
    List.append_nil, List.reverse_reverse]

end

/-! ### Letters of either case -/

theorem toLower_eq_iff {c l : Char} (h : l.isLower = true) :
    c.toLower = l ↔ c = l ∨ c = l.toUpper := by
  delta Char.toLower Char.toUpper Char.isLower at *
  simp only [Char.ext_iff, Bool.and_eq_true, decide_eq_true_eq] at *
  split_ifs <;> simp <;> grind

theorem not_isBlank_of_isLower_toLower {c : Char} (h : c.toLower.isLower = true) :
    isBlank c = false := by
  have hletter : 65 ≤ c.toNat ∧ c.toNat ≤ 90 ∨ 97 ≤ c.toNat ∧ c.toNat ≤ 122 := by
    unfold Char.toLower at h
    split at h
    · next hupper => exact .inl hupper
    · delta Char.isLower at h
      rw [Bool.and_eq_true, decide_eq_true_eq, decide_eq_true_eq] at h
      exact .inr h
  simp only [isBlank, blanks, CodeRanges.contains, Bool.and_eq_false_iff, Bool.or_eq_false_iff,
    decide_eq_false_iff_not]
  omega

theorem map_toLower_eq_iff {said word : List Char} (hw : ∀ l ∈ word, l.isLower = true) :
    said.map Char.toLower = word ↔
      List.Forall₂ (fun c letter => c = letter ∨ c = letter.toUpper) said word := by
  induction word generalizing said with
  | nil => simp
  | cons l word ih =>
    obtain ⟨hl, hw⟩ := List.forall_mem_cons.1 hw
    cases said with
    | nil => simp
    | cons c said =>
      rw [List.map_cons, List.cons_eq_cons, List.forall₂_cons, toLower_eq_iff hl, ih hw]

/-- A command with these options talks to the user. -/
structure Options.Converses (o : Options) : Prop where
  version : o.version = false
  healthCheck : o.healthCheck = false
  evalExpression : o.evalExpression = none
  expression : o.expression = none

theorem Options.Converses.mode_eq {o : Options} (h : o.Converses) : o.mode = .ok .converse := by
  unfold Options.mode
  rw [h.version, h.healthCheck, h.evalExpression, h.expression]
  rfl

namespace Repl

/-! ### Lines -/

/-- There is nothing but blanks in a text. -/
def AllBlank (text : String) : Prop := ∀ c ∈ text.toList, isBlank c = true

/-- A text says a word in letters of either case, between blanks. -/
def Says (word text : String) : Prop :=
  ∃ before said after, text.toList = before ++ said ++ after ∧
    (∀ c ∈ before, isBlank c = true) ∧ (∀ c ∈ after, isBlank c = true) ∧
    List.Forall₂ (fun c letter => c = letter ∨ c = letter.toUpper) said word.toList

/-- An input that ends the conversation. -/
def Quits : Input → Prop
  | .interrupt => False
  | .line text => Says "quit" text ∨ Says "exit" text

theorem isEmpty_trimBlanks_iff {text : String} : (trimBlanks text).isEmpty = true ↔ AllBlank text := by
  rw [String.isEmpty_iff, ← String.toList_inj, trimBlanks, String.toList_ofList]
  exact trimBoth_eq_nil_iff

theorem map_trimBlanks_eq_iff {word text : String} (hw : ∀ l ∈ word.toList, l.isLower = true)
    (hne : word.toList ≠ []) : (trimBlanks text).map Char.toLower = word ↔ Says word text := by
  rw [← String.toList_inj, String.toList_map, trimBlanks, String.toList_ofList]
  constructor
  · intro h
    obtain ⟨before, after, htext, hbefore, hafter⟩ := exists_trimBoth isBlank text.toList
    exact ⟨before, _, after, htext, hbefore, hafter, (map_toLower_eq_iff hw).1 h⟩
  · rintro ⟨before, said, after, htext, hbefore, hafter, hsaid⟩
    have hmap := (map_toLower_eq_iff hw).2 hsaid
    have hletters : ∀ c ∈ said, isBlank c = false := fun c hc =>
      not_isBlank_of_isLower_toLower (hw _ (hmap ▸ List.mem_map_of_mem hc))
    have hsaid' : said ≠ [] := fun h0 => hne (by rw [← hmap, h0, List.map_nil])
    rw [htext, trimBoth_append hbefore hletters hsaid' hafter, hmap]

section
variable {text : String}

theorem says_quit_iff : (trimBlanks text).map Char.toLower = "quit" ↔ Says "quit" text :=
  map_trimBlanks_eq_iff (List.all_eq_true.1 rfl) (by decide)

theorem says_exit_iff : (trimBlanks text).map Char.toLower = "exit" ↔ Says "exit" text :=
  map_trimBlanks_eq_iff (List.all_eq_true.1 rfl) (by decide)

theorem says_help_iff : (trimBlanks text).map Char.toLower = "help" ↔ Says "help" text :=
  map_trimBlanks_eq_iff (List.all_eq_true.1 rfl) (by decide)

theorem isEmpty_eq_false_of_map {word : String} (hne : word ≠ "")
    (h : (trimBlanks text).map Char.toLower = word) : ¬ (trimBlanks text).isEmpty = true := by
  intro hempty
  rw [String.isEmpty_iff.1 hempty, ← String.toList_inj, String.toList_map] at h
  exact hne (String.toList_inj.1 h.symm)

theorem ofLine_eq_nothing (h : AllBlank text) : Command.ofLine text = .nothing :=
  if_pos (isEmpty_trimBlanks_iff.2 h)

theorem ofLine_eq_quit (h : Quits (.line text)) : Command.ofLine text = .quit := by
  have hword := h.imp says_quit_iff.2 says_exit_iff.2
  have hempty := hword.elim (isEmpty_eq_false_of_map (by decide)) (isEmpty_eq_false_of_map (by decide))
  rw [Command.ofLine, if_neg hempty, if_pos hword]

theorem ofLine_eq_help (h : Says "help" text) : Command.ofLine text = .help := by
  have hword := says_help_iff.2 h
  have hquit : ¬ ((trimBlanks text).map Char.toLower = "quit" ∨
      (trimBlanks text).map Char.toLower = "exit") := by
    rw [hword]
    decide
  rw [Command.ofLine, if_neg (isEmpty_eq_false_of_map (by decide) hword), if_neg hquit, if_pos hword]

theorem ofLine_eq_evaluate (hblank : ¬ AllBlank text) (hquit : ¬ Quits (.line text))
    (hhelp : ¬ Says "help" text) : Command.ofLine text = .evaluate (trimBlanks text) := by
  have hword : ¬ ((trimBlanks text).map Char.toLower = "quit" ∨
      (trimBlanks text).map Char.toLower = "exit") :=
    fun h => hquit (h.imp says_quit_iff.1 says_exit_iff.1)
  rw [Command.ofLine, if_neg fun h => hblank (isEmpty_trimBlanks_iff.1 h), if_neg hword,
    if_neg fun h => hhelp (says_help_iff.1 h)]

end

/-! ### Inputs -/

section
variable (limits : Limits) (format : OutputFormat) (showPostfix : Bool)

theorem last_turn_of_quits {i : Input} (h : Quits i) :
    (turn limits format showPostfix (some i)).last = true := by
  cases i with
  | interrupt => exact h.elim
  | line text => rw [turn, respond, ofLine_eq_quit h]

theorem broken_answer (hconv : limits.Convertible) (hwrites : limits.Writable) (s : String) :
    (answer limits format showPostfix s).broken = none := by
  obtain ⟨report, hreport⟩ := Calculator.exists_calculate_eq_ok hconv s
  rw [answer_of_ok hreport (Calculator.unwritable_of_calculate hwrites hreport)]

/-- Only the evaluation of an expression can break off what is done for an input. -/
theorem broken_turn (hconv : limits.Convertible) (hwrites : limits.Writable) (i : Option Input) :
    (turn limits format showPostfix i).broken = none := by
  rcases i with _ | text | _
  · rfl
  · rw [turn, respond]
    cases Command.ofLine text with
    | nothing | quit | help => rfl
    | evaluate expression => exact broken_answer limits format showPostfix hconv hwrites expression
  · rfl

theorem last_turn_iff (hconv : limits.Convertible) (hwrites : limits.Writable) (i : Input) :
    (turn limits format showPostfix (some i)).last = true ↔ Quits i := by
  refine ⟨fun h => ?_, last_turn_of_quits limits format showPostfix⟩
  cases i with
  | interrupt => cases h
  | line text =>
    by_contra hquit
    have hbroken := broken_answer limits format showPostfix hconv hwrites (trimBlanks text)
    by_cases hblank : AllBlank text
    · simp [turn, respond, ofLine_eq_nothing hblank] at h
    by_cases hhelp : Says "help" text
    · simp [turn, respond, ofLine_eq_help hhelp] at h
    · simp [turn, respond, ofLine_eq_evaluate hblank hquit hhelp, hbroken] at h

/-- A conversation comes to its end, whichever input that is. -/
theorem ends_converse (hconv : limits.Convertible) (hwrites : limits.Writable) (is : List Input) :
    (converse limits format showPostfix is).broken = none ∧
      (converse limits format showPostfix is).exit = 0 := by
  have hend (i : Option Input) : (turn limits format showPostfix i).ending.broken = none ∧
      (turn limits format showPostfix i).ending.exit = 0 := by
    have hbroken := broken_turn limits format showPostfix hconv hwrites i
    simp only [Response.ending, Response.exit, hbroken, Option.isSome_none, Bool.false_eq_true,
      if_false, and_self]
  induction is with
  | nil => exact hend none
  | cons i is ih =>
    rw [converse]
    split
    · exact hend (some i)
    · exact ih

/-- What is shown for an input, up to the next prompt. -/
def block (i : Input) : String := (turn limits format showPostfix (some i)).output

/-- The block of each of some inputs, behind a prompt. -/
def blocks (is : List Input) : String :=
  String.join (is.map fun i => prompt ++ block limits format showPostfix i)

variable {limits format showPostfix}

/-- Inputs that do not quit are answered before all others. -/
theorem converse_append (hconv : limits.Convertible) (hwrites : limits.Writable) {read : List Input}
    (h : ∀ i ∈ read, ¬ Quits i) (is : List Input) :
    (converse limits format showPostfix (read ++ is)).output =
      blocks limits format showPostfix read ++ (converse limits format showPostfix is).output := by
  induction read with
  | nil => rw [List.nil_append, blocks, List.map_nil, String.join_nil, String.empty_append]
  | cons i read ih =>
    obtain ⟨hi, hread⟩ := List.forall_mem_cons.1 h
    have hlast : ¬ (turn limits format showPostfix (some i)).last = true :=
      fun hl => hi ((last_turn_iff _ _ _ hconv hwrites i).1 hl)
    rw [List.cons_append, converse, if_neg hlast]
    simp only [ih hread, blocks, List.map_cons, String.join_cons, block, String.append_assoc]

/-- Behind an input that quits nothing counts, not for the records either. -/
theorem converse_unread {i : Input} (h : Quits i) (read unread : List Input) :
    converse limits format showPostfix (read ++ i :: unread) =
      converse limits format showPostfix (read ++ [i]) := by
  induction read with
  | nil =>
    have hlast := last_turn_of_quits limits format showPostfix h
    rw [List.nil_append, List.nil_append, converse, if_pos hlast, converse, if_pos hlast]
  | cons j read ih => rw [List.cons_append, List.cons_append, converse, converse, ih]

theorem output_converse_of_not_quits (hconv : limits.Convertible) (hwrites : limits.Writable)
    {is : List Input} (h : ∀ i ∈ is, ¬ Quits i) : (converse limits format showPostfix is).output =
      blocks limits format showPostfix is ++ prompt ++ "\n" := by
  have hall : (converse limits format showPostfix (is ++ [])).output =
      blocks limits format showPostfix is ++ (converse limits format showPostfix []).output :=
    converse_append hconv hwrites h []
  rw [List.append_nil] at hall
  rw [hall, String.append_assoc]
  rfl

theorem output_converse_of_quits (hconv : limits.Convertible) (hwrites : limits.Writable)
    {read : List Input} {i : Input} (hread : ∀ j ∈ read, ¬ Quits j) (hi : Quits i)
    (unread : List Input) :
    (converse limits format showPostfix (read ++ i :: unread)).output =
      blocks limits format showPostfix (read ++ [i]) := by
  have hlast := last_turn_of_quits limits format showPostfix hi
  rw [converse_append hconv hwrites hread, converse, if_pos hlast, blocks, blocks, List.map_append,
    String.join_append, List.map_singleton, String.join_cons, String.join_nil, String.append_empty]
  rfl

theorem block_interrupt : block limits format showPostfix .interrupt = "\n" := rfl

theorem block_blank {text : String} (h : AllBlank text) :
    block limits format showPostfix (.line text) = "" := by
  rw [block, turn, respond, ofLine_eq_nothing h]

theorem block_quit {text : String} (h : Quits (.line text)) :
    block limits format showPostfix (.line text) = "" := by
  rw [block, turn, respond, ofLine_eq_quit h]

theorem block_help {text : String} (h : Says "help" text) :
    block limits format showPostfix (.line text) = helpText := by
  rw [block, turn, respond, ofLine_eq_help h]

theorem block_evaluate {text : String} (hblank : ¬ AllBlank text) (hquit : ¬ Quits (.line text))
    (hhelp : ¬ Says "help" text) {report : Report}
    (hreport : Calculator.calculate limits (trimBlanks text) = .ok report)
    (hw : report.unwritable limits = none) :
    block limits format showPostfix (.line text) = report.print format showPostfix := by
  rw [block, turn, respond, ofLine_eq_evaluate hblank hquit hhelp]
  exact congrArg Answer.output (answer_of_ok hreport hw format showPostfix)

end

end Repl

/-! ### Commands -/

/-- The arguments that ask for a format, and for the forms of the expression. -/
def Options.switches (format : OutputFormat) (showPostfix : Bool) : List String :=
  ["--format", match format with
    | .json => "json"
    | .human => "human"] ++ if showPostfix then ["--show-postfix"] else []

theorem Options.ofArguments_switches (format : OutputFormat) (showPostfix : Bool) :
    ofArguments (switches format showPostfix) = .ok { format, showPostfix } := by
  cases format <;> cases showPostfix <;> rfl

theorem Options.ofArguments_switches_append (format : OutputFormat) (showPostfix : Bool)
    (a : String) : ofArguments (switches format showPostfix ++ ["--", a]) =
      .ok { expression := some a, format, showPostfix } := by
  cases format <;> cases showPostfix <;> rfl

section
variable {files : Files} {settings : Settings} {arguments : List String} {o : Options}

theorem runCommand_converses (hconv : settings.limits.Convertible)
    (hwrites : settings.limits.Writable) (ho : Options.ofArguments arguments = .ok o) (h : o.Converses)
    (hfile : files.refusal o.logFile = none) (inputs : List Repl.Input) :
    (runCommand files settings arguments inputs).broken = none ∧
      (runCommand files settings arguments inputs).exit = 0 ∧
      (runCommand files settings arguments inputs).output = Repl.banner ++
        (Repl.converse settings.limits o.format o.showPostfix inputs).output := by
  obtain ⟨hbroken, hexit⟩ :=
    Repl.ends_converse settings.limits o.format o.showPostfix hconv hwrites inputs
  rw [runCommand_of_mode settings inputs ho hfile h.mode_eq]
  refine ⟨?_, hexit, rfl⟩
  rw [Answer.outcome, Options.execute, hbroken]
  rfl

theorem runCommand_unread (ho : Options.ofArguments arguments = .ok o) (h : o.Converses)
    (hfile : files.refusal o.logFile = none) {i : Repl.Input} (hi : Repl.Quits i)
    (read unread : List Repl.Input) :
    runCommand files settings arguments (read ++ i :: unread) =
      runCommand files settings arguments (read ++ [i]) := by
  simp only [runCommand_of_mode settings _ ho hfile h.mode_eq, Options.execute,
    Repl.converse_unread hi]

end

/-- A command that converses has exit code 0 and shows the banner, and then for each input up to the first
one that quits a prompt and the block of the input; a last prompt and a new line if none quits. The block
of an input does not depend on the other inputs. It is empty for a blank line and for one that quits, a
new line for an interrupt and the text of the help for `help`; for any other line it is what a command
shows that evaluates the line. What stands behind an input that quits has no effect at all. All this is
so where a log file that is asked for can be opened, literals within the limits can be read and results
within them can be written. -/
theorem runCommand_transcript :
    (∀ files settings arguments o, settings.limits.Convertible → settings.limits.Writable →
      Options.ofArguments arguments = .ok o → o.Converses → files.refusal o.logFile = none →
      ∃ block : Repl.Input → String,
        block .interrupt = "\n" ∧
        (∀ text, Repl.AllBlank text → block (.line text) = "") ∧
        (∀ text, Repl.Quits (.line text) → block (.line text) = "") ∧
        (∀ text, Repl.Says "help" text → block (.line text) = Repl.helpText) ∧
        (∀ text, ¬ Repl.AllBlank text → ¬ Repl.Quits (.line text) → ¬ Repl.Says "help" text →
          ∀ files' arguments' o' inputs', Options.ofArguments arguments' = .ok o' →
            o'.Evaluates text → files'.refusal o'.logFile = none →
            o'.format = o.format → o'.showPostfix = o.showPostfix →
              (runCommand files' settings arguments' inputs').broken = none ∧
              (runCommand files' settings arguments' inputs').output = block (.line text)) ∧
        ∀ inputs, (runCommand files settings arguments inputs).broken = none ∧
          (runCommand files settings arguments inputs).exit = 0 ∧
          ((∀ i ∈ inputs, ¬ Repl.Quits i) →
            (runCommand files settings arguments inputs).output =
              Repl.banner ++ String.join (inputs.map fun i => Repl.prompt ++ block i) ++
                Repl.prompt ++ "\n") ∧
          ∀ read i unread, inputs = read ++ i :: unread → (∀ j ∈ read, ¬ Repl.Quits j) →
            Repl.Quits i →
              (runCommand files settings arguments inputs).output = Repl.banner ++
                String.join ((read ++ [i]).map fun j => Repl.prompt ++ block j) ∧
              runCommand files settings arguments inputs =
                runCommand files settings arguments (read ++ [i])) ∧
    ∀ format showPostfix,
      (∃ arguments o, Options.ofArguments arguments = .ok o ∧ o.Converses ∧ o.format = format ∧
        o.showPostfix = showPostfix) ∧
      ∀ text, ∃ arguments o, Options.ofArguments arguments = .ok o ∧ o.Evaluates text ∧
        o.format = format ∧ o.showPostfix = showPostfix := by
  refine ⟨fun files settings arguments o hconv hwrites ho h hfile => ?_,
    fun format showPostfix => ⟨?_, fun text => ?_⟩⟩
  · refine ⟨Repl.block settings.limits o.format o.showPostfix, Repl.block_interrupt,
      fun text => Repl.block_blank, fun text => Repl.block_quit, fun text => Repl.block_help,
      fun text hblank hquit hhelp files' arguments' o' inputs' ho' h' hfile' hformat hpostfix => ?_,
      fun inputs => ?_⟩
    · obtain ⟨report, hreport⟩ := Calculator.exists_calculate_eq_ok hconv (trimBlanks text)
      have hw := Calculator.unwritable_of_calculate hwrites hreport
      obtain ⟨hbroken, -, houtput⟩ := runCommand_evaluates settings inputs' ho' h' hfile' hreport hw
      rw [hformat, hpostfix, ← Repl.block_evaluate hblank hquit hhelp hreport hw] at houtput
      exact ⟨hbroken, houtput⟩
    · obtain ⟨hbroken, hexit, houtput⟩ := runCommand_converses hconv hwrites ho h hfile inputs
      refine ⟨hbroken, hexit, fun hall => ?_, ?_⟩
      · rw [houtput, Repl.output_converse_of_not_quits hconv hwrites hall, Repl.blocks, ← String.append_assoc,
          ← String.append_assoc]
      · rintro read i unread rfl hread hi
        rw [houtput, Repl.output_converse_of_quits hconv hwrites hread hi]
        exact ⟨rfl, runCommand_unread ho h hfile hi read unread⟩
  · exact ⟨_, _, Options.ofArguments_switches format showPostfix, ⟨rfl, rfl, rfl, rfl⟩, rfl, rfl⟩
  · exact ⟨_, _, Options.ofArguments_switches_append format showPostfix text, ⟨rfl, rfl, .inr ⟨rfl, rfl⟩⟩,
      rfl, rfl⟩

/-- A conversation is interrupted, evaluates a line and ends before its last one. -/
theorem runCommand_transcript_exit :
    let settings : Settings := ⟨⟨10, 2, 6, some 4300⟩, "WARNING"⟩
    let files : Files := fun _ => none
    let read : List Repl.Input := [.interrupt, .line " 7"]
    settings.limits.Convertible ∧ settings.limits.Writable ∧ ∃ outcome shown,
      runCommand files settings ["--format", "json"] (read ++ .line "\teXIT " :: [.line "1"]) = outcome ∧
      runCommand files settings ["--format", "json"] (read ++ [.line "\teXIT "]) = outcome ∧
      runCommand files settings ["--format", "json", "--", " 7"] [] = shown ∧
      outcome.broken = none ∧ shown.broken = none ∧ outcome.exit = 0 ∧
      outcome.output = Repl.banner ++
        String.join [Repl.prompt ++ "\n", Repl.prompt ++ shown.output, Repl.prompt ++ ""] := by
  intro settings files read
  have hlimits : settings.limits = .ofDigits 10 2 := by decide +kernel
  have hconv : settings.limits.Convertible := hlimits ▸ Limits.convertible_ofDigits (by decide)
  have hwrites : settings.limits.Writable := hlimits ▸ Limits.writable_ofDigits (by decide)
  obtain ⟨block, hinterrupt, -, hquit, -, hevaluate, hinputs⟩ := runCommand_transcript.1 files settings
    ["--format", "json"] _ hconv hwrites (Options.ofArguments_switches .json false) ⟨rfl, rfl, rfl, rfl⟩ rfl
  have hblank : ¬ Repl.AllBlank " 7" := Repl.isEmpty_trimBlanks_iff.not.1 (by decide +kernel)
  have hstays : ¬ Repl.Quits (.line " 7") := not_or.2
    ⟨Repl.says_quit_iff.not.1 (by decide +kernel), Repl.says_exit_iff.not.1 (by decide +kernel)⟩
  have hhelp : ¬ Repl.Says "help" " 7" := Repl.says_help_iff.not.1 (by decide +kernel)
  have hexits : Repl.Quits (.line "\teXIT ") := .inr (Repl.says_exit_iff.1 (by decide +kernel))
  have hread : ∀ i ∈ read, ¬ Repl.Quits i :=
    List.forall_mem_cons.2 ⟨id, List.forall_mem_singleton.2 hstays⟩
  obtain ⟨hshown, houtput⟩ := hevaluate " 7" hblank hstays hhelp files _ _ []
    (Options.ofArguments_switches_append .json false " 7") ⟨rfl, rfl, .inr ⟨rfl, rfl⟩⟩ rfl rfl rfl
  obtain ⟨hbroken, hexit, -, hends⟩ := hinputs (read ++ .line "\teXIT " :: [.line "1"])
  obtain ⟨hblocks, hunread⟩ := hends read _ _ rfl hread hexits
  have hshows : (runCommand files settings ["--format", "json", "--", " 7"] []).output =
      block (.line " 7") := houtput
  refine ⟨hconv, hwrites, _, _, rfl, hunread.symm, rfl, hbroken, hshown, hexit, ?_⟩
  rw [hblocks, hshows]
  simp only [read, List.cons_append, List.nil_append, List.map_cons, List.map_nil, hinterrupt,
    hquit _ hexits]

end ExprCalc
