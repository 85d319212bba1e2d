import ExprCalc.Proofs.Delivery
import ExprCalc.Proofs.LogLine

/-!
# Logging has no influence

What a command shows does not depend on how logging is set up. The arguments are read alike whatever
they ask of logging (`Options.unlogged_ofArguments`), the environment gives the same limits whatever level
it names, and a command is executed without the set-up of logging. That decides only which of the
records, which are the same in both runs, are written and where: a higher level writes those of a lower
one that reach it (`writtenTo_runCommand_filter`).
-/

namespace ExprCalc

namespace Options

/-- The options without what they ask of logging. -/
def unlogged (o : Options) : Options := { o with logLevel := none, logFile := none }

theorem mode_unlogged (o : Options) : o.unlogged.mode = o.mode := rfl

theorem execute_unlogged (o : Options) (mode : Mode) (limits : Limits) (inputs : List Repl.Input) :
    o.unlogged.execute mode limits inputs = o.execute mode limits inputs := rfl

theorem unlogged_apply (o : Options) (s : Switch) (value : Option String) :
    unlogged <$> o.unlogged.apply s value = unlogged <$> o.apply s value := by
  cases s with
  | format =>
    simp only [apply]
    cases value.mapM (choose .format format?) <;> rfl
  | logLevel =>
    simp only [apply]
    cases value.mapM (choose .logLevel level?) <;> rfl
  | help | eval | showPostfix | version | logFile | healthCheck => rfl

end Options

namespace Progress
open Options

def unlogged (p : Progress) : Progress := { p with options := p.options.unlogged }

theorem unlogged_take (p : Progress) (ss : List (Switch × Option String)) :
    unlogged <$> p.unlogged.take ss = unlogged <$> p.take ss := by
  have hrun : Options.unlogged <$> ss.foldlM (fun o e => o.apply e.1 e.2) p.options.unlogged =
      Options.unlogged <$> ss.foldlM (fun o e => o.apply e.1 e.2) p.options :=
    foldlM_map_congr (fun o o' e h => by rw [← unlogged_apply, h, unlogged_apply]) ss rfl
  have htake (o : Options) : unlogged <$> take { p with options := o } ss =
      (fun o => { options := o, leftOver := p.leftOver : Progress }) <$>
        (Options.unlogged <$> ss.foldlM (fun o e => o.apply e.1 e.2) o) := by
    unfold take
    dsimp only
    cases ss.foldlM (fun o e => o.apply e.1 e.2) o <;> rfl
  exact (htake _).trans ((congrArg _ hrun).trans (htake _).symm)

theorem unlogged_switch (p : Progress) (b : Bundle) :
    unlogged <$> p.unlogged.switch b = unlogged <$> p.switch b := by
  unfold switch
  cases b.pending with
  | none => exact unlogged_take p b.complete
  | some s => rfl

theorem unlogged_step (p : Progress) (w : Word) :
    unlogged <$> p.unlogged.step w = unlogged <$> p.step w := by
  obtain ⟨options, awaiting, fresh, leftOver⟩ := p
  cases awaiting with
  | some e =>
    cases w with
    | operand value => exact unlogged_take _ _
    | separator | switch | unknown => rfl
  | none =>
    cases w with
    | operand text =>
      obtain ⟨expression⟩ := options
      cases expression <;> rfl
    | separator =>
      obtain ⟨expression⟩ := options
      cases expression <;> cases fresh <;> rfl
    | unknown text => rfl
    | switch s joined =>
      show unlogged <$> (_ >>= switch (unlogged _)) = unlogged <$> (_ >>= switch _)
      rw [map_bind, map_bind]
      exact congrArg _ (funext (unlogged_switch _))

theorem unlogged_finish (p : Progress) :
    Options.unlogged <$> p.unlogged.finish = Options.unlogged <$> p.finish := by
  obtain ⟨options, awaiting, fresh, leftOver⟩ := p
  cases awaiting with
  | some e => rfl
  | none => cases leftOver <;> rfl

end Progress

/-! ### Arguments -/

theorem Switch.ofSpelling?_eq_none {cs : List Char} (h : '=' ∈ cs) : ofSpelling? cs = none := by
  have hno : ∀ e ∈ spellings, '=' ∉ e.1.toList := by decide
  refine List.lookup_eq_none_iff.2 fun e he => bne_iff_ne.2 ?_
  intro hspelling
  have hnot := hno e he
  rw [← hspelling, String.toList_ofList] at hnot
  exact hnot h

namespace Word

theorem splitEquals_append {name : List Char} (h : '=' ∉ name) (value : List Char) :
    splitEquals (name ++ '=' :: value) = (name, .equals value) := by
  have hall : ∀ c ∈ name, decide (c ≠ '=') = true := fun c hc =>
    decide_eq_true (ne_of_mem_of_not_mem hc h)
  unfold splitEquals
  rw [List.takeWhile_append_of_pos hall, List.dropWhile_append_of_pos hall]
  simp

/-- A long spelling with a value behind an equals sign. -/
theorem classify_equals (name : List Char) {value : List Char} {argument : String} {s : Switch}
    (h : argument.toList = name ++ '=' :: value) (hhead : name.head? = some '-') (hname : '=' ∉ name)
    (hlength : 2 < name.length) (hs : Switch.ofSpelling? name = some s) :
    classify argument = .ok (.switch s (.equals value)) := by
  have hdash : (name ++ '=' :: value).head? = some '-' := by
    rw [List.head?_append, hhead]
    rfl
  have hlong : (name ++ '=' :: value).length ≠ 1 := by
    rw [List.length_append]
    omega
  unfold classify
  dsimp only
  rw [h, if_neg (not_not_intro hdash), Switch.ofSpelling?_eq_none (by simp), splitEquals_append hname]
  dsimp only
  rw [if_neg hlong, hs, if_neg (by omega)]

end Word

namespace Options

/-- The arguments that ask for a level and a file to log to. -/
def loggingSwitches (level : Option Level) (file : Option String) : List String :=
  (level.map fun l => "--log-level=" ++ l.name).toList ++
    (file.map fun path => "--log-file=" ++ path).toList

/-- An argument in front that has an effect on nothing but logging. -/
theorem unlogged_ofArguments_cons {argument : String} {w : Word} {p : Progress}
    (hargument : argument ≠ "--") (hw : Word.classify argument = .ok w)
    (hstep : Progress.step {} w = .ok p) (hp : p.unlogged = {}) (arguments : List String) :
    unlogged <$> ofArguments (argument :: arguments) = unlogged <$> ofArguments arguments := by
  unfold ofArguments
  rw [Word.ofArguments, if_neg hargument, hw]
  cases Word.ofArguments arguments with
  | error e => rfl
  | ok words =>
    show unlogged <$> ((Progress.step {} w >>= words.foldlM Progress.step) >>= Progress.finish) =
      unlogged <$> (words.foldlM Progress.step {} >>= Progress.finish)
    rw [hstep]
    refine map_bind_congr (G := Progress.unlogged) ?_ fun p p' h => ?_
    · refine foldlM_map_congr (fun p p' w h => ?_) words hp
      rw [← Progress.unlogged_step, h, Progress.unlogged_step]
    · rw [← Progress.unlogged_finish, h, Progress.unlogged_finish]

theorem unlogged_ofArguments_level {l : Level} (hl : l ≠ .critical) (arguments : List String) :
    unlogged <$> ofArguments (("--log-level=" ++ l.name) :: arguments) =
      unlogged <$> ofArguments arguments := by
  have hw : Word.classify ("--log-level=" ++ l.name) =
      .ok (.switch .logLevel (.equals l.name.toList)) :=
    Word.classify_equals "--log-level".toList String.toList_append rfl (by decide) (by decide) rfl
  have hstep : Progress.step {} (.switch .logLevel (.equals l.name.toList)) =
      .ok { options := { logLevel := some l } } := by
    cases l with
    | critical => exact absurd rfl hl
    | debug | info | warning | error => rfl
  exact unlogged_ofArguments_cons (by cases l <;> decide) hw hstep rfl arguments

theorem unlogged_ofArguments_file (path : String) (arguments : List String) :
    unlogged <$> ofArguments (("--log-file=" ++ path) :: arguments) =
      unlogged <$> ofArguments arguments := by
  have hw : Word.classify ("--log-file=" ++ path) = .ok (.switch .logFile (.equals path.toList)) :=
    Word.classify_equals "--log-file".toList String.toList_append rfl (by decide) (by decide) rfl
  have hne : "--log-file=" ++ path ≠ "--" := by
    intro h
    have hlist := congrArg String.toList h
    rw [String.toList_append] at hlist
    cases hlist
  exact unlogged_ofArguments_cons hne hw rfl rfl arguments

theorem unlogged_ofArguments {level : Option Level} (hlevel : level ≠ some .critical)
    (file : Option String) (arguments : List String) :
    unlogged <$> ofArguments (loggingSwitches level file ++ arguments) =
      unlogged <$> ofArguments arguments := by
  have hfile : unlogged <$> ofArguments ((file.map fun path => "--log-file=" ++ path).toList ++ arguments) =
      unlogged <$> ofArguments arguments := by
    cases file with
    | none => rfl
    | some path => exact unlogged_ofArguments_file path arguments
  rw [loggingSwitches, List.append_assoc, ← hfile]
  cases level with
  | none => rfl
  | some l => exact unlogged_ofArguments_level (fun h => hlevel (congrArg some h)) _

end Options

/-! ### The environment -/

/-- Two environments differ in the level that they name at most. -/
def SameButLevel (lookup lookup' : String → Option String) : Prop :=
  ∀ name, name ≠ "RPNCALC_LOG_LEVEL" → lookup' name = lookup name

theorem SameButLevel.limits_ofEnvironment {lookup lookup' : String → Option String}
    (h : SameButLevel lookup lookup') :
    Settings.limits <$> Settings.ofEnvironment lookup' =
      Settings.limits <$> Settings.ofEnvironment lookup := by
  have hinteger : ∀ name, name ≠ "RPNCALC_LOG_LEVEL" → ∀ fallback,
      Settings.integer lookup' name fallback = Settings.integer lookup name fallback := by
    intro name hname fallback
    unfold Settings.integer
    rw [h name hname]
  unfold Settings.ofEnvironment
  rw [hinteger _ (by decide), hinteger _ (by decide), map_bind, map_bind]
  refine congrArg _ (funext fun maxLength => ?_)
  rw [map_bind, map_bind]
  refine congrArg _ (funext fun maxDigits => ?_)
  dsimp only
  split_ifs
  · rfl
  · rfl
  · rfl
  · rw [map_pure, map_pure]

/-! ### Runs -/

/-- What a command leaves behind, but for the records that are written. -/
def Outcome.unlogged (outcome : Outcome) : Outcome := { outcome with written := [] }

section
variable {files files' : Files} {settings settings' : Settings} {arguments arguments' : List String}
  {o o' : Options} (inputs : List Repl.Input)

theorem unlogged_runCommand (ho : Options.ofArguments arguments = .ok o)
    (ho' : Options.ofArguments arguments' = .ok o') (h : o'.unlogged = o.unlogged)
    (hfile : files.refusal o.logFile = none) (hfile' : files'.refusal o'.logFile = none)
    (hlimits : settings'.limits = settings.limits) :
    (runCommand files' settings' arguments' inputs).unlogged =
      (runCommand files settings arguments inputs).unlogged := by
  have hmode : o'.mode = o.mode := by rw [← o'.mode_unlogged, h, o.mode_unlogged]
  cases hm : o.mode with
  | error e =>
    rw [runCommand_of_mode_eq_error settings inputs ho hfile hm,
      runCommand_of_mode_eq_error settings' inputs ho' hfile' (hmode.trans hm)]
  | ok mode =>
    rw [runCommand_of_mode settings inputs ho hfile hm,
      runCommand_of_mode settings' inputs ho' hfile' (hmode.trans hm), ← o'.execute_unlogged, h,
      o.execute_unlogged, hlimits]
    rfl

theorem writtenTo_runCommand {mode : Mode} (ho : Options.ofArguments arguments = .ok o)
    (hfile : files.refusal o.logFile = none) (hm : o.mode = .ok mode) {sink : Sink}
    (hsink : sink ∈ handlers o.logFile) : (runCommand files settings arguments inputs).writtenTo sink =
      (o.execute mode settings.limits inputs).records.filter fun r =>
        (o.logging files settings.logLevel).1.level.severity ≤ r.level.severity := by
  have hsinks : (o.logging files settings.logLevel).1.sinks = handlers o.logFile := by
    rw [Options.logging, Logging.setUp_eq, if_pos hfile]
  rw [runCommand_of_mode settings inputs ho hfile hm]
  exact Logging.filterMap_deliver hsinks hsink _

/-- Of two runs that differ in logging only, the one with the higher level writes those records of the
other one that reach its level. -/
theorem writtenTo_runCommand_filter (ho : Options.ofArguments arguments = .ok o)
    (ho' : Options.ofArguments arguments' = .ok o') (h : o'.unlogged = o.unlogged)
    (hfile : files.refusal o.logFile = none) (hfile' : files'.refusal o'.logFile = none)
    (hlimits : settings'.limits = settings.limits)
    (hlevel : (o.logging files settings.logLevel).1.level.severity ≤
      (o'.logging files' settings'.logLevel).1.level.severity)
    {sink sink' : Sink} (hsink : sink ∈ handlers o.logFile) (hsink' : sink' ∈ handlers o'.logFile) :
    (runCommand files' settings' arguments' inputs).writtenTo sink' =
      ((runCommand files settings arguments inputs).writtenTo sink).filter fun r =>
        (o'.logging files' settings'.logLevel).1.level.severity ≤ r.level.severity := by
  have hmode : o'.mode = o.mode := by rw [← o'.mode_unlogged, h, o.mode_unlogged]
  cases hm : o.mode with
  | error e =>
    rw [runCommand_of_mode_eq_error settings inputs ho hfile hm,
      runCommand_of_mode_eq_error settings' inputs ho' hfile' (hmode.trans hm)]
    rfl
  | ok mode =>
    rw [writtenTo_runCommand inputs ho hfile hm hsink,
      writtenTo_runCommand inputs ho' hfile' (hmode.trans hm) hsink',
      Logging.filter_filter_severity hlevel, ← o'.execute_unlogged, h, o.execute_unlogged, hlimits]

end

/-- The name of the level for a command: that of the switch, or else of the environment, or else the one of
warnings. -/
def Options.levelName (o : Options) (lookup : String → Option String) : String :=
  given ((lookup "RPNCALC_LOG_LEVEL").getD "WARNING") (o.logLevel.map Level.name)

theorem Options.named_logging {lookup : String → Option String} {settings : Settings}
    (h : Settings.ofEnvironment lookup = .ok settings) (files : Files) (o : Options) :
    (o.logging files settings.logLevel).1.level.Named (o.levelName lookup) := by
  rw [levelName, ← named_given_upperCase, ← Settings.logLevel_of_ofEnvironment h, Options.logging,
    Logging.setUp_eq]
  exact Level.named_resolve _

/-- Switches for logging in front of any arguments change nothing in what else these ask for. And two runs
whose arguments and environments ask for the same but for logging show the same and have the same exit
code, whatever the inputs are, or break off alike, if the log files that they ask for can be opened. Each
of them has the level that its switch names, or else its environment, or else the one of warnings; and to
each of its sinks the run with the higher level writes just those records of the other run that reach its
level, in their order. -/
theorem logging_independent :
    (∀ (level : Option Level) (file : Option String) (arguments : List String),
      level ≠ some .critical →
        Options.unlogged <$> Options.ofArguments (Options.loggingSwitches level file ++ arguments) =
          Options.unlogged <$> Options.ofArguments arguments) ∧
    ∀ files files' lookup lookup' settings arguments arguments' o o',
      Settings.ofEnvironment lookup = .ok settings → SameButLevel lookup lookup' →
      Options.ofArguments arguments = .ok o → Options.ofArguments arguments' = .ok o' →
      o'.unlogged = o.unlogged →
      files.refusal o.logFile = none → files'.refusal o'.logFile = none →
      ∃ settings', ∃ l l' : Level, Settings.ofEnvironment lookup' = .ok settings' ∧
        l.Named (o.levelName lookup) ∧ l'.Named (o'.levelName lookup') ∧
        ∀ inputs,
          (runCommand files' settings' arguments' inputs).unlogged =
            (runCommand files settings arguments inputs).unlogged ∧
          (l.severity ≤ l'.severity →
            ∀ sink ∈ handlers o.logFile, ∀ sink' ∈ handlers o'.logFile,
              (runCommand files' settings' arguments' inputs).writtenTo sink' =
                ((runCommand files settings arguments inputs).writtenTo sink).filter
                  fun r => l'.severity ≤ r.level.severity) := by
  refine ⟨fun level file arguments hlevel => Options.unlogged_ofArguments hlevel file arguments, ?_⟩
  intro files files' lookup lookup' settings arguments arguments' o o' hsettings hsame ho ho' h hfile hfile'
  have hlimits := hsame.limits_ofEnvironment
  rw [hsettings] at hlimits
  obtain ⟨settings', hsettings', hlimits⟩ := map_eq_ok.1 hlimits
  refine ⟨settings', _, _, hsettings', o.named_logging hsettings files,
    o'.named_logging hsettings' files',
    fun inputs => ⟨unlogged_runCommand inputs ho ho' h hfile hfile' hlimits, ?_⟩⟩
  intro hseverity sink hsink sink' hsink'
  exact writtenTo_runCommand_filter inputs ho ho' h hfile hfile' hlimits hseverity hsink hsink'

/-- With a level and a file asked for, the evaluation of a text fails as it does without them, and the file
gets the second of the two records. -/
theorem logging_independent_info :
    let files : Files := fun _ => none
    let lookup : String → Option String := fun name =>
      if name = "RPNCALC_MAX_INPUT_LENGTH" then some "2"
      else if name = "RPNCALC_LOG_LEVEL" then some "Debug" else none
    let lookup' : String → Option String := fun name =>
      if name = "RPNCALC_LOG_LEVEL" then none else lookup name
    let arguments' := Options.loggingSwitches (some .info) (some "a.log") ++ ["-e", "1+1"]
    ∃ settings settings' outcome outcome', Settings.ofEnvironment lookup = .ok settings ∧
      Settings.ofEnvironment lookup' = .ok settings' ∧
      runCommand files settings ["-e", "1+1"] [] = outcome ∧
      runCommand files settings' arguments' [] = outcome' ∧
      outcome'.output = outcome.output ∧ outcome'.exit = outcome.exit ∧
      (outcome.writtenTo .console).map Record.level = [.debug, .info] ∧
      outcome'.writtenTo (.file "a.log") =
        (outcome.writtenTo .console).filter fun r => Level.info.severity ≤ r.level.severity := by
  intro files lookup lookup' arguments'
  obtain ⟨harguments, hruns⟩ := logging_independent
  have hsettings : Settings.ofEnvironment lookup = .ok ⟨.ofDigits 2 4300, "DEBUG"⟩ := by
    decide +kernel
  have hsame : SameButLevel lookup lookup' := fun name hname => if_neg hname
  have ho : Options.ofArguments ["-e", "1+1"] = .ok { evalExpression := some (some "1+1") } := rfl
  have ho' : Options.ofArguments arguments' = .ok
      { evalExpression := some (some "1+1"), logLevel := some .info, logFile := some "a.log" } := rfl
  have h := harguments (some .info) (some "a.log") ["-e", "1+1"] (by decide)
  rw [ho, ho'] at h
  obtain ⟨settings', l, l', hsettings', hl, hl', hshown⟩ :=
    hruns files files lookup lookup' _ _ _ _ _ hsettings hsame ho ho' (Except.ok.inj h) rfl rfl
  obtain ⟨hequal, hwritten⟩ := hshown []
  have hdebug : l = .debug := hl.eq_of_name (by decide +kernel)
  have hinfo : l' = .info := hl'.eq_of_name (by decide +kernel)
  subst hdebug hinfo
  have hlevels : ((runCommand files ⟨.ofDigits 2 4300, "DEBUG"⟩ ["-e", "1+1"] []).writtenTo
      .console).map Record.level = [.debug, .info] := by
    decide +kernel
  have hfile := hwritten (by decide) .console (.head _) (.file "a.log") (.tail _ (.head _))
  have houtput := congrArg Outcome.output hequal
  have hexit := congrArg Outcome.exit hequal
  exact ⟨_, _, _, _, hsettings, hsettings', rfl, rfl, houtput, hexit, hlevels, hfile⟩

end ExprCalc
