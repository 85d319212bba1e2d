import ExprCalc.Calculator
import ExprCalc.Proofs.LevelName
import ExprCalc.Proofs.Outcome
import ExprCalc.Settings

/-!
# Delivery of records

A set-up leaves the level that it asks for, and the sinks that it asks for and no others, whatever there
was before; if its file cannot be opened, it leaves no sinks at all (`Logging.setUp_eq`). Events are
answered one after the other (`LogEvent.run_append`): a set-up writes nothing, and records are written to
their receivers under the set-up that holds at the time, without changing it (`LogEvent.run_records`).
So after some activities the last set-up among them holds, whatever came before it (`run_of_lastSetUp`),
and before the first one there are no sinks (`run_of_noSetUp`).
-/

namespace ExprCalc

/-! ### Set-ups -/

/-- The sinks that a set-up with this file asks for. -/
def handlers : Option String → List Sink
  | none => [.console]
  | some path => if path = "" then [.console] else [.console, .file path]

theorem handlers_cases (file : Option String) :
    handlers file = [.console] ∨ ∃ path, handlers file = [.console, .file path] := by
  cases file with
  | none => exact .inl rfl
  | some path =>
    unfold handlers
    dsimp only
    split_ifs
    · exact .inl rfl
    · exact .inr ⟨path, rfl⟩

theorem handlers_ne_nil (file : Option String) : handlers file ≠ [] := by
  rcases handlers_cases file with h | ⟨path, h⟩ <;> simp [h]

/-- The reason why the file of a set-up cannot be opened, if one is asked for and there is such a
reason. -/
def Files.refusal (files : Files) : Option String → Option String
  | none => none
  | some path => if path = "" then none else files path

/-- A name that is given and not empty, or else `fallback`. -/
def given (fallback : String) : Option String → String
  | none => fallback
  | some text => if text = "" then fallback else text

/-- The name of the level in the environment may be put into upper case beforehand. -/
theorem named_given_upperCase (fallback : String) (level : Option String) (l : Level) :
    l.Named (given (upperCase fallback) level) ↔ l.Named (given fallback level) := by
  cases level with
  | none => exact Level.named_upperCase_iff
  | some text =>
    by_cases h : text = ""
    · simp only [given, h, if_true]
      exact Level.named_upperCase_iff
    · simp only [given, h, if_false]

theorem Settings.logLevel_of_ofEnvironment {lookup : String → Option String} {settings : Settings}
    (h : Settings.ofEnvironment lookup = .ok settings) :
    settings.logLevel = upperCase ((lookup "RPNCALC_LOG_LEVEL").getD "WARNING") := by
  unfold Settings.ofEnvironment at h
  obtain ⟨maxLength, -, h⟩ := bind_eq_ok.1 h
  obtain ⟨maxDigits, -, h⟩ := bind_eq_ok.1 h
  dsimp only at h
  split_ifs at h <;> cases h
  rfl

namespace Logging

theorem openSinks_eq (files : Files) (file : Option String) :
    openSinks files file = (files.refusal file).elim (.ok (handlers file)) .error := by
  cases file with
  | none => rfl
  | some path =>
    by_cases h : path = ""
    · simp [openSinks, Files.refusal, handlers, h, Option.filter]
    · have hpath : (some path).filter (· ≠ "") = some path :=
        Option.filter_eq_some_iff.2 ⟨rfl, decide_eq_true h⟩
      simp only [openSinks, Files.refusal, handlers, hpath, if_neg h]
      cases files path <;> rfl

theorem foldl_add (l : Logging) (sinks : List Sink) :
    sinks.foldl add l = { l with sinks := l.sinks ++ sinks } := by
  induction sinks generalizing l with
  | nil => simp
  | cons sink sinks ih =>
    rw [List.foldl_cons, ih]
    simp [add]

/-- A set-up puts new sinks in the place of all old ones, or none if its file cannot be opened. -/
theorem setUp_eq (l : Logging) (files : Files) (fallback : String) (level file : Option String) :
    l.setUp files fallback level file =
      (⟨.resolve (given fallback level), if files.refusal file = none then handlers file else []⟩,
        files.refusal file) := by
  have hlevel : (level.filter (· ≠ "")).getD fallback = given fallback level := by
    cases level with
    | none => rfl
    | some text => by_cases h : text = "" <;> simp [given, h, Option.filter]
  simp only [setUp, openSinks_eq, hlevel]
  cases hr : files.refusal file with
  | none => simp [foldl_add, setLevel, clear]
  | some reason => simp [setLevel, clear]

theorem receivers_of_sinks {l : Logging} (h : l.sinks ≠ []) (r : Record) : l.receivers r = l.sinks :=
  if_neg h

/-- Without sinks the last resort gets what is at least a warning. -/
theorem receivers_of_nil {l : Logging} (h : l.sinks = []) (r : Record) : l.receivers r =
    if Level.warning.severity ≤ r.level.severity then [.lastResort] else [] :=
  if_pos h

theorem deliver_cons (l : Logging) (r : Record) (rs : List Record) : l.deliver (r :: rs) =
    (if l.level.severity ≤ r.level.severity then (l.receivers r).map (·, r) else []) ++
      l.deliver rs := by
  unfold deliver accepts
  by_cases h : l.level.severity ≤ r.level.severity
  · rw [List.filter_cons_of_pos (by simpa using h), if_pos h, List.flatMap_cons]
  · rw [List.filter_cons_of_neg (by simpa using h), if_neg h, List.nil_append]

theorem deliver_eq_flatMap (l : Logging) (rs : List Record) : l.deliver rs =
    rs.flatMap fun r =>
      if l.level.severity ≤ r.level.severity then (l.receivers r).map (·, r) else [] := by
  induction rs with
  | nil => rfl
  | cons r rs ih => rw [deliver_cons, ih, List.flatMap_cons]

theorem deliver_of_sinks {l : Logging} (h : l.sinks ≠ []) (rs : List Record) : l.deliver rs =
    rs.flatMap fun r => if l.level.severity ≤ r.level.severity then l.sinks.map (·, r) else [] := by
  simp only [deliver_eq_flatMap, receivers_of_sinks h]

theorem deliver_of_nil {l : Logging} (h : l.sinks = []) (rs : List Record) : l.deliver rs =
    rs.flatMap fun r =>
      if l.level.severity ≤ r.level.severity ∧ Level.warning.severity ≤ r.level.severity then
        [(.lastResort, r)]
      else [] := by
  rw [deliver_eq_flatMap]
  refine List.flatMap_congr fun r _ => ?_
  rw [receivers_of_nil h]
  split_ifs <;> simp_all

/-- A higher level takes from the records of a lower one what it takes from all. -/
theorem filter_filter_severity {n n' : Nat} (h : n ≤ n') (rs : List Record) :
    (rs.filter fun r => n ≤ r.level.severity).filter (fun r => n' ≤ r.level.severity) =
      rs.filter fun r => n' ≤ r.level.severity := by
  rw [List.filter_filter]
  refine List.filter_congr fun r _ => ?_
  rw [← Bool.decide_and]
  exact decide_eq_decide.2 ⟨And.left, fun hr => ⟨hr, Nat.le_trans h hr⟩⟩

/-- A sink of a set-up gets every record that reaches the level, once. -/
theorem filterMap_deliver {l : Logging} {file : Option String} (hl : l.sinks = handlers file)
    {sink : Sink} (h : sink ∈ handlers file) (rs : List Record) :
    (l.deliver rs).filterMap (fun w => if w.1 = sink then some w.2 else none) =
      rs.filter fun r => l.level.severity ≤ r.level.severity := by
  have honce : ∀ r : Record, ((l.receivers r).map (·, r)).filterMap
      (fun w => if w.1 = sink then some w.2 else none) = [r] := by
    intro r
    rw [receivers_of_sinks (hl ▸ handlers_ne_nil file), hl]
    rcases handlers_cases file with hs | ⟨path, hs⟩
    · rw [hs, List.mem_singleton] at h
      rw [hs, h]
      simp
    · rw [hs, List.mem_pair] at h
      rw [hs]
      rcases h with rfl | rfl <;> simp
  unfold deliver
  rw [List.filterMap_flatMap]
  simp only [honce]
  exact List.flatMap_singleton' _

end Logging

/-! ### Events -/

namespace LogEvent

theorem run_append (fallback : String) (state : Logging) (es es' : List LogEvent) :
    run fallback state (es ++ es') =
      ((run fallback (run fallback state es).1 es').1,
        (run fallback state es).2 ++ (run fallback (run fallback state es).1 es').2) := by
  induction es generalizing state with
  | nil => rfl
  | cons e es ih =>
    cases e with
    | setUp files level file => rw [List.cons_append, run, ih, run]
    | record r =>
      rw [List.cons_append, run, ih, run]
      simp only [List.append_assoc]

theorem run_records (fallback : String) (state : Logging) (rs : List Record) :
    run fallback state (rs.map .record) = (state, state.deliver rs) := by
  induction rs with
  | nil => rfl
  | cons r rs ih =>
    rw [List.map_cons, run, ih]
    simp [Logging.deliver_eq_flatMap]

end LogEvent

/-! ### Activities -/

/-- What is done with the calculator, as far as it shows in the records. -/
inductive Activity
  | setUp (files : Files) (level file : Option String)
  | log (r : Record)
  | tokenize (lexicon : Lexicon) (expression : String)
  | toPostfix (table : Precedence) (ts : List Token)
  | evaluate (operations : Operations) (ts : List Token)
  | evaluateExpression (expression : String)
  | validate (expression : String)
  | calculate (expression : String)

namespace Activity
open Calculator

def IsSetUp : Activity → Prop
  | setUp _ _ _ => True
  | _ => False

/-- The records an activity leaves. -/
def records (limits : Limits) : Activity → List Record
  | setUp _ _ _ => []
  | log r => [r]
  | tokenize lexicon s => (tokenizeTraced lexicon limits s).records
  | toPostfix table ts => (toPostfixTraced table ts).records
  | evaluate operations ts => (evaluateTraced limits operations ts).records
  | evaluateExpression s => (evaluateExpressionTraced limits s).records
  | validate s => (validateTraced limits s).records
  | calculate s => (calculateTraced limits s).records

def events (limits : Limits) : Activity → List LogEvent
  | setUp files level file => [.setUp files level file]
  | a => (a.records limits).map .record

theorem events_of_not_isSetUp {a : Activity} (h : ¬ a.IsSetUp) (limits : Limits) :
    a.events limits = (a.records limits).map .record := by
  cases a with
  | setUp files level file => exact absurd trivial h
  | _ => rfl

/-- The set-up after some activities, and what has been written in their course. -/
def run (settings : Settings) (as : List Activity) : Logging × List (Sink × Record) :=
  LogEvent.run settings.logLevel .unset (as.flatMap (events settings.limits))

/-- There is no set-up among some activities. -/
def NoSetUp (as : List Activity) : Prop := ∀ a ∈ as, ¬ a.IsSetUp

/-- The last set-up among some activities asks for this level and this file, and finds these files. -/
def LastSetUp (as : List Activity) (files : Files) (level file : Option String) : Prop :=
  ∃ earlier later, as = earlier ++ .setUp files level file :: later ∧ NoSetUp later

theorem flatMap_events_of_noSetUp {as : List Activity} (h : NoSetUp as) (limits : Limits) :
    as.flatMap (events limits) = (as.flatMap (records limits)).map .record := by
  rw [List.map_flatMap]
  exact List.flatMap_congr fun a ha => events_of_not_isSetUp (h a ha) limits

variable (settings : Settings)

theorem run_append (as as' : List Activity) : run settings (as ++ as') =
    let after := LogEvent.run settings.logLevel (run settings as).1
      (as'.flatMap (events settings.limits))
    (after.1, (run settings as).2 ++ after.2) := by
  rw [run, List.flatMap_append, LogEvent.run_append]
  rfl

theorem run_append_of_noSetUp (as : List Activity) {as' : List Activity} (h : NoSetUp as') :
    run settings (as ++ as') = ((run settings as).1, (run settings as).2 ++
      (run settings as).1.deliver (as'.flatMap (records settings.limits))) := by
  rw [run_append, flatMap_events_of_noSetUp h, LogEvent.run_records]

theorem run_append_setUp (as : List Activity) (files : Files) (level file : Option String) :
    run settings (as ++ [setUp files level file]) =
      (((run settings as).1.setUp files settings.logLevel level file).1, (run settings as).2) := by
  rw [run_append]
  exact congrArg _ (List.append_nil _)

theorem run_of_noSetUp {as : List Activity} (h : NoSetUp as) :
    run settings as = (.unset, Logging.unset.deliver (as.flatMap (records settings.limits))) :=
  run_append_of_noSetUp settings [] h

theorem run_of_lastSetUp {as : List Activity} {files : Files} {level file : Option String}
    (h : LastSetUp as files level file) : (run settings as).1 =
      ⟨.resolve (given settings.logLevel level),
        if files.refusal file = none then handlers file else []⟩ := by
  obtain ⟨earlier, later, rfl, hlater⟩ := h
  rw [List.append_cons, run_append_of_noSetUp settings _ hlater, run_append_setUp, Logging.setUp_eq]

end Activity

/-- In the course of any activities there are no sinks before the first set-up, and only warnings and
what is above them are written, to the last resort. After a set-up, and until the next one, the level is
the one it names, or else the one that the environment names, or else the one of warnings, and the sinks
are those that it asks for: of the records of another activity those that reach the level are written, in
their order, once to each sink, behind all that has been written before. After a set-up whose file cannot
be opened, which it tells, there is that level and again no sink. A set-up itself writes nothing. -/
theorem run_delivers {lookup : String → Option String} {settings : Settings}
    (h : Settings.ofEnvironment lookup = .ok settings) (as : List Activity) :
    (Activity.NoSetUp as → Activity.run settings as =
      (⟨.warning, []⟩, (as.flatMap (Activity.records settings.limits)).flatMap fun r =>
        if Level.warning.severity ≤ r.level.severity then [(.lastResort, r)] else [])) ∧
    (∀ files level file, Activity.LastSetUp as files level file → ∃ l : Level,
      l.Named (given ((lookup "RPNCALC_LOG_LEVEL").getD "WARNING") level) ∧
      (files.refusal file = none → (Activity.run settings as).1 = ⟨l, handlers file⟩ ∧
        ∀ a, ¬ a.IsSetUp → (Activity.run settings (as ++ [a])).2 = (Activity.run settings as).2 ++
          (a.records settings.limits).flatMap fun r =>
            if l.severity ≤ r.level.severity then (handlers file).map (·, r) else []) ∧
      (files.refusal file ≠ none → (Activity.run settings as).1 = ⟨l, []⟩ ∧
        ∀ a, ¬ a.IsSetUp → (Activity.run settings (as ++ [a])).2 = (Activity.run settings as).2 ++
          (a.records settings.limits).flatMap fun r =>
            if l.severity ≤ r.level.severity ∧ Level.warning.severity ≤ r.level.severity then
              [(.lastResort, r)]
            else [])) ∧
    ∀ files level file,
      (Activity.run settings (as ++ [.setUp files level file])).2 = (Activity.run settings as).2 ∧
      ((Activity.run settings as).1.setUp files settings.logLevel level file).2 =
        files.refusal file := by
  have happend : ∀ a, ¬ a.IsSetUp → (Activity.run settings (as ++ [a])).2 =
      (Activity.run settings as).2 ++
        (Activity.run settings as).1.deliver (a.records settings.limits) := by
    intro a ha
    rw [Activity.run_append_of_noSetUp settings as (List.forall_mem_singleton.2 ha),
      List.flatMap_singleton]
  refine ⟨fun hnone => ?_, fun files level file hlast => ?_, fun files level file => ⟨?_, ?_⟩⟩
  · rw [Activity.run_of_noSetUp settings hnone, Logging.deliver_of_nil rfl]
    simp only [Logging.unset, and_self]
  · have hstate := Activity.run_of_lastSetUp settings hlast
    refine ⟨.resolve (given settings.logLevel level), ?_, fun hopens => ?_, fun hrefused => ?_⟩
    · rw [← named_given_upperCase, Settings.logLevel_of_ofEnvironment h]
      exact Level.named_resolve _
    · rw [if_pos hopens] at hstate
      refine ⟨hstate, fun a ha => ?_⟩
      rw [happend a ha, hstate, Logging.deliver_of_sinks (handlers_ne_nil file)]
    · rw [if_neg hrefused] at hstate
      refine ⟨hstate, fun a ha => ?_⟩
      rw [happend a ha, hstate, Logging.deliver_of_nil rfl]
  · rw [Activity.run_append_setUp]
  · rw [Logging.setUp_eq]

/-- A note that is below the level of a first set-up reaches that of a second one, but no longer the file of
the first. -/
theorem run_delivers_second_setUp :
    let note : Record := ⟨.info, "x", "1"⟩
    let files : Files := fun _ => none
    let first : List Activity := [.log note, .setUp files (some "loud") (some "a.log"), .log note]
    let second := first ++ [.setUp files (some "Info") (some "")]
    Settings.ofEnvironment (fun _ => none) = .ok .default ∧
      Activity.run .default [.log note] = (⟨.warning, []⟩, []) ∧
      (Activity.run .default second).1 = ⟨.info, [.console]⟩ ∧
      (Activity.run .default second).2 = (Activity.run .default first).2 ∧
      (Activity.run .default (second ++ [.log note])).2 =
        (Activity.run .default second).2 ++ [(.console, note)] := by
  intro note files first second
  have h : Settings.ofEnvironment (fun _ => none) = .ok .default := by decide +kernel
  obtain ⟨hnone, -, -⟩ := run_delivers h [.log note]
  obtain ⟨-, -, hsilent⟩ := run_delivers h first
  obtain ⟨-, hlast, -⟩ := run_delivers h second
  have hnote : Activity.NoSetUp [.log note] := List.forall_mem_singleton.2 id
  obtain ⟨l, hl, hopens, -⟩ := hlast files (some "Info") (some "") ⟨first, [], rfl, nofun⟩
  obtain ⟨hstate, hwritten⟩ := hopens rfl
  have hinfo : l = .info := hl.eq_of_name (by decide +kernel)
  subst hinfo
  exact ⟨h, hnone hnote, hstate, (hsilent _ _ _).1, hwritten (.log note) id⟩

/-- A set-up whose file is a directory leaves no sinks behind, neither its own nor those of the set-up
before, so that a note at its level is written nowhere. Before the first set-up a warning is written. -/
theorem run_setUp_unopenable :
    let note : Record := ⟨.info, "x", "1"⟩
    let warning : Record := ⟨.warning, "x", "2"⟩
    let files : Files := fun path => if path = "/" then some "[Errno 21] Is a directory: '/'" else none
    let as : List Activity := [.setUp files none none, .setUp files (some "INFO") (some "/")]
    Activity.run .default as = (⟨.info, []⟩, []) ∧
      handlers (some "/") = [.console, .file "/"] ∧
      Activity.run .default (as ++ [.log note]) = (⟨.info, []⟩, []) ∧
      (Activity.run .default [.log warning]).2 = [(.lastResort, warning)] := by
  decide +kernel

end ExprCalc
