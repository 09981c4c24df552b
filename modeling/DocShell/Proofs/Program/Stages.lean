import DocShell.Program.Run
import DocShell.Proofs.Report.Lines

set_option autoImplicit false

/-! # The stages of a run

A run has six stages, and several of them can find something wrong at once. `Run.Ends` says of each
stage by itself when it ends the run and with what result, whatever the other stages find. The
first stage that ends the run decides: there is always one, and its result is all that is shown, on
one of the two outputs, with the exit code that belongs to it.
-/

namespace DocShell

open Text (ControlFree)

/-- What a run works on: its options, the path of the settings file, what was found there, and the
bytes of the input. -/
structure Run where
  options : Options
  path : String
  file : SettingsFile
  input : ByteArray

namespace Run

/-! ## Stages -/

/-- The stages of a run. -/
inductive Stage where
  | settings
  | format
  | listing
  | reading
  | parsing
  | rendering
deriving DecidableEq

namespace Stage

/-- All stages, in their order. -/
def all : List Stage :=
  [settings, format, listing, reading, parsing, rendering]

/-- The stages that come before. -/
def earlier (stage : Stage) : List Stage :=
  all.takeWhile (· ≠ stage)

/-- Of two stages one comes before the other. -/
theorem earlier_cases (stage stage' : Stage) :
    stage = stage' ∨ stage ∈ stage'.earlier ∨ stage' ∈ stage.earlier := by
  cases stage <;> cases stage' <;> decide

end Stage

/-- The stage ends the run with the result. -/
inductive Ends (run : Run) : Stage → Except Failure String → Prop
  | unreadable {why : String} (h : run.file = .unreadable why) :
      Ends run .settings (.error (.settings (.unreadable why)))
  | invalid {text : String} {complaint : Option String} (h : run.file = .present text complaint)
      (hinvalid : Settings.ofText? text = none) :
      Ends run .settings (.error (.settings (.invalid run.path complaint)))
  | unknownFormat {name : String} (h : run.options.format = some name)
      (hname : ∀ format : ReportFormat,
        String.ofList (name.toList.map Char.toLower) ≠ format.name) :
      Ends run .format (.error (.settings (.unknownFormat name)))
  | listing {start : String} (h : run.options.methods = some start) :
      Ends run .listing
        (.ok (Report.unlines ((Method.completions start).flatMap Task.methodLines)))
  | notUtf8 (hquery : run.options.query = none ∨ run.options.query = some "-")
      (hinput : String.fromUTF8? run.input = none) :
      Ends run .reading (.error (.input .notUtf8))
  | refused {text : String} {e : QueryError} (htext : run.options.queryText run.input = .ok text)
      (he : Command.parse text = .error e) : Ends run .parsing (.error (.query e))
  | rendered {settings : Settings} {format : ReportFormat} {text : String} {c : Command}
      (hsettings : Settings.load run.path run.file = .ok settings)
      (hformat : run.options.reportFormat settings = .ok format)
      (htext : run.options.queryText run.input = .ok text) (hc : Command.parse text = .ok c) :
      Ends run .rendering (.ok (Task.reportOn c format (run.options.jsonLayout settings)))

/-- The stage is the first one that ends the run. -/
def IsFirst (run : Run) (stage : Stage) (result : Except Failure String) : Prop :=
  Ends run stage result ∧ ∀ earlier ∈ stage.earlier, ∀ other, ¬ Ends run earlier other

/-- The run of the program with these options. The settings file is looked for at the path that
they give, or at the usual one. -/
def ofOptions (usual : String) (files : String → SettingsFile) (input : ByteArray)
    (options : Options) : Run :=
  ⟨options, options.settingsPath usual, files (options.settingsPath usual), input⟩

/-! ## When a stage ends the run -/

variable {run : Run} {result : Except Failure String}

theorem ends_settings_iff :
    Ends run .settings result ↔
      ∃ fault, Settings.load run.path run.file = .error fault ∧
        result = .error (.settings fault) := by
  constructor
  · intro h
    cases h with
    | unreadable h => exact ⟨_, by rw [h, Settings.load], rfl⟩
    | invalid h hinvalid => exact ⟨_, by simp only [h, Settings.load, hinvalid], rfl⟩
  · rintro ⟨fault, hload, rfl⟩
    unfold Settings.load at hload
    split at hload
    · contradiction
    · rename_i h
      obtain rfl := Except.error.inj hload
      exact .unreadable h
    · rename_i h
      split at hload
      · contradiction
      · rename_i hinvalid
        obtain rfl := Except.error.inj hload
        exact .invalid h hinvalid

theorem ofAnyCase?_eq_none_iff {name : String} :
    ReportFormat.ofAnyCase? name = none ↔ ∀ format : ReportFormat,
      String.ofList (name.toList.map Char.toLower) ≠ format.name := by
  have hall : ∀ format : ReportFormat, format ∈ [ReportFormat.text, .json] := by
    intro format
    cases format <;> decide
  simp only [ReportFormat.ofAnyCase?, ReportFormat.ofName?, List.find?_eq_none, decide_eq_true_eq]
  exact ⟨fun h format => Ne.symm (h format (hall format)), fun h format _ => Ne.symm (h format)⟩

/-- Whether the name of a format is known does not depend on the settings. -/
theorem ends_format_iff (settings : Settings) :
    Ends run .format result ↔
      ∃ fault, run.options.reportFormat settings = .error fault ∧
        result = .error (.settings fault) := by
  constructor
  · intro h
    cases h with
    | unknownFormat h hname =>
        have hnone := ofAnyCase?_eq_none_iff.mpr hname
        exact ⟨_, by simp only [Options.reportFormat, h, hnone], rfl⟩
  · rintro ⟨fault, hformat, rfl⟩
    unfold Options.reportFormat at hformat
    split at hformat
    · contradiction
    · rename_i name h
      split at hformat
      · contradiction
      · rename_i hnone
        obtain rfl := Except.error.inj hformat
        exact .unknownFormat h (ofAnyCase?_eq_none_iff.mp hnone)

theorem ends_listing_iff :
    Ends run .listing result ↔
      ∃ start, run.options.methods = some start ∧ result = (Task.list start).output := by
  constructor
  · intro h
    cases h with
    | listing h => exact ⟨_, h, rfl⟩
  · rintro ⟨start, h, rfl⟩
    exact .listing h

theorem readsInput_iff {options : Options} :
    options.readsInput = true ↔ options.query = none ∨ options.query = some "-" := by
  simp [Options.readsInput]

theorem ends_reading_iff :
    Ends run .reading result ↔
      ∃ fault, run.options.queryText run.input = .error fault ∧
        result = .error (.input fault) := by
  constructor
  · intro h
    cases h with
    | notUtf8 hquery hinput =>
        have hreads := readsInput_iff.mpr hquery
        exact ⟨_, by simp only [Options.queryText, hreads, if_true, hinput], rfl⟩
  · rintro ⟨fault, htext, rfl⟩
    unfold Options.queryText at htext
    split_ifs at htext with hreads
    split at htext
    · contradiction
    · rename_i hinput
      obtain rfl := Except.error.inj htext
      exact .notUtf8 (readsInput_iff.mp hreads) hinput

theorem ends_parsing_iff :
    Ends run .parsing result ↔
      ∃ text e, run.options.queryText run.input = .ok text ∧ Command.parse text = .error e ∧
        result = .error (.query e) := by
  constructor
  · intro h
    cases h with
    | refused htext he => exact ⟨_, _, htext, he, rfl⟩
  · rintro ⟨text, e, htext, he, rfl⟩
    exact .refused htext he

theorem ends_rendering_iff :
    Ends run .rendering result ↔
      ∃ settings format text c, Settings.load run.path run.file = .ok settings ∧
        run.options.reportFormat settings = .ok format ∧
        run.options.queryText run.input = .ok text ∧ Command.parse text = .ok c ∧
        result = .ok (Task.reportOn c format (run.options.jsonLayout settings)) := by
  constructor
  · intro h
    cases h with
    | rendered hsettings hformat htext hc =>
        exact ⟨_, _, _, _, hsettings, hformat, htext, hc, rfl⟩
  · rintro ⟨settings, format, text, c, hsettings, hformat, htext, hc, rfl⟩
    exact .rendered hsettings hformat htext hc

/-- Where a stage reports the error of a computation, it has one error to report. -/
theorem eq_of_error {ε α : Type} {x : Except ε α} {f : ε → Failure}
    {result other : Except Failure String} (h : ∃ e, x = .error e ∧ result = .error (f e))
    (h' : ∃ e, x = .error e ∧ other = .error (f e)) : result = other := by
  obtain ⟨e, he, rfl⟩ := h
  obtain ⟨e', he', rfl⟩ := h'
  rw [Except.error.inj (he.symm.trans he')]

/-- A stage ends the run with one result only. -/
theorem Ends.unique {stage : Stage} {other : Except Failure String} (h : Ends run stage result)
    (h' : Ends run stage other) : result = other := by
  cases stage with
  | settings => exact eq_of_error (ends_settings_iff.mp h) (ends_settings_iff.mp h')
  | format => exact eq_of_error ((ends_format_iff .default).mp h) ((ends_format_iff .default).mp h')
  | listing =>
      obtain ⟨start, hstart, rfl⟩ := ends_listing_iff.mp h
      obtain ⟨start', hstart', rfl⟩ := ends_listing_iff.mp h'
      rw [Option.some.inj (hstart.symm.trans hstart')]
  | reading => exact eq_of_error (ends_reading_iff.mp h) (ends_reading_iff.mp h')
  | parsing =>
      obtain ⟨text, e, htext, he, rfl⟩ := ends_parsing_iff.mp h
      obtain ⟨text', e', htext', he', rfl⟩ := ends_parsing_iff.mp h'
      obtain rfl := Except.ok.inj (htext.symm.trans htext')
      rw [Except.error.inj (he.symm.trans he')]
  | rendering =>
      obtain ⟨settings, format, text, c, hsettings, hformat, htext, hc, rfl⟩ :=
        ends_rendering_iff.mp h
      obtain ⟨settings', format', text', c', hsettings', hformat', htext', hc', rfl⟩ :=
        ends_rendering_iff.mp h'
      obtain rfl := Except.ok.inj (hsettings.symm.trans hsettings')
      obtain rfl := Except.ok.inj (hformat.symm.trans hformat')
      obtain rfl := Except.ok.inj (htext.symm.trans htext')
      rw [Except.ok.inj (hc.symm.trans hc')]

/-! ## The first stage -/

theorem IsFirst.unique {stage stage' : Stage} {other : Except Failure String}
    (h : IsFirst run stage result) (h' : IsFirst run stage' other) :
    stage = stage' ∧ result = other := by
  rcases stage.earlier_cases stage' with rfl | hearlier | hearlier
  · exact ⟨rfl, h.1.unique h'.1⟩
  · exact absurd h.1 (h'.2 stage hearlier result)
  · exact absurd h'.1 (h.2 stage' hearlier other)

/-- The result of a run: that of its task, if it is found out what is to be done. -/
def ending (run : Run) : Except Failure String :=
  Task.ofOptions run.options run.path run.file run.input >>= Task.output

theorem ending_of_settings {fault : SettingsFault}
    (h : Settings.load run.path run.file = .error fault) :
    run.ending = .error (.settings fault) := by
  simp [ending, Task.ofOptions, h, bind, Except.bind, Except.mapError]

theorem ending_of_format {settings : Settings} {fault : SettingsFault}
    (hsettings : Settings.load run.path run.file = .ok settings)
    (h : run.options.reportFormat settings = .error fault) :
    run.ending = .error (.settings fault) := by
  simp [ending, Task.ofOptions, hsettings, h, bind, Except.bind, Except.mapError]

/-- With good settings and a good format the methods are listed, or the query is read. -/
theorem ending_of_ok {settings : Settings} {format : ReportFormat}
    (hsettings : Settings.load run.path run.file = .ok settings)
    (hformat : run.options.reportFormat settings = .ok format) :
    run.ending = match run.options.methods with
      | some start => (Task.list start).output
      | none =>
        match run.options.queryText run.input with
        | .error fault => .error (.input fault)
        | .ok text => (Task.report text format (run.options.jsonLayout settings)).output := by
  simp only [ending, Task.ofOptions, hsettings, hformat, bind, Except.bind, Except.mapError]
  cases run.options.methods with
  | some start => rfl
  | none => cases run.options.queryText run.input <;> rfl

theorem exists_isFirst_of_ok {settings : Settings} {format : ReportFormat}
    (hsettings : Settings.load run.path run.file = .ok settings)
    (hformat : run.options.reportFormat settings = .ok format) :
    ∃ stage, IsFirst run stage run.ending := by
  have hload : ∀ other, ¬ Ends run .settings other := by
    simp [ends_settings_iff, hsettings]
  have hname : ∀ other, ¬ Ends run .format other := by
    simp [ends_format_iff settings, hformat]
  rw [ending_of_ok hsettings hformat]
  cases hmethods : run.options.methods with
  | some start =>
      refine ⟨.listing, ends_listing_iff.mpr ⟨start, hmethods, rfl⟩, ?_⟩
      simpa [Stage.earlier, Stage.all] using ⟨hload, hname⟩
  | none =>
      have hlisting : ∀ other, ¬ Ends run .listing other := by
        simp [ends_listing_iff, hmethods]
      cases htext : run.options.queryText run.input with
      | error fault =>
          refine ⟨.reading, ends_reading_iff.mpr ⟨fault, htext, rfl⟩, ?_⟩
          simpa [Stage.earlier, Stage.all] using ⟨hload, hname, hlisting⟩
      | ok text =>
          have hreading : ∀ other, ¬ Ends run .reading other := by
            simp [ends_reading_iff, htext]
          cases hc : Command.parse text with
          | error e =>
              refine ⟨.parsing, ends_parsing_iff.mpr ⟨text, e, htext, hc, ?_⟩, ?_⟩
              · simp [Task.output, hc, bind, Except.bind, Except.mapError]
              · simpa [Stage.earlier, Stage.all] using ⟨hload, hname, hlisting, hreading⟩
          | ok c =>
              have hparsing : ∀ other, ¬ Ends run .parsing other := by
                simp [ends_parsing_iff, htext, hc]
              refine ⟨.rendering, ends_rendering_iff.mpr
                ⟨settings, format, text, c, hsettings, hformat, htext, hc, ?_⟩, ?_⟩
              · simp [Task.output, hc, bind, Except.bind, Except.mapError, pure, Except.pure]
              · simpa [Stage.earlier, Stage.all] using
                  ⟨hload, hname, hlisting, hreading, hparsing⟩

/-- Some stage is the first one that ends the run, and its result is that of the run. -/
theorem exists_isFirst (run : Run) : ∃ stage, IsFirst run stage run.ending := by
  cases hsettings : Settings.load run.path run.file with
  | error fault =>
      refine ⟨.settings, ends_settings_iff.mpr ⟨fault, hsettings, ?_⟩, ?_⟩
      · exact ending_of_settings hsettings
      · simp [Stage.earlier, Stage.all]
  | ok settings =>
      cases hformat : run.options.reportFormat settings with
      | error fault =>
          refine ⟨.format, (ends_format_iff settings).mpr ⟨fault, hformat, ?_⟩, ?_⟩
          · exact ending_of_format hsettings hformat
          · simp [Stage.earlier, Stage.all, ends_settings_iff, hsettings]
      | ok format => exact exists_isFirst_of_ok hsettings hformat

end Run

/-! ## Lists of methods -/

theorem Text.controlFree_replicate {c : Char} (h : isControl c = false) (n : Nat) :
    ControlFree (List.replicate n c) := by
  intro d hd
  rw [List.eq_of_mem_replicate hd]
  exact h

theorem Role.controlFree_label (role : Role) : ControlFree role.label.toList := by
  cases role <;> decide

theorem Method.controlFree_description (m : Method) : ControlFree m.rule.description.toList := by
  cases m <;> decide +kernel

theorem Rule.controlFree_usage {rule : Rule} (hname : ControlFree rule.name.toList) :
    ControlFree rule.usage.toList := by
  have hstart : ControlFree "db.<collection>.".toList := by decide
  have hfirst := rule.first.controlFree_label
  unfold usage
  cases rule.second with
  | none =>
      simp only [String.toList_append, Text.controlFree_append]
      exact ⟨⟨hstart, hname⟩, ⟨by decide, hfirst⟩, by decide⟩
  | some second =>
      simp only [String.toList_append, Text.controlFree_append]
      exact ⟨⟨hstart, hname⟩, ⟨⟨⟨by decide, hfirst⟩, by decide⟩, second.controlFree_label⟩,
        by decide⟩

namespace Task

theorem controlFree_padded (width : Nat) {s : String} (h : ControlFree s.toList) :
    ControlFree (padded width s).toList := by
  rw [padded, String.toList_append, String.toList_ofList]
  exact Text.controlFree_append.mpr ⟨h, Text.controlFree_replicate (by decide) _⟩

/-- The two lines on a method have no control characters. -/
theorem controlFree_methodLines (m : Method) :
    ∀ line ∈ methodLines m, ControlFree line.toList := by
  have hblank : ControlFree " ".toList := by decide
  have hname := controlFree_padded 12 m.controlFree_name
  have hspace : ControlFree (padded 12 "").toList := controlFree_padded 12 (by decide)
  have husage := Rule.controlFree_usage m.controlFree_name
  intro line hline
  simp only [methodLines, List.mem_cons, List.not_mem_nil, or_false] at hline
  rcases hline with rfl | rfl
  · simp only [String.toList_append, Text.controlFree_append]
    exact ⟨⟨hname, hblank⟩, m.controlFree_description⟩
  · simp only [String.toList_append, Text.controlFree_append]
    exact ⟨⟨hspace, hblank⟩, husage⟩

theorem completions_eq (start : String) :
    Method.completions start = Method.all.filter fun m => start.toList <+: m.name.toList := by
  unfold Method.completions
  refine List.filter_congr fun m _ => ?_
  rw [Bool.eq_iff_iff, List.isPrefixOf_iff_prefix, decide_eq_true_eq]

/-- The lines of a list of methods are those on each method, one after the other. -/
theorem endedLines?_list (start : String) :
    Report.endedLines? (Report.unlines ((Method.completions start).flatMap methodLines)) =
      some ((Method.all.filter fun m => start.toList <+: m.name.toList).flatMap methodLines) := by
  rw [completions_eq]
  apply Report.endedLines?_unlines
  intro line hline
  obtain ⟨m, -, hm⟩ := List.mem_flatMap.mp hline
  exact (controlFree_methodLines m line hm).not_mem (by decide)

/-- Where methods are to be listed, neither the query nor the input is looked at. -/
theorem ofOptions_of_methods {options : Options} {start : String}
    (h : options.methods = some start) (path : String) (file : SettingsFile)
    (query : Option String) (input input' : ByteArray) :
    ofOptions { options with query := query } path file input' =
      ofOptions options path file input := by
  unfold ofOptions
  simp only [h]
  rfl

end Task

/-! ## What is shown -/

namespace Outcome

/-- The outcome shows the result and nothing else: a success by its text, and a failure by its
message on a line, which the detail of a malformed query follows on a line of its own. -/
def Shows (outcome : Outcome) : Except Failure String → Prop
  | .ok text => outcome.exit = 0 ∧ outcome.stdout = text ∧ outcome.stderr = ""
  | .error f =>
    outcome.exit = 1 ∧ outcome.stdout = "" ∧ outcome.stderr = f.message ++ "\n" ++
      match f with
      | .query (.malformed detail) => "  " ++ detail.message ++ "\n"
      | _ => ""

theorem shows_failure (f : Failure) (log : List LogEvent) : (failure f log).Shows (.error f) := by
  have hnil : Report.unlines [] = "" := rfl
  refine ⟨rfl, rfl, ?_⟩
  show Report.unlines f.lines = _
  rw [Failure.lines, Report.unlines_cons]
  cases f with
  | query e =>
      cases e with
      | malformed detail => simp [Failure.detail?, QueryError.detail?, Report.unlines_cons, hnil]
      | missingInput => rfl
      | unsupportedMethod name => rfl
      | missingOptions name => rfl
  | settings fault => rfl
  | input fault => rfl
  | output text => rfl

theorem shows_ending (run : Run) :
    (ofOptions run.options run.path run.file run.input).Shows run.ending := by
  unfold ofOptions Run.ending
  cases Task.ofOptions run.options run.path run.file run.input with
  | error f => exact shows_failure f _
  | ok task =>
      dsimp only [bind, Except.bind]
      cases task.output with
      | error f => exact shows_failure f _
      | ok stdout => exact ⟨rfl, rfl, rfl⟩

/-- A run is all or nothing: there is a first stage that ends it, with one result, and the outcome
shows that result and nothing else. With good settings and a good format a list of methods is
shown whatever the query and the input are, two lines for each method of the list. -/
theorem ofInvocation_shows_first (usual : String) (files : String → SettingsFile)
    (input : ByteArray) (options : Options) :
    (∃ stage result,
      (∀ stage' result', (Run.ofOptions usual files input options).IsFirst stage' result' ↔
        stage' = stage ∧ result' = result) ∧
      (ofInvocation usual files input (.run options)).Shows result) ∧
    ∀ start, options.methods = some start →
      (∀ result, ¬ (Run.ofOptions usual files input options).Ends .settings result) →
      (∀ result, ¬ (Run.ofOptions usual files input options).Ends .format result) →
      ∃ outcome, outcome.exit = 0 ∧ outcome.stderr = "" ∧
        Report.endedLines? outcome.stdout =
          some ((Method.all.filter fun m => start.toList <+: m.name.toList).flatMap fun m =>
            [Task.padded 12 m.name ++ " " ++ m.rule.description,
              Task.padded 12 "" ++ " " ++ m.rule.usage]) ∧
        ∀ query input', ofInvocation usual files input'
          (.run { options with query := query }) = outcome := by
  have hshows := shows_ending (Run.ofOptions usual files input options)
  obtain ⟨stage, hfirst⟩ := Run.exists_isFirst (Run.ofOptions usual files input options)
  constructor
  · refine ⟨stage, _, ?_, hshows⟩
    intro stage' result'
    constructor
    · intro h
      exact h.unique hfirst
    · rintro ⟨rfl, rfl⟩
      exact hfirst
  · intro start hmethods hsettings hformat
    have hlisting : (Run.ofOptions usual files input options).IsFirst .listing
        (Task.list start).output := by
      refine ⟨.listing hmethods, ?_⟩
      simpa [Run.Stage.earlier, Run.Stage.all] using ⟨hsettings, hformat⟩
    obtain ⟨-, hending⟩ := hfirst.unique hlisting
    rw [hending] at hshows
    obtain ⟨hexit, hstdout, hstderr⟩ := hshows
    refine ⟨_, hexit, hstderr, ?_, ?_⟩
    · rw [hstdout]
      exact Task.endedLines?_list start
    · intro query input'
      show ofOptions { options with query := query } _ _ input' = _
      unfold ofOptions
      rw [Task.ofOptions_of_methods hmethods]
      rfl

/-- The methods are listed although the query is to be read from input that is not UTF-8. -/
theorem ofInvocation_shows_first_delete :
    ∃ outcome, outcome = ofInvocation "config.toml" (fun _ => .absent) ⟨#[0xFF]⟩
        (.run ⟨some "-", some "Json", false, none, some "delete"⟩) ∧
      outcome.exit = 0 ∧ outcome.stderr = "" ∧
      Report.endedLines? outcome.stdout = some [
        "deleteOne    Delete the first document matching a filter",
        "             db.<collection>.deleteOne([filter])",
        "deleteMany   Delete every document matching a filter",
        "             db.<collection>.deleteMany([filter])"] := by
  let options : Options := ⟨some "-", some "Json", false, none, some "delete"⟩
  have hsettings : ∀ result, ¬ (Run.ofOptions "config.toml" (fun _ => .absent) ⟨#[0xFF]⟩
      options).Ends .settings result := by
    simp [Run.ends_settings_iff, Run.ofOptions, Settings.load]
  have hjson : options.reportFormat .default = .ok .json := by decide
  have hformat : ∀ result, ¬ (Run.ofOptions "config.toml" (fun _ => .absent) ⟨#[0xFF]⟩
      options).Ends .format result := by
    simp [Run.ends_format_iff .default, Run.ofOptions, hjson]
  obtain ⟨-, hmethods⟩ :=
    ofInvocation_shows_first "config.toml" (fun _ => .absent) ⟨#[0xFF]⟩ options
  obtain ⟨outcome, hexit, hstderr, hlines, hsame⟩ := hmethods "delete" rfl hsettings hformat
  refine ⟨outcome, (hsame (some "-") ⟨#[0xFF]⟩).symm, hexit, hstderr, hlines.trans ?_⟩
  decide +kernel

end Outcome

end DocShell
