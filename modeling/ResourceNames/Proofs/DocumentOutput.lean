import ResourceNames.Proofs.PlanOfBatch

namespace ResourceNames

namespace Console

/-- Single lines are shown on every console, as they are. -/
theorem print_lines (console : Console) (clock : Clock) (texts : List String) :
    console.print clock (texts.map .line) = ⟨linesOf texts, ""⟩ := by
  induction texts with
  | nil => rfl
  | cons text texts ih =>
    have rendered : console.render clock (.line text) = ⟨text ++ "\n", ""⟩ := by
      unfold render
      cases console.mode <;> rfl
    rw [List.map_cons, print_cons, ih, rendered, linesOf, linesOf, List.map_cons, String.join_cons]
    rfl

theorem print_errorLines (console : Console) (clock : Clock) (texts : List String) :
    console.print clock (texts.map .errorLine) = ⟨"", linesOf texts⟩ := by
  induction texts with
  | nil => rfl
  | cons text texts ih =>
    have rendered : console.render clock (.errorLine text) = ⟨"", text ++ "\n"⟩ := by
      unfold render
      cases console.mode <;> rfl
    rw [List.map_cons, print_cons, ih, rendered, linesOf, linesOf, List.map_cons, String.join_cons]
    rfl

end Console

/-- The document that stands for a record. There is none for a separator, for a single line and for
a plan with a path that is no text. -/
def Console.document? (clock : Clock) : Record → Option Json
  | .message level text => some (messageJson clock level text)
  | .suggestion text => some (suggestionJson text)
  | .header title => some (headerJson title)
  | .report report => some (report.json clock)
  | .plan plan => plan.json?
  | .separator | .line _ | .errorLine _ => none

theorem Console.documents_of_document? {clock : Clock} {record : Record} {document : Json}
    (stands : document? clock record = some document) :
    ∃ text, documents clock record = ⟨text ++ "\n", ""⟩ ∧ Json.Spells text document.tokens := by
  cases record with
  | message _ _ | suggestion _ | header _ =>
    cases stands
    exact ⟨_, rfl, Json.spells_compact _⟩
  | report _ =>
    cases stands
    exact ⟨_, rfl, Json.spells_layout 0 _⟩
  | plan plan =>
    have told : plan.json? = some document := stands
    refine ⟨document.pretty, ?_, Json.spells_layout 0 document⟩
    rw [documents, told]
    rfl
  | separator | line _ | errorLine _ => cases stands

/-- An output that is a sequence of documents and nothing else. -/
def Output.Spells (output : Output) (documents : List Json) : Prop :=
  output.err = "" ∧ ∃ texts, output.out = linesOf texts ∧
    List.Forall₂ (fun document text => Json.Spells text document.tokens) documents texts

theorem Output.Spells.decode {output : Output} {documents : List Json}
    (spells : output.Spells documents) : Json.decode? output.out = some documents := by
  obtain ⟨-, texts, lines, spelled⟩ := spells
  rw [lines]
  exact Json.decode?_of_spells (Json.closes_join spelled).spells

/-- A console for documents writes one for each record that it shows. -/
theorem Console.print_spells {console : Console} (mode : console.mode = .json) {clock : Clock}
    {records : List Record} (formed : ∀ record ∈ records, (document? clock record).isSome) :
    ∃ documents, (console.print clock records).Spells documents ∧
      documents.map some = (records.filter console.shows).map (document? clock) := by
  induction records with
  | nil => exact ⟨[], ⟨rfl, [], rfl, .nil⟩, rfl⟩
  | cons record records ih =>
    obtain ⟨first, others⟩ := List.forall_mem_cons.mp formed
    obtain ⟨documents, ⟨quiet, texts, lines, spelled⟩, stand⟩ := ih others
    rw [print_cons]
    cases shown : console.shows record with
    | false =>
      rw [List.filter_cons_of_neg (Bool.eq_false_iff.mp shown)]
      simp only [Bool.false_eq_true, if_false, Output.none_append]
      exact ⟨documents, ⟨quiet, texts, lines, spelled⟩, stand⟩
    | true =>
      obtain ⟨document, stands⟩ := Option.isSome_iff_exists.mp first
      obtain ⟨text, rendered, spells⟩ := documents_of_document? stands
      have same : console.render clock record = ⟨text ++ "\n", ""⟩ := by
        rw [render, mode]
        exact rendered
      rw [List.filter_cons_of_pos shown, if_pos rfl, same]
      refine ⟨document :: documents, ⟨?_, text :: texts, ?_, .cons spells spelled⟩, ?_⟩
      · change "" ++ (console.print clock records).err = ""
        rw [quiet]
        rfl
      · change text ++ "\n" ++ (console.print clock records).out = linesOf (text :: texts)
        rw [lines, linesOf, linesOf, List.map_cons, String.join_cons]
      · rw [List.map_cons, List.map_cons, stand, stands]

/-- A text that begins as no document does is not a sequence of documents. -/
theorem Json.decode?_of_begin {text : String} {c : Char} {rest : List Char}
    (split : text.toList = c :: rest) (strange : Scan.begin c = none) : decode? text = none := by
  have unread : lex text.toList = none := by
    rw [lex, split, scan, Scan.step, strange]
  rw [decode?, unread]
  rfl

namespace Command

/-- The console for the work that the arguments ask for. -/
def consoleOf (arguments : Arguments) : Console :=
  ⟨arguments.outputMode, arguments.verbosity, arguments.quiet⟩

/-- What is said of a file with settings to start from. -/
def sampleLines (file : Path) : List String :=
  [s!"Generated sample configuration file: {file.text}", "", "To use this configuration:",
    s!"  {Arguments.program} --config {file.text}"]

/-- What is said if there cannot be such a file. -/
def refusalLines (failure : Failure) : List String :=
  s!"Failed to generate configuration file: {failure.userMessage}" ::
    failure.suggestion?.toList.map fun text => s!"Suggestion: {text}"

/-- What a run can come to: settings to start from are written or not, the settings are at fault, a
plan is made and shown or not, and a batch is done or not. -/
inductive Ends (arguments : Arguments) (files : FileSystem) : Ending → Prop
  | sampled {after : FileSystem} (asked : arguments.generateConfig = true)
      (written : Settings.writeSample (sampleFile arguments) files = (.ok (), after)) :
      Ends arguments files ⟨0, earlyConsole arguments.outputMode,
        (sampleLines (sampleFile arguments)).map .line, after⟩
  | unsampled {failure : Failure} {after : FileSystem} (asked : arguments.generateConfig = true)
      (refused : Settings.writeSample (sampleFile arguments) files = (.error failure, after)) :
      Ends arguments files ⟨1, earlyConsole arguments.outputMode,
        (refusalLines failure).map .errorLine, after⟩
  | unsettled {problem : Problem} (real : arguments.generateConfig = false)
      (refused : arguments.settings files = .error problem) :
      Ends arguments files
        (.ofFailure (.config problem) (earlyConsole arguments.outputMode) [] files)
  | unplanned {settings : Settings} {input : Path} (real : arguments.generateConfig = false)
      (plans : arguments.dryRun = true) (loaded : arguments.settings files = .ok settings)
      (refused : settings.entries = .error input) :
      Ends arguments files
        (.ofFailure (.invalidPath input.text) (consoleOf arguments) [heading] files)
  | planned {settings : Settings} {entries : List Entry}
      (real : arguments.generateConfig = false) (plans : arguments.dryRun = true)
      (loaded : arguments.settings files = .ok settings)
      (described : settings.entries = .ok entries)
      (showable : Showable arguments.outputMode entries) :
      Ends arguments files
        ⟨0, consoleOf arguments, [heading, .plan (planOf settings entries files)], files⟩
  | brokenDown {settings : Settings} {entries : List Entry}
      (real : arguments.generateConfig = false) (plans : arguments.dryRun = true)
      (loaded : arguments.settings files = .ok settings)
      (described : settings.entries = .ok entries)
      (broken : ¬ Showable arguments.outputMode entries) :
      Ends arguments files
        ⟨breakdownCode, consoleOf arguments, [heading, .errorLine breakdownMessage], files⟩
  | failed {settings : Settings} {failure : Failure} {records : List Record} {after : FileSystem}
      (real : arguments.generateConfig = false) (works : arguments.dryRun = false)
      (loaded : arguments.settings files = .ok settings)
      (ripped : Session.ripAll settings true files = (.error failure, records, after)) :
      Ends arguments files (.ofFailure failure (consoleOf arguments) records after)
  | done {settings : Settings} {report : Report} {records : List Record} {after : FileSystem}
      (real : arguments.generateConfig = false) (works : arguments.dryRun = false)
      (loaded : arguments.settings files = .ok settings)
      (ripped : Session.ripAll settings true files = (.ok report, records, after)) :
      Ends arguments files ⟨0, consoleOf arguments, records ++ [.report report], after⟩

theorem ends_execute (arguments : Arguments) (files : FileSystem) :
    Ends arguments files (execute arguments files) := by
  cases samples : arguments.generateConfig with
  | true =>
    rw [execute, if_pos samples, generate]
    rcases written : Settings.writeSample (sampleFile arguments) files with
      ⟨failure | ⟨⟩, after⟩
    · have ends := Ends.unsampled samples written
      rwa [refusalLines, List.map_cons, List.map_map] at ends
    · exact .sampled samples written
  | false =>
    rw [execute, samples, if_neg Bool.false_ne_true]
    cases loaded : arguments.settings files with
    | error problem => exact .unsettled samples loaded
    | ok settings =>
      dsimp only
      cases plans : arguments.dryRun with
      | true =>
        rw [if_pos rfl]
        cases described : settings.entries with
        | error input =>
          rw [plan_of_input described]
          exact .unplanned samples plans loaded described
        | ok entries =>
          by_cases showable : Showable arguments.outputMode entries
          · rw [plan_of_showable described showable]
            exact .planned samples plans loaded described showable
          · rw [plan_of_not_showable described showable]
            exact .brokenDown samples plans loaded described showable
      | false =>
        rw [if_neg Bool.false_ne_true, rip]
        rcases ripped : Session.ripAll settings true files with ⟨failure | report, records, after⟩
        · exact .failed samples plans loaded ripped
        · exact .done samples plans loaded ripped

theorem ends_run {words : List RawText} {arguments : Arguments}
    (parsed : Arguments.parse words = .ok arguments) (files : FileSystem) :
    Ends arguments files (run words files) := by
  rw [run, parsed]
  exact ends_execute arguments files

/-- All that is told in a batch has a document. -/
theorem isSome_document?_of_isTold {record : Record} (told : record.IsTold) (clock : Clock) :
    (Console.document? clock record).isSome := by
  cases record with
  | message _ _ | suggestion _ | report _ => rfl
  | header | separator | plan | line | errorLine => exact told.elim

variable {words : List RawText} {arguments : Arguments} {files : FileSystem} {ending : Ending}

/-- Unless settings are to be written or a plan that cannot be, all that is to be shown in documents
has one. -/
theorem Ends.formed (ends : Ends arguments files ending) (real : arguments.generateConfig = false)
    (showable : ¬ (arguments.dryRun = true ∧ Unshowable arguments files))
    (documents : arguments.outputMode = .json) (clock : Clock) : ending.console.mode = .json ∧
      ∀ record ∈ ending.records, (Console.document? clock record).isSome := by
  have told {failure : Failure} : ∀ record ∈ failure.records,
      (Console.document? clock record).isSome := fun record member =>
    isSome_document?_of_isTold (failure.records_isTold record member) clock
  have batch {settings : Settings} {outcome : Except Failure Report} {records : List Record}
      {after : FileSystem}
      (ripped : Session.ripAll settings true files = (outcome, records, after)) :
      ∀ record ∈ records, (Console.document? clock record).isSome := fun record member =>
    isSome_document?_of_isTold
      (Session.ripAll_isTold settings true files record (by rw [ripped]; exact member)) clock
  cases ends with
  | sampled asked | unsampled asked => cases real.symm.trans asked
  | unsettled => exact ⟨documents, told⟩
  | unplanned => exact ⟨documents, List.forall_mem_cons.mpr ⟨rfl, told⟩⟩
  | @planned settings entries _ _ _ _ spelled =>
    have written : ((planOf settings entries files).json?).isSome :=
      Option.isSome_iff_ne_none.mpr (spelled.json?_ne_none documents)
    exact ⟨documents, List.forall_mem_cons.mpr ⟨rfl, List.forall_mem_cons.mpr ⟨written,
      List.forall_mem_nil _⟩⟩⟩
  | brokenDown _ plans loaded described broken =>
    exact absurd ⟨plans, (unshowable_iff loaded described).mpr broken⟩ showable
  | failed _ _ _ ripped => exact ⟨documents, List.forall_mem_append.mpr ⟨batch ripped, told⟩⟩
  | done _ _ _ ripped =>
    exact ⟨documents, List.forall_mem_append.mpr ⟨batch ripped, List.forall_mem_cons.mpr ⟨rfl,
      List.forall_mem_nil _⟩⟩⟩

/-- A dry run that breaks down has shown its heading, and complains. -/
theorem Ends.brokenDown_eq (ends : Ends arguments files ending)
    (real : arguments.generateConfig = false) (plans : arguments.dryRun = true)
    (unshowable : Unshowable arguments files) : ending =
      ⟨breakdownCode, consoleOf arguments, [heading, .errorLine breakdownMessage], files⟩ := by
  cases ends with
  | sampled asked | unsampled asked => cases real.symm.trans asked
  | unsettled _ refused =>
    obtain ⟨settings, entries, loaded, -⟩ := unshowable
    cases refused.symm.trans loaded
  | unplanned _ _ loaded refused =>
    obtain ⟨settings, entries, loaded', described, -⟩ := unshowable
    cases loaded.symm.trans loaded'
    cases refused.symm.trans described
  | planned _ _ loaded described showable =>
    exact absurd showable ((unshowable_iff loaded described).mp unshowable)
  | brokenDown => rfl
  | failed _ works | done _ works => cases works.symm.trans plans

/-- What comes of writing settings to start from is said in lines, whatever mode is asked for. -/
theorem Ends.sampled_output (ends : Ends arguments files ending)
    (asked : arguments.generateConfig = true) (clock : Clock) :
    (ending.exitCode = 0 ∧
      ending.output clock = ⟨linesOf (sampleLines (sampleFile arguments)), ""⟩) ∨
    (ending.exitCode = 1 ∧
      ∃ failure, ending.output clock = ⟨"", linesOf (refusalLines failure)⟩) := by
  cases ends with
  | sampled => exact .inl ⟨rfl, Console.print_lines _ _ _⟩
  | unsampled => exact .inr ⟨rfl, _, Console.print_errorLines _ _ _⟩
  | unsettled real | unplanned real | planned real | brokenDown real | failed real | done real =>
    cases real.symm.trans asked

/-- What a command line comes to that asks for settings to start from and can have them. -/
theorem run_sample {after : FileSystem} (parsed : Arguments.parse words = .ok arguments)
    (asked : arguments.generateConfig = true)
    (written : Settings.writeSample (sampleFile arguments) files = (.ok (), after))
    (clock : Clock) : (run words files).exitCode = 0 ∧
      (run words files).output clock = ⟨linesOf (sampleLines (sampleFile arguments)), ""⟩ := by
  have ran : run words files = ⟨0, earlyConsole arguments.outputMode,
      (sampleLines (sampleFile arguments)).map .line, after⟩ := by
    simp only [run, parsed, execute, asked, if_true, generate, written]
    rfl
  rw [ran]
  exact ⟨rfl, Console.print_lines _ _ _⟩

theorem decode?_sampleLines (file : Path) :
    Json.decode? (linesOf (sampleLines file)) = none := by
  have begins : ∃ rest, (linesOf (sampleLines file)).toList = 'G' :: rest := by
    simp [linesOf, sampleLines, toString]
  obtain ⟨rest, split⟩ := begins
  exact Json.decode?_of_begin split (by decide)

theorem sampleLines_ne_empty (file : Path) : linesOf (sampleLines file) ≠ "" := by
  intro empty
  have unread := decode?_sampleLines file
  rw [empty] at unread
  cases unread

/-- Whoever asks for documents gets a sequence of them and nothing else, whether the run ends well
or not, with one for each record that is shown; a dry run that breaks down says so on the other
side. There is one exception: that settings to start from have been written is said in lines, which
are no documents, and if they cannot be, nothing is said on this side. -/
theorem documents_unless_sampled (parsed : Arguments.parse words = .ok arguments)
    (asked : arguments.mode = some .json) (files : FileSystem) (clock : Clock) :
    let ending := run words files
    let output := ending.output clock
    ((∃ documents, Json.decode? output.out = some documents) ↔
      ¬ (arguments.generateConfig = true ∧ ending.exitCode = 0)) ∧
    (arguments.generateConfig = false → ¬ (arguments.dryRun = true ∧ Unshowable arguments files) →
      output.err = "" ∧ ∃ documents, Json.decode? output.out = some documents ∧
        documents.map some =
          (ending.records.filter ending.console.shows).map (Console.document? clock)) ∧
    (arguments.generateConfig = false → arguments.dryRun = true → Unshowable arguments files →
      ending.exitCode = breakdownCode ∧ output.err = linesOf [breakdownMessage] ∧ ∃ documents,
        Json.decode? output.out = some documents ∧ documents.map some =
          ([heading].filter ending.console.shows).map (Console.document? clock)) ∧
    (arguments.generateConfig = true →
      (ending.exitCode = 0 ∧ output = ⟨linesOf (sampleLines (sampleFile arguments)), ""⟩) ∨
      (ending.exitCode = 1 ∧ ∃ failure, output = ⟨"", linesOf (refusalLines failure)⟩)) := by
  intro ending output
  have ends : Ends arguments files ending := ends_run parsed files
  have json : arguments.outputMode = .json := by rw [Arguments.outputMode, asked]; rfl
  cases samples : arguments.generateConfig with
  | false =>
    by_cases broken : arguments.dryRun = true ∧ Unshowable arguments files
    · have ended : ending = _ := ends.brokenDown_eq samples broken.1 broken.2
      have formed : ∀ record ∈ [heading], (Console.document? clock record).isSome :=
        List.forall_mem_cons.mpr ⟨rfl, List.forall_mem_nil _⟩
      have mode : (consoleOf arguments).mode = .json := json
      obtain ⟨documents, spells, stand⟩ := Console.print_spells mode formed
      have printed : output = (consoleOf arguments).print clock [heading] ++
          ⟨"", linesOf [breakdownMessage]⟩ := by
        rw [← Console.print_errorLines (consoleOf arguments) clock, ← Console.print_append]
        simp only [output, ended]
        rfl
      have decoded : Json.decode? output.out = some documents := by
        rw [printed]
        exact (congrArg Json.decode? String.append_empty).trans spells.decode
      have complaint : output.err = linesOf [breakdownMessage] := by
        rw [printed]
        exact (congrArg (· ++ _) spells.1).trans String.empty_append
      refine ⟨iff_of_true ⟨documents, decoded⟩ (by simp), fun _ whole => absurd broken whole,
        fun _ _ _ => ?_, by simp⟩
      rw [ended]
      exact ⟨rfl, complaint, documents, decoded, stand⟩
    · obtain ⟨mode, formed⟩ := ends.formed samples broken json clock
      obtain ⟨documents, spells, stand⟩ := Console.print_spells mode formed
      refine ⟨iff_of_true ⟨documents, spells.decode⟩ (by simp), fun _ _ => ?_,
        fun _ plans unshowable => absurd ⟨plans, unshowable⟩ broken, by simp⟩
      exact ⟨spells.1, documents, spells.decode, stand⟩
  | true =>
    have said := ends.sampled_output samples clock
    refine ⟨?_, by simp, by simp, fun _ => said⟩
    obtain ⟨well, lines⟩ | ⟨bad, failure, lines⟩ := said
    · have unread : Json.decode? output.out = none := by
        rw [show output = _ from lines, decode?_sampleLines]
      rw [unread]
      exact iff_of_false (by simp) (by simp [well])
    · have nothing : Json.decode? output.out = some [] := by
        rw [show output = _ from lines]
        rfl
      exact iff_of_true ⟨[], nothing⟩ (by simp [bad])

/-- The batch of the one input ends well, whatever is said of how it is to be shown. -/
theorem exitCode_of_one (parsed : Arguments.parse words = .ok arguments)
    (noSample : arguments.generateConfig = false) (noPlan : arguments.dryRun = false)
    (unnamed : arguments.config = none) (same : arguments.overrides = oneInput.overrides) :
    (run words Session.crowded).exitCode = 0 := by
  have begins : Begins words Session.crowded arguments
      (Settings.standard.merge oneInput.overrides) [⟨⟨"a"⟩, ⟨"a.txt"⟩⟩] Session.crowded :=
    { parsed, noSample, noPlan
      loaded := same ▸ settings_crowded arguments unnamed (same ▸
        ⟨by decide, by decide, by decide, by decide, fun dir given => by cases given⟩)
      described := rfl
      made := rfl }
  obtain ⟨reports, processed⟩ := Batch.inTurn_iff.mp turn_one
  exact (begins.ends processed).2

/-- A batch of one is told in documents. -/
theorem documents_unless_sampled_one :
    let ending := run ["a", "--output-format", "json"] Session.crowded
    let output := ending.output .stopped
    ending.exitCode = 0 ∧ output.err = "" ∧ ∃ documents,
      Json.decode? output.out = some documents ∧ documents.map some =
        (ending.records.filter ending.console.shows).map (Console.document? .stopped) := by
  intro ending output
  have parsed : Arguments.parse ["a", "--output-format", "json"] =
      .ok { inputs := [⟨"a"⟩], mode := some .json } := by
    have told := Arguments.takeOption_modeWord { inputs := [⟨"a"⟩] } rfl .json
    refine Arguments.parse_eq_ok_iff.mpr ⟨rfl, bind_eq_ok_iff.mpr ⟨_, rfl, ?_⟩, by decide⟩
    exact bind_eq_ok_iff.mpr ⟨_, told, rfl⟩
  obtain ⟨-, told, -⟩ := documents_unless_sampled parsed rfl Session.crowded .stopped
  exact ⟨exitCode_of_one parsed rfl rfl rfl rfl, told rfl fun broken => nomatch broken.1⟩

/-- Whoever asks for documents gets a sequence of them and nothing else. -/
def SpeaksDocuments (words : List RawText) (files : FileSystem) : Prop :=
  ∀ arguments, Arguments.parse words = .ok arguments → arguments.mode = some .json →
    ∀ clock, ∃ documents, Json.decode? ((run words files).output clock).out = some documents

theorem writeSample_blank : ∃ after,
    Settings.writeSample (.mk "seqrip.toml") FileSystem.blank = (.ok (), after) := by
  have opened : FileSystem.blank.create (.mk "seqrip.toml") = .ok (["work", "seqrip.toml"],
      FileSystem.blank.set ["work", "seqrip.toml"] (.file [])) := by
    decide +kernel
  rw [Settings.writeSample, FileSystem.write_of_create opened (List.cons_ne_nil _ _)]
  exact ⟨_, rfl⟩

/-- The exception: the file is written, and this is said in lines. -/
theorem not_speaksDocuments_sample :
    ¬ SpeaksDocuments ["--generate-config", "--output-format", "json"] FileSystem.blank := by
  intro speaks
  let arguments : Arguments := { mode := some .json, generateConfig := true }
  have parsed : Arguments.parse ["--generate-config", "--output-format", "json"] =
      .ok arguments := by
    have told := Arguments.takeOption_modeWord { generateConfig := true } rfl .json
    refine Arguments.parse_eq_ok_iff.mpr ⟨rfl, bind_eq_ok_iff.mpr ⟨_, rfl, ?_⟩, by decide⟩
    exact bind_eq_ok_iff.mpr ⟨_, told, rfl⟩
  obtain ⟨documents, decoded⟩ := speaks arguments parsed rfl .stopped
  obtain ⟨after, written⟩ := writeSample_blank
  obtain ⟨-, said⟩ := run_sample parsed rfl written .stopped
  rw [said, decode?_sampleLines] at decoded
  cases decoded

end Command
end ResourceNames
