import ResourceNames.Proofs.BatchOutcome
import ResourceNames.Proofs.CommandFlags
import ResourceNames.Proofs.EntriesInTurn
import ResourceNames.Proofs.RoomMaking

namespace ResourceNames

namespace Session

open Batch

variable {settings : Settings} {files room after : FileSystem}

/-- Settings that are fit for a batch want at most the one directory made. -/
theorem makeRoom_of_fit (fit : settings.Fit files) :
    (makeRoom settings files).2 = files ∨
      ∃ dir l, settings.batch.outputDirectory = some dir ∧ files.place? dir = some l ∧
        files.node? l = none ∧ makeRoom settings files = (.ok (), files.set l .directory) := by
  cases given : settings.batch.outputDirectory with
  | none =>
    left
    simp [makeRoom, given]
  | some dir =>
    obtain same | ⟨l, placed, free, made⟩ :=
      FileSystem.makeDirectories_of_parent (fit.outputDirectory dir given)
    · left
      simpa [makeRoom, given] using same
    · right
      exact ⟨dir, l, rfl, placed, free, by simp [makeRoom, given, made, Except.mapError]⟩

/-- Room that is refused to settings that are fit has left no trace. -/
theorem makeRoom_refused {failure : Failure} (fit : settings.Fit files)
    (refused : makeRoom settings files = (.error failure, room)) : room = files := by
  obtain same | ⟨_, _, -, -, -, made⟩ := makeRoom_of_fit fit
  · rwa [refused] at same
  · cases refused.symm.trans made

/-- What is different after a batch is the directory for the lists, which has been made where
nothing was, or a file at the output of an entry. -/
structure Confined (settings : Settings) (files after : FileSystem) : Prop where
  current : after.current = files.current
  node : ∀ l, after.node? l ≠ files.node? l →
    (∃ dir, settings.batch.outputDirectory = some dir ∧ files.place? dir = some l ∧
      files.node? l = none ∧ after.node? l = some .directory) ∨
    ∃ entries content, settings.entries = .ok entries ∧
      (∃ entry ∈ entries, after.place? entry.output = some l) ∧
      after.node? l = some (.file content)

/-- The room for the lists and entries that have been done in it, be it all or only the first. -/
theorem confined_of_turn (fit : settings.Fit files) {entries first : List Entry}
    (described : settings.entries = .ok entries) (made : (makeRoom settings files).2 = room)
    (among : first <+: entries) (turn : InTurn settings.scan first room after) :
    Confined settings files after := by
  subst made
  obtain ⟨shape, frame⟩ := turn.frame
  refine ⟨(congrArg Prod.fst shape).trans (makeRoom_gains settings files).current, ?_⟩
  intro l differs
  obtain kept | ⟨⟨entry, member, placed⟩, content, file⟩ := frame l
  · left
    rw [kept] at differs ⊢
    obtain same | ⟨dir, place, given, placed, free, made⟩ := makeRoom_of_fit fit
    · rw [same] at differs
      exact absurd rfl differs
    · rw [made] at differs ⊢
      by_cases here : place = l
      · subst here
        exact ⟨dir, given, placed, free,
          FileSystem.node?_set_self files _ (FileSystem.ne_nil_of_absent free)⟩
      · exact absurd (FileSystem.node?_set_of_ne _ here) differs
  · rw [← FileSystem.place?_of_skeleton shape] at placed
    exact .inr ⟨entries, content, described, ⟨entry, among.subset member, placed⟩, file⟩

/-- A batch that fails before its first entry is taken up leaves no trace. -/
theorem ripAll_confined {outcome : Except Failure Report} {records : List Record}
    (fit : settings.Fit files) (ripped : ripAll settings true files = (outcome, records, after)) :
    after = files ∨ Confined settings files after := by
  cases comes_iff.mpr ripped with
  | unnamed refused => exact .inl rfl
  | roomless described refused => exact .inl (makeRoom_refused fit refused)
  | stopped described made failed =>
    obtain ⟨first, among, turn⟩ := turn_of_processAll failed
    exact .inr (confined_of_turn fit described (congrArg Prod.snd made) among turn)
  | done described made well =>
    obtain ⟨first, among, turn⟩ := turn_of_processAll well
    exact .inr (confined_of_turn fit described (congrArg Prod.snd made) among turn)

/-- The code for what is wrong with the settings is not that of an entry that fails. -/
theorem ripAll_unchanged {failure : Failure} {records : List Record} (fit : settings.Fit files)
    (ripped : ripAll settings true files = (.error failure, records, after))
    (coded : failure.exitCode = 1 ∨ failure.exitCode = 2) : after = files := by
  cases comes_iff.mpr ripped with
  | unnamed refused => rfl
  | roomless described refused => exact makeRoom_refused fit refused
  | stopped described made failed =>
    have other := exitCode_of_processAll failed
    omega

end Session

namespace Command

open Arguments (Asks)

variable {words : List RawText} {arguments : Arguments} {files : FileSystem}

/-- The file that settings to start from are written to is the one that is given for settings, if
that one is text. Of another path only what is shown of it is taken. -/
theorem sampleFile_eq_iff : sampleFile arguments = arguments.config.getD ⟨"seqrip.toml"⟩ ↔
    ∀ file ∈ arguments.config, file.IsText := by
  unfold sampleFile
  cases arguments.config with
  | none => exact iff_of_true rfl fun file none => nomatch none
  | some given =>
    refine Path.isText_iff_mk_text.symm.trans ⟨?_, fun spelled => spelled given rfl⟩
    rintro spelled file ⟨⟩
    exact spelled

/-- A file with settings to start from is written whole or not at all. -/
theorem generate_cases (arguments : Arguments) (files : FileSystem) :
    (generate arguments files).files = files ∨ (generate arguments files).exitCode = 0 ∧
      ∃ l content, files.place? (sampleFile arguments) = some l ∧
        (generate arguments files).files = files.set l (.file content) := by
  unfold generate Settings.writeSample
  dsimp only
  obtain ⟨cause, failed⟩ | same | ⟨l, placed, -, made⟩ :=
    FileSystem.write_cases (sampleFile arguments) (Text.bytes Settings.sample) files
  · left
    rw [failed]
    rfl
  · left
    rw [same]
    rfl
  · right
    rw [made]
    exact ⟨rfl, l, _, placed, rfl⟩

theorem plan_files (settings : Settings) (console : Console) (files : FileSystem) :
    (plan settings console files).files = files := by
  unfold plan
  dsimp only
  split
  · rfl
  · split <;> rfl

theorem execute_sample (samples : arguments.generateConfig = true) :
    execute arguments files = generate arguments files := by
  rw [execute, if_pos samples]

theorem execute_plan (noSample : arguments.generateConfig = false)
    (plans : arguments.dryRun = true) : (execute arguments files).files = files := by
  simp only [execute, noSample, plans, Bool.false_eq_true, if_false, if_true]
  split
  · rfl
  · exact plan_files _ _ files

theorem rip_files (settings : Settings) (console : Console) (files : FileSystem) :
    (rip settings console files).files = (Session.ripAll settings true files).2.2 := by
  rcases ripped : Session.ripAll settings true files with ⟨failure | report, records, after⟩
  · simp only [rip, ripped, Ending.ofFailure]
  · simp only [rip, ripped]

theorem execute_confined (noSample : arguments.generateConfig = false) :
    (execute arguments files).files = files ∨
      ∃ settings, arguments.settings files = .ok settings ∧
        Session.Confined settings files (execute arguments files).files := by
  cases plans : arguments.dryRun with
  | true => exact .inl (execute_plan noSample plans)
  | false =>
    simp only [execute, noSample, plans, Bool.false_eq_true, if_false]
    cases loaded : arguments.settings files with
    | error problem => exact .inl rfl
    | ok settings =>
      obtain ⟨base, -, -, fit⟩ := Arguments.settings_eq_ok_iff.mp loaded
      simp only [rip_files]
      exact (Session.ripAll_confined fit rfl).imp_right fun confined => ⟨settings, rfl, confined⟩

/-- An end that is neither well nor that of an entry comes before any file is changed. -/
theorem execute_unchanged (arguments : Arguments) (files : FileSystem)
    (coded : (execute arguments files).exitCode = 1 ∨ (execute arguments files).exitCode = 2) :
    (execute arguments files).files = files := by
  cases samples : arguments.generateConfig with
  | true =>
    rw [execute_sample samples] at coded ⊢
    obtain same | ⟨well, -⟩ := generate_cases arguments files
    · exact same
    · omega
  | false =>
    cases plans : arguments.dryRun with
    | true => exact execute_plan samples plans
    | false =>
      simp only [execute, samples, plans, Bool.false_eq_true, if_false] at coded ⊢
      cases loaded : arguments.settings files with
      | error problem => rfl
      | ok settings =>
        obtain ⟨base, -, -, fit⟩ := Arguments.settings_eq_ok_iff.mp loaded
        simp only [loaded] at coded
        dsimp only
        rcases ripped : Session.ripAll settings true files with ⟨failure | report, records, after⟩
        · simp only [rip, ripped] at coded ⊢
          exact Session.ripAll_unchanged fit ripped coded
        · simp only [rip, ripped] at coded
          omega

/-- What a run of the program leaves as it was. To write settings changes no more than one file,
whatever else is asked for; it is the file meant exactly if the path that is given for settings is
text, or none is given. A dry run, a question about the program and a command line that cannot
be followed change nothing, nor does a run whose code tells of misuse or of settings at fault. All
other runs change no more than the directory for the lists, made where nothing was, and the files at
the outputs. -/
theorem run_frame (words : List RawText) (files : FileSystem) :
    (Asks words .generateConfig → (run words files).files.current = files.current ∧
      ∀ l, (run words files).files.node? l ≠ files.node? l →
        ∃ arguments, Arguments.parse words = .ok arguments ∧
          files.place? (sampleFile arguments) = some l ∧
          (sampleFile arguments = arguments.config.getD ⟨"seqrip.toml"⟩ ↔
            ∀ file ∈ arguments.config, file.IsText)) ∧
    (Asks words .dryRun → ¬ Asks words .generateConfig → (run words files).files = files) ∧
    (Asks words .help ∨ Asks words .version ∨ (∃ halt, Arguments.parse words = .error halt) →
      (run words files).files = files) ∧
    ((run words files).exitCode = 1 ∨ (run words files).exitCode = 2 →
      (run words files).files = files) ∧
    (¬ Asks words .generateConfig → (run words files).files = files ∨
      ∃ arguments settings, Arguments.parse words = .ok arguments ∧
        arguments.settings files = .ok settings ∧
        Session.Confined settings files (run words files).files) := by
  cases parsed : Arguments.parse words with
  | error halt =>
    have same : (run words files).files = files := by
      rw [run, parsed]
      cases halt <;> rfl
    refine ⟨fun _ => ?_, fun _ _ => same, fun _ => same, fun _ => same, fun _ => .inl same⟩
    rw [same]
    exact ⟨rfl, fun l differs => absurd rfl differs⟩
  | ok arguments =>
    obtain ⟨noHelp, noVersion, plans, samples⟩ := Arguments.parse_flags parsed
    have ran : run words files = execute arguments files := by rw [run, parsed]
    have noSample (unasked : ¬ Asks words .generateConfig) : arguments.generateConfig = false :=
      Bool.eq_false_iff.mpr fun wanted => unasked (samples.mp wanted)
    rw [ran]
    refine ⟨?_, ?_, ?_, execute_unchanged arguments files, ?_⟩
    · intro asked
      rw [execute_sample (samples.mpr asked)]
      obtain same | ⟨-, place, content, placed, made⟩ := generate_cases arguments files
      · rw [same]
        exact ⟨rfl, fun l differs => absurd rfl differs⟩
      · rw [made]
        refine ⟨rfl, fun l differs => ⟨arguments, rfl, ?_, sampleFile_eq_iff⟩⟩
        by_cases here : place = l
        · exact here ▸ placed
        · exact absurd (FileSystem.node?_set_of_ne _ here) differs
    · intro asked unasked
      exact execute_plan (noSample unasked) (plans.mpr asked)
    · rintro (help | version | ⟨halt, failed⟩)
      · exact absurd help noHelp
      · exact absurd version noVersion
      · cases failed
    · intro unasked
      obtain same | ⟨settings, loaded, confined⟩ := execute_confined (noSample unasked)
      · exact .inl same
      · exact .inr ⟨arguments, settings, rfl, loaded, confined⟩

/-- To write settings to start from changes no more than the file that is given for settings. -/
def SamplesAsGiven (words : List RawText) (files : FileSystem) : Prop :=
  Asks words .generateConfig → ∀ arguments, Arguments.parse words = .ok arguments →
    ∀ l, (run words files).files.node? l ≠ files.node? l →
      files.place? (arguments.config.getD ⟨"seqrip.toml"⟩) = some l

/-- A path with a byte that spells nothing is taken for the one that shows it by a mark. -/
theorem not_samplesAsGiven_broken : ¬ SamplesAsGiven
    ["--generate-config", "--config", (0xff :: Text.bytes ".toml" : RawText)]
    FileSystem.blank := by
  intro keeps
  have placed := keeps (by decide +kernel) _ rfl ["work", Text.bytes "\uFFFD.toml"]
    (by decide +kernel)
  exact absurd placed (by decide +kernel)

end Command
end ResourceNames
