import ResourceNames.Proofs.DocumentOutput
import ResourceNames.Proofs.Presentation

namespace ResourceNames

/-- The records that speak of an error. -/
def Record.IsComplaint : Record → Prop
  | .message .error _ | .suggestion _ | .errorLine _ => True
  | _ => False

namespace Console

variable {console : Console} {clock : Clock} {records : List Record}

theorem print_of_kept_back (kept : ∀ record ∈ records, console.shows record = false) :
    console.print clock records = .none := by
  have nothing : records.filter console.shows = [] :=
    List.filter_eq_nil_iff.mpr fun record member => Bool.eq_false_iff.mp (kept record member)
  rw [print, nothing]
  rfl

end Console

theorem EntryReport.records_kept_back {console : Console} (quiet : console.quiet = true)
    (entry : EntryReport) : ∀ record ∈ entry.records, console.shows record = false := by
  intro record member
  unfold records at member
  obtain counts | warning := List.mem_append.mp member
  · simp only [List.mem_cons, List.not_mem_nil, or_false] at counts
    obtain rfl | rfl := counts <;> simp [Console.shows, quiet]
  · split at warning
    · cases warning
    · rw [List.mem_singleton.mp warning]
      simp [Console.shows, quiet]

namespace Session

variable {settings : Settings} {console : Console} {pace : Pace} {running : Bool}
  {stopAt : Option Nat} {files : FileSystem} {done : Performance}

theorem opening_kept_back (quiet : console.quiet = true) (settings : Settings)
    (entries : List Entry) : ∀ record ∈ opening settings entries, console.shows record = false := by
  intro record member
  rw [List.mem_singleton.mp member]
  simp [Console.shows, quiet]

theorem closing_kept_back (quiet : console.quiet = true) (report : Report) :
    ∀ record ∈ closing report, console.shows record = false := by
  intro record member
  obtain entries | totals := List.mem_append.mp member
  · obtain ⟨entry, -, shown⟩ := List.mem_flatMap.mp entries
    exact entry.records_kept_back quiet record shown
  · simp only [List.mem_cons, List.not_mem_nil, or_false] at totals
    obtain rfl | rfl := totals <;> simp [Console.shows, quiet]

/-- Nothing that a batch wants to have shown is an error. -/
theorem ripAll_kept_back (quiet : console.quiet = true) (settings : Settings) (running : Bool)
    (files : FileSystem) :
    ∀ record ∈ (ripAll settings running files).2.1, console.shows record = false := by
  cases running with
  | false => exact List.forall_mem_nil _
  | true =>
    have comes := comes_ripAll settings files
    generalize ripAll settings true files = came at comes
    cases comes with
    | unnamed => exact List.forall_mem_nil _
    | roomless => exact List.forall_mem_nil _
    | stopped => exact opening_kept_back quiet _ _
    | done =>
      exact List.forall_mem_append.mpr ⟨opening_kept_back quiet _ _, closing_kept_back quiet _⟩

/-- On a quiet console nothing is printed of a batch while it is under way, and no bar is drawn. -/
theorem perform_quiet (quiet : console.quiet = true)
    (performed : perform settings console pace running stopAt files = some done) :
    done.printed = .none ∧ ∀ bar, done.bar? = some bar → bar.enabled = false := by
  rcases prepared : prepare settings running files with ⟨failure | entries, room⟩
  · rw [perform_of_prepare_error console pace stopAt prepared] at performed
    cases performed
    exact ⟨rfl, fun bar moved => by cases moved⟩
  · rw [perform_of_prepare_ok console pace stopAt prepared] at performed
    rcases ran : Batch.run settings.scan entries (some ⟨running, stopAt⟩) room
      with ⟨outcome, trace, after⟩
    rw [ran] at performed
    obtain ⟨display, followed, rfl⟩ := Option.map_eq_some_iff.mp performed
    obtain ⟨shownOn, standing, drawn⟩ := Display.follow?_keeps followed
    have nothing : display.printed = .none := standing.trans
      (Console.print_of_kept_back (opening_kept_back quiet settings entries))
    have undrawn : display.bar.enabled = false := by
      rw [drawn, opened, ProgressBar.start, Console.drawsBar, quiet]
      rfl
    have hidden (report : Report) : display.console.print pace.clock (closing report) = .none := by
      rw [shownOn]
      exact Console.print_of_kept_back (closing_kept_back quiet report)
    cases outcome with
    | error failure =>
      refine ⟨nothing, ?_⟩
      rintro _ ⟨⟩
      exact undrawn
    | ok report =>
      simp only [conclude, Display.sayAll_eq, Display.finish, hidden, Output.append_none]
      refine ⟨nothing, ?_⟩
      rintro _ ⟨⟩
      exact undrawn

end Session

theorem Failure.exitCode_ne_zero (failure : Failure) : failure.exitCode ≠ 0 := by
  cases failure <;> simp [exitCode]

theorem Failure.records_isComplaint (failure : Failure) :
    ∀ record ∈ failure.records, record.IsComplaint := by
  intro record member
  obtain rfl | suggested := List.mem_cons.mp member
  · trivial
  · obtain ⟨text, -, rfl⟩ := List.mem_map.mp suggested
    trivial

theorem append_ne_empty {front : String} (more : front ≠ "") (back : String) :
    front ++ back ≠ "" :=
  fun empty => more (String.append_eq_empty_iff.mp empty).1

/-- A plan is written on one side, and there is always something to write, unless it is to be a
document and is none. -/
theorem Console.render_plan {console : Console} {plan : Plan}
    (shown : console.mode = .json → plan.json? ≠ none) (clock : Clock) :
    (console.render clock (.plan plan)).err = "" ∧
      (console.render clock (.plan plan)).out ≠ "" := by
  have text : console.planText plan ≠ "" := by
    unfold planText
    extract_lets rule
    iterate 7 refine append_ne_empty ?_ _
    decide
  unfold render
  cases mode : console.mode with
  | human => exact ⟨rfl, text⟩
  | plain => exact ⟨rfl, text⟩
  | json =>
    obtain ⟨document, told⟩ := Option.ne_none_iff_exists'.mp (shown mode)
    exact ⟨rfl, by simp [documents, told]⟩

namespace Command

open Arguments (Asks)

variable {words : List RawText} {arguments : Arguments} {files : FileSystem} {ending : Ending}

theorem Showable.render {entries : List Entry} (showable : Showable arguments.outputMode entries)
    (settings : Settings) (files : FileSystem) (clock : Clock) :
    let output := (consoleOf arguments).render clock (.plan (planOf settings entries files))
    output.err = "" ∧ output.out ≠ "" :=
  Console.render_plan (fun documents => showable.json?_ne_none documents) clock

/-- A run that ends badly on a quiet console shows nothing but errors. -/
theorem Ends.complains (ends : Ends arguments files ending) (quiet : arguments.quiet = true)
    (bad : ending.exitCode ≠ 0) :
    ∀ record ∈ ending.records.filter ending.console.shows, record.IsComplaint := by
  have quietly : (consoleOf arguments).quiet = true := quiet
  intro record member
  obtain ⟨said, shown⟩ := List.mem_filter.mp member
  cases ends with
  | sampled | planned | done => exact absurd rfl bad
  | unsampled =>
    obtain ⟨text, -, rfl⟩ := List.mem_map.mp said
    trivial
  | unsettled => exact Failure.records_isComplaint _ record said
  | unplanned =>
    obtain rfl | told := List.mem_cons.mp said
    · simp [Ending.ofFailure, heading, Console.shows, quietly] at shown
    · exact Failure.records_isComplaint _ record told
  | brokenDown =>
    obtain rfl | told := List.mem_cons.mp said
    · simp [heading, Console.shows, quietly] at shown
    · rw [List.mem_singleton.mp told]
      trivial
  | @failed settings failure records after _ _ _ ripped =>
    obtain batch | told := List.mem_append.mp said
    · have kept := Session.ripAll_kept_back quietly settings true files record
      rw [ripped] at kept
      cases (kept batch).symm.trans shown
    · exact failure.records_isComplaint record told

/-- A run that ends well on a quiet console says nothing, unless it writes settings to start from or
makes a plan. -/
theorem Ends.silent (ends : Ends arguments files ending) (quiet : arguments.quiet = true)
    (well : ending.exitCode = 0) (clock : Clock) (real : arguments.generateConfig = false) :
    (arguments.dryRun = false → ending.output clock = .none) ∧
    (arguments.dryRun = true → ∃ settings entries, arguments.settings files = .ok settings ∧
      settings.entries = .ok entries ∧ Showable arguments.outputMode entries ∧
      ending.output clock =
        (consoleOf arguments).render clock (.plan (planOf settings entries files))) := by
  have quietly : (consoleOf arguments).quiet = true := quiet
  cases ends with
  | sampled asked | unsampled asked => cases real.symm.trans asked
  | unsettled | unplanned | brokenDown => cases well
  | @failed settings failure => exact absurd well failure.exitCode_ne_zero
  | @planned settings entries _ plans loaded described showable =>
    refine ⟨fun works => absurd (plans.symm.trans works) (by decide), fun _ =>
      ⟨settings, entries, loaded, described, showable, ?_⟩⟩
    have hidden : (consoleOf arguments).shows heading = false := by
      simp [heading, Console.shows, quietly]
    have shown : (consoleOf arguments).shows (.plan (planOf settings entries files)) = true := rfl
    rw [Ending.output, Console.print_cons, Console.print_cons, hidden, shown]
    simp only [Bool.false_eq_true, if_false, if_true, Output.none_append]
    exact Output.append_none _
  | @done settings report records after _ works _ ripped =>
    refine ⟨fun _ => ?_, fun plans => absurd (works.symm.trans plans) (by decide)⟩
    have kept := Session.ripAll_kept_back quietly settings true files
    rw [ripped] at kept
    refine Console.print_of_kept_back (List.forall_mem_append.mpr ⟨kept, ?_⟩)
    simp [Console.shows, quietly]

/-- Asked to be quiet, the program says nothing at a good end, in whatever mode and on whatever
files, but for two things that are said nevertheless: that settings to start from have been written,
and what a dry run would do. At a bad end it shows nothing but errors. Nor is anything printed of a
batch while it is under way, and no bar is drawn. -/
theorem quiet_output (asked : Asks words .quiet) (noHelp : ¬ Asks words .help)
    (noVersion : ¬ Asks words .version) (files : FileSystem) (clock : Clock) :
    let ending := run words files
    let output := ending.output clock
    (ending.exitCode = 0 → output.err = "" ∧
      (output.out = "" ↔ ¬ Asks words .generateConfig ∧ ¬ Asks words .dryRun) ∧
      ∃ arguments, Arguments.parse words = .ok arguments ∧
        (Asks words .generateConfig →
          output.out = linesOf (sampleLines (sampleFile arguments))) ∧
        (Asks words .dryRun → ¬ Asks words .generateConfig → ∃ settings entries,
          arguments.settings files = .ok settings ∧ settings.entries = .ok entries ∧
          output = (consoleOf arguments).render clock (.plan (planOf settings entries files)))) ∧
    (ending.exitCode ≠ 0 →
      ∀ record ∈ ending.records.filter ending.console.shows, record.IsComplaint) ∧
    ∀ arguments, Arguments.parse words = .ok arguments → ∀ settings pace running stopAt done,
      Session.perform settings (consoleOf arguments) pace running stopAt files = some done →
      done.printed = .none ∧ ∀ bar, done.bar? = some bar → bar.enabled = false := by
  intro ending output
  cases parsed : Arguments.parse words with
  | error halt =>
    have ran : ending = .ofHalt halt files := by simp only [ending, run, parsed]
    cases halt with
    | help => exact absurd (Arguments.parse_halt parsed rfl) noHelp
    | version => exact absurd (Arguments.parse_halt parsed rfl) noVersion
    | misuse misuse =>
      rw [ran]
      refine ⟨by simp [Ending.ofHalt], fun _ record member => ?_, by simp⟩
      obtain rfl | rfl : record = .errorLine misuse.streamed ∨
          record = .errorLine Arguments.helpHint := by
        simpa [Ending.ofHalt] using (List.mem_filter.mp member).1
      · trivial
      · trivial
  | ok arguments =>
    have quiet := (Arguments.parse_quiet parsed).mpr asked
    obtain ⟨-, -, plans, samples⟩ := Arguments.parse_flags parsed
    have ends : Ends arguments files ending := ends_run parsed files
    refine ⟨fun well => ?_, fun bad => ends.complains quiet bad, ?_⟩
    · rw [← samples, ← plans]
      cases sampled : arguments.generateConfig with
      | true =>
        obtain ⟨-, said⟩ | ⟨bad, -⟩ := ends.sampled_output sampled clock
        · have said' : output = _ := said
          rw [said']
          exact ⟨rfl, iff_of_false (sampleLines_ne_empty _) (by simp), arguments, rfl, fun _ => rfl,
            by simp⟩
        · cases well.symm.trans bad
      | false =>
        obtain ⟨silent, planned⟩ := ends.silent quiet well clock sampled
        cases planning : arguments.dryRun with
        | false =>
          have said : output = .none := silent planning
          rw [said]
          exact ⟨rfl, iff_of_true rfl (by simp), arguments, rfl, by simp, by simp⟩
        | true =>
          obtain ⟨settings, entries, loaded, described, showable, said⟩ := planned planning
          have said' : output = _ := said
          obtain ⟨noError, more⟩ := showable.render settings files clock
          rw [said']
          exact ⟨noError, iff_of_false more (by simp), arguments, rfl, by simp, fun _ _ =>
            ⟨settings, entries, loaded, described, rfl⟩⟩
    · rintro _ ⟨⟩ settings pace running stopAt done performed
      exact Session.perform_quiet quiet performed

/-- A batch of one, asked for quietly, says nothing. -/
theorem quiet_output_one :
    let ending := run ["-q", "a"] Session.crowded
    ending.exitCode = 0 ∧ (ending.output .stopped).out = "" ∧
      (ending.output .stopped).err = "" := by
  intro ending
  have parsed : Arguments.parse ["-q", "a"] = .ok { inputs := [⟨"a"⟩], quiet := true } := rfl
  have well : ending.exitCode = 0 := exitCode_of_one parsed rfl rfl rfl rfl
  have asked : Asks ["-q", "a"] .quiet := by decide
  have noHelp : ¬ Asks ["-q", "a"] .help := by decide
  obtain ⟨silent, -, -⟩ := quiet_output asked noHelp (by decide) Session.crowded .stopped
  obtain ⟨err, out, -⟩ := silent well
  exact ⟨well, out.mpr ⟨by decide, by decide⟩, err⟩

/-- Asked to be quiet, the program says nothing at a good end. -/
def SilentWhenQuiet (words : List RawText) (files : FileSystem) : Prop :=
  Asks words .quiet → ¬ Asks words .help → ¬ Asks words .version →
    (run words files).exitCode = 0 → ∀ clock, (run words files).output clock = .none

/-- The two exceptions. -/
theorem not_silentWhenQuiet_sample_plan :
    ¬ SilentWhenQuiet ["-q", "--generate-config"] FileSystem.blank ∧
    ¬ SilentWhenQuiet ["-q", "--dry-run", "a"] Session.crowded := by
  constructor
  · intro silent
    let arguments : Arguments := { quiet := true, generateConfig := true }
    have parsed : Arguments.parse ["-q", "--generate-config"] = .ok arguments := rfl
    obtain ⟨after, written⟩ := writeSample_blank
    obtain ⟨well, said⟩ := run_sample parsed rfl written .stopped
    have nothing := silent (by decide) (by decide) (by decide) well .stopped
    rw [said] at nothing
    exact sampleLines_ne_empty _ (congrArg Output.out nothing)
  · intro silent
    let arguments : Arguments := { inputs := [⟨"a"⟩], quiet := true, dryRun := true }
    have parsed : Arguments.parse ["-q", "--dry-run", "a"] = .ok arguments := rfl
    have loaded := settings_crowded arguments rfl
      ⟨by decide, by decide, by decide, by decide, fun dir given => by cases given⟩
    have well : (run ["-q", "--dry-run", "a"] Session.crowded).exitCode = 0 := by
      rw [run, parsed]
      dsimp only
      rw [execute, if_neg (by decide), loaded]
      rfl
    obtain ⟨settings, entries, -, -, showable, said⟩ :=
      ((ends_run parsed Session.crowded).silent rfl well .stopped rfl).2 rfl
    have nothing := silent (by decide) (by decide) (by decide) well .stopped
    rw [said] at nothing
    exact (showable.render _ _ _).2 (congrArg Output.out nothing)

end Command
end ResourceNames
