import ResourceNames.Proofs.CommandFlags
import ResourceNames.Proofs.ExitCodes
import ResourceNames.Proofs.JsonStream
import ResourceNames.Proofs.TakenArguments

namespace ResourceNames

section Each

variable {α β γ : Type} {f : α → Option β} {xs : List α} {ys : List β}

theorem mapM_eq_none_iff : xs.mapM f = none ↔ ∃ x ∈ xs, f x = none := by
  induction xs with
  | nil => simp
  | cons x xs ih =>
    rw [List.mapM_cons, List.exists_mem_cons_iff, ← ih]
    cases f x with
    | none => simp
    | some y => cases xs.mapM f <;> simp

/-- What is read from each result is read from all of them. -/
theorem mapM_of_mapM {g : β → Option γ} {h : α → γ} (written : xs.mapM f = some ys)
    (read : ∀ x y, f x = some y → g y = some (h x)) : ys.mapM g = some (xs.map h) := by
  induction xs generalizing ys with
  | nil =>
    cases written
    rfl
  | cons x xs ih =>
    rw [List.mapM_cons] at written
    obtain ⟨y, first, written⟩ := Option.bind_eq_some_iff.mp written
    obtain ⟨others, rest, whole⟩ := Option.bind_eq_some_iff.mp written
    cases whole
    rw [List.mapM_cons, read x y first, ih rest]
    rfl

end Each

namespace Entry

variable {entry : Entry} {document : Json}

/-- The paths of an entry are text. -/
def Spelled (entry : Entry) : Prop :=
  entry.input.IsText ∧ entry.output.IsText

theorem json?_eq_none_iff : entry.json? = none ↔ ¬ entry.Spelled := by
  unfold json? Spelled
  rw [Path.isText_iff, Path.isText_iff]
  cases entry.input.text? <;> cases entry.output.text? <;> simp

/-- The paths that a document tells. -/
def ofJson? (document : Json) : Option (String × String) := do
  return (← document.textAt? "input", ← document.textAt? "output")

theorem ofJson?_of_json? (told : entry.json? = some document) :
    ofJson? document = some entry.shown := by
  obtain ⟨input, spelled, told⟩ := Option.bind_eq_some_iff.mp told
  obtain ⟨output, spelled', told⟩ := Option.bind_eq_some_iff.mp told
  cases told
  rw [shown, Path.text?_eq_some_iff.mp spelled, Path.text?_eq_some_iff.mp spelled',
    Path.text_mk, Path.text_mk]
  rfl

end Entry

namespace Plan

variable {plan : Plan} {document : Json}

/-- The paths of the entries, as they are shown. -/
def shown (plan : Plan) : List (String × String) :=
  plan.entries.map fun planned => planned.entry.shown

theorem json?_eq_none_iff :
    plan.json? = none ↔ ∃ planned ∈ plan.entries, ¬ planned.entry.Spelled := by
  have entries : plan.json? = none ↔
      (plan.entries.mapM fun planned => planned.entry.json?) = none := by
    unfold json?
    cases plan.entries.mapM fun planned => planned.entry.json? <;> simp
  rw [entries, mapM_eq_none_iff]
  exact exists_congr fun planned => and_congr_right fun _ => Entry.json?_eq_none_iff

/-- The rule and the paths that the document of a plan tells. -/
def ofJson? (document : Json) : Option (ScanRule × List (String × String)) := do
  return (← ScanRule.ofJson? (← document.field? "scan"),
    ← (← document.itemsAt? "entries").mapM Entry.ofJson?)

theorem ofJson?_of_json? (told : plan.json? = some document) :
    ofJson? document = some (plan.rule, plan.shown) := by
  obtain ⟨entries, written, told⟩ := Option.bind_eq_some_iff.mp told
  cases told
  have read := mapM_of_mapM written fun _ _ => Entry.ofJson?_of_json?
  let document : Json :=
    .object [("entries", .array entries), ("scan", plan.rule.json), ("type", .text "plan")]
  have listed : document.itemsAt? "entries" = some entries := rfl
  change ofJson? document = _
  rw [ofJson?, listed]
  dsimp only [bind, Option.bind]
  rw [read]
  rfl

end Plan

namespace Command

open Batch

variable {words : List RawText} {arguments : Arguments} {settings : Settings} {console : Console}
  {files : FileSystem} {entries : List Entry}

/-- What stands above a plan. -/
def heading : Record :=
  .header "DRY RUN - no files will be read or written"

/-- The plan of these entries. -/
def planOf (settings : Settings) (entries : List Entry) (files : FileSystem) : Plan where
  rule := settings.scan
  outputDirectory := settings.batch.outputDirectory
  entries := entries.map fun entry => ⟨entry, files.has entry.input⟩

theorem planOf_json?_eq_none_iff : (planOf settings entries files).json? = none ↔
    ¬ ∀ entry ∈ entries, entry.Spelled := by
  simp [Plan.json?_eq_none_iff, planOf]

theorem shown_planOf : (planOf settings entries files).shown = entries.map Entry.shown := by
  rw [Plan.shown, planOf, List.map_map]
  rfl

/-- Entries can be shown, as documents only if their paths are text. -/
def Showable (mode : Mode) (entries : List Entry) : Prop :=
  mode = .json → ∀ entry ∈ entries, entry.Spelled

theorem Showable.json?_ne_none {mode : Mode} (showable : Showable mode entries)
    (documents : mode = .json) : (planOf settings entries files).json? ≠ none :=
  fun none => planOf_json?_eq_none_iff.mp none (showable documents)

theorem plan_of_showable (described : settings.entries = .ok entries)
    (showable : Showable console.mode entries) : plan settings console files =
      ⟨0, console, [heading, .plan (planOf settings entries files)], files⟩ := by
  rw [plan, Plan.ofSettings, described]
  refine if_neg ?_
  rintro ⟨documents, none⟩
  exact showable.json?_ne_none documents none

/-- There is no document of entries with a path that is no text. -/
theorem plan_of_not_showable (described : settings.entries = .ok entries)
    (broken : ¬ Showable console.mode entries) : plan settings console files =
      ⟨breakdownCode, console, [heading, .errorLine breakdownMessage], files⟩ := by
  obtain ⟨documents, unspelled⟩ := Classical.not_imp.mp broken
  rw [plan, Plan.ofSettings, described]
  exact if_pos ⟨documents, planOf_json?_eq_none_iff.mpr unspelled⟩

theorem plan_of_input {input : Path} (refused : settings.entries = .error input) :
    plan settings console files = .ofFailure (.invalidPath input.text) console [heading] files := by
  rw [plan, Plan.ofSettings, refused]
  rfl

theorem rip_of_input {input : Path} (refused : settings.entries = .error input) :
    rip settings console files = .ofFailure (.invalidPath input.text) console [] files := by
  rw [rip, (Session.Comes.unnamed refused).ripAll_eq]

/-- A batch with entries does not end with the code of settings at fault, and if it ends well, its
report is on these entries. -/
theorem rip_of_entries (console : Console) (files : FileSystem)
    (described : settings.entries = .ok entries) :
    (rip settings console files).console = console ∧ (rip settings console files).exitCode ≠ 1 ∧
    ((rip settings console files).exitCode = 0 → ∃ before report,
      (rip settings console files).records = before ++ [.report report] ∧
        report.rule = settings.scan ∧
        report.entries.map EntryReport.shown = entries.map Entry.shown) := by
  rcases ripped : Session.ripAll settings true files with ⟨outcome, records, after⟩
  cases Session.comes_iff.mpr ripped with
  | unnamed refused => cases refused.symm.trans described
  | roomless _ refused =>
    simp only [rip, ripped, Ending.ofFailure, Session.makeRoom_error refused]
    exact ⟨trivial, by decide, fun well => by cases well⟩
  | stopped _ made failed =>
    have coded := exitCode_of_processAll failed
    simp only [rip, ripped, Ending.ofFailure]
    exact ⟨trivial, by omega, fun well => by omega⟩
  | done again made well =>
    cases again.symm.trans described
    simp only [rip, ripped]
    exact ⟨trivial, by decide, fun _ => ⟨_, _, rfl, rfl, processAll_shown well⟩⟩

/-- The batch that is asked for cannot be shown: it is to be a document, and a path is no text. -/
def Unshowable (arguments : Arguments) (files : FileSystem) : Prop :=
  ∃ settings entries, arguments.settings files = .ok settings ∧ settings.entries = .ok entries ∧
    ¬ Showable arguments.outputMode entries

theorem unshowable_iff (loaded : arguments.settings files = .ok settings)
    (described : settings.entries = .ok entries) :
    Unshowable arguments files ↔ ¬ Showable arguments.outputMode entries := by
  constructor
  · rintro ⟨_, _, loaded', described', broken⟩
    cases loaded.symm.trans loaded'
    cases described.symm.trans described'
    exact broken
  · exact fun broken => ⟨settings, entries, loaded, described, broken⟩

/-- A dry run of a batch shows its plan. -/
theorem Begins.plans {room : FileSystem}
    (begins : Begins words files arguments settings entries room) :
    run (Text.bytes "--dry-run" :: words) files =
      plan settings ⟨arguments.outputMode, arguments.verbosity, arguments.quiet⟩ files := by
  have parsed := Arguments.parse_dryRun begins.parsed begins.noPlan
  have loaded : arguments.planned.settings files = .ok settings := begins.loaded
  have noSample : arguments.planned.generateConfig = false := begins.noSample
  rw [run, parsed]
  simp only [execute, noSample, loaded, Bool.false_eq_true, if_false]
  rfl

/-- A dry run and a real one share what is wrong with their settings. Otherwise the one is to show
the entries that the other takes up. -/
theorem execute_planned (files : FileSystem) (noSample : arguments.generateConfig = false)
    (noPlan : arguments.dryRun = false) :
    (∃ failure console shown, failure.exitCode = 1 ∧ (shown = [] ∨ shown = [heading]) ∧
      execute arguments files = .ofFailure failure console [] files ∧
      execute arguments.planned files = .ofFailure failure console shown files ∧
      ¬ Unshowable arguments files) ∨
    ∃ settings entries console, arguments.settings files = .ok settings ∧
      settings.entries = .ok entries ∧ console.mode = arguments.outputMode ∧
      execute arguments files = rip settings console files ∧
      execute arguments.planned files = plan settings console files := by
  let console : Console := ⟨arguments.outputMode, arguments.verbosity, arguments.quiet⟩
  have same : arguments.planned.settings files = arguments.settings files := rfl
  have noSample' : arguments.planned.generateConfig = false := noSample
  have plans : arguments.planned.dryRun = true := rfl
  simp only [execute, noSample, noSample', noPlan, plans, same, Bool.false_eq_true, if_false,
    if_true]
  cases loaded : arguments.settings files with
  | error problem =>
    refine .inl ⟨.config problem, _, [], rfl, .inl rfl, rfl, rfl, ?_⟩
    rintro ⟨_, _, loaded', -⟩
    cases loaded.symm.trans loaded'
  | ok settings =>
    cases described : settings.entries with
    | error input =>
      refine .inl ⟨.invalidPath input.text, console, [heading], rfl, .inr rfl,
        rip_of_input described, plan_of_input described, ?_⟩
      rintro ⟨_, _, loaded', described', -⟩
      cases loaded.symm.trans loaded'
      cases described.symm.trans described'
    | ok entries =>
      exact .inr ⟨settings, entries, console, rfl, described, rfl, rfl, rfl⟩

/-- Among documents a plan is the last. -/
theorem decode?_plan {console : Console} {plan : Plan} {document : Json}
    (documents : console.mode = .json) (told : plan.json? = some document) (clock : Clock) :
    ∃ above, Json.decode? (console.print clock [heading, .plan plan]).out =
      some (above ++ [document]) := by
  obtain ⟨mode, verbosity, quiet⟩ := console
  cases documents
  have shown : Console.documents clock (.plan plan) = ⟨document.pretty ++ "\n", ""⟩ := by
    rw [Console.documents, told]
    rfl
  cases quiet with
  | true =>
    have out : (Console.print ⟨.json, verbosity, true⟩ clock [heading, .plan plan]).out =
        linesOf [document.pretty] := congrArg (fun output => (Output.none ++ output).out) shown
    rw [out]
    have lines := Json.closes_join (.cons (Json.spells_layout 0 document) .nil)
    exact ⟨[], Json.decode?_of_spells lines.spells⟩
  | false =>
    let above := Console.headerJson "DRY RUN - no files will be read or written"
    have out : (Console.print ⟨.json, verbosity, false⟩ clock [heading, .plan plan]).out =
        linesOf [above.compact, document.pretty] :=
      congrArg (fun output => (Output.none ++ ⟨above.compact ++ "\n", ""⟩ ++ output).out) shown
    rw [out]
    have lines := Json.closes_join
      (.cons (Json.spells_compact above) (.cons (Json.spells_layout 0 document) .nil))
    exact ⟨[above], Json.decode?_of_spells lines.spells⟩

/-- In text a plan follows its heading. -/
theorem out_plan {console : Console} (text : console.mode ≠ .json) (clock : Clock) (plan : Plan) :
    (console.print clock [heading, .plan plan]).out =
      (console.print clock [heading]).out ++ console.planText plan := by
  have split := console.print_append clock [heading] [.plan plan]
  have shown : (console.print clock [.plan plan]).out = console.planText plan := by
    obtain ⟨mode, verbosity, quiet⟩ := console
    cases mode with
    | json => exact absurd rfl text
    | human | plain => exact String.empty_append
  rw [← shown]
  exact congrArg Output.out split

/-- The plan is the batch. A dry run is asked for by one word more. If the batch cannot be shown,
the dry run breaks down, and the real run does not end with the code of settings at fault. Apart
from that, a dry run ends badly exactly if the real run ends with that code; then it shows the same
failure, with no more than its heading above. If the real run ends well, its report has the inputs
and outputs of the plan in their order, and its rule; and this is what the dry run shows, in text or
as a document. -/
theorem plan_is_batch (files : FileSystem) (parsed : Arguments.parse words = .ok arguments)
    (noSample : arguments.generateConfig = false) (noPlan : arguments.dryRun = false) :
    Arguments.parse (Text.bytes "--dry-run" :: words) = .ok arguments.planned ∧
    ∀ planWords, Arguments.parse planWords = .ok arguments.planned →
      let real := run words files
      let dry := run planWords files
      dry.console = real.console ∧ dry.files = files ∧
      (dry.exitCode ≠ 0 ↔ real.exitCode = 1 ∨ Unshowable arguments files) ∧
      (Unshowable arguments files → real.exitCode ≠ 1 ∧ dry.exitCode = breakdownCode ∧
        dry.records = [heading, .errorLine breakdownMessage]) ∧
      (real.exitCode = 1 → dry.exitCode = 1 ∧
        ∃ failure shown, real.records = Failure.records failure ∧
          dry.records = shown ++ failure.records ∧ (shown = [] ∨ shown = [heading]) ∧
          ∀ clock, dry.output clock = dry.console.print clock shown ++ real.output clock) ∧
      (real.exitCode = 0 → ¬ Unshowable arguments files → ∃ before report plan,
        real.records = before ++ [.report report] ∧ dry.records = [heading, .plan plan] ∧
        plan.rule = report.rule ∧ plan.shown = report.entries.map EntryReport.shown ∧
        ∀ clock,
          (dry.console.mode ≠ .json → (dry.output clock).out =
            (dry.console.print clock [heading]).out ++ dry.console.planText plan) ∧
          (dry.console.mode = .json → ∃ above document,
            Json.decode? (dry.output clock).out = some (above ++ [document]) ∧
            Plan.ofJson? document =
              some (report.rule, report.entries.map EntryReport.shown))) := by
  refine ⟨Arguments.parse_dryRun parsed noPlan, ?_⟩
  intro planWords planParsed
  have ran : run words files = execute arguments files := by rw [run, parsed]
  have planned : run planWords files = execute arguments.planned files := by
    rw [run, planParsed]
  rw [ran, planned]
  intro real dry
  obtain ⟨failure, console, shown, coded, above, fails, failsToo, plain⟩ |
    ⟨settings, entries, console, loaded, described, mode, rips, plans⟩ :=
      execute_planned files noSample noPlan
  · have real' : real = .ofFailure failure console [] files := fails
    have dry' : dry = .ofFailure failure console shown files := failsToo
    rw [real', dry']
    refine ⟨rfl, rfl, ?_, fun broken => absurd broken plain, ?_, ?_⟩
    · simp [Ending.ofFailure, coded]
    · intro _
      exact ⟨coded, failure, shown, rfl, rfl, above,
        fun clock => console.print_append clock shown failure.records⟩
    · intro well
      cases coded.symm.trans well
  · have real' : real = rip settings console files := rips
    have dry' : dry = plan settings console files := plans
    obtain ⟨sameConsole, other, reports⟩ := rip_of_entries console files described
    have broken : Unshowable arguments files ↔ ¬ Showable console.mode entries :=
      mode ▸ unshowable_iff loaded described
    rw [real', dry', broken]
    by_cases showable : Showable console.mode entries
    · rw [plan_of_showable described showable]
      refine ⟨sameConsole.symm, rfl, ?_, absurd showable, fun fault => absurd fault other, ?_⟩
      · simp [other, showable]
      · intro well _
        obtain ⟨before, report, records, rule, listed⟩ := reports well
        have named : (planOf settings entries files).shown =
            report.entries.map EntryReport.shown := shown_planOf.trans listed.symm
        refine ⟨before, report, planOf settings entries files, records, rfl, rule.symm, named,
          fun clock => ⟨fun text => out_plan text clock _, fun documents => ?_⟩⟩
        obtain ⟨document, told⟩ :=
          Option.ne_none_iff_exists'.mp (showable.json?_ne_none documents)
        obtain ⟨above, decoded⟩ := decode?_plan documents told clock
        exact ⟨above, document, decoded, by rw [Plan.ofJson?_of_json? told, named, rule]; rfl⟩
    · rw [plan_of_not_showable described showable]
      refine ⟨sameConsole.symm, rfl, ?_, fun _ => ⟨other, rfl, rfl⟩,
        fun fault => absurd fault other, fun _ spelled => absurd showable spelled⟩
      exact iff_of_true (show breakdownCode ≠ 0 by decide) (.inr showable)

def oneInput : Arguments := { inputs := [⟨"a"⟩] }

theorem begins_one : Begins ["a"] Session.crowded oneInput
    (Settings.standard.merge oneInput.overrides) [⟨⟨"a"⟩, ⟨"a.txt"⟩⟩] Session.crowded where
  parsed := rfl
  noSample := rfl
  noPlan := rfl
  loaded := settings_crowded oneInput rfl
    ⟨by decide, by decide, by decide, by decide, fun dir given => by cases given⟩
  described := rfl
  made := rfl

/-- The plan of one entry, with the flag behind the input, and its report. -/
theorem plan_is_batch_one :
    let real := run ["a"] Session.crowded
    let dry := run ["a", "--dry-run"] Session.crowded
    real.exitCode = 0 ∧ dry.exitCode = 0 ∧ ∃ before report plan,
      real.records = before ++ [.report report] ∧ dry.records = [heading, .plan plan] ∧
        plan.rule = report.rule ∧ plan.shown = report.entries.map EntryReport.shown := by
  intro real dry
  obtain ⟨reports, processed⟩ := Batch.inTurn_iff.mp turn_one
  have well : real.exitCode = 0 := (begins_one.ends processed).2
  have showable : ¬ Unshowable oneInput Session.crowded := by
    rintro ⟨settings, entries, -, -, broken⟩
    exact broken fun documents => nomatch documents
  obtain ⟨-, -, fails, -, -, succeeds⟩ :=
    (plan_is_batch Session.crowded begins_one.parsed rfl rfl).2 ["a", "--dry-run"] rfl
  obtain ⟨before, report, plan, records, shown, rule, listed, -⟩ := succeeds well showable
  refine ⟨well, ?_, before, report, plan, records, shown, rule, listed⟩
  by_contra bad
  obtain fault | broken := fails.mp bad
  · cases well.symm.trans fault
  · exact showable broken

/-- A dry run fails exactly if the real run ends with the code of settings at fault. -/
def FailsTogether (words planWords : List RawText) (files : FileSystem) : Prop :=
  (run planWords files).exitCode ≠ 0 ↔ (run words files).exitCode = 1

/-- An input whose path has a byte that spells nothing. -/
def brokenInput : Arguments := { inputs := [⟨[0xff]⟩], mode := some .json }

theorem parse_broken : Arguments.parse [[0xff], "--output-format=json"] = .ok brokenInput := by
  have told := Arguments.takeOption_modeWord { inputs := [⟨[0xff]⟩] } rfl .json
  refine Arguments.parse_eq_ok_iff.mpr ⟨rfl, bind_eq_ok_iff.mpr ⟨_, rfl, ?_⟩, by decide⟩
  exact bind_eq_ok_iff.mpr ⟨_, told, rfl⟩

def brokenFiles : FileSystem :=
  FileSystem.blank.set ["work", [0xff]] (.file Session.one)

theorem begins_broken : Begins [[0xff], "--output-format=json"] brokenFiles brokenInput
    (Settings.standard.merge brokenInput.overrides)
    [⟨⟨[0xff]⟩, ⟨(0xff :: Text.bytes ".txt" : RawText)⟩⟩] brokenFiles where
  parsed := parse_broken
  noSample := rfl
  noPlan := rfl
  loaded := by
    refine Arguments.settings_eq_ok_iff.mpr
      ⟨.standard, .standard rfl (by decide +kernel), Arguments.amends_iff.mpr rfl, ?_⟩
    exact ⟨by decide, by decide, by decide, by decide, fun dir given => by cases given⟩
  described := by decide +kernel
  made := rfl

theorem turn_broken : ∃ after, InTurn {} [⟨⟨[0xff]⟩, ⟨(0xff :: Text.bytes ".txt" : RawText)⟩⟩]
    brokenFiles after := by
  have created : brokenFiles.create ⟨(0xff :: Text.bytes ".txt" : RawText)⟩ =
      .ok (["work", (0xff :: Text.bytes ".txt" : RawText)],
        brokenFiles.set ["work", (0xff :: Text.bytes ".txt" : RawText)] (.file [])) := rfl
  exact ⟨_, .cons_of_create rfl created (List.cons_ne_nil _ _) Session.listing_one .nil⟩

/-- The batch succeeds, but there is no plan to show. -/
theorem not_failsTogether_broken : ¬ FailsTogether [[0xff], "--output-format=json"]
    ["--dry-run", [0xff], "--output-format=json"] brokenFiles := by
  intro together
  obtain ⟨after, turn⟩ := turn_broken
  obtain ⟨reports, processed⟩ := Batch.inTurn_iff.mp turn
  have well : (run [[0xff], "--output-format=json"] brokenFiles).exitCode = 0 :=
    (begins_broken.ends processed).2
  have broken : ¬ Showable .json [⟨⟨[0xff]⟩, ⟨(0xff :: Text.bytes ".txt" : RawText)⟩⟩] := by
    intro spelled
    exact absurd (spelled rfl _ (List.mem_singleton_self _)).1 (by decide +kernel)
  have plans : run ["--dry-run", [0xff], "--output-format=json"] brokenFiles =
      plan (Settings.standard.merge brokenInput.overrides) ⟨.json, 0, false⟩ brokenFiles :=
    begins_broken.plans
  have fails : (run ["--dry-run", [0xff], "--output-format=json"] brokenFiles).exitCode ≠ 0 := by
    rw [plans, plan_of_not_showable begins_broken.described broken]
    decide
  cases well.symm.trans (together.mp fails)

end Command

end ResourceNames
