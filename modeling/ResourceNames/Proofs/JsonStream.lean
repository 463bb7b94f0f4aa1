import Mathlib.Data.List.Forall2
import ResourceNames.Proofs.BatchOutcome
import ResourceNames.Proofs.JsonReading

namespace ResourceNames

namespace Json

def field? (name : String) : Json → Option Json
  | .object fields => fields.lookup name
  | _ => none

def number? : Json → Option Nat
  | .number value => some value
  | _ => none

def text? : Json → Option String
  | .text value => some value
  | _ => none

def items? : Json → Option (List Json)
  | .array items => some items
  | _ => none

/-- The number, the text or the items in a field of an object. -/
def numberAt? (name : String) (document : Json) : Option Nat :=
  (document.field? name).bind number?

def textAt? (name : String) (document : Json) : Option String :=
  (document.field? name).bind text?

def itemsAt? (name : String) (document : Json) : Option (List Json) :=
  (document.field? name).bind items?

end Json

def Statistics.ofJson? (document : Json) : Option Statistics := do
  return {
    bytesScanned := ← document.numberAt? "bytes_scanned"
    printableRuns := ← document.numberAt? "printable_runs"
    candidates := ← document.numberAt? "candidates"
    matched := ← document.numberAt? "matches"
    duplicates := ← document.numberAt? "duplicate_matches" }

def ScanRule.ofJson? (document : Json) : Option ScanRule := do
  return {
    minLength := ← document.numberAt? "min_length"
    suffix := ← document.textAt? "suffix" }

def EntryReport.ofJson? (document : Json) : Option EntryReport := do
  return {
    input := ← document.textAt? "input"
    output := ← document.textAt? "output"
    statistics := ← Statistics.ofJson? (← document.field? "statistics")
    unescaped := ← document.numberAt? "unescaped_literals" }

def Report.ofJson? (document : Json) : Option Report := do
  return {
    entries := ← (← document.itemsAt? "entries").mapM EntryReport.ofJson?
    bytesScanned := ← document.numberAt? "total_bytes_scanned"
    matched := ← document.numberAt? "total_matches"
    rule := ← ScanRule.ofJson? (← document.field? "config_used") }

def Level.all : List Level :=
  [.success, .error, .warning, .info, .debug, .start]

def Level.ofName? (name : String) : Option Level :=
  all.find? fun level => Console.levelName level = name

/-- The record that a document tells. Only a report does not say what it is. -/
def Record.ofJson? (document : Json) : Option Record :=
  match document.textAt? "type" with
  | some "message" => do
    return .message (← Level.ofName? (← document.textAt? "level")) (← document.textAt? "message")
  | some "suggestion" => return .suggestion (← document.textAt? "message")
  | some _ => none
  | none => return .report (← Report.ofJson? document)

theorem Statistics.ofJson?_json (statistics : Statistics) :
    ofJson? statistics.json = some statistics := rfl

theorem ScanRule.ofJson?_json (rule : ScanRule) : ofJson? rule.json = some rule := rfl

theorem EntryReport.ofJson?_json (entry : EntryReport) (taken : Span) :
    ofJson? (entry.json taken) = some entry := rfl

theorem Level.ofName?_levelName (level : Level) :
    ofName? (Console.levelName level) = some level := by
  cases level <;> decide

/-- Each entry is told, whatever time it has taken. -/
theorem EntryReport.mapM_ofJson? (entries : List EntryReport) (taken : Nat → Span) :
    (entries.mapIdx fun i entry => entry.json (taken i)).mapM ofJson? = some entries := by
  induction entries generalizing taken with
  | nil => rfl
  | cons entry entries ih =>
    rw [List.mapIdx_cons, List.mapM_cons, ofJson?_json, ih fun i => taken (i + 1)]
    rfl

theorem Report.ofJson?_json (report : Report) (clock : Clock) :
    ofJson? (report.json clock) = some report := by
  have entries := EntryReport.mapM_ofJson? report.entries clock.entry
  have listed : (report.json clock).itemsAt? "entries" =
      some (report.entries.mapIdx fun i entry => entry.json (clock.entry i)) := rfl
  rw [ofJson?, listed]
  dsimp only [bind, Option.bind]
  rw [entries]
  rfl

/-- A text tells a record: it is one document, which tells it, and it is one line unless the record
is a report. -/
structure Record.ToldBy (record : Record) (text : String) : Prop where
  document : ∃ document, Json.Spells text document.tokens ∧ ofJson? document = some record
  line : (∀ report, record ≠ .report report) → Json.Unbroken text

/-- The records for which there is a text that tells them. -/
def Record.IsTold : Record → Prop
  | .message _ _ => True
  | .suggestion _ => True
  | .report _ => True
  | _ => False

theorem Console.documents_of_isTold {record : Record} (told : record.IsTold) (clock : Clock) :
    ∃ text, documents clock record = ⟨text ++ "\n", ""⟩ ∧ record.ToldBy text := by
  cases record with
  | message level text =>
    refine ⟨_, rfl, ⟨_, Json.spells_compact _, ?_⟩, fun _ => Json.unbroken_compact _⟩
    have read : Record.ofJson? (messageJson clock level text) =
        (Level.ofName? (levelName level)).bind fun level => some (.message level text) := rfl
    rw [read, Level.ofName?_levelName]
    rfl
  | suggestion text =>
    exact ⟨_, rfl, ⟨_, Json.spells_compact _, rfl⟩, fun _ => Json.unbroken_compact _⟩
  | report report =>
    refine ⟨_, rfl, ⟨_, Json.spells_layout 0 _, ?_⟩, fun other => absurd rfl (other report)⟩
    have read := report.ofJson?_json clock
    have type : (report.json clock).textAt? "type" = none := rfl
    rw [Record.ofJson?, type]
    dsimp only
    rw [read]
    rfl
  | _ => exact told.elim

namespace Output

theorem none_append (output : Output) : none ++ output = output := by
  change Output.mk ("" ++ output.out) ("" ++ output.err) = output
  rw [String.empty_append, String.empty_append]

theorem append_none (output : Output) : output ++ none = output := by
  change Output.mk (output.out ++ "") (output.err ++ "") = output
  rw [String.append_empty, String.append_empty]

theorem append_assoc (first second third : Output) :
    first ++ second ++ third = first ++ (second ++ third) := by
  change Output.mk (first.out ++ second.out ++ third.out) (first.err ++ second.err ++ third.err) =
    Output.mk (first.out ++ (second.out ++ third.out)) (first.err ++ (second.err ++ third.err))
  rw [String.append_assoc, String.append_assoc]

theorem foldl_append (outputs : List Output) (start : Output) :
    outputs.foldl (· ++ ·) start =
      ⟨start.out ++ String.join (outputs.map Output.out),
        start.err ++ String.join (outputs.map Output.err)⟩ := by
  induction outputs generalizing start with
  | nil => simp
  | cons output outputs ih =>
    rw [List.foldl_cons, ih, List.map_cons, List.map_cons, String.join_cons, String.join_cons,
      ← String.append_assoc, ← String.append_assoc]
    rfl

end Output

/-- What a console writes for records is what it writes for the first and then for the others. -/
theorem Console.print_append (console : Console) (clock : Clock) (front back : List Record) :
    console.print clock (front ++ back) =
      console.print clock front ++ console.print clock back := by
  simp only [print, List.filter_append, List.map_append, Output.foldl_append, String.join_append,
    Output.none, String.empty_append]
  rfl

theorem Console.print_cons (console : Console) (clock : Clock) (record : Record)
    (records : List Record) : console.print clock (record :: records) =
      (if console.shows record then console.render clock record else .none) ++
        console.print clock records := by
  rw [← List.singleton_append, print_append]
  congr 1
  cases shown : console.shows record with
  | false => simp [print, shown]
  | true =>
    simp only [print, shown, List.filter_cons_of_pos, List.filter_nil, List.map_cons, List.map_nil,
      List.foldl_cons, List.foldl_nil, if_true]
    exact Output.none_append _

/-- Texts that follow each other, with a new line behind each. -/
def linesOf (texts : List String) : String :=
  String.join (texts.map (· ++ "\n"))

theorem linesOf_append (first second : List String) :
    linesOf (first ++ second) = linesOf first ++ linesOf second := by
  simp only [linesOf, List.map_append, String.join_append]

/-- An output that tells records, one after the other, and nothing else. -/
def Output.Tells (output : Output) (records : List Record) : Prop :=
  output.err = "" ∧ ∃ texts, output.out = linesOf texts ∧
    List.Forall₂ Record.ToldBy records texts

theorem Output.Tells.append {first second : Output} {front back : List Record}
    (tells : first.Tells front) (tells' : second.Tells back) :
    (first ++ second).Tells (front ++ back) := by
  obtain ⟨quiet, texts, lines, told⟩ := tells
  obtain ⟨quiet', texts', lines', told'⟩ := tells'
  refine ⟨?_, texts ++ texts', ?_, List.rel_append told told'⟩
  · change first.err ++ second.err = ""
    rw [quiet, quiet']
    rfl
  · change first.out ++ second.out = linesOf (texts ++ texts')
    rw [lines, lines', linesOf_append]

/-- A console for documents tells the records that it shows. -/
theorem Console.print_tells {console : Console} (mode : console.mode = .json) (clock : Clock)
    {records : List Record} (told : ∀ record ∈ records, record.IsTold) :
    (console.print clock records).Tells (records.filter console.shows) := by
  induction records with
  | nil => exact ⟨rfl, [], rfl, .nil⟩
  | cons record records ih =>
    obtain ⟨first, others⟩ := List.forall_mem_cons.mp told
    have here : (console.print clock [record]).Tells ([record].filter console.shows) := by
      rw [print]
      cases shown : console.shows record with
      | false =>
        rw [List.filter_cons_of_neg (Bool.eq_false_iff.mp shown)]
        exact ⟨rfl, [], rfl, .nil⟩
      | true =>
        obtain ⟨text, rendered, tells⟩ := documents_of_isTold first clock
        have same : console.render clock record = ⟨text ++ "\n", ""⟩ := by
          rw [render, mode]
          exact rendered
        rw [List.filter_cons_of_pos shown, List.filter_nil, List.map_singleton, same]
        exact ⟨rfl, [text], rfl, .cons tells .nil⟩
    have whole := here.append (ih others)
    rwa [← print_append, ← List.filter_append] at whole

/-- What tells records is decoded, and only so, as one document for each record. -/
theorem Output.Tells.decode {output : Output} {records : List Record}
    (tells : output.Tells records) :
    ∃ documents, Json.decode? output.out = some documents ∧
      documents.map Record.ofJson? = records.map some := by
  obtain ⟨-, texts, lines, told⟩ := tells
  have spelled : ∃ documents,
      List.Forall₂ (fun document text => Json.Spells text document.tokens) documents texts ∧
        documents.map Record.ofJson? = records.map some := by
    clear lines
    induction told with
    | nil => exact ⟨[], .nil, rfl⟩
    | cons told _ ih =>
      obtain ⟨document, spells, same⟩ := told.document
      obtain ⟨documents, rest, others⟩ := ih
      exact ⟨document :: documents, .cons spells rest, by simp [same, others]⟩
  obtain ⟨documents, spelled, same⟩ := spelled
  refine ⟨documents, ?_, same⟩
  rw [lines]
  exact Json.decode?_of_spells (Json.closes_join spelled).spells

theorem Failure.records_isTold (failure : Failure) :
    ∀ record ∈ failure.records, record.IsTold := by
  intro record member
  obtain rfl | suggested := List.mem_cons.mp member
  · trivial
  · obtain ⟨text, -, rfl⟩ := List.mem_map.mp suggested
    trivial

theorem EntryReport.records_isTold (entry : EntryReport) :
    ∀ record ∈ entry.records, record.IsTold := by
  intro record member
  unfold records at member
  obtain counts | warning := List.mem_append.mp member
  · simp only [List.mem_cons, List.not_mem_nil, or_false] at counts
    obtain rfl | rfl := counts <;> trivial
  · split at warning
    · cases warning
    · rw [List.mem_singleton.mp warning]
      trivial

namespace Session

theorem opening_isTold (settings : Settings) (entries : List Entry) :
    ∀ record ∈ opening settings entries, record.IsTold := by
  intro record member
  rw [List.mem_singleton.mp member]
  trivial

theorem closing_isTold (report : Report) : ∀ record ∈ closing report, record.IsTold := by
  intro record member
  obtain entries | totals := List.mem_append.mp member
  · obtain ⟨entry, -, shown⟩ := List.mem_flatMap.mp entries
    exact entry.records_isTold record shown
  · simp only [List.mem_cons, List.not_mem_nil, or_false] at totals
    obtain rfl | rfl := totals <;> trivial

theorem ripAll_isTold (settings : Settings) (running : Bool) (files : FileSystem) :
    ∀ record ∈ (ripAll settings running files).2.1, record.IsTold := by
  cases running with
  | false => exact List.forall_mem_nil _
  | true =>
    have comes := comes_ripAll settings files
    generalize ripAll settings true files = came at comes
    cases comes with
    | unnamed => exact List.forall_mem_nil _
    | roomless => exact List.forall_mem_nil _
    | stopped => exact opening_isTold _ _
    | done =>
      intro record member
      obtain first | last := List.mem_append.mp member
      · exact opening_isTold _ _ record first
      · exact closing_isTold _ record last

/-- Whatever a session is asked for, it shows messages, suggestions and reports only. -/
theorem step_isTold (session : Session) (step : Step) :
    ∀ record ∈ (session.step step).1.records, record.IsTold := by
  cases step with
  | ripAll =>
    exact ripAll_isTold session.settings session.running session.files
  | printReport =>
    intro record member
    obtain ⟨report, -, rfl⟩ := Option.map_eq_some_iff.mp (Option.mem_toList.mp member)
    trivial
  | handleError =>
    intro record member
    unfold Session.step at member
    cases failed : session.lastFailure? with
    | none =>
      simp [failed] at member
    | some failure =>
      simp only [failed, Option.map_some, Option.getD_some] at member
      exact failure.records_isTold record member
  | run | entry | read | writeList | shutdown | edit => exact List.forall_mem_nil _

theorem step_console (session : Session) (step : Step) :
    (session.step step).2.console = session.console := by
  cases step with
  | ripAll =>
    rcases ripped : Session.ripAll session.settings session.running session.files with
      ⟨failure | report, records, files⟩ <;> simp only [step, ripped, remember]
  | run entries watch? =>
    rcases ran : Batch.run session.settings.scan entries watch? session.files with
      ⟨failure | report, trace, files⟩ <;> simp only [step, ran, remember]
  | entry | read | writeList | printReport | handleError | shutdown | edit => rfl

/-- What a session prints when each step is shown by a clock of its own. -/
def transcript (session : Session) : List (Step × Clock) → Output
  | [] => .none
  | (step, clock) :: steps =>
    let (reply, after) := session.step step
    after.console.print clock reply.records ++ after.transcript steps

/-- The records that a session shows. -/
def shown (session : Session) (steps : List Step) : List Record :=
  (session.run steps).1.flatMap fun reply => reply.records.filter session.console.shows

theorem transcript_tells {session : Session} (mode : session.console.mode = .json)
    (timed : List (Step × Clock)) :
    (session.transcript timed).Tells (session.shown (timed.map Prod.fst)) := by
  induction timed generalizing session with
  | nil => exact ⟨rfl, [], rfl, .nil⟩
  | cons first timed ih =>
    obtain ⟨step, clock⟩ := first
    have kept := session.step_console step
    have mode' : (session.step step).2.console.mode = .json := kept ▸ mode
    have here := Console.print_tells mode' clock (session.step_isTold step)
    have split : session.shown (((step, clock) :: timed).map Prod.fst) =
        (session.step step).1.records.filter (session.step step).2.console.shows ++
          (session.step step).2.shown (timed.map Prod.fst) := by
      unfold shown
      rw [kept]
      rfl
    rw [split]
    exact here.append (ih mode')

/-- A session in which documents are shown, however much of them and by whatever clocks, says
nothing on the side of errors. What it says on the other is a sequence of documents, which are told
apart and tell the records that are shown, in order and without any loss: of a message its level and
its text, of a suggestion its text, of a report all its entries, its totals and the rule. Each has a
text of its own with a new line behind it, and that of a message or suggestion is one line. -/
theorem transcript_decodes (session : Session) (verbosity : Nat) (quiet : Bool)
    (timed : List (Step × Clock)) :
    let talking := { session with console := ⟨.json, verbosity, quiet⟩ }
    let output := talking.transcript timed
    let records := talking.shown (timed.map Prod.fst)
    output.err = "" ∧
    (∃ documents, Json.decode? output.out = some documents ∧
      documents.map Record.ofJson? = records.map some) ∧
    ∃ texts, output.out = linesOf texts ∧
      List.Forall₂ (fun record text =>
        (∃ document, Json.decode? text = some [document] ∧
          Record.ofJson? document = some record) ∧
        ((∀ report, record ≠ .report report) → Json.Unbroken text)) records texts := by
  intro talking output records
  have tells : output.Tells records := transcript_tells rfl timed
  refine ⟨tells.1, tells.decode, ?_⟩
  obtain ⟨-, texts, lines, told⟩ := tells
  refine ⟨texts, lines, told.imp ?_⟩
  rintro record text ⟨⟨document, spells, same⟩, line⟩
  exact ⟨⟨document, Json.decode?_of_tokens spells, same⟩, line⟩

end Session

end ResourceNames
