import ResourceNames.ByteSize
import ResourceNames.Failure
import ResourceNames.Plan

namespace ResourceNames

/-- How messages are shown: for people, as documents for programs, or as plain text. -/
inductive Mode
  | human
  | json
  | plain
deriving DecidableEq, Repr

inductive Level
  | success
  | error
  | warning
  | info
  | debug
  | start
deriving DecidableEq, Repr

/-- The verbosity from which a message is shown. -/
def Level.threshold : Level → Nat
  | .info => 1
  | .debug => 2
  | _ => 0

/-- Something to be shown. -/
inductive Record
  | message (level : Level) (text : String)
  | suggestion (text : String)
  | header (title : String)
  | separator
  | report (report : Report)
  | plan (plan : Plan)
  | line (text : String)
  | errorLine (text : String)

/-- Where records are shown, in which way, and how many of them. -/
structure Console where
  mode : Mode
  verbosity : Nat
  quiet : Bool
deriving DecidableEq, Repr

/-- Text for the two standard streams. -/
structure Output where
  out : String
  err : String
deriving DecidableEq, Repr

namespace Output

def none : Output := ⟨"", ""⟩

def append (first second : Output) : Output :=
  ⟨first.out ++ second.out, first.err ++ second.err⟩

instance : Append Output := ⟨append⟩

end Output

namespace Console

/-- Errors, suggestions, plans and single lines are always shown, all else unless the console is
quiet, messages from the verbosity of their level on. -/
def shows (console : Console) : Record → Bool
  | .message .error _ => true
  | .message level _ => !console.quiet && level.threshold ≤ console.verbosity
  | .suggestion _ => true
  | .plan _ => true
  | .line _ => true
  | .errorLine _ => true
  | .header _ => !console.quiet
  | .separator => !console.quiet
  | .report _ => !console.quiet

def rule : String :=
  String.ofList (List.replicate 60 '-') ++ "\n"

def directoryText (dir : Path) : String :=
  s!"  Output dir:     {dir.text}\n"

/-- Inputs that are not there are marked. -/
def plannedText (planned : PlannedEntry) : String :=
  let mark := if planned.present then " " else "?"
  s!"{mark} {planned.entry.input.text} -> {planned.entry.output.text}\n"

/-- A plan in text; a quiet console shows it without rules. -/
def planText (console : Console) (plan : Plan) : String :=
  let rule := if console.quiet then "" else rule
  s!"  Minimum length: {plan.rule.minLength}\n" ++
  s!"  Suffix:         {plan.rule.suffix}\n" ++
  ((plan.outputDirectory.map directoryText).getD "") ++
  rule ++ String.join (plan.entries.map plannedText) ++ rule

/-- A text with blanks behind it up to `width` characters. -/
def alignLeft (width : Nat) (text : String) : String :=
  text ++ String.ofList (List.replicate (width - text.length) ' ')

/-- A text with blanks in front of it up to `width` characters. -/
def alignRight (width : Nat) (text : String) : String :=
  String.ofList (List.replicate (width - text.length) ' ') ++ text

def humanHeader (title : String) : String :=
  s!"\n=== {title} ===\n\n"

def humanEntry (entry : EntryReport) : String :=
  let input := alignLeft 24 entry.input
  let matched := alignRight 6 (toString entry.statistics.matched)
  s!"  {input} {matched} matches  -> {entry.output}\n"

def humanReport (clock : Clock) (report : Report) : String :=
  humanHeader "SEQ Rip Report" ++
  String.join (report.entries.map humanEntry) ++
  "\n" ++ rule ++
  s!"  Inputs scanned:  {report.entries.length}\n" ++
  s!"  Bytes scanned:   {(ByteSize.mk report.bytesScanned).text}\n" ++
  s!"  Matches written: {report.matched}\n" ++
  s!"  Time taken:      {clock.batch.brief}\n" ++
  rule

def humanMark : Level → String
  | .success => "✓ "
  | .error => "✗ "
  | .warning => "! "
  | .info => "i "
  | .debug => "  DEBUG: "
  | .start => "> "

def human (console : Console) (clock : Clock) : Record → Output
  | .message .error text => ⟨"", humanMark .error ++ text ++ "\n"⟩
  | .message level text => ⟨humanMark level ++ text ++ "\n", ""⟩
  | .suggestion text => ⟨"", "\nSuggestion: " ++ text ++ "\n"⟩
  | .header title => ⟨humanHeader title, ""⟩
  | .separator => ⟨rule, ""⟩
  | .report report => ⟨humanReport clock report, ""⟩
  | .plan plan => ⟨console.planText plan, ""⟩
  | .line text => ⟨text ++ "\n", ""⟩
  | .errorLine text => ⟨"", text ++ "\n"⟩

def plainMark : Level → String
  | .success => "SUCCESS: "
  | .error => "ERROR: "
  | .warning => "WARNING: "
  | .info => "INFO: "
  | .debug => "DEBUG: "
  | .start => "STARTING: "

def plainEntry (entry : EntryReport) : String :=
  s!"{entry.input}\t{entry.output}\t{entry.statistics.matched}\n"

def plainReport (clock : Clock) (report : Report) : String :=
  "REPORT: Batch completed\n" ++
  String.join (report.entries.map plainEntry) ++
  s!"Inputs: {report.entries.length}\n" ++
  s!"Bytes: {report.bytesScanned}\n" ++
  s!"Matches: {report.matched}\n" ++
  s!"Duration: {clock.batch.exact}\n"

def plain (console : Console) (clock : Clock) : Record → Output
  | .message .error text => ⟨"", plainMark .error ++ text ++ "\n"⟩
  | .message level text => ⟨plainMark level ++ text ++ "\n", ""⟩
  | .suggestion text => ⟨"", "SUGGESTION: " ++ text ++ "\n"⟩
  | .header title => ⟨s!"=== {title} ===\n", ""⟩
  | .separator => ⟨rule, ""⟩
  | .report report => ⟨plainReport clock report, ""⟩
  | .plan plan => ⟨console.planText plan, ""⟩
  | .line text => ⟨text ++ "\n", ""⟩
  | .errorLine text => ⟨"", text ++ "\n"⟩

def levelName : Level → String
  | .success => "success"
  | .error => "error"
  | .warning => "warning"
  | .info => "info"
  | .debug => "debug"
  | .start => "operation_start"

def messageJson (clock : Clock) (level : Level) (text : String) : Json :=
  .object
    [("level", .text (levelName level)), ("message", .text text),
      ("timestamp", .text clock.now.textWithOffset), ("type", .text "message")]

def suggestionJson (text : String) : Json :=
  .object [("message", .text text), ("type", .text "suggestion")]

def headerJson (title : String) : Json :=
  .object [("title", .text title), ("type", .text "header")]

/-- Reports and plans are spread over many lines, all other documents stand on one. There is none
for a separator or for a plan with a path that is no text, and single lines stay what they are. -/
def documents (clock : Clock) : Record → Output
  | .message level text => ⟨(messageJson clock level text).compact ++ "\n", ""⟩
  | .suggestion text => ⟨(suggestionJson text).compact ++ "\n", ""⟩
  | .header title => ⟨(headerJson title).compact ++ "\n", ""⟩
  | .separator => .none
  | .report report => ⟨(report.json clock).pretty ++ "\n", ""⟩
  | .plan plan => ⟨(plan.json?.map fun document => document.pretty ++ "\n").getD "", ""⟩
  | .line text => ⟨text ++ "\n", ""⟩
  | .errorLine text => ⟨"", text ++ "\n"⟩

def render (console : Console) (clock : Clock) (record : Record) : Output :=
  match console.mode with
  | .human => console.human clock record
  | .plain => console.plain clock record
  | .json => documents clock record

/-- What the console writes for records, in their order. -/
def print (console : Console) (clock : Clock) (records : List Record) : Output :=
  ((records.filter console.shows).map (console.render clock)).foldl (· ++ ·) .none

end Console

/-- A failure is shown as an error, with a suggestion if there is one. -/
def Failure.records (failure : Failure) : List Record :=
  .message .error failure.userMessage :: failure.suggestion?.toList.map .suggestion

/-- An entry is shown by its counts, and by a warning about names that are not proper literals. -/
def EntryReport.records (entry : EntryReport) : List Record :=
  [.message .info
      s!"{entry.input} -> {entry.output} ({entry.statistics.matched} matches)",
    .message .debug entry.statistics.summary] ++
  if entry.unescaped = 0 then []
  else
    [.message .warning <|
      s!"{entry.unescaped} value(s) in {entry.output} contain '\"' or '\\' " ++
      "and were written unescaped"]

end ResourceNames
