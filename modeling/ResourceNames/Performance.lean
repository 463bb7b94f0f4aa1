import ResourceNames.Session

namespace ResourceNames

/-- What a clock tells of a batch: how long it has been under way whenever its bar is moved, and the
times that are shown as text. -/
structure Pace where
  elapsed : Nat → Span
  clock : Clock

/-- Where a batch is shown while it is under way: a console, what has been printed on it, and a
bar. -/
structure Display where
  console : Console
  printed : Output
  bar : ProgressBar

/-- A bar would get between documents and between lines of plain text, so it is drawn for people
only. -/
def Console.drawsBar (console : Console) : Bool :=
  !console.quiet && console.mode = .human

namespace Display

/-- A display for so many entries, on which nothing stands. -/
def start (console : Console) (length : Nat) : Display :=
  ⟨console, .none, .start console.drawsBar length⟩

/-- Prints a record, unless the console keeps it back. -/
def say (clock : Clock) (display : Display) (record : Record) : Display :=
  if display.console.shows record then
    { display with printed := display.printed ++ display.console.render clock record }
  else display

def sayAll (clock : Clock) (display : Display) (records : List Record) : Display :=
  records.foldl (say clock) display

/-- Moves the bar, whether it is drawn or not. -/
def move? (elapsed : Span) (progress : Progress) (display : Display) : Option Display :=
  (display.bar.update? progress elapsed).map fun bar => { display with bar }

def finish (message : String) (taken : Span) (display : Display) : Display :=
  { display with bar := display.bar.finish message taken }

end Display

/-- Processes entries as `process` does, and moves a bar whenever the progress is shown. There is no
answer if the bar has none. -/
def Batch.perform (rule : ScanRule) (stopAt : Option Nat) (elapsed : Nat → Span) :
    List Entry → State → Display →
      Option (Except Failure (List EntryReport) × State × Display)
  | [], state, display => do
    let display ← display.move? (elapsed state.trace.shown.length) state.progress
    return (.ok [], state.present stopAt, display)
  | entry :: entries, state, display =>
    if !state.trace.running then some (.error .cancelled, state, display)
    else do
      let taken := state.take entry.input
      let display ← display.move? (elapsed taken.trace.shown.length) taken.progress
      let state := taken.present stopAt
      match processEntry rule entry state.files with
      | (.error failure, files) => return (.error failure, { state with files }, display)
      | (.ok report, files) =>
        let (outcome, state, display) ←
          perform rule stopAt elapsed entries (state.finish report files) display
        return (outcome.map (report :: ·), state, display)

/-- What comes of a batch that is shown: its outcome, whether the session may go on, the files, and
what stands on the display. -/
structure Performance where
  outcome : Except Failure Report
  running : Bool
  files : FileSystem
  printed : Output := .none
  bar? : Option ProgressBar := none

namespace Session

/-- A batch that fails leaves its bar where it is. A batch that is done ends it, and is spoken of on
the console. -/
def conclude (clock : Clock) (outcome : Except Failure Report) (running : Bool)
    (files : FileSystem) (display : Display) : Performance :=
  let display :=
    match outcome with
    | .error _ => display
    | .ok report =>
      (display.finish s!"Scanned {report.entries.length} binaries" clock.batch).sayAll clock
        (closing report)
  ⟨outcome, running, files, display.printed, some display.bar⟩

/-- Runs the batch that the settings describe, unless the session is over, and shows it while it is
under way. The session may be ended from outside when the bar is moved for the `stopAt`-th time. -/
def perform (settings : Settings) (console : Console) (pace : Pace) (running : Bool)
    (stopAt : Option Nat) (files : FileSystem) : Option Performance :=
  if !running then some { outcome := .error .cancelled, running, files }
  else
    match settings.entries with
    | .error input => some { outcome := .error (.invalidPath input), running, files }
    | .ok entries =>
      match makeRoom settings files with
      | (.error failure, files) => some { outcome := .error failure, running, files }
      | (.ok (), files) => do
        let display := Display.start console entries.length
        let display := display.sayAll pace.clock (opening settings entries)
        let start : Batch.State := ⟨{ total := entries.length }, ⟨[], running⟩, files⟩
        let (outcome, state, display) ←
          Batch.perform settings.scan stopAt pace.elapsed entries start display
        let outcome := outcome.map fun reports =>
          { entries := reports
            bytesScanned := state.progress.bytesScanned
            matched := state.progress.matched
            rule := settings.scan }
        return conclude pace.clock outcome state.trace.running state.files display

end Session

end ResourceNames
