import ResourceNames.Failure
import ResourceNames.Progress
import ResourceNames.Report
import ResourceNames.Settings

namespace ResourceNames.Batch

/-- Reads an input. That there is no such file is told apart from all else that can be wrong. -/
def readInput (path : Path) (fs : FileSystem) : Except Failure (List UInt8) :=
  match fs.read path with
  | .ok data => .ok data
  | .error .notFound => .error (.inputNotFound path)
  | .error cause => .error (.inputUnreadable path cause)

/-- The number of bytes that are collected before a file is written to. -/
def bufferSize : Nat := 65536

/-- Writes a list to an open file through a buffer. -/
def writeLines (names : List String) (l : Location) (fs : FileSystem) :
    Except Cause Nat × FileSystem :=
  let file := FileSystem.openFile l
  match LiteralList.writeTo (Sink.buffered bufferSize file) names (.empty fs) with
  | (.error cause, buffer) => (.error cause, buffer.behind)
  | (.ok written, buffer) =>
    match buffer.flush file with
    | (.error cause, buffer) => (.error cause, buffer.behind)
    | (.ok (), buffer) => (.ok written, buffer.behind)

/-- Makes a list of names in a file and counts its bytes. -/
def writeList (names : List String) (path : Path) (fs : FileSystem) :
    Except Failure Nat × FileSystem :=
  match fs.create path with
  | .error cause => (.error (.outputNotWritable path cause), fs)
  | .ok (l, fs) =>
    let (outcome, fs) := writeLines names l fs
    (outcome.mapError (.outputNotWritable path), fs)

/-- Reads the input of an entry, and writes its list if that went well. -/
def processEntry (rule : ScanRule) (entry : Entry) (fs : FileSystem) :
    Except Failure EntryReport × FileSystem :=
  match readInput entry.input fs with
  | .error failure => (.error failure, fs)
  | .ok data =>
    let extraction := rule.extract data
    match writeList extraction.names entry.output fs with
    | (.error failure, fs) => (.error failure, fs)
    | (.ok _, fs) =>
      (.ok
        { input := entry.input
          output := entry.output
          statistics := extraction.statistics
          unescaped := extraction.names.countP LiteralList.needsEscaping }, fs)

/-- Whoever watches a batch: whether they let it go on, and the number of the showing at which they
stop it. -/
structure Watch where
  running : Bool := true
  stopAt : Option Nat := none
deriving DecidableEq, Repr

/-- What the watcher has been shown, and whether they still let the batch go on. -/
structure Trace where
  shown : List Progress
  running : Bool
deriving DecidableEq, Repr

/-- A batch on its way. -/
structure State where
  progress : Progress
  trace : Trace
  files : FileSystem

namespace State

/-- Shows the progress to the watcher, who may stop the batch upon it. -/
def present (stopAt : Option Nat) (state : State) : State :=
  { state with
    trace :=
      { shown := state.trace.shown ++ [state.progress]
        running := state.trace.running && stopAt != some (state.trace.shown.length + 1) } }

def take (input : Path) (state : State) : State :=
  { state with progress := state.progress.startEntry input }

def finish (report : EntryReport) (files : FileSystem) (state : State) : State :=
  { state with progress := state.progress.finishEntry report.statistics, files }

end State

/-- Processes entries in order, up to the first that fails. Whether to go on is asked before each
entry, and never while one is in work. -/
def process (rule : ScanRule) (stopAt : Option Nat) :
    List Entry → State → Except Failure (List EntryReport) × State
  | [], state => (.ok [], state.present stopAt)
  | entry :: entries, state =>
    if !state.trace.running then (.error .cancelled, state)
    else
      let state := (state.take entry.input).present stopAt
      match processEntry rule entry state.files with
      | (.error failure, files) => (.error failure, { state with files })
      | (.ok report, files) =>
        match process rule stopAt entries (state.finish report files) with
        | (.error failure, state) => (.error failure, state)
        | (.ok reports, state) => (.ok (report :: reports), state)

/-- Runs a batch and reports on it. A batch that nobody watches is never stopped. -/
def run (rule : ScanRule) (entries : List Entry) (watch? : Option Watch) (files : FileSystem) :
    Except Failure Report × Trace × FileSystem :=
  let watch := watch?.getD {}
  let start : State := ⟨{ total := entries.length }, ⟨[], watch.running⟩, files⟩
  let (outcome, state) := process rule watch.stopAt entries start
  (outcome.map fun reports =>
    { entries := reports
      bytesScanned := state.progress.bytesScanned
      matched := state.progress.matched
      rule }, state.trace, state.files)

end ResourceNames.Batch
