import ResourceNames.Batch
import ResourceNames.Console
import ResourceNames.FileSystem.Change

namespace ResourceNames

/-- The program at work: with which settings, on which files, where it shows what it does, whether
it may go on, and what came of the last batches. -/
structure Session where
  settings : Settings
  console : Console
  files : FileSystem
  running : Bool := true
  lastReport? : Option Report := none
  lastFailure? : Option Failure := none

namespace Session

/-- Something that a session can be asked for. A batch of one's own is watched or not; one that is
watched may be cancelled beforehand, or when its progress is shown for the `stopAt`-th time. -/
inductive Step
  | ripAll
  | run (entries : List Entry) (watch? : Option Batch.Watch)
  | entry (entry : Entry)
  | read (path : Path)
  | writeList (names : List String) (path : Path)
  | printReport
  | handleError
  | shutdown
  | edit (edit : Edit)

/-- What a step gives back if it does not fail. -/
inductive Answer
  | done
  | report (report : Report)
  | entry (report : EntryReport)
  | data (bytes : List UInt8)
  | written (bytes : Nat)

/-- What comes of a step: its answer, what it wants to have shown, and the trace of a batch of
one's own. -/
structure Reply where
  outcome : Except Failure Answer := .ok .done
  records : List Record := []
  trace? : Option Batch.Trace := none

/-- Remembers a report or a failure; each kind has a place of its own. -/
def remember (session : Session) : Except Failure Report → Session
  | .ok report => { session with lastReport? := some report }
  | .error failure => { session with lastFailure? := some failure }

/-- What is shown when a batch begins. -/
def opening (settings : Settings) (entries : List Entry) : List Record :=
  [.message .start
    s!"Scanning {entries.length} binaries for *{settings.scan.suffix} strings"]

/-- What is shown when a batch is done. -/
def closing (report : Report) : List Record :=
  report.entries.flatMap EntryReport.records ++
    [.message .debug report.summary,
      .message .success
        s!"Wrote {report.matched} matches across {report.entries.length} lists"]

/-- Makes the directory for the lists, if there is to be one. -/
def makeRoom (settings : Settings) (files : FileSystem) : Except Failure Unit × FileSystem :=
  match settings.batch.outputDirectory with
  | none => (.ok (), files)
  | some dir =>
    let (outcome, files) := files.makeDirectories dir
    (outcome.mapError (.outputNotWritable dir), files)

/-- Runs the batch that the settings describe, unless the session is over. -/
def ripAll (settings : Settings) (running : Bool) (files : FileSystem) :
    Except Failure Report × List Record × FileSystem :=
  if !running then (.error .cancelled, [], files)
  else
    match settings.entries with
    | .error input => (.error (.invalidPath input), [], files)
    | .ok entries =>
      match makeRoom settings files with
      | (.error failure, files) => (.error failure, [], files)
      | (.ok (), files) =>
        match Batch.run settings.scan entries none files with
        | (.error failure, _, files) => (.error failure, opening settings entries, files)
        | (.ok report, _, files) =>
          (.ok report, opening settings entries ++ closing report, files)

def step (session : Session) : Step → Reply × Session
  | .ripAll =>
    let (outcome, records, files) := ripAll session.settings session.running session.files
    ({ outcome := outcome.map .report, records }, { session with files }.remember outcome)
  | .run entries watch? =>
    let (outcome, trace, files) := Batch.run session.settings.scan entries watch? session.files
    ({ outcome := outcome.map .report, trace? := some trace },
      { session with files }.remember outcome)
  | .entry entry =>
    let (outcome, files) := Batch.processEntry session.settings.scan entry session.files
    ({ outcome := outcome.map .entry }, { session with files })
  | .read path => ({ outcome := (Batch.readInput path session.files).map .data }, session)
  | .writeList names path =>
    let (outcome, files) := Batch.writeList names path session.files
    ({ outcome := outcome.map .written }, { session with files })
  | .printReport => ({ records := (session.lastReport?.map Record.report).toList }, session)
  | .handleError =>
    ({ records := (session.lastFailure?.map Failure.records).getD [] }, session)
  | .shutdown => ({}, { session with running := false })
  | .edit edit => ({}, { session with files := edit.apply session.files })

def run (session : Session) : List Step → List Reply × Session
  | [] => ([], session)
  | step :: steps =>
    let (reply, session) := session.step step
    let (replies, session) := session.run steps
    (reply :: replies, session)

end Session

end ResourceNames
