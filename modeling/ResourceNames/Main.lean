import ResourceNames.Command.Survey
import Std.Time.DateTime.Timestamp

namespace ResourceNames.Machine

/-- The number under which the operating system knows an error. -/
def causeOf : IO.Error → Cause
  | .alreadyExists _ number _
  | .invalidArgument _ number _
  | .permissionDenied _ number _
  | .resourceExhausted _ number _
  | .inappropriateType _ number _
  | .noSuchThing _ number _
  | .interrupted _ number _
  | .noFileOrDirectory _ number _
  | .otherError number _
  | .resourceBusy number _
  | .resourceVanished number _
  | .unsupportedOperation number _
  | .hardwareFault number _
  | .unsatisfiedConstraints number _
  | .illegalOperation number _
  | .protocolError number _
  | .timeExpired number _ => .system number.toNat
  | .unexpectedEof => .described "end of file"
  | .userError reason => .described reason

/-- Names that are no text cannot be asked for here and are taken as they are shown. -/
def textOf (l : Location) : String :=
  "/" ++ "/".intercalate (l.map Text.shown)

/-- Only a directory can be opened under a name that ends in a slash, and only if reading it is
allowed. -/
def lookThrough (l : Location) : IO (Option Node) := do
  match ← (IO.FS.Handle.mk (textOf l ++ "/") .read).toBaseIO with
  | .ok _ => return some .directory
  | .error error =>
    match causeOf error with
    | .notFound => return none
    | .permissionDenied => return some .directory
    | _ => return some (.special none none)

def lookForRoom (l : Location) : IO (Option Node) := do
  return (← lookThrough l).filter (· = .directory)

def lookInto (l : Location) : IO (Option Node) := do
  match ← lookThrough l with
  | none => return none
  | some .directory => return some .directory
  | some _ =>
    match ← (IO.FS.readBinFile (textOf l)).toBaseIO with
    | .ok content => return some (.file content.toList)
    | .error error => return some (.special (some (causeOf error)) (some (causeOf error)))

def inquire (look : Location → IO (Option Node)) (fs : FileSystem) (l : Location) :
    IO FileSystem := do
  match fs.node? l with
  | some (.file _) => return fs
  | _ => return fs.learn l (← look l)

/-- Finds out what a survey asks for. -/
def explore (fs : FileSystem) (survey : Survey) : IO FileSystem := do
  let fs ← survey.passages.foldlM (inquire lookThrough) fs
  let fs ← survey.rooms.foldlM (inquire lookForRoom) fs
  survey.contents.foldlM (inquire lookInto) fs

/-- All of the files that a run has to know. -/
def gather (words : List RawText) : IO FileSystem := do
  let fs := FileSystem.bare (Path.mk (toString (← IO.currentDir))).names
  match Arguments.parse words with
  | .error _ => return fs
  | .ok arguments =>
    let fs ← explore fs (.ofArguments arguments fs)
    explore fs (.ofLoaded arguments fs)

/-- Nothing is held back when this returns, so that a refusal is seen. -/
def put (l : Location) : Node → IO Unit
  | .directory => IO.FS.createDir (textOf l)
  | .file content => do
    let file ← IO.FS.Handle.mk (textOf l) .write
    file.write ⟨content.toArray⟩
    file.flush
  | .special _ _ => return

/-- Brings about what a run has changed. The machine may still refuse a file. -/
def commit (before after : FileSystem) : IO (Except Failure Unit) := do
  for (l, node) in after.catalog.entries do
    if before.node? l != some node then
      if let .error error ← (put l node).toBaseIO then
        return .error (.outputNotWritable (textOf l) (causeOf error))
  return .ok ()

def spanSince (start : Nat) : IO Span :=
  return .ofNanoseconds ((← IO.monoNanosNow) - start)

/-- How long it takes to process an entry. -/
def spanOf (rule : ScanRule) (before : FileSystem) (report : EntryReport) : IO Span := do
  let start ← IO.monoNanosNow
  discard <| IO.lazyPure fun _ =>
    Batch.processEntry rule ⟨report.input, report.output⟩ before
  spanSince start

def spansOf (before : FileSystem) : Record → IO (List Span)
  | .report report => report.entries.mapM (spanOf report.rule before)
  | _ => return []

def now : IO Timestamp := do
  let sinceEpoch := (← Std.Time.Timestamp.now).toNanosecondsSinceUnixEpoch.toInt
  return ⟨sinceEpoch.fdiv Span.second, (sinceEpoch.fmod Span.second).toNat⟩

/-- Runs the program on the files of the machine. -/
def run (words : List String) : IO UInt32 := do
  let start ← IO.monoNanosNow
  let words := words.map Text.bytes
  let before ← gather words
  let planned ← IO.lazyPure fun _ => Command.run words before
  let spans ← planned.records.mapM (spansOf before)
  let ending :=
    match ← commit before planned.files with
    | .ok () => planned
    | .error failure => .ofFailure failure planned.console [] before
  let taken ← spanSince start
  let moment ← now
  let output := ending.output ⟨fun i => spans.flatten.getD i ⟨0, 0⟩, taken, moment, moment⟩
  (← IO.getStdout).putStr output.out
  (← IO.getStderr).putStr output.err
  return ending.exitCode.toUInt32

end ResourceNames.Machine

def main (words : List String) : IO UInt32 :=
  ResourceNames.Machine.run words
