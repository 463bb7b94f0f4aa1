import ResourceNames.Arguments
import ResourceNames.Arguments.Help
import ResourceNames.Session

namespace ResourceNames.Command

/-- How a run of the program ends: with which code, what it has to show and where, and the files. -/
structure Ending where
  exitCode : Nat
  console : Console
  records : List Record
  files : FileSystem

/-- The console for all that is said before there is a session. -/
def earlyConsole (mode : Mode) : Console :=
  ⟨mode, 0, false⟩

/-- Ends with a failure that is shown on a console. -/
def Ending.ofFailure (failure : Failure) (console : Console) (shown : List Record)
    (files : FileSystem) : Ending :=
  ⟨failure.exitCode, console, shown ++ failure.records, files⟩

/-- Ends before any work is done. -/
def Ending.ofHalt (halt : Arguments.Halt) (files : FileSystem) : Ending :=
  let console := earlyConsole .human
  match halt with
  | .help => ⟨0, console, [.line Arguments.helpText], files⟩
  | .version => ⟨0, console, [.line s!"{Arguments.program} {Arguments.programVersion}"], files⟩
  | .misuse misuse =>
    ⟨2, console, [.errorLine misuse.streamed, .errorLine Arguments.helpHint], files⟩

/-- The file that settings to start from are written to: what is shown of the path that is given
for settings, taken for a path itself. -/
def sampleFile (arguments : Arguments) : Path :=
  .mk ((arguments.config.map Path.text).getD "seqrip.toml")

/-- Writes a file with settings to start from. -/
def generate (arguments : Arguments) (files : FileSystem) : Ending :=
  let file := sampleFile arguments
  let console := earlyConsole arguments.outputMode
  match Settings.writeSample file files with
  | (.ok (), files) =>
    ⟨0, console,
      [.line s!"Generated sample configuration file: {file.text}",
        .line "",
        .line "To use this configuration:",
        .line s!"  {Arguments.program} --config {file.text}"], files⟩
  | (.error failure, files) =>
    ⟨1, console,
      .errorLine s!"Failed to generate configuration file: {failure.userMessage}" ::
        failure.suggestion?.toList.map fun text => .errorLine s!"Suggestion: {text}", files⟩

/-- The code of a program that breaks down. One that is built to abort ends by a signal instead. -/
def breakdownCode : Nat := 101

/-- What the program says of a path that should be text when it breaks down. The place in the
program that is told with it is left out. -/
def breakdownMessage : String :=
  "called `Result::unwrap()` on an `Err` value: " ++
    "Error(\"path contains invalid UTF-8 characters\", line: 0, column: 0)"

/-- Shows what a batch would do. The program breaks down at a plan that is to be a document and is
none. -/
def plan (settings : Settings) (console : Console) (files : FileSystem) : Ending :=
  let header := Record.header "DRY RUN - no files will be read or written"
  match Plan.ofSettings settings files with
  | .error input => .ofFailure (.invalidPath input) console [header] files
  | .ok plan =>
    if console.mode = .json ∧ plan.json? = none then
      ⟨breakdownCode, console, [header, .errorLine breakdownMessage], files⟩
    else ⟨0, console, [header, .plan plan], files⟩

/-- Runs the batch and shows the report. -/
def rip (settings : Settings) (console : Console) (files : FileSystem) : Ending :=
  match Session.ripAll settings true files with
  | (.error failure, records, files) => .ofFailure failure console records files
  | (.ok report, records, files) => ⟨0, console, records ++ [.report report], files⟩

/-- Does what the arguments ask for. -/
def execute (arguments : Arguments) (files : FileSystem) : Ending :=
  if arguments.generateConfig then generate arguments files
  else
    match arguments.settings files with
    | .error problem =>
      .ofFailure (.config problem) (earlyConsole arguments.outputMode) [] files
    | .ok settings =>
      let console := ⟨arguments.outputMode, arguments.verbosity, arguments.quiet⟩
      if arguments.dryRun then plan settings console files else rip settings console files

/-- Runs the program with the words of a command line. -/
def run (words : List RawText) (files : FileSystem) : Ending :=
  match Arguments.parse words with
  | .error halt => .ofHalt halt files
  | .ok arguments => execute arguments files

/-- What the program prints. -/
def Ending.output (ending : Ending) (clock : Clock) : Output :=
  ending.console.print clock ending.records

end ResourceNames.Command
