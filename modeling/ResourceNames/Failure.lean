import ResourceNames.FileSystem.Cause
import ResourceNames.Path
import ResourceNames.Toml.Diagnosis

namespace ResourceNames

/-- What is wrong with settings or with the file that they are kept in. -/
inductive Problem
  | zeroMinLength
  | emptySuffix
  | noInputs
  | emptyExtension
  | missingParent (parent : Path)
  | fileMissing (file : Path)
  | fileUnreadable (file : Path) (cause : Cause)
  | fileIllFormed (file : Path) (diagnosis : Toml.Diagnosis)
  | illFormed (diagnosis : Toml.Diagnosis)
  | minLengthTooLarge
  | pathNotText
  | fileUnwritable (file : Path) (cause : Cause)
  | described (text : String)
deriving DecidableEq, Repr

def Problem.message : Problem → String
  | .zeroMinLength => "Minimum string length must be greater than 0"
  | .emptySuffix => "Suffix must not be empty"
  | .noInputs => "At least one input file must be specified"
  | .emptyExtension => "Output extension must not be empty"
  | .missingParent parent => s!"Parent directory does not exist: {parent.text}"
  | .fileMissing file => s!"Configuration file not found: {file.text}"
  | .fileUnreadable file cause => s!"Failed to read config file {file.text}: {cause.message}"
  | .fileIllFormed file diagnosis =>
    s!"Failed to parse config file {file.text}: {diagnosis.message}"
  | .illFormed diagnosis => diagnosis.message
  | .minLengthTooLarge => "Failed to serialize config: out-of-range value for u64 type"
  | .pathNotText => "Failed to serialize config: path contains invalid UTF-8 characters"
  | .fileUnwritable file cause => s!"Failed to write config file {file.text}: {cause.message}"
  | .described text => text

/-- Why the program cannot do what it was asked for. Paths are kept as they are shown. -/
inductive Failure
  | io (cause : Cause)
  | inputNotFound (path : String)
  | inputUnreadable (path : String) (cause : Cause)
  | outputNotWritable (path : String) (cause : Cause)
  | config (problem : Problem)
  | invalidPath (path : String)
  | cancelled
deriving DecidableEq, Repr

namespace Failure

def message : Failure → String
  | .io cause => s!"IO operation failed: {cause.message}"
  | .inputNotFound path => s!"Input file not found: {path}"
  | .inputUnreadable path cause => s!"Failed to read input file {path}: {cause.message}"
  | .outputNotWritable path cause => s!"Failed to write output file {path}: {cause.message}"
  | .config problem => s!"Configuration error: {problem.message}"
  | .invalidPath path => s!"Path validation failed: {path}"
  | .cancelled => "Operation was cancelled by user"

/-- The message that is meant for the user. -/
def userMessage : Failure → String
  | .inputNotFound path => s!"Input binary not found: {path}"
  | .inputUnreadable path cause => s!"Could not read input binary {path}: {cause.message}"
  | .outputNotWritable path cause => s!"Could not write output file {path}: {cause.message}"
  | .invalidPath path => s!"Invalid file path: {path}"
  | other => other.message

/-- What the user can do about it. -/
def suggestion? : Failure → Option String
  | .inputNotFound _ => some <|
    "Copy the game executables into the working directory under their variant names " ++
    "(e.g. AePc, AoPsx), or pass the binaries to scan as arguments."
  | .inputUnreadable _ _ => some
    "Ensure the input file is a regular file and you have permission to read it."
  | .outputNotWritable _ _ => some <|
    "Ensure the output directory exists and is writable, or choose another one with " ++
    "--output-dir."
  | .config _ => some <|
    "Check your configuration file syntax, or run with --generate-config to write a fresh " ++
    "sample."
  | _ => none

/-- The cause behind a failure of the file system. -/
def cause? : Failure → Option Cause
  | .io cause => some cause
  | .inputUnreadable _ cause => some cause
  | .outputNotWritable _ cause => some cause
  | _ => none

/-- The code with which the program ends. -/
def exitCode : Failure → Nat
  | .cancelled => 130
  | .inputNotFound _ => 3
  | .inputUnreadable _ _ => 4
  | .outputNotWritable _ _ => 5
  | _ => 1

end Failure

end ResourceNames
