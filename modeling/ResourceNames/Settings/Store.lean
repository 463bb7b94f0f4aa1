import ResourceNames.Failure
import ResourceNames.Settings.Document

namespace ResourceNames.Settings

/-- Whether a batch can be run with the settings. The directory for the lists may be missing, but
not the one that it stands in. -/
def check (settings : Settings) (fs : FileSystem) : Except Problem Unit :=
  if settings.scan.minLength = 0 then .error .zeroMinLength
  else if settings.scan.suffix = "" then .error .emptySuffix
  else if settings.batch.inputs = [] then .error .noInputs
  else if settings.batch.outputExtension = "" then .error .emptyExtension
  else
    match settings.batch.outputDirectory.bind Path.parent? with
    | none => .ok ()
    | some parent =>
      if parent.raw ≠ [] ∧ !fs.has parent then .error (.missingParent parent) else .ok ()

/-- Reads settings from a file. -/
def load (file : Path) (fs : FileSystem) : Except Problem Settings :=
  if !fs.has file then .error (.fileMissing file)
  else
    match fs.readText file with
    | .error cause => .error (.fileUnreadable file cause)
    | .ok text =>
      match ofText text with
      | .error diagnosis => .error (.fileIllFormed file diagnosis)
      | .ok settings => .ok settings

/-- The files that are looked for in the working directory when none is named, first choice
first. -/
def usualFiles : List Path :=
  ["seqrip.toml", "seqrip.config.toml", ".seqrip.toml"].map Path.mk

/-- Reads settings from the file named, else from the first of the usual files that is there. -/
def loadOrStandard (file? : Option Path) (fs : FileSystem) : Except Problem Settings :=
  match file?.or (usualFiles.find? fs.has) with
  | some file => load file fs
  | none => .ok standard

/-- Writes settings to a file. There is no answer if quotes in a row cannot be counted. -/
def save? (settings : Settings) (file : Path) (fs : FileSystem) :
    Option (Except Problem Unit × FileSystem) :=
  match settings.toText with
  | .error .quotes => none
  | .error .minLength => some (.error .minLengthTooLarge, fs)
  | .error .path => some (.error .pathNotText, fs)
  | .ok text =>
    let (outcome, fs) := fs.write file (Text.bytes text)
    some (outcome.mapError (.fileUnwritable file), fs)

/-- The text of the standard settings, as a start for a file of one's own. -/
def sample : String :=
  standard.toText.toOption.getD ""

/-- Writes the standard settings to a file. -/
def writeSample (file : Path) (fs : FileSystem) : Except Failure Unit × FileSystem :=
  let (outcome, fs) := fs.write file (Text.bytes sample)
  (outcome.mapError .io, fs)

end ResourceNames.Settings
