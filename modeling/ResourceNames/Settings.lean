import ResourceNames.Extraction
import ResourceNames.FileSystem

namespace ResourceNames

/-- Which files are read and where the lists go. Without a directory each list goes beside its
input. -/
structure BatchRule where
  inputs : List Path
  outputExtension : String
  outputDirectory : Option Path
deriving DecidableEq, Repr

structure Settings where
  scan : ScanRule
  batch : BatchRule
deriving DecidableEq, Repr

/-- A file to be read, and the file to which its list is written. -/
structure Entry where
  input : Path
  output : Path
deriving DecidableEq, Repr

/-- The list has the name of its input with the extension behind a dot, whatever the name is. -/
def Entry.ofInput (input : Path) (extension : String) : Entry :=
  ⟨input, ⟨input.raw ++ Path.dot :: Text.bytes extension⟩⟩

namespace Settings

/-- The builds of the two games, in the order in which they are scanned. -/
def knownInputs : List Path :=
  ["AePc", "AePcDemo", "AePsxCd1", "AePsxCd2", "AePsxDemo", "AoPc", "AoPcDemo", "AoPsx",
    "AoPsxDemo"].map Path.mk

def standard : Settings where
  scan := {}
  batch := ⟨knownInputs, "txt", none⟩

/-- The entry of one input, or the input if the name of its list is not one. -/
def entry? (settings : Settings) (input : Path) : Except Path Entry :=
  let beside := Entry.ofInput input settings.batch.outputExtension
  match settings.batch.outputDirectory with
  | none => .ok beside
  | some dir =>
    match beside.output.fileName? with
    | none => .error input
    | some name => .ok ⟨input, dir.join ⟨name⟩⟩

/-- The entries of all inputs, or the first input that has none. -/
def entries (settings : Settings) : Except Path (List Entry) :=
  settings.batch.inputs.mapM settings.entry?

end Settings

/-- What a caller wants different from the settings. An empty list of inputs is no wish. -/
structure Overrides where
  inputs : Option (List Path) := none
  minLength : Option Nat := none
  suffix : Option String := none
  outputDirectory : Option Path := none
deriving DecidableEq, Repr

def Settings.merge (settings : Settings) (wishes : Overrides) : Settings where
  scan :=
    { minLength := wishes.minLength.getD settings.scan.minLength
      suffix := wishes.suffix.getD settings.scan.suffix }
  batch :=
    { inputs :=
        match wishes.inputs with
        | some (input :: inputs) => input :: inputs
        | _ => settings.batch.inputs
      outputExtension := settings.batch.outputExtension
      outputDirectory := wishes.outputDirectory.or settings.batch.outputDirectory }

end ResourceNames
