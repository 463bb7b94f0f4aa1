import ResourceNames.Settings
import ResourceNames.Toml.Diagnosis
import ResourceNames.Toml.Document
import ResourceNames.Toml.Writer

namespace ResourceNames

namespace Toml

/-- What a value is taken for where a record is expected: named fields in their order, or unnamed
items in theirs. -/
inductive Record
  | named (fields : Fields)
  | unnamed (items : List Value)

/-- Tables have named fields and arrays unnamed ones. A date or a time has a field of its own, whose
name no setting has. -/
def Value.record? : Value → Option Record
  | .braced _ fields => some (.named fields)
  | .table _ fields => some (.named fields)
  | .moment => some (.named [("", .moment)])
  | .array items => some (.unnamed items)
  | .tables latestFirst => some (.unnamed (latestFirst.reverse.map (.table .headed)))
  | _ => none

/-- Whole numbers from zero on. -/
def Value.nat (value : Value) : Except Diagnosis Nat :=
  match value with
  | .integer (.ofNat n) => .ok n
  | .integer _ => .error (.invalidValue value.shown "usize")
  | _ => .error (.invalidType value.shown "usize")

def Value.text (expected : String) (value : Value) : Except Diagnosis String :=
  match value with
  | .string text => .ok text
  | _ => .error (.invalidType value.shown expected)

def Value.path (value : Value) : Except Diagnosis Path :=
  (value.text "path string").map Path.mk

def Value.paths (value : Value) : Except Diagnosis (List Path) :=
  match value with
  | .array items => items.mapM Value.path
  | .tables latestFirst =>
    latestFirst.reverse.mapM fun fields => Value.path (.table .headed fields)
  | _ => .error (.invalidType value.shown "a sequence")

/-- A field that must be there. -/
def require {α : Type} (name : String) (field : Option α) : Except Diagnosis α :=
  match field with
  | some value => .ok value
  | none => .error (.missingField name)

/-- Reads the fields of a record in the order of the document, so that the first one at fault
decides; `read` passes over names that it does not know. -/
def readFields {σ : Type} (read : String → Value → σ → Except Diagnosis σ) (start : σ)
    (fields : Fields) : Except Diagnosis σ :=
  fields.foldlM (fun state (name, value) => read name value state) start

end Toml

open Toml

namespace ScanRule

/-- The fields of a scan rule that have been read. -/
structure Gathered where
  minLength : Option Nat := none
  suffix : Option String := none

def Gathered.read (name : String) (value : Value) (p : Gathered) : Except Diagnosis Gathered := do
  if name = "min_length" then return { p with minLength := ← value.nat }
  else if name = "suffix" then return { p with suffix := ← value.text "a string" }
  else return p

def ofValue (value : Value) : Except Diagnosis ScanRule := do
  match value.record? with
  | none => .error (.invalidType value.shown "struct ScanConfig")
  | some (.named fields) =>
    let p ← readFields Gathered.read {} fields
    return {
      minLength := ← require "min_length" p.minLength
      suffix := ← require "suffix" p.suffix }
  | some (.unnamed []) => .error (.invalidLength 0 "struct ScanConfig with 2 elements")
  | some (.unnamed (first :: rest)) =>
    let minLength ← first.nat
    match rest with
    | [] => .error (.invalidLength 1 "struct ScanConfig with 2 elements")
    | second :: _ => return { minLength, suffix := ← second.text "a string" }

end ScanRule

namespace BatchRule

/-- The fields of a batch rule that have been read. -/
structure Gathered where
  inputs : Option (List Path) := none
  outputExtension : Option String := none
  outputDirectory : Option Path := none

def Gathered.read (name : String) (value : Value) (p : Gathered) : Except Diagnosis Gathered := do
  if name = "inputs" then return { p with inputs := ← value.paths }
  else if name = "output_extension" then
    return { p with outputExtension := ← value.text "a string" }
  else if name = "output_directory" then return { p with outputDirectory := ← value.path }
  else return p

def ofValue (value : Value) : Except Diagnosis BatchRule := do
  match value.record? with
  | none => .error (.invalidType value.shown "struct BatchConfig")
  | some (.named fields) =>
    let p ← readFields Gathered.read {} fields
    return ⟨← require "inputs" p.inputs, ← require "output_extension" p.outputExtension,
      p.outputDirectory⟩
  | some (.unnamed []) => .error (.invalidLength 0 "struct BatchConfig with 3 elements")
  | some (.unnamed (first :: rest)) =>
    let inputs ← first.paths
    match rest with
    | [] => .error (.invalidLength 1 "struct BatchConfig with 3 elements")
    | second :: others =>
      let outputExtension ← second.text "a string"
      match others with
      | [] => return ⟨inputs, outputExtension, none⟩
      | third :: _ => return ⟨inputs, outputExtension, some (← third.path)⟩

end BatchRule

namespace Settings

/-- The parts of the settings that have been read. -/
structure Gathered where
  scan : Option ScanRule := none
  batch : Option BatchRule := none

def Gathered.read (name : String) (value : Value) (p : Gathered) : Except Diagnosis Gathered := do
  if name = "scan" then return { p with scan := ← ScanRule.ofValue value }
  else if name = "batch" then return { p with batch := ← BatchRule.ofValue value }
  else return p

/-- The settings that the fields of a document give; others are passed over. -/
def ofFields (fields : Fields) : Except Diagnosis Settings := do
  let p ← readFields Gathered.read {} fields
  return ⟨← require "scan" p.scan, ← require "batch" p.batch⟩

/-- The settings that the text of a document gives. -/
def ofText (text : String) : Except Diagnosis Settings :=
  match Toml.parse text with
  | none => .error .illFormed
  | some fields => ofFields fields

/-- Why there is no document that gives some settings: their least length is beyond the integers of
a document, one of their paths is no text, or a row of quotes in one of their texts cannot be
counted. -/
inductive Obstacle
  | minLength
  | path
  | quotes
deriving DecidableEq, Repr

def paths (settings : Settings) : List Path :=
  settings.batch.inputs ++ settings.batch.outputDirectory.toList

def texts (settings : Settings) : List String :=
  settings.scan.suffix :: settings.batch.inputs.map Path.text ++
    settings.batch.outputExtension :: (settings.batch.outputDirectory.map Path.text).toList

/-- The text of a document that gives the settings. -/
def toText (settings : Settings) : Except Obstacle String :=
  if maxInteger < settings.scan.minLength then .error .minLength
  else if !settings.paths.all fun path => path.text?.isSome then .error .path
  else if !settings.texts.all fun text => (features text.toList).countable then .error .quotes
  else .ok (String.ofList (document settings))
where
  document (settings : Settings) : List Char :=
    "[scan]\nmin_length = ".toList ++ (toString settings.scan.minLength).toList ++
    "\nsuffix = ".toList ++ writeText settings.scan.suffix.toList ++
    "\n\n[batch]\ninputs = ".toList ++
    writeTexts (settings.batch.inputs.map fun input => input.text.toList) ++
    "\noutput_extension = ".toList ++ writeText settings.batch.outputExtension.toList ++
    (match settings.batch.outputDirectory with
      | none => []
      | some dir => "\noutput_directory = ".toList ++ writeText dir.text.toList) ++
    ['\n']

end Settings

end ResourceNames
