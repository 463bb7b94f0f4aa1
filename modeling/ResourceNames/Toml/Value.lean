import ResourceNames.Decimal.Binary64

namespace ResourceNames.Toml

/-- How a table has come into a document: under a header of its own, on the way to a deeper
header, or on the way of a dotted key. -/
inductive TableKind
  | headed
  | implied
  | dotted
deriving DecidableEq, Repr

/-- A value of a document, tables included. Of dates and times only the presence is kept. A table
written in braces is `closed`, unless dotted keys inside braces have made it. A list of tables with
headers has the latest one first. -/
inductive Value
  | string (text : String)
  | integer (value : Int)
  | float (value : Binary64)
  | boolean (value : Bool)
  | moment
  | array (items : List Value)
  | braced (closed : Bool) (fields : List (String × Value))
  | table (kind : TableKind) (fields : List (String × Value))
  | tables (latestFirst : List (List (String × Value)))
deriving Repr

/-- Keys with their values, in the order in which they came. -/
abbrev Fields := List (String × Value)

namespace Fields

def get? (fields : Fields) (key : String) : Option Value :=
  (fields.find? fun field => field.1 == key).map Prod.snd

/-- Gives a key its value: in its old place if it had one, and behind all others if not. -/
def set (fields : Fields) (key : String) (value : Value) : Fields :=
  if fields.any fun field => field.1 == key then
    fields.map fun field => if field.1 == key then (key, value) else field
  else fields ++ [(key, value)]

def remove (fields : Fields) (key : String) : Fields :=
  fields.filter fun field => field.1 != key

/-- Adds a key that is not there yet. -/
def add? (fields : Fields) (key : String) (value : Value) : Option Fields :=
  if fields.any fun field => field.1 == key then none else some (fields ++ [(key, value)])

/-- Changes the table to which headers or dotted keys lead, and gives what `change` found there.
Tables that are missing on the way are made, and of a list of tables the latest one is meant. Dotted
keys do not reach into a table with a header of its own. `change` learns whether the table that it
changes is a dotted one. -/
def descend {α : Type} (dotted : Bool) (change : Bool → Fields → Option (α × Fields)) :
    List String → Bool → Fields → Option (α × Fields)
  | [], isDotted, fields => change isDotted fields
  | key :: path, _, fields =>
    match fields.get? key with
    | none => do
      let (result, inner) ← descend dotted change path dotted []
      some (result, fields.set key (.table (if dotted then .dotted else .implied) inner))
    | some (.table kind inner) =>
      if dotted ∧ kind = .headed then none
      else do
        let (result, inner) ← descend dotted change path (kind = .dotted) inner
        some (result, fields.set key (.table kind inner))
    | some (.tables []) => none
    | some (.tables (latest :: earlier)) => do
      let (result, inner) ← descend dotted change path false latest
      some (result, fields.set key (.tables (inner :: earlier)))
    | some _ => none

/-- Adds a value under a dotted key. A table that has come from a header is not reopened, nor is
one that dotted keys have made extended by a plain key. -/
def define? (fields : Fields) (path : List String) (key : String) (value : Value) :
    Option Fields :=
  (descend true (fun isDotted inner =>
    if isDotted = path.isEmpty then none
    else (inner.add? key value).map fun inner => ((), inner)) path false fields).map Prod.snd

/-- Adds a value under a dotted key in braces. A table in braces is complete and is not
extended. -/
def defineBraced? : List String → String → Value → Fields → Option Fields
  | [], key, value, fields => fields.add? key value
  | step :: path, key, value, fields =>
    match fields.get? step with
    | none => do
      let inner ← defineBraced? path key value []
      some (fields.set step (.braced false inner))
    | some (.braced false inner) => do
      let inner ← defineBraced? path key value inner
      some (fields.set step (.braced false inner))
    | some _ => none

end Fields

end ResourceNames.Toml
