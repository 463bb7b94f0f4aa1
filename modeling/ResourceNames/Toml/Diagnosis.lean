import ResourceNames.Decimal.Shortest
import ResourceNames.Text.Quoted
import ResourceNames.Toml.Value

namespace ResourceNames.Toml

/-- What is wrong with a document: its text, or a value that is not the one expected. -/
inductive Diagnosis
  | illFormed
  | missingField (name : String)
  | invalidType (found expected : String)
  | invalidValue (found expected : String)
  | invalidLength (length : Nat) (expected : String)
deriving DecidableEq, Repr

/-- A value as a diagnosis names it. -/
def Value.shown : Value → String
  | .string text => "string " ++ Text.quote text
  | .integer value => s!"integer \x60{value}\x60"
  | .float value => s!"floating point \x60{value.text}\x60"
  | .boolean value => s!"boolean \x60{value}\x60"
  | .moment => "map"
  | .array _ => "sequence"
  | .braced _ _ => "map"
  | .table _ _ => "map"
  | .tables _ => "sequence"

namespace Diagnosis

def message : Diagnosis → String
  | .illFormed => "the text is not well formed"
  | .missingField name => s!"missing field \x60{name}\x60"
  | .invalidType found expected => s!"invalid type: {found}, expected {expected}"
  | .invalidValue found expected => s!"invalid value: {found}, expected {expected}"
  | .invalidLength length expected => s!"invalid length {length}, expected {expected}"

end Diagnosis

end ResourceNames.Toml
