import ResourceNames.Text

namespace ResourceNames.LiteralList

/-- One line of a list: the value between double quotes, unchanged, then a comma. -/
def line (value : String) : String :=
  "\"" ++ value ++ "\",\n"

def render (values : List String) : String :=
  String.join (values.map line)

/-- A value with a quote or a backslash does not read back as the literal it is written as. -/
def needsEscaping (value : String) : Bool :=
  value.contains '"' || value.contains '\\'

/-- The pieces in which a line reaches a sink. -/
def pieces (value : String) : List (List UInt8) :=
  [Text.bytes "\"", Text.bytes value, Text.bytes "\",\n"]

end ResourceNames.LiteralList
