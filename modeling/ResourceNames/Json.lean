namespace ResourceNames

/-- A document made of natural numbers, texts, arrays and objects. The fields of an object have an
order. -/
inductive Json
  | number (value : Nat)
  | text (value : String)
  | array (items : List Json)
  | object (fields : List (String × Json))

namespace Json

/-- A hexadecimal digit. -/
def hexDigit (n : Nat) : Char :=
  if n < 10 then Char.ofNat (48 + n) else Char.ofNat (87 + n)

/-- The characters that stand for one in a quoted text. Quotes, backslashes and control characters
are escaped, all others stand for themselves. -/
def escape (c : Char) : List Char :=
  if c = '"' then ['\\', '"']
  else if c = '\\' then ['\\', '\\']
  else if c = '\n' then ['\\', 'n']
  else if c = '\r' then ['\\', 'r']
  else if c = '\t' then ['\\', 't']
  else if c = '\x08' then ['\\', 'b']
  else if c = '\x0c' then ['\\', 'f']
  else if c.toNat < 32 then ['\\', 'u', '0', '0', hexDigit (c.toNat / 16), hexDigit (c.toNat % 16)]
  else [c]

def quote (text : String) : String :=
  "\"" ++ String.ofList (text.toList.flatMap escape) ++ "\""

mutual

/-- The document on one line, without blanks. -/
def compact : Json → String
  | .number value => toString value
  | .text value => quote value
  | .array items => "[" ++ compactItems items ++ "]"
  | .object fields => "\x7b" ++ compactFields fields ++ "\x7d"

def compactItems : List Json → String
  | [] => ""
  | [item] => compact item
  | item :: items => compact item ++ "," ++ compactItems items

def compactFields : List (String × Json) → String
  | [] => ""
  | [(name, value)] => quote name ++ ":" ++ compact value
  | (name, value) :: fields => quote name ++ ":" ++ compact value ++ "," ++ compactFields fields

end

/-- A new line, indented by two blanks a level. -/
def newLine (level : Nat) : String :=
  "\n" ++ String.ofList (List.replicate (2 * level) ' ')

mutual

/-- The document with a line for each item and each field; `level` is the indent of the line that
it begins on. -/
def layout (level : Nat) : Json → String
  | .number value => toString value
  | .text value => quote value
  | .array [] => "[]"
  | .array (item :: items) =>
    "[" ++ newLine (level + 1) ++ layout (level + 1) item ++ layoutItems level items
  | .object [] => "\x7b\x7d"
  | .object ((name, value) :: fields) =>
    "\x7b" ++ newLine (level + 1) ++ quote name ++ ": " ++ layout (level + 1) value ++
      layoutFields level fields

/-- The items after the first, and the end of the array. -/
def layoutItems (level : Nat) : List Json → String
  | [] => newLine level ++ "]"
  | item :: items =>
    "," ++ newLine (level + 1) ++ layout (level + 1) item ++ layoutItems level items

/-- The fields after the first, and the end of the object. -/
def layoutFields (level : Nat) : List (String × Json) → String
  | [] => newLine level ++ "\x7d"
  | (name, value) :: fields =>
    "," ++ newLine (level + 1) ++ quote name ++ ": " ++ layout (level + 1) value ++
      layoutFields level fields

end

def pretty (document : Json) : String :=
  layout 0 document

end Json

end ResourceNames
