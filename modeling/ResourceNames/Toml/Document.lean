import ResourceNames.Toml.Moment
import ResourceNames.Toml.Number
import ResourceNames.Toml.Quoted
import ResourceNames.Toml.Value

namespace ResourceNames.Toml

/-- Keys have fewer parts than this, and values are nested less deeply. -/
def depthLimit : Nat := 80

def isBareKey (c : Char) : Bool :=
  isDigit c || ('a' ≤ c && c ≤ 'z') || ('A' ≤ c && c ≤ 'Z') || c = '-' || c = '_'

/-- One part of a key: a text on one line, or letters, digits, dashes and underscores. -/
def keyPart (text : List Char) : Option (String × List Char) :=
  (chars text).map fun (chars, rest) => (String.ofList chars, rest)
where
  chars : List Char → Option (List Char × List Char)
    | '"' :: rest => basic rest
    | '\'' :: rest => literal rest
    | text =>
      if (text.takeWhile isBareKey).isEmpty then none
      else some (text.takeWhile isBareKey, text.dropWhile isBareKey)

/-- Puts up with blanks on both sides. -/
def spaced {α : Type} (reader : Reader α) : Reader α := fun text =>
  (reader (skipBlanks text)).map fun (result, rest) => (result, skipBlanks rest)

/-- A key, as its parts between dots. -/
def key : Reader (List String) :=
  separated (spaced keyPart) '.' (depthLimit - 1)

/-- A value that contains no others. -/
def scalar (text : List Char) : Option (Value × List Char) :=
  match text with
  | '"' :: _ => (quoted text).map fun (text, rest) => (.string text, rest)
  | '\'' :: _ => (quoted text).map fun (text, rest) => (.string text, rest)
  | 't' :: 'r' :: 'u' :: 'e' :: rest => some (.boolean true, rest)
  | 'f' :: 'a' :: 'l' :: 's' :: 'e' :: rest => some (.boolean false, rest)
  | _ =>
    match moment? text with
    | some rest => some (.moment, rest)
    | none =>
      match float text with
      | some (value, rest) => some (.float value, rest)
      | none => (integer text).map fun (value, rest) => (.integer value, rest)

/-- The items of an array, from behind its opening bracket. They may stand on lines of their own,
with comments, and a comma may follow the last. There are at most `bound` of them. -/
def array (bound : Nat) (item : Reader Value) (text : List Char) : Option (Value × List Char) :=
  let element : Reader Value := fun text =>
    (item (skipGap false text)).map fun (value, rest) => (value, skipGap false rest)
  let (items, rest) := (separated element ',' bound text).getD ([], text)
  let rest := if items.isEmpty then rest else (expect? ',' rest).getD rest
  (expect? ']' (skipGap false rest)).map fun rest => (.array items, rest)

/-- A key with its value: the parts that lead to it, its last part and the value. -/
def pair (item : Reader Value) (text : List Char) :
    Option ((List String × String × Value) × List Char) := do
  let (parts, rest) ← key text
  let rest ← expect? '=' rest
  let (value, rest) ← item (skipBlanks rest)
  some ((parts.dropLast, parts.getLastD "", value), rest)

/-- The pairs of a table in braces, at most `bound`, from behind the opening one, all on one
line. -/
def braced (bound : Nat) (item : Reader Value) (text : List Char) :
    Option (Value × List Char) := do
  let field : Reader (List String × String × Value) := fun text =>
    (pair item text).map fun (found, rest) => (found, skipBlanks rest)
  let (pairs, rest) := (separated field ',' bound text).getD ([], text)
  let rest ← expect? '}' (skipBlanks rest)
  let fields ← pairs.foldlM (fun fields (path, last, value) =>
    Fields.defineBraced? path last value fields) []
  some (.braced true fields, rest)

/-- A value in which others are nested at most `depth` deep, and at most `bound` side by side. -/
def value (bound : Nat) : (depth : Nat) → Reader Value
  | 0, text => scalar text
  | depth + 1, '[' :: rest => array bound (value bound depth) rest
  | depth + 1, '{' :: rest => braced bound (value bound depth) rest
  | _ + 1, text => scalar text

/-- A header: the path of the table that it opens, and whether that is one of a list of tables. -/
structure Header where
  path : List String
  repeated : Bool

/-- A document read up to some line: the tables that are complete, and the one that is open. -/
structure Draft where
  complete : Fields
  header : Option Header
  fields : Fields

namespace Draft

def start : Draft := ⟨[], none, []⟩

/-- Puts the open table in its place among the others. -/
def close? (draft : Draft) : Option Fields :=
  match draft.header with
  | none => some draft.fields
  | some header =>
    let last := header.path.getLastD ""
    (Fields.descend false (fun _ parent =>
      if header.repeated then
        match parent.get? last with
        | some (.tables earlier) =>
          some ((), parent.set last (.tables (draft.fields :: earlier)))
        | _ => none
      else (parent.add? last (.table .headed draft.fields)).map fun parent => ((), parent))
      header.path.dropLast false draft.complete).map Prod.snd

/-- Opens a table. One that deeper headers have implied keeps what it holds; any other with the
same name is in the way. -/
def openTable? (draft : Draft) (path : List String) : Option Draft := do
  let complete ← draft.close?
  let last := path.getLastD ""
  let (fields, complete) ← Fields.descend false (fun _ parent =>
    match parent.get? last with
    | none => some ([], parent)
    | some (.table .implied fields) => some (fields, parent.remove last)
    | some _ => none) path.dropLast false complete
  some ⟨complete, some ⟨path, false⟩, fields⟩

/-- Opens the next one of a list of tables. -/
def openRepeated? (draft : Draft) (path : List String) : Option Draft := do
  let complete ← draft.close?
  let last := path.getLastD ""
  let (_, complete) ← Fields.descend false (fun _ parent =>
    match parent.get? last with
    | none => some ((), parent.set last (.tables []))
    | some (.tables _) => some ((), parent)
    | some _ => none) path.dropLast false complete
  some ⟨complete, some ⟨path, true⟩, []⟩

def define? (draft : Draft) (path : List String) (last : String) (value : Value) :
    Option Draft := do
  some { draft with fields := ← draft.fields.define? path last value }

end Draft

/-- A header, from behind its first bracket, and what it makes of the document. -/
def header? (draft : Draft) : List Char → Option (Draft × List Char)
  | '[' :: rest => do
    let (path, rest) ← key rest
    let rest ← expect? ']' (← expect? ']' rest)
    some (← draft.openRepeated? path, rest)
  | rest => do
    let (path, rest) ← key rest
    let rest ← expect? ']' rest
    some (← draft.openTable? path, rest)

/-- What stands on a line besides blanks and a comment. -/
def expression? (bound : Nat) (draft : Draft) : List Char → Option (Draft × List Char)
  | '#' :: rest => some (draft, '#' :: rest)
  | '\n' :: rest => some (draft, '\n' :: rest)
  | '\r' :: rest => some (draft, '\r' :: rest)
  | '[' :: rest => header? draft rest
  | text => do
    let ((path, last, value), rest) ← pair (value bound (depthLimit - 1)) text
    some (← draft.define? path last value, rest)

/-- Reads line after line; every line takes at least one character. -/
def lines (bound : Nat) : Nat → Draft → List Char → Option Fields
  | 0, _, _ => none
  | fuel + 1, draft, text =>
    match skipBlanks text with
    | [] => draft.close?
    | text => do
      let (draft, rest) ← expression? bound draft text
      lines bound fuel draft (← lineEnd? rest)

/-- The fields of a document, if its text is well formed. A byte order mark in front does not
count. No list has more items than the text has characters. -/
def parse (text : String) : Option Fields :=
  let chars := match text.toList with
    | '\uFEFF' :: rest => rest
    | chars => chars
  lines chars.length (chars.length + 1) .start chars

end ResourceNames.Toml
