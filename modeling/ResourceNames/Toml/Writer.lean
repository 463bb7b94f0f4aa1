import ResourceNames.Toml.Reader

namespace ResourceNames.Toml

/-- What decides between the written forms of a text: the longest rows of single and of double
quotes, and whether there are control characters that must be escaped, backslashes, line feeds. -/
structure Features where
  singleQuotes : Nat
  doubleQuotes : Nat
  control : Bool
  backslash : Bool
  lineFeed : Bool
deriving DecidableEq, Repr

/-- The length of the longest row of a character, `row` being the length of the one before. -/
def longestRow (c : Char) : (row : Nat) → List Char → Nat
  | row, [] => row
  | row, d :: rest => if d = c then longestRow c (row + 1) rest else max row (longestRow c 0 rest)

/-- Control characters other than tab and line feed. -/
def isControl (c : Char) : Bool :=
  (c < ' ' && c ≠ '\t' && c ≠ '\n') || c = '\x7F'

def features (text : List Char) : Features where
  singleQuotes := longestRow '\'' 0 text
  doubleQuotes := longestRow '"' 0 text
  control := text.any isControl
  backslash := text.contains '\\'
  lineFeed := text.contains '\n'

/-- The longest row of quotes that can be counted, in eight bits. -/
def maxRow : Nat := 255

/-- Whether a form can be chosen at all: no row of quotes is too long to be counted. -/
def Features.countable (f : Features) : Bool :=
  f.singleQuotes ≤ maxRow && f.doubleQuotes ≤ maxRow

/-- The written forms of a text. -/
inductive Form
  | basic
  | literal
  | longBasic
  | longLiteral
deriving DecidableEq, Repr

/-- The plainest form in which a text needs no escapes; one with escapes if there is none. -/
def Features.form (f : Features) : Form :=
  if !f.control && !f.backslash && f.doubleQuotes = 0 && !f.lineFeed then .basic
  else if !f.control && f.singleQuotes = 0 && !f.lineFeed then .literal
  else if !f.control && !f.backslash && f.doubleQuotes ≤ 2 then .longBasic
  else if !f.control && f.singleQuotes ≤ 2 then .longLiteral
  else if f.lineFeed then .longBasic else .basic

def hexDigit (value : Nat) : Char :=
  if value < 10 then Char.ofNat ('0'.toNat + value) else Char.ofNat ('A'.toNat + value - 10)

/-- A character between double quotes. The tab is escaped although it need not be. -/
def escaped (c : Char) : List Char :=
  if c = '\x08' then ['\\', 'b']
  else if c = '\t' then ['\\', 't']
  else if c = '\x0C' then ['\\', 'f']
  else if c = '\r' then ['\\', 'r']
  else if c = '\\' then ['\\', '\\']
  else if isControl c then
    ['\\', 'u', '0', '0', hexDigit (c.toNat / 16), hexDigit (c.toNat % 16)]
  else [c]

/-- A text on one line between double quotes. -/
def basicBody (text : List Char) : List Char :=
  text.flatMap fun c =>
    if c = '"' then ['\\', '"'] else if c = '\n' then ['\\', 'n'] else escaped c

/-- A text between three double quotes, `row` being the number of quotes just written; the third
quote of a row is escaped. -/
def longBasicBody : (row : Nat) → List Char → List Char
  | _, [] => []
  | row, c :: rest =>
    if c = '"' then
      if row = 2 then '\\' :: '"' :: longBasicBody 0 rest else '"' :: longBasicBody (row + 1) rest
    else if c = '\n' then '\n' :: longBasicBody 0 rest
    else escaped c ++ longBasicBody 0 rest

/-- A text as it is written. A long form begins on a line of its own if the text has several. -/
def writeText (text : List Char) : List Char :=
  let f := features text
  let start : List Char := if f.lineFeed then ['\n'] else []
  match f.form with
  | .basic => ['"'] ++ basicBody text ++ ['"']
  | .literal => ['\''] ++ text ++ ['\'']
  | .longBasic => ['"', '"', '"'] ++ start ++ longBasicBody 0 text ++ ['"', '"', '"']
  | .longLiteral => ['\'', '\'', '\''] ++ start ++ text ++ ['\'', '\'', '\'']

/-- An array of texts: one item or none on the line itself, more on lines of their own, each with
a comma behind it. -/
def writeTexts : List (List Char) → List Char
  | [] => ['[', ']']
  | [text] => ['['] ++ writeText text ++ [']']
  | texts => ['[', '\n'] ++ texts.flatMap (fun text =>
      [' ', ' ', ' ', ' '] ++ writeText text ++ [',', '\n']) ++ [']']

end ResourceNames.Toml
