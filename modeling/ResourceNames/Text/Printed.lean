namespace ResourceNames.Text

/-- Where in a text a terminal is: between control sequences, or in one of the parts of one. -/
inductive Sequence
  | outside
  | escape
  | escapeTail
  | control
  | command
  | device
  | deviceNumber
  | deviceTail
  | payload
deriving DecidableEq, Repr

namespace Sequence

/-- The blanks that keep their effect even inside a sequence, unless that carries text. -/
def isBlank (c : Char) : Bool :=
  c = '\t' || c = '\n' || c = '\r' || c = '\x0c'

/-- What is printed between sequences. -/
def isShown (c : Char) : Bool :=
  isBlank c || (' ' ≤ c && c ≠ '\x7f')

/-- Whether `c` lies between two characters, both included. -/
def between (low high c : Char) : Bool :=
  low ≤ c && c ≤ high

/-- Where a terminal is after an ASCII character behind an escape character. -/
def afterEscape (c : Char) : Sequence :=
  if c = '[' then .control
  else if c = ']' then .command
  else if c = 'P' then .device
  else if c = 'X' ∨ c = '^' ∨ c = '_' then .payload
  else if between ' ' '/' c then .escapeTail
  else if between '0' '~' c then .outside
  else .escape

/-- A terminal looks for the byte that ends a payload also inside of characters. -/
def endsPayload (c : Char) : Bool :=
  (String.utf8EncodeChar c).contains 0x9c

/-- Where a terminal is after a character, and whether that is printed. An escape character begins
a new sequence anywhere, and two other control characters end any. -/
def step (place : Sequence) (c : Char) : Sequence × Bool :=
  if c = '\x1b' then (.escape, false)
  else if c = '\x18' ∨ c = '\x1a' then (.outside, false)
  else
    match place with
    | .outside => (.outside, isShown c)
    | .escape => if isBlank c then (.escape, true) else (afterEscape c, false)
    | .escapeTail =>
      if isBlank c then (.escapeTail, true)
      else (if between '0' '~' c then .outside else .escapeTail, false)
    | .control =>
      if isBlank c then (.control, true)
      else (if between '@' '~' c then .outside else .control, false)
    | .command => (if c = '\x07' then .outside else .command, false)
    | .device =>
      if between ' ' '/' c then (.deviceTail, false)
      else if between '0' '?' c then (.deviceNumber, false)
      else (if between '@' '~' c then .payload else .device, false)
    | .deviceNumber =>
      if between ' ' '/' c then (.deviceTail, false)
      else (if between '<' '~' c then .payload else .deviceNumber, false)
    | .deviceTail => (if between '0' '~' c then .payload else .deviceTail, false)
    | .payload => (if endsPayload c then .outside else .payload, false)

/-- The characters of a text that are printed. A blank in a sequence gives the sequence up. -/
def printed : Sequence → List Char → List Char
  | _, [] => []
  | place, c :: rest =>
    match place.step c with
    | (_, true) => c :: printed .outside rest
    | (place, false) => printed place rest

/-- The characters that are printed of a text sent to a stream. There a blank in a sequence only
puts it off: it goes on behind all that can be shown, unless a character beyond ASCII is among
that. `shown` tells whether the character before has been printed. -/
def streamed : (shown : Bool) → Sequence → List Char → List Char
  | _, _, [] => []
  | shown, place, c :: rest =>
    if shown && isShown c then
      c :: streamed true (if c ≤ '\x7f' then place else .outside) rest
    else
      match place.step c with
      | (place, shown) =>
        if shown then c :: streamed true place rest else streamed false place rest

end Sequence

/-- A text without control sequences and without control characters other than blanks. -/
def printed (text : String) : String :=
  String.ofList (Sequence.outside.printed text.toList)

/-- What is left of a text that is sent to a stream without control sequences. -/
def streamed (text : String) : String :=
  String.ofList (Sequence.streamed false .outside text.toList)

end ResourceNames.Text
