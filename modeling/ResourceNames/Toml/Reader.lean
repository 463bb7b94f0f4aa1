namespace ResourceNames.Toml

/-- Reads something off the front of a text, or refuses the text. -/
abbrev Reader (α : Type) := List Char → Option (α × List Char)

/-- Space and tab. -/
def isBlank (c : Char) : Bool :=
  c = ' ' || c = '\t'

/-- What comments and quoted texts may hold: the tab and all that is no control character. -/
def isPlain (c : Char) : Bool :=
  c = '\t' || (' ' ≤ c && c ≠ '\x7F')

def isDigit (c : Char) : Bool :=
  '0' ≤ c && c ≤ '9'

def skipBlanks (text : List Char) : List Char :=
  text.dropWhile isBlank

/-- The text behind a line feed, with or without a carriage return before it. -/
def newline? : List Char → Option (List Char)
  | '\n' :: rest => some rest
  | '\r' :: '\n' :: rest => some rest
  | _ => none

def skipComment : List Char → List Char
  | '#' :: rest => rest.dropWhile isPlain
  | text => text

/-- The text behind the end of a line, before which blanks and a comment may stand. The end of the
text ends a line too. -/
def lineEnd? (text : List Char) : Option (List Char) :=
  match skipComment (skipBlanks text) with
  | [] => some []
  | rest => newline? rest

/-- Skips blanks, ends of lines and, while `inComment`, plain characters. -/
def skipGap : (inComment : Bool) → List Char → List Char
  | _, [] => []
  | _, '\n' :: rest => skipGap false rest
  | _, '\r' :: '\n' :: rest => skipGap false rest
  | inComment, c :: rest =>
    if inComment then if isPlain c then skipGap true rest else c :: rest
    else if isBlank c then skipGap false rest
    else if c = '#' then skipGap true rest
    else c :: rest

/-- The text behind `c`, if it begins with it. -/
def expect? (c : Char) : List Char → Option (List Char)
  | d :: rest => if c = d then some rest else none
  | [] => none

/-- Reads items with separators between them, at least one; stops before a separator behind which
no item stands. -/
def separated {α : Type} (item : Reader α) (separator : Char) : Nat → Reader (List α)
  | 0, _ => none
  | fuel + 1, text =>
    match item text with
    | none => none
    | some (first, rest) =>
      match expect? separator rest with
      | none => some ([first], rest)
      | some further =>
        match separated item separator fuel further with
        | none => some ([first], rest)
        | some (others, rest) => some (first :: others, rest)

end ResourceNames.Toml
