import ResourceNames.Toml.Reader

namespace ResourceNames.Toml

/-- The value of hexadecimal digits, if all of them are. -/
def hexValue? (digits : List Char) : Option Nat :=
  digits.foldlM (fun value c =>
    if '0' ≤ c ∧ c ≤ '9' then some (16 * value + (c.toNat - '0'.toNat))
    else if 'a' ≤ c ∧ c ≤ 'f' then some (16 * value + (c.toNat - 'a'.toNat + 10))
    else if 'A' ≤ c ∧ c ≤ 'F' then some (16 * value + (c.toNat - 'A'.toNat + 10))
    else none) 0

/-- The character with a number, if there is one. -/
def scalar? (number : Nat) : Option Char :=
  if h : number.isValidChar then some (Char.ofNatAux number h) else none

/-- The character that `count` hexadecimal digits name, and the text behind them. -/
def codePoint? (count : Nat) (text : List Char) : Option (Char × List Char) := do
  if (text.take count).length < count then none
  else some (← scalar? (← hexValue? (text.take count)), text.drop count)

/-- The character that a backslash and the text behind it stand for. -/
def escape? : Reader Char
  | 'b' :: rest => some ('\x08', rest)
  | 't' :: rest => some ('\t', rest)
  | 'n' :: rest => some ('\n', rest)
  | 'f' :: rest => some ('\x0C', rest)
  | 'r' :: rest => some ('\r', rest)
  | '"' :: rest => some ('"', rest)
  | '\\' :: rest => some ('\\', rest)
  | 'u' :: rest => codePoint? 4 rest
  | 'U' :: rest => codePoint? 8 rest
  | _ => none

theorem length_codePoint?_le {count : Nat} {text rest : List Char} {c : Char}
    (read : codePoint? count text = some (c, rest)) : rest.length ≤ text.length := by
  unfold codePoint? at read
  split at read
  · simp at read
  · simp only [Option.bind_eq_bind, Option.bind_eq_some_iff, Option.some.injEq,
      Prod.mk.injEq] at read
    obtain ⟨_, _, _, _, _, rfl⟩ := read
    simp

theorem length_escape?_lt {text rest : List Char} {c : Char}
    (read : escape? text = some (c, rest)) : rest.length < text.length := by
  unfold escape? at read
  split at read
  case h_8 | h_9 => exact Nat.lt_succ_of_le (length_codePoint?_le read)
  case h_10 => contradiction
  all_goals exact (Prod.mk.inj (Option.some.inj read)).2 ▸ Nat.lt_succ_self _

/-- A text between double quotes on one line, from behind the opening quote. -/
def basic (text : List Char) : Option (List Char × List Char) :=
  match text with
  | [] => none
  | '"' :: rest => some ([], rest)
  | '\\' :: rest =>
    match read : escape? rest with
    | none => none
    | some (c, rest') =>
      have := length_escape?_lt read
      (basic rest').map fun (body, behind) => (c :: body, behind)
  | c :: rest =>
    if isPlain c then (basic rest).map fun (body, behind) => (c :: body, behind) else none
termination_by text.length

/-- A text between single quotes on one line, from behind the opening quote. -/
def literal : List Char → Option (List Char × List Char)
  | [] => none
  | '\'' :: rest => some ([], rest)
  | c :: rest =>
    if isPlain c then (literal rest).map fun (body, behind) => (c :: body, behind) else none

/-- Up to two quotes right behind the first three that close a text belong to it still. -/
def closing (quote : Char) : List Char → List Char × List Char
  | c :: d :: rest =>
    if c = quote ∧ d = quote then ([quote, quote], rest)
    else if c = quote then ([quote], d :: rest) else ([], c :: d :: rest)
  | [c] => if c = quote then ([quote], []) else ([], [c])
  | [] => ([], [])

/-- Skips blanks and ends of lines. -/
def skipLines : List Char → List Char
  | '\r' :: '\n' :: rest => skipLines rest
  | c :: rest => if c = '\n' ∨ isBlank c then skipLines rest else c :: rest
  | [] => []

/-- The text behind an end of line and all blank space after it, where blanks and that end of line
follow a backslash. -/
def foldedLine? (text : List Char) : Option (List Char) :=
  (newline? (skipBlanks text)).map skipLines

theorem length_skipLines_le (text : List Char) : (skipLines text).length ≤ text.length := by
  fun_induction skipLines text with
  | case1 rest ih => simp only [List.length_cons]; omega
  | case2 c rest _ _ ih => simp only [List.length_cons]; omega
  | case3 => exact Nat.le_refl _
  | case4 => exact Nat.le_refl _

theorem length_newline?_lt {text rest : List Char} (read : newline? text = some rest) :
    rest.length < text.length := by
  unfold newline? at read
  split at read
  · cases read
    exact Nat.lt_succ_self _
  · cases read
    exact Nat.lt_succ_of_lt (Nat.lt_succ_self _)
  · contradiction

theorem length_foldedLine?_lt {text rest : List Char} (read : foldedLine? text = some rest) :
    rest.length < text.length := by
  obtain ⟨behind, line, rfl⟩ := Option.map_eq_some_iff.1 read
  have shorter := length_newline?_lt line
  have fewer := (List.dropWhile_suffix isBlank (l := text)).length_le
  have := length_skipLines_le behind
  simp only [skipBlanks] at shorter
  omega

/-- A text between three double quotes, from behind the opening ones. -/
def longBasic (text : List Char) : Option (List Char × List Char) :=
  match text with
  | [] => none
  | '"' :: '"' :: '"' :: rest => some (closing '"' rest)
  | '\r' :: '\n' :: rest => (longBasic rest).map fun (body, behind) => ('\n' :: body, behind)
  | '\\' :: rest =>
    match folded : foldedLine? rest with
    | some rest' =>
      have := length_foldedLine?_lt folded
      longBasic rest'
    | none =>
      match read : escape? rest with
      | none => none
      | some (c, rest') =>
        have := length_escape?_lt read
        (longBasic rest').map fun (body, behind) => (c :: body, behind)
  | c :: rest =>
    if c = '\n' ∨ isPlain c then (longBasic rest).map fun (body, behind) => (c :: body, behind)
    else none
termination_by text.length

/-- A text between three single quotes, from behind the opening ones. -/
def longLiteral : List Char → Option (List Char × List Char)
  | [] => none
  | '\'' :: '\'' :: '\'' :: rest => some (closing '\'' rest)
  | '\r' :: '\n' :: rest => (longLiteral rest).map fun (body, behind) => ('\n' :: body, behind)
  | c :: rest =>
    if c = '\n' ∨ isPlain c then (longLiteral rest).map fun (body, behind) => (c :: body, behind)
    else none

/-- An end of line right behind three opening quotes is not part of the text. -/
def skipFirstNewline (text : List Char) : List Char :=
  (newline? text).getD text

/-- A text in one of its four written forms. -/
def quoted (text : List Char) : Option (String × List Char) :=
  (body text).map fun (chars, rest) => (String.ofList chars, rest)
where
  body : List Char → Option (List Char × List Char)
    | '"' :: '"' :: '"' :: rest => longBasic (skipFirstNewline rest)
    | '\'' :: '\'' :: '\'' :: rest => longLiteral (skipFirstNewline rest)
    | '"' :: rest => basic rest
    | '\'' :: rest => literal rest
    | _ => none

end ResourceNames.Toml
