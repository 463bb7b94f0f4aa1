import Mathlib.Data.List.Basic
import ResourceNames.Json

namespace ResourceNames.Json

/-- What documents are made of, without the blanks between. -/
inductive Token
  | number (value : Nat)
  | text (value : String)
  | comma
  | colon
  | openArray
  | closeArray
  | openObject
  | closeObject
deriving DecidableEq, Repr

/-- Where a reader of characters is: between tokens, or in one of which it has read so much, the
latest character of a text first. Behind a backslash and a `u`, so many digits are still missing
besides the next. -/
inductive Scan
  | between
  | number (value : Nat)
  | text (read : List Char)
  | escape (read : List Char)
  | code (read : List Char) (missing value : Nat)
deriving DecidableEq, Repr

def hexValue? (c : Char) : Option Nat :=
  if c.isDigit then some (c.toNat - 48)
  else if 'a' ≤ c ∧ c ≤ 'f' then some (c.toNat - 87)
  else if 'A' ≤ c ∧ c ≤ 'F' then some (c.toNat - 55)
  else none

/-- The character that stands behind a backslash for another, or for itself. -/
def escaped? : Char → Option Char
  | '"' => some '"'
  | '\\' => some '\\'
  | '/' => some '/'
  | 'b' => some '\x08'
  | 'f' => some '\x0c'
  | 'n' => some '\n'
  | 'r' => some '\r'
  | 't' => some '\t'
  | _ => none

/-- A character between tokens: the tokens that it makes, and where the reader is behind it. -/
def Scan.begin (c : Char) : Option (List Token × Scan) :=
  if c = ' ' ∨ c = '\n' ∨ c = '\r' ∨ c = '\t' then some ([], .between)
  else if c = '"' then some ([], .text [])
  else if c.isDigit then some ([], .number (c.toNat - 48))
  else if c = ',' then some ([.comma], .between)
  else if c = ':' then some ([.colon], .between)
  else if c = '[' then some ([.openArray], .between)
  else if c = ']' then some ([.closeArray], .between)
  else if c = '\x7b' then some ([.openObject], .between)
  else if c = '\x7d' then some ([.closeObject], .between)
  else none

/-- Reads a character. A number has no zero in front, a text no control character in it. Characters
are named by one code only, so none beyond U+FFFF is. -/
def Scan.step : Scan → Char → Option (List Token × Scan)
  | .between, c => begin c
  | .number value, c =>
    if c.isDigit then
      if value = 0 then none else some ([], .number (10 * value + (c.toNat - 48)))
    else (begin c).map fun (tokens, next) => (.number value :: tokens, next)
  | .text read, c =>
    if c = '"' then some ([.text (String.ofList read.reverse)], .between)
    else if c = '\\' then some ([], .escape read)
    else if c.toNat < 32 then none
    else some ([], .text (c :: read))
  | .escape read, c =>
    if c = 'u' then some ([], .code read 3 0)
    else (escaped? c).map fun c => ([], .text (c :: read))
  | .code read missing value, c =>
    match hexValue? c, missing with
    | none, _ => none
    | some digit, missing + 1 => some ([], .code read missing (16 * value + digit))
    | some digit, 0 =>
      let value := 16 * value + digit
      if value.isValidChar then some ([], .text (Char.ofNat value :: read)) else none

def scan : Scan → List Char → Option (List Token × Scan)
  | at_, [] => some ([], at_)
  | at_, c :: rest =>
    match at_.step c with
    | none => none
    | some (tokens, next) => (scan next rest).map fun (more, last) => (tokens ++ more, last)

/-- The tokens that are complete when nothing follows. -/
def Scan.pending? : Scan → Option (List Token)
  | .between => some []
  | .number value => some [.number value]
  | _ => none

def lex (text : List Char) : Option (List Token) :=
  match scan .between text with
  | none => none
  | some (tokens, last) => last.pending?.map (tokens ++ ·)

/-- A part of a document that is not complete, and what it waits for. Items and fields are kept
latest first. -/
inductive Frame
  | firstItem
  | item (before : List Json)
  | behindItem (items : List Json)
  | firstName
  | name (before : List (String × Json))
  | colon (before : List (String × Json)) (name : String)
  | value (before : List (String × Json)) (name : String)
  | behindField (fields : List (String × Json))

/-- A reader of tokens: the parts that it is in, the innermost first, and the documents that it has
read, the latest first. -/
structure Reader where
  open_ : List Frame
  documents : List Json

namespace Reader

/-- Whether a value may come next. -/
def awaits (reader : Reader) : Bool :=
  match reader.open_ with
  | [] | .firstItem :: _ | .item _ :: _ | .value _ _ :: _ => true
  | _ => false

/-- Puts a value where one is awaited. -/
def put (value : Json) (reader : Reader) : Option Reader :=
  match reader.open_ with
  | [] => some ⟨[], value :: reader.documents⟩
  | .firstItem :: outer => some ⟨.behindItem [value] :: outer, reader.documents⟩
  | .item before :: outer => some ⟨.behindItem (value :: before) :: outer, reader.documents⟩
  | .value before name :: outer =>
    some ⟨.behindField ((name, value) :: before) :: outer, reader.documents⟩
  | _ => none

def step (reader : Reader) : Token → Option Reader
  | .number value => reader.put (.number value)
  | .text value =>
    match reader.open_ with
    | .firstName :: outer => some ⟨.colon [] value :: outer, reader.documents⟩
    | .name before :: outer => some ⟨.colon before value :: outer, reader.documents⟩
    | _ => reader.put (.text value)
  | .comma =>
    match reader.open_ with
    | .behindItem items :: outer => some ⟨.item items :: outer, reader.documents⟩
    | .behindField fields :: outer => some ⟨.name fields :: outer, reader.documents⟩
    | _ => none
  | .colon =>
    match reader.open_ with
    | .colon before name :: outer => some ⟨.value before name :: outer, reader.documents⟩
    | _ => none
  | .openArray =>
    if reader.awaits then some ⟨.firstItem :: reader.open_, reader.documents⟩ else none
  | .closeArray =>
    match reader.open_ with
    | .firstItem :: outer => put (.array []) ⟨outer, reader.documents⟩
    | .behindItem items :: outer => put (.array items.reverse) ⟨outer, reader.documents⟩
    | _ => none
  | .openObject =>
    if reader.awaits then some ⟨.firstName :: reader.open_, reader.documents⟩ else none
  | .closeObject =>
    match reader.open_ with
    | .firstName :: outer => put (.object []) ⟨outer, reader.documents⟩
    | .behindField fields :: outer => put (.object fields.reverse) ⟨outer, reader.documents⟩
    | _ => none

def read (reader : Reader) (tokens : List Token) : Option Reader :=
  tokens.foldlM step reader

/-- The documents in the order in which they came, if none is left incomplete. -/
def finish? (reader : Reader) : Option (List Json) :=
  if reader.open_.isEmpty then some reader.documents.reverse else none

end Reader

/-- The documents that a text is a sequence of. -/
def decode? (text : String) : Option (List Json) := do
  let reader ← Reader.read ⟨[], []⟩ (← lex text.toList)
  reader.finish?

mutual

def tokens : Json → List Token
  | .number value => [.number value]
  | .text value => [.text value]
  | .array [] => [.openArray, .closeArray]
  | .array (item :: items) => .openArray :: (item.tokens ++ tokensBehindItem items)
  | .object [] => [.openObject, .closeObject]
  | .object ((name, value) :: fields) =>
    .openObject :: .text name :: .colon :: (value.tokens ++ tokensBehindField fields)

/-- The tokens behind the first item of an array, up to its end. -/
def tokensBehindItem : List Json → List Token
  | [] => [.closeArray]
  | item :: items => .comma :: (item.tokens ++ tokensBehindItem items)

/-- The tokens behind the first field of an object, up to its end. -/
def tokensBehindField : List (String × Json) → List Token
  | [] => [.closeObject]
  | (name, value) :: fields =>
    .comma :: .text name :: .colon :: (value.tokens ++ tokensBehindField fields)

end

namespace Reader

variable {reader next : Reader} {token : Token} {first second : List Token}

theorem read_cons (stepped : reader.step token = some next) (rest : List Token) :
    reader.read (token :: rest) = next.read rest := by
  rw [read, List.foldlM_cons, stepped]
  rfl

theorem read_append (read : reader.read first = some next) (second : List Token) :
    reader.read (first ++ second) = next.read second := by
  rw [Reader.read, List.foldlM_append, ← Reader.read, read]
  rfl

theorem step_text (ready : reader.awaits = true) (value : String) :
    reader.step (.text value) = reader.put (.text value) := by
  obtain ⟨open_, documents⟩ := reader
  cases open_ with
  | nil => rfl
  | cons frame outer =>
    cases frame with
    | firstItem | item | value => rfl
    | _ => cases ready

theorem step_openArray (ready : reader.awaits = true) :
    reader.step .openArray = some ⟨.firstItem :: reader.open_, reader.documents⟩ := by
  simp only [step, ready, if_true]

theorem step_openObject (ready : reader.awaits = true) :
    reader.step .openObject = some ⟨.firstName :: reader.open_, reader.documents⟩ := by
  simp only [step, ready, if_true]

theorem read_one (token : Token) : reader.read [token] = reader.step token := by
  simp [read]

end Reader

section

open Reader

mutual

/-- A reader that awaits a value reads a document as one. -/
theorem read_tokens (document : Json) (reader : Reader) (ready : reader.awaits = true) :
    reader.read document.tokens = reader.put document := by
  match document with
  | .number value =>
    rw [tokens, read_one]
    rfl
  | .text value => rw [tokens, read_one, step_text ready]
  | .array [] =>
    rw [tokens, read_cons (step_openArray ready), read_one]
    rfl
  | .array (item :: items) =>
    have first := read_tokens item ⟨.firstItem :: reader.open_, reader.documents⟩ rfl
    rw [tokens, read_cons (step_openArray ready), read_append first]
    exact read_behindItem items [item] ready
  | .object [] =>
    rw [tokens, read_cons (step_openObject ready), read_one]
    rfl
  | .object ((name, value) :: fields) =>
    have first := read_tokens value ⟨.value [] name :: reader.open_, reader.documents⟩ rfl
    rw [tokens, read_cons (step_openObject ready), read_cons rfl, read_cons rfl,
      read_append first]
    exact read_behindField fields [(name, value)] ready

theorem read_behindItem {outer : List Frame} {documents : List Json} (items before : List Json)
    (ready : Reader.awaits ⟨outer, documents⟩ = true) :
    Reader.read ⟨.behindItem before :: outer, documents⟩ (tokensBehindItem items) =
      Reader.put (.array (before.reverse ++ items)) ⟨outer, documents⟩ := by
  match items with
  | [] =>
    rw [tokensBehindItem, read_one, List.append_nil]
    rfl
  | item :: items =>
    have first := read_tokens item ⟨.item before :: outer, documents⟩ rfl
    have rest := read_behindItem items (item :: before) ready
    rw [tokensBehindItem, read_cons rfl, read_append first, rest, List.reverse_cons,
      List.append_assoc]
    rfl

theorem read_behindField {outer : List Frame} {documents : List Json}
    (fields before : List (String × Json)) (ready : Reader.awaits ⟨outer, documents⟩ = true) :
    Reader.read ⟨.behindField before :: outer, documents⟩ (tokensBehindField fields) =
      Reader.put (.object (before.reverse ++ fields)) ⟨outer, documents⟩ := by
  match fields with
  | [] =>
    rw [tokensBehindField, read_one, List.append_nil]
    rfl
  | (name, value) :: fields =>
    have first := read_tokens value ⟨.value before name :: outer, documents⟩ rfl
    have rest := read_behindField fields ((name, value) :: before) ready
    rw [tokensBehindField, read_cons rfl, read_cons rfl, read_cons rfl, read_append first, rest,
      List.reverse_cons, List.append_assoc]
    rfl

end

/-- Documents that follow each other are read one by one. -/
theorem read_documents (sequence before : List Json) :
    Reader.read ⟨[], before⟩ (sequence.flatMap tokens) =
      some ⟨[], sequence.reverse ++ before⟩ := by
  induction sequence generalizing before with
  | nil => rfl
  | cons document sequence ih =>
    have first := read_tokens document ⟨[], before⟩ rfl
    rw [List.flatMap_cons, read_append first, ih, List.reverse_cons, List.append_assoc]
    rfl

end

variable {at_ next last : Scan} {first second : List Token} {c : Char} {a b : String}

theorem scan_append {front back : List Char} (scanned : scan at_ front = some (first, next))
    (onward : scan next back = some (second, last)) :
    scan at_ (front ++ back) = some (first ++ second, last) := by
  induction front generalizing at_ first with
  | nil =>
    cases scanned
    exact onward
  | cons c front ih =>
    cases stepped : at_.step c with
    | none =>
      rw [scan, stepped] at scanned
      cases scanned
    | some reached =>
      obtain ⟨here, middle⟩ := reached
      rw [scan, stepped] at scanned
      obtain ⟨⟨more, end_⟩, rest, same⟩ := Option.map_eq_some_iff.mp scanned
      cases same
      rw [List.cons_append, scan, stepped]
      dsimp only
      rw [ih rest, Option.map_some, List.append_assoc]

/-- The text of whole tokens, to which nothing can be added. -/
def Closes (text : String) (tokens : List Token) : Prop :=
  scan .between text.toList = some (tokens, .between)

/-- The text of tokens of which the last may be a number, to which digits could be added. -/
def Spells (text : String) (tokens : List Token) : Prop :=
  lex text.toList = some tokens

/-- The text of whole tokens that ends a number in front of it. -/
structure Ends (text : String) (tokens : List Token) : Prop where
  closes : Closes text tokens
  apart : ∃ c rest, text.toList = c :: rest ∧ c.isDigit = false

theorem spells_iff : Spells a first ↔ ∃ complete last pending,
    scan .between a.toList = some (complete, last) ∧ last.pending? = some pending ∧
      first = complete ++ pending := by
  unfold Spells lex
  rcases scan .between a.toList with _ | ⟨complete, last⟩
  · simp
  · cases left : last.pending? <;> simp [left, eq_comm]

theorem Closes.spells (closes : Closes a first) : Spells a first :=
  spells_iff.mpr ⟨first, .between, [], closes, rfl, (List.append_nil _).symm⟩

theorem Closes.append (front : Closes a first) (back : Closes b second) :
    Closes (a ++ b) (first ++ second) := by
  rw [Closes, String.toList_append]
  exact scan_append front back

theorem Ends.append (front : Ends a first) (back : Closes b second) :
    Ends (a ++ b) (first ++ second) := by
  obtain ⟨c, rest, split, noDigit⟩ := front.apart
  exact ⟨front.closes.append back, c, rest ++ b.toList, by simp [split], noDigit⟩

/-- A character that is no digit ends a number. -/
theorem step_of_pending {pending : List Token} (left : at_.pending? = some pending)
    (noDigit : c.isDigit = false) :
    at_.step c = (Scan.begin c).map fun (tokens, next) => (pending ++ tokens, next) := by
  cases at_ with
  | between =>
    cases left
    rw [Scan.step]
    cases Scan.begin c <;> rfl
  | number value =>
    cases left
    rw [Scan.step, noDigit]
    rfl
  | text | escape | code => cases left

theorem Spells.append (front : Spells a first) (back : Ends b second) :
    Closes (a ++ b) (first ++ second) := by
  obtain ⟨complete, last, pending, scanned, left, rfl⟩ := spells_iff.mp front
  obtain ⟨start, c, rest, split, noDigit⟩ := back
  have onward : scan last b.toList = some (pending ++ second, .between) := by
    rw [Closes, split] at start
    rw [split]
    cases begun : Scan.begin c with
    | none =>
      rw [scan, Scan.step, begun] at start
      cases start
    | some reached =>
      obtain ⟨here, middle⟩ := reached
      rw [scan, Scan.step, begun] at start
      obtain ⟨⟨more, end_⟩, behind, same⟩ := Option.map_eq_some_iff.mp start
      cases same
      rw [scan, step_of_pending left noDigit, begun]
      dsimp only [Option.map_some]
      rw [behind, Option.map_some, List.append_assoc]
  rw [Closes, String.toList_append, List.append_assoc]
  exact scan_append scanned onward

theorem begin_digit {n : Nat} (small : n < 10) :
    Scan.begin n.digitChar = some ([], .number n) := by
  have all : ∀ n : Fin 10, Scan.begin (Nat.digitChar n) = some ([], .number n) := by decide
  exact all ⟨n, small⟩

theorem scan_number (n : Nat) : scan .between (Nat.toDigits 10 n) = some ([], .number n) := by
  induction n using Nat.strongRecOn with
  | ind n ih =>
    by_cases small : n < 10
    · rw [Nat.toDigits_of_lt_base small, scan, Scan.step, begin_digit small]
      rfl
    · have large : 10 ≤ n := Nat.le_of_not_lt small
      rw [Nat.toDigits_of_base_le (by decide) large]
      have digit : (n % 10).digitChar.isDigit = true :=
        Nat.isDigit_digitChar.trans (decide_eq_true (by omega))
      have further : n / 10 ≠ 0 := by omega
      have whole : 10 * (n / 10) + ((n % 10).digitChar.toNat - 48) = n := by
        rw [Nat.toNat_digitChar_of_lt_ten (by omega)]
        omega
      have last : scan (.number (n / 10)) [(n % 10).digitChar] = some ([], .number n) := by
        rw [scan, Scan.step, if_pos digit, if_neg further, whole]
        rfl
      exact scan_append (ih (n / 10) (by omega)) last

theorem spells_number (n : Nat) : Spells (toString n) [.number n] := by
  have digits : (toString n).toList = Nat.toDigits 10 n := String.toList_ofList
  refine spells_iff.mpr ⟨[], .number n, [.number n], ?_, rfl, rfl⟩
  rw [digits, scan_number]

theorem hexValue?_hexDigit {n : Nat} (small : n < 16) : hexValue? (hexDigit n) = some n := by
  have all : ∀ n : Fin 16, hexValue? (hexDigit n) = some n.val := by decide
  exact all ⟨n, small⟩

/-- The characters that are escaped by a letter or by themselves. -/
def short : List Char :=
  ['"', '\\', '\n', '\r', '\t', '\x08', '\x0c']

/-- All other control characters are escaped by their number, and all that is left stands for
itself. -/
theorem escape_cases (c : Char) :
    c ∈ short ∨
    (c.toNat < 32 ∧ escape c =
      ['\\', 'u', '0', '0', hexDigit (c.toNat / 16), hexDigit (c.toNat % 16)]) ∨
    32 ≤ c.toNat ∧ c ≠ '"' ∧ c ≠ '\\' ∧ escape c = [c] := by
  by_cases named : c ∈ short
  · exact .inl named
  · right
    simp only [short, List.mem_cons, List.not_mem_nil, or_false, not_or] at named
    obtain ⟨noQuote, noSlash, noFeed, noReturn, noTab, noBack, noForm⟩ := named
    by_cases control : c.toNat < 32
    · exact .inl ⟨control, by
        simp only [escape, noQuote, noSlash, noFeed, noReturn, noTab, noBack, noForm, control,
          if_false, if_true]⟩
    · exact .inr ⟨Nat.le_of_not_lt control, noQuote, noSlash, by
        simp only [escape, noQuote, noSlash, noFeed, noReturn, noTab, noBack, noForm, control,
          if_false]⟩

/-- What stands for a character is read as that character. -/
theorem scan_escape (c : Char) (read : List Char) :
    scan (.text read) (escape c) = some ([], .text (c :: read)) := by
  obtain named | ⟨control, escaped⟩ | ⟨visible, noQuote, noSlash, escaped⟩ := escape_cases c
  · simp only [short, List.mem_cons, List.not_mem_nil, or_false] at named
    rcases named with rfl | rfl | rfl | rfl | rfl | rfl | rfl <;> rfl
  · have high := hexValue?_hexDigit (n := c.toNat / 16) (by omega)
    have low := hexValue?_hexDigit (n := c.toNat % 16) (by omega)
    have zero : hexValue? '0' = some 0 := by decide
    have code : 16 * (c.toNat / 16) + c.toNat % 16 = c.toNat := Nat.div_add_mod _ _
    have valid : c.toNat.isValidChar := c.valid
    simp [escaped, scan, Scan.step, zero, high, low, code, valid]
  · simp [escaped, scan, Scan.step, noQuote, noSlash, Nat.not_lt.mpr visible]

theorem scan_escapes (text read : List Char) :
    scan (.text read) (text.flatMap escape ++ ['"']) =
      some ([.text (String.ofList (read.reverse ++ text))], .between) := by
  induction text generalizing read with
  | nil => simp [scan, Scan.step]
  | cons c text ih =>
    rw [List.flatMap_cons, List.append_assoc, scan_append (scan_escape c read) (ih (c :: read))]
    simp

theorem closes_quote (text : String) : Closes (quote text) [.text text] := by
  have front : scan .between ['"'] = some ([], .text []) := rfl
  have back := scan_escapes text.toList []
  have chars : (quote text).toList = ['"'] ++ (text.toList.flatMap escape ++ ['"']) := by
    simp [quote]
  rw [Closes, chars]
  simpa using scan_append front back

theorem ends_comma : Ends "," [.comma] := ⟨rfl, ',', [], rfl, rfl⟩

theorem ends_colon : Ends ":" [.colon] := ⟨rfl, ':', [], rfl, rfl⟩

/-- What follows the first item of an array on one line, up to the end of the array. -/
def compactBehindItem : List Json → String
  | [] => "]"
  | item :: items => "," ++ (compact item ++ compactBehindItem items)

theorem compactItems_cons (item : Json) (items : List Json) :
    compactItems (item :: items) ++ "]" = compact item ++ compactBehindItem items := by
  induction items generalizing item with
  | nil => rw [compactItems, compactBehindItem]
  | cons next items ih =>
    rw [compactItems, String.append_assoc, String.append_assoc, ih, compactBehindItem]
    exact List.cons_ne_nil _ _

/-- What follows the first field of an object on one line, up to the end of the object. -/
def compactBehindField : List (String × Json) → String
  | [] => "\x7d"
  | (name, value) :: fields =>
    "," ++ (quote name ++ (":" ++ (compact value ++ compactBehindField fields)))

theorem compactFields_cons (name : String) (value : Json) (fields : List (String × Json)) :
    compactFields ((name, value) :: fields) ++ "\x7d" =
      quote name ++ (":" ++ (compact value ++ compactBehindField fields)) := by
  induction fields generalizing name value with
  | nil => simp only [compactFields, compactBehindField, String.append_assoc]
  | cons next fields ih =>
    obtain ⟨following, other⟩ := next
    rw [compactFields, String.append_assoc, ih, compactBehindField]
    · simp only [String.append_assoc]
    · exact List.cons_ne_nil _ _

mutual

theorem spells_compact (document : Json) : Spells document.compact document.tokens := by
  match document with
  | .number value => exact spells_number value
  | .text value => exact (closes_quote value).spells
  | .array [] => exact Closes.spells rfl
  | .array (item :: items) =>
    have start : Closes "[" [.openArray] := rfl
    have inner := (spells_compact item).append (ends_compactBehindItem items)
    rw [compact, String.append_assoc, compactItems_cons]
    exact (start.append inner).spells
  | .object [] => exact Closes.spells rfl
  | .object ((name, value) :: fields) =>
    have start : Closes "\x7b" [.openObject] := rfl
    have inner := (spells_compact value).append (ends_compactBehindField fields)
    rw [compact, String.append_assoc, compactFields_cons]
    exact (start.append ((closes_quote name).append (ends_colon.closes.append inner))).spells

theorem ends_compactBehindItem (items : List Json) :
    Ends (compactBehindItem items) (tokensBehindItem items) := by
  match items with
  | [] => exact ⟨rfl, ']', [], rfl, rfl⟩
  | item :: items =>
    have inner := (spells_compact item).append (ends_compactBehindItem items)
    exact ends_comma.append inner

theorem ends_compactBehindField (fields : List (String × Json)) :
    Ends (compactBehindField fields) (tokensBehindField fields) := by
  match fields with
  | [] => exact ⟨rfl, '\x7d', [], rfl, rfl⟩
  | (name, value) :: fields =>
    have inner := (spells_compact value).append (ends_compactBehindField fields)
    exact ends_comma.append ((closes_quote name).append (ends_colon.closes.append inner))

end

/-- No control character stands in a text, so it is one line. -/
def Unbroken (text : String) : Prop :=
  ∀ c ∈ text.toList, 32 ≤ c.toNat

instance (text : String) : Decidable (Unbroken text) :=
  List.decidableBAll (fun c : Char => 32 ≤ c.toNat) text.toList

theorem Unbroken.append (front : Unbroken a) (back : Unbroken b) : Unbroken (a ++ b) := by
  intro c member
  rw [String.toList_append, List.mem_append] at member
  exact member.elim (front c) (back c)

theorem unbroken_number (n : Nat) : Unbroken (toString n) := by
  intro c member
  have digits : (toString n).toList = Nat.toDigits 10 n := String.toList_ofList
  rw [digits] at member
  have digit : c.isDigit = true := Nat.isDigit_of_mem_toDigits (by decide) (by decide) member
  have low : 48 ≤ c.toNat := by
    simp only [Char.isDigit, Bool.and_eq_true, decide_eq_true_eq] at digit
    exact digit.1
  omega

theorem hexDigit_unbroken {n : Nat} (small : n < 16) : 32 ≤ (hexDigit n).toNat := by
  have all : ∀ n : Fin 16, 32 ≤ (hexDigit n).toNat := by decide
  exact all ⟨n, small⟩

theorem escape_unbroken (c : Char) : ∀ d ∈ escape c, 32 ≤ d.toNat := by
  obtain named | ⟨control, escaped⟩ | ⟨visible, -, -, escaped⟩ := escape_cases c
  · have all : short.all (fun c => (escape c).all (32 ≤ ·.toNat)) := by decide
    simp only [List.all_eq_true, decide_eq_true_eq] at all
    exact all c named
  · have high := hexDigit_unbroken (n := c.toNat / 16) (by omega)
    have low := hexDigit_unbroken (n := c.toNat % 16) (by omega)
    simp [escaped, high, low]
  · simpa [escaped] using visible

theorem unbroken_quote (text : String) : Unbroken (quote text) := by
  have mark : Unbroken "\"" := by decide
  refine (mark.append ?_).append mark
  intro d member
  rw [String.toList_ofList] at member
  obtain ⟨c, -, inside⟩ := List.mem_flatMap.mp member
  exact escape_unbroken c d inside

mutual

theorem unbroken_compact (document : Json) : Unbroken document.compact := by
  match document with
  | .number value => exact unbroken_number value
  | .text value => exact unbroken_quote value
  | .array [] =>
    have empty : Unbroken "[]" := by decide
    exact empty
  | .array (item :: items) =>
    have start : Unbroken "[" := by decide
    rw [compact, String.append_assoc, compactItems_cons]
    exact start.append ((unbroken_compact item).append (unbroken_compactBehindItem items))
  | .object [] =>
    have empty : Unbroken "\x7b\x7d" := by decide
    exact empty
  | .object ((name, value) :: fields) =>
    have start : Unbroken "\x7b" := by decide
    have colon : Unbroken ":" := by decide
    rw [compact, String.append_assoc, compactFields_cons]
    exact start.append ((unbroken_quote name).append
      (colon.append ((unbroken_compact value).append (unbroken_compactBehindField fields))))

theorem unbroken_compactBehindItem (items : List Json) : Unbroken (compactBehindItem items) := by
  match items with
  | [] => decide
  | item :: items =>
    have comma : Unbroken "," := by decide
    exact comma.append ((unbroken_compact item).append (unbroken_compactBehindItem items))

theorem unbroken_compactBehindField (fields : List (String × Json)) :
    Unbroken (compactBehindField fields) := by
  match fields with
  | [] => decide
  | (name, value) :: fields =>
    have comma : Unbroken "," := by decide
    have colon : Unbroken ":" := by decide
    exact comma.append ((unbroken_quote name).append
      (colon.append ((unbroken_compact value).append (unbroken_compactBehindField fields))))

end

theorem closes_blanks (count : Nat) : Closes (String.ofList (List.replicate count ' ')) [] := by
  rw [Closes, String.toList_ofList]
  induction count with
  | zero => rfl
  | succ count ih =>
    have blank : Scan.step .between ' ' = some ([], .between) := rfl
    rw [List.replicate_succ, scan, blank]
    dsimp only
    rw [ih]
    rfl

theorem ends_feed : Ends "\n" [] := ⟨rfl, '\n', [], rfl, rfl⟩

theorem ends_newLine (level : Nat) : Ends (newLine level) [] :=
  ends_feed.append (closes_blanks (2 * level))

mutual

theorem spells_layout (level : Nat) (document : Json) :
    Spells (document.layout level) document.tokens := by
  match document with
  | .number value => exact spells_number value
  | .text value => exact (closes_quote value).spells
  | .array [] =>
    rw [layout]
    exact Closes.spells rfl
  | .array (item :: items) =>
    have start : Closes "[" [.openArray] := rfl
    have inner := (spells_layout (level + 1) item).append (ends_layoutItems level items)
    have line := (ends_newLine (level + 1)).closes.append inner
    simp only [layout, String.append_assoc]
    exact (start.append line).spells
  | .object [] =>
    rw [layout]
    exact Closes.spells rfl
  | .object ((name, value) :: fields) =>
    have start : Closes "\x7b" [.openObject] := rfl
    have colon : Closes ": " [.colon] := rfl
    have inner := (spells_layout (level + 1) value).append (ends_layoutFields level fields)
    have line := (ends_newLine (level + 1)).closes.append
      ((closes_quote name).append (colon.append inner))
    simp only [layout, String.append_assoc]
    exact (start.append line).spells

theorem ends_layoutItems (level : Nat) (items : List Json) :
    Ends (layoutItems level items) (tokensBehindItem items) := by
  match items with
  | [] => exact (ends_newLine level).append rfl
  | item :: items =>
    have inner := (spells_layout (level + 1) item).append (ends_layoutItems level items)
    have line := (ends_newLine (level + 1)).closes.append inner
    simp only [layoutItems, String.append_assoc]
    exact ends_comma.append line

theorem ends_layoutFields (level : Nat) (fields : List (String × Json)) :
    Ends (layoutFields level fields) (tokensBehindField fields) := by
  match fields with
  | [] => exact (ends_newLine level).append rfl
  | (name, value) :: fields =>
    have colon : Closes ": " [.colon] := rfl
    have inner := (spells_layout (level + 1) value).append (ends_layoutFields level fields)
    have line := (ends_newLine (level + 1)).closes.append
      ((closes_quote name).append (colon.append inner))
    simp only [layoutFields, String.append_assoc]
    exact ends_comma.append line

end

theorem decode?_of_spells {text : String} {sequence : List Json}
    (spells : Spells text (sequence.flatMap tokens)) : decode? text = some sequence := by
  have read := read_documents sequence []
  rw [decode?, spells]
  simp [bind, read, Reader.finish?]

/-- A text that spells one document is decoded as that document. -/
theorem decode?_of_tokens {text : String} {document : Json} (spells : Spells text document.tokens) :
    decode? text = some [document] :=
  decode?_of_spells (by simpa using spells)

/-- Documents that are each followed by a new line are told apart. -/
theorem closes_join {texts : List String} {sequence : List Json}
    (spelled : List.Forall₂ (fun document text => Spells text document.tokens) sequence texts) :
    Closes (String.join (texts.map (· ++ "\n"))) (sequence.flatMap tokens) := by
  induction spelled with
  | nil => rfl
  | @cons document text sequence texts spells _ ih =>
    have line := (spells.append ends_feed).append ih
    simpa [String.join_cons] using line

end ResourceNames.Json
