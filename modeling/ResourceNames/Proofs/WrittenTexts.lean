import ResourceNames.Toml.Quoted
import ResourceNames.Toml.Writer

namespace ResourceNames.Toml

variable {c : Char} {text rest : List Char}

theorem isControl_eq_false_iff : isControl c = false ↔ c = '\n' ∨ isPlain c = true := by
  simp only [isControl, isPlain, Bool.or_eq_false_iff, Bool.and_eq_false_iff, Bool.or_eq_true,
    Bool.and_eq_true, decide_eq_false_iff_not, decide_eq_true_eq, Char.not_lt]
  constructor
  · rintro ⟨(⟨large⟩ | tab) | feed, notDelete⟩
    · exact .inr (.inr ⟨large, notDelete⟩)
    · exact .inr (.inl (Decidable.not_not.mp tab))
    · exact .inl (Decidable.not_not.mp feed)
  · rintro (rfl | rfl | ⟨large, notDelete⟩)
    · decide
    · decide
    · exact ⟨.inl (.inl large), notDelete⟩

theorem ne_feed (plain : isPlain c = true) : c ≠ '\n' := by
  rintro rfl
  exact absurd plain (by decide)

theorem ne_return (plain : c = '\n' ∨ isPlain c = true) : c ≠ '\r' := by
  rintro rfl
  exact absurd plain (by decide)

theorem toNat_lt_of_isControl (control : isControl c = true) : c.toNat < 0x80 := by
  simp only [isControl, Bool.or_eq_true, Bool.and_eq_true, decide_eq_true_eq] at control
  rcases control with ⟨⟨small, -⟩, -⟩ | rfl
  · have below : c.toNat < 0x20 := small
    omega
  · decide

theorem hexValue?_byte : ∀ n < 0x80,
    hexValue? ['0', '0', hexDigit (n / 16), hexDigit (n % 16)] = some n := by
  decide

theorem scalar?_toNat (c : Char) : scalar? c.toNat = some c := by
  have valid : c.toNat.isValidChar := c.valid
  rw [scalar?, dif_pos valid]
  rfl

/-- Behind a backslash, these characters stand for `c`. -/
def Names (name : List Char) (c : Char) : Prop :=
  ∀ rest, escape? (name ++ rest) = some (c, rest) ∧ foldedLine? (name ++ rest) = none

theorem foldedLine?_cons {d : Char} (dark : isBlank d = false) (notFeed : d ≠ '\n')
    (notReturn : d ≠ '\r') (rest : List Char) : foldedLine? (d :: rest) = none := by
  rw [foldedLine?, skipBlanks, List.dropWhile_cons_of_neg (by simp [dark])]
  rw [Option.map_eq_none_iff, newline?]
  · rintro rest' ⟨⟩
    exact notFeed rfl
  · rintro rest' ⟨⟩
    exact notReturn rfl

theorem names_number (control : isControl c = true) :
    Names ['u', '0', '0', hexDigit (c.toNat / 16), hexDigit (c.toNat % 16)] c := by
  intro rest
  refine ⟨?_, foldedLine?_cons (by decide) (by decide) (by decide) _⟩
  have value := hexValue?_byte c.toNat (toNat_lt_of_isControl control)
  simp [escape?, codePoint?, value, scalar?_toNat]

theorem names_letter {name : Char} (read : ∀ rest, escape? (name :: rest) = some (c, rest))
    (dark : isBlank name = false) (notFeed : name ≠ '\n') (notReturn : name ≠ '\r') :
    Names [name] c :=
  fun rest => ⟨read rest, foldedLine?_cons dark notFeed notReturn rest⟩

theorem names_quote : Names ['"'] '"' :=
  names_letter (fun _ => rfl) (by decide) (by decide) (by decide)

theorem names_feed : Names ['n'] '\n' :=
  names_letter (fun _ => rfl) (by decide) (by decide) (by decide)

/-- A character is written as itself, if it is plain, or as a backslash with a name. -/
theorem escaped_cases (notFeed : c ≠ '\n') :
    (isPlain c = true ∧ c ≠ '\\' ∧ escaped c = [c]) ∨
      ∃ name, escaped c = '\\' :: name ∧ Names name c := by
  by_cases lettered : c = '\x08' ∨ c = '\t' ∨ c = '\x0C' ∨ c = '\r' ∨ c = '\\'
  · rcases lettered with rfl | rfl | rfl | rfl | rfl
    all_goals
      refine .inr ⟨_, rfl, names_letter (fun _ => rfl) ?_ ?_ ?_⟩
      all_goals decide
  · have written : escaped c = if isControl c then
        ['\\', 'u', '0', '0', hexDigit (c.toNat / 16), hexDigit (c.toNat % 16)] else [c] := by
      simp only [not_or] at lettered
      obtain ⟨backspace, tab, formFeed, carriageReturn, backslash⟩ := lettered
      simp only [escaped, if_neg backspace, if_neg tab, if_neg formFeed, if_neg carriageReturn,
        if_neg backslash]
    cases control : isControl c with
    | true => exact .inr ⟨_, by rw [written, if_pos control], names_number control⟩
    | false =>
      have plain := (isControl_eq_false_iff.mp control).resolve_left notFeed
      have notBackslash : c ≠ '\\' := fun same => lettered (by simp [same])
      exact .inl ⟨plain, notBackslash, by rw [written, control]; rfl⟩

theorem basic_plain (notQuote : c ≠ '"') (notBackslash : c ≠ '\\') (plain : isPlain c = true)
    (rest : List Char) :
    basic (c :: rest) = (basic rest).map fun (body, behind) => (c :: body, behind) := by
  rw [basic.eq_4 c rest notQuote notBackslash, if_pos plain]

theorem basic_name {name : List Char} (names : Names name c) (rest : List Char) :
    basic ('\\' :: (name ++ rest)) =
      (basic rest).map fun (body, behind) => (c :: body, behind) := by
  rw [basic.eq_3]
  split
  · rename_i refused
    rw [(names rest).1] at refused
    cases refused
  · rename_i read
    rw [(names rest).1] at read
    cases read
    rfl

/-- Between double quotes every text reads back. -/
theorem basic_basicBody (text rest : List Char) :
    basic (basicBody text ++ '"' :: rest) = some (text, rest) := by
  induction text with
  | nil => rw [basicBody, List.flatMap_nil, List.nil_append, basic]
  | cons c text ih =>
    have rejoin (name : List Char) (names : Names name c) :
        basic ('\\' :: name ++ (basicBody text ++ '"' :: rest)) = some (c :: text, rest) := by
      rw [List.cons_append, basic_name names, ih]
      rfl
    rw [basicBody, List.flatMap_cons, ← basicBody, List.append_assoc]
    by_cases quote : c = '"'
    · subst quote
      exact rejoin ['"'] names_quote
    by_cases feed : c = '\n'
    · subst feed
      exact rejoin ['n'] names_feed
    rw [if_neg quote, if_neg feed]
    rcases escaped_cases feed with ⟨plain, notBackslash, itself⟩ | ⟨name, written, names⟩
    · rw [itself, List.singleton_append, basic_plain quote notBackslash plain, ih]
      rfl
    · rw [written]
      exact rejoin name names

/-- Between single quotes a plain text without any reads back. -/
theorem literal_text (plain : ∀ c ∈ text, isPlain c = true) (unquoted : '\'' ∉ text)
    (rest : List Char) : literal (text ++ '\'' :: rest) = some (text, rest) := by
  induction text with
  | nil => rfl
  | cons c text ih =>
    obtain ⟨first, others⟩ := List.forall_mem_cons.mp plain
    obtain ⟨notQuote, noQuotes⟩ : '\'' ≠ c ∧ '\'' ∉ text := by simpa using unquoted
    rw [List.cons_append, literal.eq_3 c _ (Ne.symm notQuote), if_pos first, ih others noQuotes]
    rfl

/-- Up to two quotes may stand right before the three that close a text. -/
theorem closing_replicate {quote : Char} {count : Nat} (few : count ≤ 2)
    (ends : rest.head? ≠ some quote) :
    closing quote (List.replicate count quote ++ rest) = (List.replicate count quote, rest) := by
  have one : closing quote rest = ([], rest) ∧ closing quote (quote :: rest) = ([quote], rest) := by
    cases rest with
    | nil => simp [closing]
    | cons d rest =>
      have other : d ≠ quote := by simpa using ends
      cases rest <;> simp [closing, other]
  match count with
  | 0 => exact one.1
  | 1 => exact one.2
  | 2 => simp [closing]
  | count + 3 => omega

theorem replicate_append_close (quote : Char) (count : Nat) (rest : List Char) :
    List.replicate count quote ++ quote :: quote :: quote :: rest =
      quote :: quote :: quote :: (List.replicate count quote ++ rest) := by
  induction count with
  | zero => rfl
  | succ count ih => rw [List.replicate_succ, List.cons_append, ih, List.cons_append]

theorem longBasic_close (count : Nat) (few : count ≤ 2) (ends : rest.head? ≠ some '"') :
    longBasic (List.replicate count '"' ++ '"' :: '"' :: '"' :: rest) =
      some (List.replicate count '"', rest) := by
  rw [replicate_append_close, longBasic.eq_2, closing_replicate few ends]

theorem longBasic_plain (notBackslash : c ≠ '\\') (plain : c = '\n' ∨ isPlain c = true)
    (goesOn : c = '"' → ∀ further, rest ≠ '"' :: '"' :: further) :
    longBasic (c :: rest) = (longBasic rest).map fun (body, behind) => (c :: body, behind) := by
  rw [longBasic.eq_5 c rest (fun further quote => goesOn quote further)
    (fun _ same => absurd same (ne_return plain)) notBackslash, if_pos plain]

theorem longBasic_name {name : List Char} (names : Names name c) (rest : List Char) :
    longBasic ('\\' :: (name ++ rest)) =
      (longBasic rest).map fun (body, behind) => (c :: body, behind) := by
  rw [longBasic.eq_4]
  split
  · rename_i folded
    rw [(names rest).2] at folded
    cases folded
  · split
    · rename_i refused
      rw [(names rest).1] at refused
      cases refused
    · rename_i read
      rw [(names rest).1] at read
      cases read
      rfl

/-- No quote stands where the row of quotes is interrupted or full. -/
theorem head_longBasicBody {row : Nat} (interrupted : c ≠ '"' ∨ row = 2) (text : List Char) :
    ∃ d body, longBasicBody row (c :: text) = d :: body ∧ d ≠ '"' := by
  by_cases quote : c = '"'
  · have full := interrupted.resolve_left (not_not_intro quote)
    exact ⟨'\\', _, by rw [longBasicBody, if_pos quote, if_pos full], by decide⟩
  by_cases feed : c = '\n'
  · exact ⟨'\n', _, by rw [longBasicBody, if_neg quote, if_pos feed], by decide⟩
  rw [longBasicBody, if_neg quote, if_neg feed]
  rcases escaped_cases feed with ⟨-, -, itself⟩ | ⟨name, written, -⟩
  · exact ⟨c, _, by rw [itself]; rfl, quote⟩
  · exact ⟨'\\', _, by rw [written]; rfl, by decide⟩

/-- Behind a quote that is not among the last two of the text, two more never follow. -/
theorem longBasicBody_ne_quotes {row : Nat} (room : row < 2) (more : text ≠ [])
    (others : row = 0 → text ≠ ['"']) (behind further : List Char) :
    longBasicBody (row + 1) text ++ behind ≠ '"' :: '"' :: further := by
  intro same
  obtain ⟨d, text, rfl⟩ := List.exists_cons_of_ne_nil more
  by_cases second : d = '"' ∧ row = 0
  · obtain ⟨rfl, rfl⟩ := second
    have third : text ≠ [] := fun none => others rfl (by rw [none])
    obtain ⟨e, text, rfl⟩ := List.exists_cons_of_ne_nil third
    obtain ⟨x, body, head, other⟩ := head_longBasicBody (c := e) (.inr rfl) text
    have next : longBasicBody 1 ('"' :: e :: text) = '"' :: x :: body := by
      rw [longBasicBody, if_pos rfl, if_neg (by decide), head]
    rw [next] at same
    exact other (List.cons.inj (List.cons.inj same).2).1
  · have interrupted : d ≠ '"' ∨ row + 1 = 2 := by
      by_cases again : d = '"'
      · have started : row ≠ 0 := not_and.mp second again
        exact .inr (by omega)
      · exact .inl again
    obtain ⟨x, body, head, other⟩ := head_longBasicBody interrupted text
    rw [head] at same
    exact other (List.cons.inj same).1

/-- Between three double quotes every text reads back. Of quotes in a row the third is escaped, so
that no three of them close the text too early. -/
theorem longBasic_longBasicBody {row : Nat} (few : row ≤ 2) (ends : rest.head? ≠ some '"') :
    longBasic (longBasicBody row text ++ '"' :: '"' :: '"' :: rest) = some (text, rest) := by
  induction text generalizing row with
  | nil => exact longBasic_close 0 (Nat.zero_le 2) ends
  | cons c text ih =>
    by_cases quote : c = '"'
    · subst quote
      by_cases full : row = 2
      · have written : longBasicBody row ('"' :: text) =
            '\\' :: (['"'] ++ longBasicBody 0 text) := by
          rw [longBasicBody, if_pos rfl, if_pos full]
          rfl
        rw [written, List.cons_append, List.append_assoc, longBasic_name names_quote,
          ih (Nat.zero_le 2)]
        rfl
      have written : longBasicBody row ('"' :: text) = '"' :: longBasicBody (row + 1) text := by
        rw [longBasicBody, if_pos rfl, if_neg full]
      -- Quotes at the very end of the text are read with those that close it, others one by one.
      by_cases single : text = []
      · subst single
        rw [written]
        exact longBasic_close 1 (by decide) ends
      by_cases double : row = 0 ∧ text = ['"']
      · obtain ⟨rfl, rfl⟩ := double
        exact longBasic_close 2 (by decide) ends
      have goesOn := longBasicBody_ne_quotes (by omega) single (not_and.mp double)
      rw [written, List.cons_append, longBasic_plain (by decide) (.inr (by decide))
        fun _ => goesOn _, ih (by omega)]
      rfl
    have ends := ih (Nat.zero_le 2)
    have goesOn : c = '"' → ∀ further,
        longBasicBody 0 text ++ '"' :: '"' :: '"' :: rest ≠ '"' :: '"' :: further :=
      fun same => absurd same quote
    by_cases feed : c = '\n'
    · subst feed
      rw [longBasicBody, if_neg quote, if_pos rfl, List.cons_append,
        longBasic_plain (by decide) (.inl rfl) goesOn, ends]
      rfl
    rw [longBasicBody, if_neg quote, if_neg feed, List.append_assoc]
    rcases escaped_cases feed with ⟨plain, notBackslash, itself⟩ | ⟨name, written, names⟩
    · rw [itself, List.singleton_append, longBasic_plain notBackslash (.inr plain) goesOn, ends]
      rfl
    · rw [written, List.cons_append, longBasic_name names, ends]
      rfl

theorem le_longestRow (c : Char) (row : Nat) (text : List Char) : row ≤ longestRow c row text := by
  induction text generalizing row with
  | nil => exact Nat.le_refl row
  | cons d text ih =>
    rw [longestRow]
    split
    · exact Nat.le_of_succ_le (ih (row + 1))
    · exact Nat.le_max_left ..

theorem longestRow_cons_le {row limit : Nat} {d : Char}
    (few : longestRow c row (d :: text) ≤ limit) :
    longestRow c (if d = c then row + 1 else 0) text ≤ limit := by
  rw [longestRow] at few
  split at few
  · rwa [if_pos ‹_›]
  · rw [if_neg ‹_›]
    exact Nat.le_trans (Nat.le_max_right ..) few

theorem longLiteral_close (count : Nat) (few : count ≤ 2) (ends : rest.head? ≠ some '\'') :
    longLiteral (List.replicate count '\'' ++ '\'' :: '\'' :: '\'' :: rest) =
      some (List.replicate count '\'', rest) := by
  rw [replicate_append_close, longLiteral.eq_2, closing_replicate few ends]

theorem longLiteral_plain (plain : c = '\n' ∨ isPlain c = true)
    (goesOn : c = '\'' → ∀ further, rest ≠ '\'' :: '\'' :: further) :
    longLiteral (c :: rest) = (longLiteral rest).map fun (body, behind) => (c :: body, behind) := by
  rw [longLiteral.eq_4 c rest (fun further quote => goesOn quote further)
    (fun _ same => absurd same (ne_return plain)), if_pos plain]

/-- Between three single quotes a text reads back in which no three of them stand in a row. -/
theorem longLiteral_text {row : Nat} (plain : ∀ c ∈ text, c = '\n' ∨ isPlain c = true)
    (few : longestRow '\'' row text ≤ 2) (ends : rest.head? ≠ some '\'') :
    longLiteral (text ++ '\'' :: '\'' :: '\'' :: rest) = some (text, rest) := by
  induction text generalizing row with
  | nil => exact longLiteral_close 0 (Nat.zero_le 2) ends
  | cons c text ih =>
    obtain ⟨first, others⟩ := List.forall_mem_cons.mp plain
    have fewer := longestRow_cons_le few
    have onward (goesOn : c = '\'' → ∀ further,
        text ++ '\'' :: '\'' :: '\'' :: rest ≠ '\'' :: '\'' :: further) :
        longLiteral (c :: text ++ '\'' :: '\'' :: '\'' :: rest) = some (c :: text, rest) := by
      rw [List.cons_append, longLiteral_plain first goesOn, ih others fewer]
      rfl
    by_cases quote : c = '\''
    · subst quote
      cases text with
      | nil => exact longLiteral_close 1 (by decide) ends
      | cons d text =>
        by_cases second : d = '\''
        · subst second
          cases text with
          | nil => exact longLiteral_close 2 (by decide) ends
          | cons e text =>
            refine onward fun _ further same => ?_
            have third : e = '\'' := (List.cons.inj (List.cons.inj same).2).1
            have row3 := longestRow_cons_le (longestRow_cons_le fewer)
            rw [if_pos rfl, if_pos rfl, if_pos third] at row3
            exact absurd (Nat.le_trans (le_longestRow _ _ text) row3) (by omega)
        · exact onward fun _ further same => second (List.cons.inj same).1
    · exact onward fun same => absurd same quote

/-- What a form without escapes asks of a text. -/
theorem Features.form_cases (f : Features) :
    f.form = .basic ∨ f.form = .longBasic ∨
      (f.form = .literal ∧ f.control = false ∧ f.singleQuotes = 0 ∧ f.lineFeed = false) ∨
      (f.form = .longLiteral ∧ f.control = false ∧ f.singleQuotes ≤ 2) := by
  unfold form
  split
  · exact .inl rfl
  · split
    · rename_i literal
      simp only [Bool.and_eq_true, Bool.not_eq_true', decide_eq_true_eq] at literal
      exact .inr (.inr (.inl ⟨rfl, literal.1.1, literal.1.2, literal.2⟩))
    · split
      · exact .inr (.inl rfl)
      · split
        · rename_i longLiteral
          simp only [Bool.and_eq_true, Bool.not_eq_true', decide_eq_true_eq] at longLiteral
          exact .inr (.inr (.inr ⟨rfl, longLiteral⟩))
        · split
          · exact .inr (.inl rfl)
          · exact .inl rfl

theorem plain_of_features (control : (features text).control = false) :
    ∀ c ∈ text, c = '\n' ∨ isPlain c = true := by
  intro c member
  refine isControl_eq_false_iff.mp ?_
  simpa using List.any_eq_false.mp control c member

theorem notMem_of_longestRow (none : longestRow c 0 text = 0) : c ∉ text := by
  induction text with
  | nil => exact List.not_mem_nil
  | cons d text ih =>
    have none' := longestRow_cons_le (Nat.le_of_eq none)
    by_cases same : d = c
    · rw [if_pos same] at none'
      exact absurd (Nat.le_trans (le_longestRow c 1 text) none') (by decide)
    · rw [if_neg same] at none'
      have others := ih (Nat.le_zero.mp none')
      simpa [Ne.symm same] using others

/-- What follows a text in a document does not begin with a quote. -/
def Unquoted (rest : List Char) : Prop :=
  rest.head? ≠ some '"' ∧ rest.head? ≠ some '\''

theorem basicBody_goesOn (ends : Unquoted rest) (text : List Char) :
    ∀ further, basicBody text ++ '"' :: rest ≠ '"' :: '"' :: further := by
  intro further same
  cases text with
  | nil =>
    cases (List.cons.inj same).2
    exact ends.1 rfl
  | cons c text =>
    rw [basicBody, List.flatMap_cons, List.append_assoc] at same
    split at same
    · exact absurd (List.cons.inj same).1 (by decide)
    · rename_i notQuote
      split at same
      · exact absurd (List.cons.inj same).1 (by decide)
      · rename_i notFeed
        rcases escaped_cases notFeed with ⟨-, -, itself⟩ | ⟨name, written, -⟩
        · rw [itself] at same
          exact notQuote (List.cons.inj same).1
        · rw [written] at same
          exact absurd (List.cons.inj same).1 (by decide)

theorem skipFirstNewline_plain (plain : isPlain c = true) (rest : List Char) :
    skipFirstNewline (c :: rest) = c :: rest := by
  have none : newline? (c :: rest) = none := by
    rw [newline?]
    · rintro _ ⟨⟩
      exact ne_feed plain rfl
    · rintro _ ⟨⟩
      exact ne_return (.inr plain) rfl
  rw [skipFirstNewline, none, Option.getD_none]

/-- A long text that begins on the line of its quotes does not begin with an end of line. -/
theorem skipFirstNewline_longBasicBody (oneLine : '\n' ∉ text) (rest : List Char) :
    skipFirstNewline (longBasicBody 0 text ++ '"' :: rest) =
      longBasicBody 0 text ++ '"' :: rest := by
  cases text with
  | nil => exact skipFirstNewline_plain (by decide) rest
  | cons c text =>
    obtain ⟨notFeed, -⟩ : '\n' ≠ c ∧ '\n' ∉ text := by simpa using oneLine
    by_cases quote : c = '"'
    · rw [longBasicBody, if_pos quote, if_neg (by decide), List.cons_append]
      exact skipFirstNewline_plain (by decide) _
    rw [longBasicBody, if_neg quote, if_neg (Ne.symm notFeed), List.append_assoc]
    rcases escaped_cases (Ne.symm notFeed) with ⟨plain, -, itself⟩ | ⟨name, written, -⟩
    · rw [itself, List.singleton_append]
      exact skipFirstNewline_plain plain _
    · rw [written, List.cons_append]
      exact skipFirstNewline_plain (by decide) _

theorem skipFirstNewline_text (plain : ∀ c ∈ text, c = '\n' ∨ isPlain c = true)
    (oneLine : '\n' ∉ text) (rest : List Char) :
    skipFirstNewline (text ++ '\'' :: rest) = text ++ '\'' :: rest := by
  cases text with
  | nil => exact skipFirstNewline_plain (by decide) rest
  | cons c text =>
    have notFeed : c ≠ '\n' := fun same => oneLine (by simp [same])
    exact skipFirstNewline_plain ((plain c List.mem_cons_self).resolve_left notFeed) _

/-- A text is written so that it reads back, whichever form is chosen. -/
theorem body_writeText (text : List Char) (ends : Unquoted rest) :
    quoted.body (writeText text ++ rest) = some (text, rest) := by
  unfold writeText
  rcases (features text).form_cases with form | form | ⟨form, control, none, lineFeed⟩ |
    ⟨form, control, few⟩
  · simp only [form, List.append_assoc, List.cons_append, List.nil_append]
    rw [quoted.body.eq_3 _ (basicBody_goesOn ends text), basic_basicBody]
  · simp only [form, List.append_assoc, List.cons_append, List.nil_append]
    rw [quoted.body.eq_1]
    cases lineFeed : (features text).lineFeed with
    | true => exact longBasic_longBasicBody (Nat.zero_le 2) ends.1
    | false =>
      have oneLine : '\n' ∉ text := by simpa [features] using lineFeed
      exact (congrArg longBasic (skipFirstNewline_longBasicBody oneLine _)).trans
        (longBasic_longBasicBody (Nat.zero_le 2) ends.1)
  · have unquoted := notMem_of_longestRow none
    have oneLine : '\n' ∉ text := by simpa [features] using lineFeed
    have plain : ∀ c ∈ text, isPlain c = true := fun c member =>
      (plain_of_features control c member).resolve_left fun same => oneLine (same ▸ member)
    have goesOn : ∀ further, text ++ '\'' :: rest ≠ '\'' :: '\'' :: further := by
      intro further same
      cases text with
      | nil =>
        cases (List.cons.inj same).2
        exact ends.2 rfl
      | cons c text => exact unquoted (by simp [(List.cons.inj same).1])
    simp only [form, List.append_assoc, List.cons_append, List.nil_append]
    rw [quoted.body.eq_4 _ goesOn, literal_text plain unquoted]
  · have plain := plain_of_features control
    simp only [form, List.append_assoc, List.cons_append, List.nil_append]
    rw [quoted.body.eq_2]
    cases lineFeed : (features text).lineFeed with
    | true => exact longLiteral_text plain few ends.2
    | false =>
      have oneLine : '\n' ∉ text := by simpa [features] using lineFeed
      exact (congrArg longLiteral (skipFirstNewline_text plain oneLine _)).trans
        (longLiteral_text plain few ends.2)

theorem quoted_writeText (text : List Char) (ends : Unquoted rest) :
    quoted (writeText text ++ rest) = some (String.ofList text, rest) := by
  rw [quoted, body_writeText text ends]
  rfl

/-- A written text begins with a quote. -/
theorem head_writeText (text : List Char) :
    ∃ quote body, writeText text = quote :: body ∧ (quote = '"' ∨ quote = '\'') := by
  unfold writeText
  rcases (features text).form_cases with form | form | ⟨form, -⟩ | ⟨form, -⟩
  all_goals
    simp only [form, List.cons_append, List.nil_append]
    exact ⟨_, _, rfl, by decide⟩

end ResourceNames.Toml
