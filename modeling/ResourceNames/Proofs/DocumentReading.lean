import ResourceNames.Proofs.WrittenNumbers
import ResourceNames.Proofs.WrittenTexts
import ResourceNames.Toml.Document

namespace ResourceNames.Toml

variable {bound depth n : Nat} {rest further : List Char}

theorem value_of_head {c : Char} (notArray : c ≠ '[') (notBraced : c ≠ '{') (rest : List Char) :
    value bound depth (c :: rest) = scalar (c :: rest) := by
  cases depth with
  | zero => rfl
  | succ depth =>
    rw [value.eq_4]
    · rintro _ ⟨⟩
      exact notArray rfl
    · rintro _ ⟨⟩
      exact notBraced rfl

theorem value_writeText (bound depth : Nat) (text : List Char) (ends : Unquoted rest) :
    value bound depth (writeText text ++ rest) = some (.string (String.ofList text), rest) := by
  have read := quoted_writeText text ends
  obtain ⟨quote, body, head, opens⟩ := head_writeText text
  rw [head, List.cons_append] at read ⊢
  rcases opens with rfl | rfl
  · rw [value_of_head (by decide) (by decide), scalar.eq_1, read]
    rfl
  · rw [value_of_head (by decide) (by decide), scalar.eq_2, read]
    rfl

theorem value_number (bound depth : Nat) (inside : (n : Int) ≤ maxInteger) (rest : List Char) :
    value bound depth ((toString n).toList ++ '\n' :: rest) = some (.integer n, '\n' :: rest) := by
  rw [Nat.toString_eq_repr, Nat.toList_repr]
  have other {c : Char} (notDigit : isDigit c = false) (further : List Char) :
      Nat.toDigits 10 n ++ '\n' :: rest ≠ c :: further := by
    intro same
    rw [(head_number same).1] at notDigit
    cases notDigit
  have plain : value bound depth (Nat.toDigits 10 n ++ '\n' :: rest) =
      scalar (Nat.toDigits 10 n ++ '\n' :: rest) := by
    rcases split : Nat.toDigits 10 n ++ '\n' :: rest with _ | ⟨c, further⟩
    · cases depth <;> rfl
    · refine value_of_head ?_ ?_ further
      · rintro rfl
        exact other (by decide) further split
      · rintro rfl
        exact other (by decide) further split
  rw [plain, scalar.eq_5 _ (other (by decide)) (other (by decide))
    (fun _ => other (by decide) _) (fun _ => other (by decide) _), moment?_number, float_number,
    integer_number inside]
  rfl

/-- No value begins with the bracket that closes an array. -/
theorem value_bracket (rest : List Char) : value bound depth (']' :: rest) = none := by
  have notDigits (count low high : Nat) (some : 0 < count) :
      fixedDigits count low high (']' :: rest) = none := by
    obtain ⟨count, rfl⟩ : ∃ further, count = further + 1 := ⟨count - 1, by omega⟩
    rw [fixedDigits, if_neg]
    rintro ⟨-, all, -⟩
    rw [List.take_succ_cons, List.all_cons] at all
    exact absurd (Bool.and_eq_true .. ▸ all).1 (by decide)
  have noMoment : moment? (']' :: rest) = none := by
    rw [moment?, date?, notDigits 4 0 9999 (by decide)]
    dsimp only [Option.bind_eq_bind, Option.bind_none]
    rw [time?, notDigits 2 0 23 (by decide)]
    rfl
  rw [value_of_head (by decide) (by decide), scalar.eq_5, noMoment]
  · rfl
  all_goals
    rintro _ ⟨⟩

theorem separated_last {α : Type} {item : Reader α} {separator : Char} {text : List Char} {x : α}
    (read : item text = some (x, separator :: rest)) (done : item rest = none) (fuel : Nat) :
    separated item separator (fuel + 1) text = some ([x], separator :: rest) := by
  have stop : separated item separator fuel rest = none := by
    cases fuel with
    | zero => rfl
    | succ fuel => rw [separated, done]
  rw [separated, read]
  dsimp only
  rw [expect?, if_pos rfl]
  dsimp only
  rw [stop]

theorem separated_cons {α : Type} {item : Reader α} {separator : Char} {text further : List Char}
    {fuel : Nat} {x : α} {others : List α} (read : item text = some (x, separator :: further))
    (onward : separated item separator fuel further = some (others, rest)) :
    separated item separator (fuel + 1) text = some (x :: others, rest) := by
  rw [separated, read]
  dsimp only
  rw [expect?, if_pos rfl]
  dsimp only
  rw [onward]

theorem separated_single {α : Type} {item : Reader α} {separator : Char} {text : List Char} {x : α}
    (read : item text = some (x, rest)) (ends : expect? separator rest = none) (fuel : Nat) :
    separated item separator (fuel + 1) text = some ([x], rest) := by
  rw [separated, read]
  dsimp only
  rw [ends]

/-- An item of an array, with what may stand on both sides of it. -/
def element (item : Reader Value) : Reader Value := fun text =>
  (item (skipGap false text)).map fun (value, rest) => (value, skipGap false rest)

theorem skipGap_dark {c : Char} (plain : isPlain c = true) (dark : isBlank c = false)
    (notComment : c ≠ '#') (rest : List Char) : skipGap false (c :: rest) = c :: rest := by
  rw [skipGap.eq_4 _ _ _ (ne_feed plain) fun _ same => absurd same (ne_return (.inr plain)),
    if_neg (by decide), if_neg (by simp [dark]), if_neg notComment]

/-- What may stand behind an item of an array: a comma or the bracket that closes it. -/
def IsMark (mark : Char) : Prop :=
  mark = ',' ∨ mark = ']'

theorem IsMark.unquoted {mark : Char} (isMark : IsMark mark) (rest : List Char) :
    Unquoted (mark :: rest) := by
  rcases isMark with rfl | rfl
  · exact ⟨by simp, by simp⟩
  · exact ⟨by simp, by simp⟩

theorem IsMark.skipGap_eq {mark : Char} (isMark : IsMark mark) (rest : List Char) :
    skipGap false (mark :: rest) = mark :: rest := by
  rcases isMark with rfl | rfl
  · exact skipGap_dark (by decide) (by decide) (by decide) rest
  · exact skipGap_dark (by decide) (by decide) (by decide) rest

theorem skipGap_writeText (text rest : List Char) :
    skipGap false (writeText text ++ rest) = writeText text ++ rest := by
  obtain ⟨quote, body, head, rfl | rfl⟩ := head_writeText text
  · rw [head]
    exact skipGap_dark (by decide) (by decide) (by decide) _
  · rw [head]
    exact skipGap_dark (by decide) (by decide) (by decide) _

theorem element_writeText (bound depth : Nat) {mark : Char} (gap text rest : List Char)
    (isMark : IsMark mark)
    (skips : skipGap false (gap ++ (writeText text ++ mark :: rest)) =
      skipGap false (writeText text ++ mark :: rest)) :
    element (value bound depth) (gap ++ (writeText text ++ mark :: rest)) =
      some (.string (String.ofList text), mark :: rest) := by
  rw [element, skips, skipGap_writeText, value_writeText _ _ text (isMark.unquoted rest)]
  dsimp only [Option.map_some]
  rw [isMark.skipGap_eq]

theorem element_bracket (rest : List Char) :
    element (value bound depth) ('\n' :: ']' :: rest) = none := by
  have skips : skipGap false ('\n' :: ']' :: rest) = ']' :: rest :=
    IsMark.skipGap_eq (.inr rfl) rest
  rw [element, skips, value_bracket]
  rfl

/-- The lines of an array whose items stand on lines of their own. -/
def itemLines (texts : List (List Char)) : List Char :=
  texts.flatMap fun text => [' ', ' ', ' ', ' '] ++ writeText text ++ [',', '\n']

theorem itemLines_cons (text : List Char) (texts : List (List Char)) (rest : List Char) :
    '\n' :: (itemLines (text :: texts) ++ rest) =
      ['\n', ' ', ' ', ' ', ' '] ++
        (writeText text ++ ',' :: '\n' :: (itemLines texts ++ rest)) := by
  simp [itemLines]

/-- Items on lines of their own are all read, up to the last comma. -/
theorem separated_itemLines (bound depth : Nat) (text : List Char) (texts : List (List Char))
    {fuel : Nat} (enough : texts.length < fuel) (rest : List Char) :
    separated (element (value bound depth)) ',' fuel
        ('\n' :: (itemLines (text :: texts) ++ ']' :: rest)) =
      some ((text :: texts).map fun text => .string (String.ofList text),
        ',' :: '\n' :: ']' :: rest) := by
  induction texts generalizing text fuel with
  | nil =>
    obtain ⟨fuel, rfl⟩ := Nat.exists_eq_add_of_lt enough
    have read := element_writeText bound depth ['\n', ' ', ' ', ' ', ' '] text
      ('\n' :: ']' :: rest) (.inl rfl) rfl
    rw [itemLines_cons]
    exact separated_last read (element_bracket rest) _
  | cons next texts ih =>
    obtain ⟨fuel, rfl⟩ : ∃ less, fuel = less + 1 := ⟨fuel - 1, by omega⟩
    have read := element_writeText bound depth ['\n', ' ', ' ', ' ', ' '] text
      ('\n' :: (itemLines (next :: texts) ++ ']' :: rest)) (.inl rfl) rfl
    have others := ih next (Nat.lt_of_succ_lt_succ enough)
    rw [itemLines_cons]
    exact separated_cons read others

theorem array_of_separated {item : Reader Value} {text behind : List Char} {first : Value}
    {others : List Value}
    (read : separated (element item) ',' bound text = some (first :: others, behind))
    (closes : expect? ']' (skipGap false ((expect? ',' behind).getD behind)) = some rest) :
    array bound item text = some (.array (first :: others), rest) := by
  unfold array
  unfold element at read
  dsimp only
  rw [read]
  dsimp only [Option.getD_some, List.isEmpty_cons, Bool.false_eq_true, if_false]
  rw [if_neg (by decide), closes]
  rfl

theorem array_empty {item : Reader Value} {text : List Char}
    (none : separated (element item) ',' bound text = none)
    (closes : expect? ']' (skipGap false text) = some rest) :
    array bound item text = some (.array [], rest) := by
  unfold array
  unfold element at none
  dsimp only
  rw [none]
  dsimp only [Option.getD_none, List.isEmpty_nil, if_true]
  rw [if_pos rfl, closes]
  rfl

/-- An array of texts reads back, if as many items may be read. -/
theorem value_writeTexts (bound depth : Nat) (texts : List (List Char))
    (enough : texts.length ≤ bound) (rest : List Char) :
    value bound (depth + 1) (writeTexts texts ++ rest) =
      some (.array (texts.map fun text => .string (String.ofList text)), rest) := by
  have closing : expect? ']' (skipGap false (']' :: rest)) = some rest := by
    rw [IsMark.skipGap_eq (.inr rfl), expect?, if_pos rfl]
  -- No item, one on the line of the brackets, or each on its own line with a comma behind it.
  cases texts with
  | nil =>
    have none : separated (element (value bound depth)) ',' bound (']' :: rest) = none := by
      have refused : element (value bound depth) (']' :: rest) = none := by
        rw [element, IsMark.skipGap_eq (.inr rfl), value_bracket]
        rfl
      cases bound with
      | zero => rfl
      | succ bound => rw [separated, refused]
    exact array_empty none closing
  | cons first texts =>
    cases texts with
    | nil =>
      have oneMore : 1 ≤ bound := enough
      obtain ⟨fuel, rfl⟩ := Nat.exists_eq_add_of_le' oneMore
      have read := element_writeText (fuel + 1) depth [] first rest (.inr rfl) rfl
      have ends : expect? ',' (']' :: rest) = none := rfl
      have single := separated_single read ends fuel
      have written : writeTexts [first] ++ rest = '[' :: (writeText first ++ ']' :: rest) := by
        simp [writeTexts]
      rw [written]
      refine array_of_separated single ?_
      rw [ends]
      exact closing
    | cons second texts =>
      have read := separated_itemLines bound depth first (second :: texts) enough rest
      have written : writeTexts (first :: second :: texts) ++ rest =
          '[' :: '\n' :: (itemLines (first :: second :: texts) ++ ']' :: rest) := by
        simp [writeTexts, itemLines]
      rw [written]
      refine array_of_separated read ?_
      rw [expect?, if_pos rfl]
      exact closing

/-- A key that needs no quotes. -/
def Bare (name : List Char) : Prop :=
  name ≠ [] ∧ name.all isBareKey = true

instance (name : List Char) : Decidable (Bare name) :=
  inferInstanceAs (Decidable (_ ∧ _))

theorem Bare.forall_mem {name : List Char} (bare : Bare name) :
    ∀ c ∈ name, isBareKey c = true :=
  List.all_eq_true.mp bare.2

/-- A bare key begins with none of the characters that mean something else. -/
theorem Bare.head {name : List Char} (bare : Bare name) (rest : List Char) {c : Char}
    (other : isBareKey c = false) (further : List Char) : name ++ rest ≠ c :: further := by
  intro same
  have all := bare.forall_mem
  cases name with
  | nil => exact bare.1 rfl
  | cons d name =>
    have first : d = c := (List.cons.inj same).1
    rw [← first, all d List.mem_cons_self] at other
    cases other

theorem Bare.skipBlanks {name : List Char} (bare : Bare name) (rest : List Char) :
    skipBlanks (name ++ rest) = name ++ rest := by
  have all := bare.forall_mem
  cases name with
  | nil => exact absurd rfl bare.1
  | cons d name =>
    have dark : isBlank d = false := by
      cases blank : isBlank d with
      | false => rfl
      | true =>
        simp only [isBlank, Bool.or_eq_true, decide_eq_true_eq] at blank
        have bareKey := all d List.mem_cons_self
        rcases blank with rfl | rfl <;> exact absurd bareKey (by decide)
    rw [Toml.skipBlanks, List.cons_append, List.dropWhile_cons_of_neg (by simp [dark])]

/-- A bare key is read up to the mark behind it. -/
theorem key_bare {name : List Char} {mark : Char} (bare : Bare name)
    (ends : isBareKey mark = false) (dark : Toml.skipBlanks (mark :: rest) = further)
    (noDot : expect? '.' further = none) :
    key (name ++ mark :: rest) = some ([String.ofList name], further) := by
  have taken : keyPart (name ++ mark :: rest) = some (String.ofList name, mark :: rest) := by
    have whole : (name ++ mark :: rest).takeWhile isBareKey = name := by
      rw [List.takeWhile_append_of_pos bare.forall_mem, List.takeWhile_cons_of_neg (by simp [ends]),
        List.append_nil]
    have left : (name ++ mark :: rest).dropWhile isBareKey = mark :: rest := by
      rw [List.dropWhile_append_of_pos bare.forall_mem, List.dropWhile_cons_of_neg (by simp [ends])]
    have some : name.isEmpty = false := by simp [bare.1]
    rw [keyPart, keyPart.chars.eq_3 _ (bare.head _ (by decide)) (bare.head _ (by decide)), whole,
      left, some]
    rfl
  have read : spaced keyPart (name ++ mark :: rest) = some (String.ofList name, further) := by
    rw [spaced, bare.skipBlanks, taken]
    dsimp only [Option.map_some]
    rw [dark]
  exact separated_single read noDot _

theorem pair_bare {name text : List Char} {item : Reader Value} {read : Value} (bare : Bare name)
    (dark : skipBlanks text = text) (found : item text = some (read, rest)) :
    pair item (name ++ ' ' :: '=' :: ' ' :: text) =
      some (([], String.ofList name, read), rest) := by
  have part : key (name ++ ' ' :: '=' :: ' ' :: text) =
      some ([String.ofList name], '=' :: ' ' :: text) := key_bare bare (by decide) rfl rfl
  have skips : skipBlanks (' ' :: text) = text := by
    rw [skipBlanks, List.dropWhile_cons_of_pos (by decide)]
    exact dark
  have equals : expect? '=' ('=' :: ' ' :: text) = some (' ' :: text) := rfl
  simp only [pair, part, Option.bind_eq_bind, Option.bind_some, equals, skips, found]
  rfl

variable {draft next : Draft} {name : List Char}

theorem lines_expression {text : List Char} (filled : text ≠ []) (dark : skipBlanks text = text)
    (line : expression? bound draft text = some (next, '\n' :: rest)) (fuel : Nat) :
    lines bound (fuel + 1) draft text = lines bound fuel next rest := by
  have ends : lineEnd? ('\n' :: rest) = some rest := rfl
  rw [lines, dark]
  cases text with
  | nil => exact absurd rfl filled
  | cons c text => simp only [line, Option.bind_eq_bind, Option.bind_some, ends]

/-- A line that gives a field of the open table its value. -/
theorem lines_field {text : List Char} {read : Value} (bare : Bare name)
    (dark : skipBlanks text = text)
    (found : value bound (depthLimit - 1) text = some (read, '\n' :: rest))
    (defined : draft.define? [] (String.ofList name) read = some next) (fuel : Nat) :
    lines bound (fuel + 1) draft (name ++ ' ' :: '=' :: ' ' :: text) =
      lines bound fuel next rest := by
  have line : expression? bound draft (name ++ ' ' :: '=' :: ' ' :: text) =
      some (next, '\n' :: rest) := by
    rw [expression?.eq_5 _ _ _ (bare.head _ (by decide)) (bare.head _ (by decide))
      (bare.head _ (by decide)) (bare.head _ (by decide)), pair_bare bare dark found]
    simp only [Option.bind_eq_bind, Option.bind_some, defined]
  exact lines_expression (by simp [bare.1]) (bare.skipBlanks _) line fuel

/-- A line that opens a table. -/
theorem lines_header (next : Draft) (bare : Bare name)
    (opened : draft.openTable? [String.ofList name] = some next) (fuel : Nat) (rest : List Char) :
    lines bound (fuel + 1) draft ('[' :: (name ++ ']' :: '\n' :: rest)) =
      lines bound fuel next rest := by
  have path : key (name ++ ']' :: '\n' :: rest) =
      some ([String.ofList name], ']' :: '\n' :: rest) := key_bare bare (by decide) rfl rfl
  have closes : expect? ']' (']' :: '\n' :: rest) = some ('\n' :: rest) := rfl
  have line : expression? bound draft ('[' :: (name ++ ']' :: '\n' :: rest)) =
      some (next, '\n' :: rest) := by
    rw [expression?, header?.eq_2 _ _ (bare.head _ (by decide)), path]
    simp only [Option.bind_eq_bind, Option.bind_some, closes, opened]
  exact lines_expression (List.cons_ne_nil _ _) rfl line fuel

theorem lines_empty (fuel : Nat) (rest : List Char) :
    lines bound (fuel + 1) draft ('\n' :: rest) = lines bound fuel draft rest := by
  rfl

theorem lines_end (fuel : Nat) : lines bound (fuel + 1) draft [] = draft.close? := by
  rfl

end ResourceNames.Toml
