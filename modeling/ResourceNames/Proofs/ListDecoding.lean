import Mathlib.Data.Set.Function
import ResourceNames.LiteralList

namespace ResourceNames.LiteralList

/-- The characters behind a value on its line. -/
def closing : List Char := ['"', ',', '\n']

/-- The text in front of the first `closing`, and the text behind it. -/
def cut? : List Char → Option (List Char × List Char)
  | [] => none
  | c :: text =>
    if closing <+: c :: text then some ([], (c :: text).drop closing.length)
    else (cut? text).map fun (value, rest) => (c :: value, rest)

/-- Of the characters of `closing` the first is unlike the others, so that none of its occurrences
begins inside a value and ends behind it. -/
theorem closing_prefix_value {value rest : List Char} (nonempty : value ≠ [])
    (first : closing <+: value ++ closing ++ rest) : closing <+: value := by
  match value with
  | [] => exact absurd rfl nonempty
  | [_] | [_, _] => simp [closing, List.cons_prefix_cons] at first
  | a :: b :: c :: _ => simpa [closing, List.cons_prefix_cons] using first

/-- The first `closing` is the one behind the value, if the value holds none. -/
theorem cut?_value_closing {value : List Char} (plain : ¬ closing <:+: value) (rest : List Char) :
    cut? (value ++ closing ++ rest) = some (value, rest) := by
  induction value with
  | nil =>
    have here : closing <+: [] ++ closing ++ rest := List.prefix_append closing rest
    exact if_pos here
  | cons c value ih =>
    have later : ¬ closing <+: c :: value ++ closing ++ rest := fun first =>
      plain (closing_prefix_value (List.cons_ne_nil c value) first).isInfix
    have inner := ih fun deeper => plain (List.infix_cons deeper)
    rw [List.cons_append, List.cons_append] at later ⊢
    rw [cut?, if_neg later, inner]
    rfl

theorem of_cut? {text value rest : List Char} (cut : cut? text = some (value, rest)) :
    text = value ++ closing ++ rest ∧ ¬ closing <:+: value := by
  induction text generalizing value with
  | nil => simp [cut?] at cut
  | cons c text ih =>
    rw [cut?] at cut
    split at cut
    case isTrue here =>
      obtain ⟨behind, whole⟩ := here
      rw [← whole, List.drop_left] at cut
      cases cut
      exact ⟨whole.symm, by decide⟩
    case isFalse later =>
      obtain ⟨⟨value, behind⟩, found, same⟩ := Option.map_eq_some_iff.mp cut
      cases same
      obtain ⟨rfl, plain⟩ := ih found
      refine ⟨rfl, fun inside => ?_⟩
      -- One that begins with the value would have been found at the front of the text.
      rcases List.infix_cons_iff.mp inside with first | deeper
      · exact later (first.trans (by simp))
      · exact plain deeper

theorem length_cut?_lt {text value rest : List Char} (cut : cut? text = some (value, rest)) :
    rest.length < text.length := by
  obtain ⟨rfl, -⟩ := of_cut? cut
  simp only [closing, List.length_append, List.length_cons]
  omega

/-- The values whose lines make up a text, each of which ends with the first `closing` in it. -/
def decodeLines? (text : List Char) : Option (List String) :=
  match text with
  | [] => some []
  | quote :: text =>
    if quote = '"' then
      match cut : cut? text with
      | none => none
      | some (value, rest) =>
        have : rest.length < text.length := length_cut?_lt cut
        (decodeLines? rest).map (String.ofList value :: ·)
    else none
termination_by text.length

def decode? (text : String) : Option (List String) :=
  decodeLines? text.toList

theorem toList_render_cons (value : String) (values : List String) :
    (render (value :: values)).toList =
      '"' :: (value.toList ++ closing ++ (render values).toList) := by
  have opening : "\"".toList = ['"'] := rfl
  have ending : "\",\n".toList = closing := rfl
  simp [render, line, String.join_cons, opening, ending]

theorem decodeLines?_of_cut {text value rest : List Char} (cut : cut? text = some (value, rest)) :
    decodeLines? ('"' :: text) = (decodeLines? rest).map (String.ofList value :: ·) := by
  rw [decodeLines?, if_pos rfl]
  split
  case h_1 missing => simp [cut] at missing
  case h_2 found =>
    cases cut.symm.trans found
    rfl

theorem decodeLines?_render {values : List String}
    (plain : ∀ value ∈ values, ¬ closing <:+: value.toList) :
    decodeLines? (render values).toList = some values := by
  induction values with
  | nil =>
    have empty : (render []).toList = [] := rfl
    rw [empty, decodeLines?]
  | cons value values ih =>
    obtain ⟨first, others⟩ := List.forall_mem_cons.mp plain
    rw [toList_render_cons, decodeLines?_of_cut (cut?_value_closing first _), ih others,
      Option.map_some, String.ofList_toList]

theorem render_of_decodeLines? {text : List Char} {values : List String}
    (decoded : decodeLines? text = some values) :
    text = (render values).toList ∧ ∀ value ∈ values, ¬ closing <:+: value.toList := by
  fun_induction decodeLines? text generalizing values with
  | case1 =>
    cases decoded
    exact ⟨rfl, by simp⟩
  | case2 text missing => simp at decoded
  | case3 text value rest cut shorter ih =>
    obtain ⟨others, decodedRest, rfl⟩ := Option.map_eq_some_iff.mp decoded
    obtain ⟨rfl, first⟩ := of_cut? cut
    obtain ⟨rfl, plain⟩ := ih decodedRest
    rw [toList_render_cons, String.toList_ofList]
    refine ⟨rfl, List.forall_mem_cons.mpr ⟨?_, plain⟩⟩
    rwa [String.toList_ofList]
  | case4 quote text other => simp at decoded

/-- A text decodes to a list of values exactly if it is the rendering of the list and no value has
a quote, a comma and a newline in a row. Hence the rendering tells such lists apart, whatever
quotes, backslashes and newlines there are in the values and at their ends. -/
theorem render_uniquely_decodable :
    (∀ (text : String) (values : List String), decode? text = some values ↔
      text = render values ∧ ∀ value ∈ values, ¬ ['"', ',', '\n'] <:+: value.toList) ∧
    Set.InjOn render {values | ∀ value ∈ values, ¬ ['"', ',', '\n'] <:+: value.toList} := by
  have decodes : ∀ text values, decode? text = some values ↔
      text = render values ∧ ∀ value ∈ values, ¬ closing <:+: value.toList := by
    intro text values
    constructor
    · intro decoded
      obtain ⟨same, plain⟩ := render_of_decodeLines? decoded
      exact ⟨String.toList_inj.mp same, plain⟩
    · rintro ⟨rfl, plain⟩
      exact decodeLines?_render plain
  refine ⟨decodes, fun values plain others othersPlain same => ?_⟩
  have decoded := (decodes _ values).mpr ⟨rfl, plain⟩
  have again := (decodes _ others).mpr ⟨same, othersPlain⟩
  exact Option.some.inj (decoded.symm.trans again)

/-- A value that holds a quote, a comma and a newline in a row may pass for two. -/
example : render ["a\",\n\"b"] = render ["a", "b"] := by decide

/-- Values in which parts of `closing` stand alone, at the ends of lines and next to quotes. -/
def awkward : List String := ["", "\"", "a\",", "\\\n", ",\n\""]

theorem render_uniquely_decodable_awkward :
    (∀ value ∈ awkward, ¬ ['"', ',', '\n'] <:+: value.toList) ∧
      decode? (render awkward) = some awkward := by
  have plain : ∀ value ∈ awkward, ¬ ['"', ',', '\n'] <:+: value.toList := by decide
  exact ⟨plain, (render_uniquely_decodable.1 _ _).mpr ⟨rfl, plain⟩⟩

end ResourceNames.LiteralList
