import ResourceNames.Proofs.CommandFlags
import ResourceNames.Proofs.RawTexts

namespace ResourceNames.Arguments

theorem le_ofDigitChars (digits : List Char) (value : Nat) :
    value ≤ Nat.ofDigitChars 10 digits value := by
  rw [Nat.ofDigitChars_eq_ofDigitChars_zero]
  exact Nat.le_add_right_of_le (Nat.le_mul_of_pos_left value (Nat.pow_pos (by decide)))

theorem readDigits_of_digits {digits : List Char} {value : Nat}
    (all : ∀ c ∈ digits, c.isDigit = true)
    (small : Nat.ofDigitChars 10 digits value < lengthLimit) :
    readDigits value digits = .ok (Nat.ofDigitChars 10 digits value) := by
  induction digits generalizing value with
  | nil => rfl
  | cons c digits ih =>
    obtain ⟨digit, others⟩ := List.forall_mem_cons.mp all
    rw [Nat.ofDigitChars_cons] at small ⊢
    have inside := (le_ofDigitChars digits _).trans_lt small
    simp only [readDigits, digit, Bool.not_true, Bool.false_eq_true, if_false]
    rw [if_neg (Nat.not_le.mpr inside)]
    exact ih others small

theorem toString_injective : Function.Injective (toString : Nat → String) := by
  intro m n same
  have digits := congrArg String.toList same
  rw [Nat.toString_eq_repr, Nat.toString_eq_repr, Nat.toList_repr, Nat.toList_repr] at digits
  rw [← Nat.ofDigitChars_ten_toDigits (n := m), digits, Nat.ofDigitChars_ten_toDigits]

/-- A length in range is read from its decimal digits. -/
theorem readLength_toString {n : Nat} (small : n < lengthLimit) :
    readLength (toString n) = .ok n := by
  have all : ∀ c ∈ Nat.toDigits 10 n, c.isDigit = true := fun c member =>
    Nat.isDigit_of_mem_toDigits (by decide) (by decide) member
  unfold readLength
  rw [Nat.toString_eq_repr, Nat.toList_repr]
  split
  · rename_i none
    exact absurd none Nat.toDigits_ne_nil
  · rename_i plus
    exact absurd (all '+' (by rw [plus]; exact List.mem_cons_self)) (by decide)
  · rename_i plus
    exact absurd (all '+' (by rw [plus]; exact List.mem_cons_self)) (by decide)
  · rw [readDigits_of_digits all (by rwa [Nat.ofDigitChars_ten_toDigits]),
      Nat.ofDigitChars_ten_toDigits]

/-- The word for a mode. -/
def modeWord : Mode → String
  | .human => "human"
  | .json => "json"
  | .plain => "plain"

theorem readFormat?_modeWord (mode : Mode) : readFormat? (modeWord mode) = some mode := by
  cases mode <;> rfl

theorem modeWord_injective : Function.Injective modeWord := fun a b same => Option.some.inj <| by
  rw [← readFormat?_modeWord a, same, readFormat?_modeWord]

theorem modeWord_ne_nothing (mode : Mode) : Text.bytes (modeWord mode) ≠ [] := by
  cases mode <;> decide

theorem readText_bytes (text : String) : readText (Text.bytes text) = .ok text := by
  rw [readText, Text.ofBytes?_bytes]

theorem takeValue_modeWord (arguments : Arguments) (mode : Mode) :
    arguments.takeValue .outputFormat (Text.bytes (modeWord mode)) =
      .ok { arguments with mode := some mode } := by
  simp only [takeValue, modeWord_ne_nothing, if_false, Text.ofBytes?_bytes, Option.bind_some,
    readFormat?_modeWord]
  rfl

theorem takeOption_modeWord (arguments : Arguments) (fresh : arguments.mode = none) (mode : Mode) :
    arguments.takeOption .outputFormat (Text.bytes (modeWord mode)) =
      .ok { arguments with mode := some mode } := by
  have first : arguments.has .outputFormat = false := by rw [has, fresh]; rfl
  rw [takeOption, first, takeValue_modeWord]
  rfl

/-- The value of an option as it is written, if it is given. -/
def given (arguments : Arguments) : Valued → Option RawText
  | .config => arguments.config.map Path.raw
  | .minLength => arguments.minLength.map fun n => Text.bytes (toString n)
  | .suffix => arguments.suffix.map Text.bytes
  | .outputDir => arguments.outputDirectory.map Path.raw
  | .outputFormat => arguments.mode.map fun mode => Text.bytes (modeWord mode)

/-- The options and flags of arguments, each value and each raising of a flag by itself. -/
def options (arguments : Arguments) : List Occurrence :=
  Valued.all.flatMap (fun o => ((arguments.given o).map (.attached o)).toList) ++
    Flag.all.flatMap fun f => List.replicate (arguments.raised f) (.flag f)

/-- Arguments that can be written: paths are named, and numbers are in range. -/
structure Writable (arguments : Arguments) : Prop where
  config : arguments.config ≠ some ⟨[]⟩
  outputDirectory : arguments.outputDirectory ≠ some ⟨[]⟩
  inputs : ⟨[]⟩ ∉ arguments.inputs
  minLength : ∀ n, arguments.minLength = some n → n < lengthLimit
  verbose : arguments.verbose ≤ 255

/-- The value that an occurrence attaches to an option. -/
def Occurrence.value? (o : Valued) : Occurrence → Option RawText
  | .attached o' value => if o' = o then some value else none
  | _ => none

/-- The inputs that an occurrence names. -/
def Occurrence.paths : Occurrence → List RawText
  | .inputs paths => paths
  | _ => []

variable {arguments target taken : Arguments} {o : Valued} {f : Flag} {value : RawText}
  {occurrence : Occurrence} {todo : List Occurrence}

theorem Occurrence.value?_self : Occurrence.value? o (.attached o value) = some value :=
  if_pos rfl

theorem Occurrence.value?_other {p : Valued} (other : p ≠ o) :
    Occurrence.value? p (.attached o value) = none :=
  if_neg (Ne.symm other)

theorem has_eq_isSome (arguments : Arguments) (o : Valued) :
    arguments.has o = (arguments.given o).isSome := by
  cases o <;> simp [has, given]

theorem ext_given (values : ∀ o, arguments.given o = target.given o)
    (flags : ∀ f, arguments.raised f = target.raised f)
    (inputs : arguments.inputs = target.inputs) : arguments = target := by
  have path := Option.map_injective Path.raw_injective
  have number := Option.map_injective (Text.bytes_injective.comp toString_injective)
  have text := Option.map_injective Text.bytes_injective
  have mode := Option.map_injective (Text.bytes_injective.comp modeWord_injective)
  obtain ⟨⟩ := arguments
  obtain ⟨⟩ := target
  simp only [mk.injEq]
  exact ⟨inputs, path (values .config), number (values .minLength), text (values .suffix),
    path (values .outputDir), mode (values .outputFormat), flags .verbose,
    eq_of_toNat_eq (flags .quiet), eq_of_toNat_eq (flags .dryRun),
    eq_of_toNat_eq (flags .generateConfig)⟩

/-- Each option that is given has its value once. -/
theorem values_options (arguments : Arguments) (o : Valued) :
    arguments.options.filterMap (Occurrence.value? o) = (arguments.given o).toList := by
  have single (o' : Valued) :
      ((arguments.given o').map (Occurrence.attached o')).toList.filterMap (Occurrence.value? o) =
        if o' = o then (arguments.given o').toList else [] := by
    cases arguments.given o' with
    | none => simp
    | some value => by_cases same : o' = o <;> simp [Occurrence.value?, same]
  have none (f : Flag) (n : Nat) :
      (List.replicate n (Occurrence.flag f)).filterMap (Occurrence.value? o) = [] := by
    simp [List.filterMap_replicate, Occurrence.value?]
  rw [options, List.filterMap_append]
  cases o <;> simp [Valued.all, Flag.all, single, none]

/-- Each flag stands as often as it is raised. -/
theorem count_options (arguments : Arguments) (f : Flag) :
    arguments.options.count (.flag f) = arguments.raised f := by
  have none (o : Valued) :
      (((arguments.given o).map (Occurrence.attached o)).toList).count (.flag f) = 0 := by
    cases arguments.given o <;> simp
  rw [options, List.count_append]
  cases f <;> simp [Valued.all, Flag.all, List.count_append, none, List.count_replicate, raised]

/-- What is still to be taken in makes the one arguments of the others. -/
structure Remains (target taken : Arguments) (todo : List Occurrence) : Prop where
  values : ∀ o, (taken.given o).toList ++
    (todo.filter Occurrence.isClosed).filterMap (Occurrence.value? o) = (target.given o).toList
  flags : ∀ f, taken.raised f + (todo.filter Occurrence.isClosed).count (.flag f) = target.raised f
  inputs : taken.inputs ++ (todo.flatMap Occurrence.paths).map Path.ofRaw = target.inputs
  known : ∀ occurrence ∈ todo, occurrence.isClosed = true ∨ ∃ paths, occurrence = .inputs paths

/-- A flag that is not raised yet as often as it is to be can be taken. -/
theorem takeFlag_of_raised (writable : target.Writable) (room : taken.raised f < target.raised f) :
    ∃ after, taken.takeFlag f = .ok after ∧ (∀ o, after.given o = taken.given o) ∧
      (∀ g, after.raised g = taken.raised g + if f = g then 1 else 0) ∧
      after.inputs = taken.inputs := by
  have once {flag flag' : Bool} (room : flag.toNat < flag'.toNat) : flag = false := by
    cases flag with
    | false => rfl
    | true =>
      have bound := Bool.toNat_le flag'
      exact absurd room (Nat.not_lt.mpr bound)
  cases f with
  | verbose =>
    have counted : min 255 (taken.verbose + 1) = taken.verbose + 1 :=
      Nat.min_eq_right ((Nat.succ_le_of_lt room).trans writable.verbose)
    refine ⟨_, rfl, fun o => by cases o <;> rfl, fun g => ?_, rfl⟩
    cases g <;> simp [raised, counted]
  | quiet | dryRun | generateConfig =>
    simp only [takeFlag, once room, Bool.false_eq_true, if_false]
    refine ⟨_, rfl, fun o => by cases o <;> rfl, fun g => ?_, rfl⟩
    cases g <;> simp [raised, once room]
  | help | version => exact absurd room (Nat.not_lt_zero _)

theorem readPath_of_given {path? : Option Path} {subject : Subject} (named : path? ≠ some ⟨[]⟩)
    (wanted : path?.map Path.raw = some value) : readPath subject value = .ok ⟨value⟩ := by
  obtain ⟨path, rfl, rfl⟩ := Option.map_eq_some_iff.mp wanted
  exact if_neg fun empty => named (by rw [← empty])

/-- A value that is to be given, and has not been, can be taken. -/
theorem takeOption_of_given (writable : target.Writable) (wanted : target.given o = some value)
    (fresh : taken.given o = none) :
    ∃ after, taken.takeOption o value = .ok after ∧
      (∀ p, after.given p = if p = o then some value else taken.given p) ∧
      (∀ f, after.raised f = taken.raised f) ∧ after.inputs = taken.inputs := by
  have first : taken.has o = false := by rw [has_eq_isSome, fresh]; rfl
  simp only [takeOption, first, Bool.false_eq_true, if_false]
  cases o with
  | config =>
    simp only [takeValue, readPath_of_given writable.config wanted]
    refine ⟨_, rfl, fun p => ?_, fun f => by cases f <;> rfl, rfl⟩
    cases p <;> rfl
  | minLength =>
    obtain ⟨n, given, rfl⟩ := Option.map_eq_some_iff.mp wanted
    simp only [takeValue, readText_bytes, bind, Except.bind,
      readLength_toString (writable.minLength n given)]
    refine ⟨_, rfl, fun p => ?_, fun f => by cases f <;> rfl, rfl⟩
    cases p <;> rfl
  | suffix =>
    obtain ⟨suffix, given, rfl⟩ := Option.map_eq_some_iff.mp wanted
    simp only [takeValue, readText_bytes]
    refine ⟨_, rfl, fun p => ?_, fun f => by cases f <;> rfl, rfl⟩
    cases p <;> rfl
  | outputDir =>
    simp only [takeValue, readPath_of_given writable.outputDirectory wanted]
    refine ⟨_, rfl, fun p => ?_, fun f => by cases f <;> rfl, rfl⟩
    cases p <;> rfl
  | outputFormat =>
    obtain ⟨mode, given, rfl⟩ := Option.map_eq_some_iff.mp wanted
    rw [takeValue_modeWord]
    refine ⟨_, rfl, fun p => ?_, fun f => by cases f <;> rfl, rfl⟩
    cases p <;> rfl

theorem toList_append_cons_eq_toList {before final : Option RawText} {rest : List RawText} :
    before.toList ++ value :: rest = final.toList ↔
      before = none ∧ final = some value ∧ rest = [] := by
  cases before <;> cases final <;> simp [eq_comm]

/-- What is still to be taken in can be taken from its front. -/
theorem take_of_remains (writable : target.Writable)
    (remains : Remains target taken (occurrence :: todo)) :
    ∃ after, taken.take occurrence = .ok after ∧ Remains target after todo := by
  obtain ⟨values, flags, inputs, known⟩ := remains
  obtain ⟨here, behind⟩ := List.forall_mem_cons.mp known
  cases occurrence with
  | flag f =>
    have room : taken.raised f < target.raised f := by
      have wanted := flags f
      rw [List.filter_cons_of_pos rfl, List.count_cons_self] at wanted
      omega
    obtain ⟨after, done, given, raised, same⟩ := takeFlag_of_raised writable room
    refine ⟨after, done, fun o => ?_, fun g => ?_, ?_, behind⟩
    · rw [given]
      exact values o
    · have wanted := flags g
      rw [List.filter_cons_of_pos rfl, List.count_cons] at wanted
      rw [raised, ← wanted]
      by_cases now : f = g
      · simp [now, Nat.add_assoc, Nat.add_comm 1]
      · simp [now]
    · rw [same]
      exact inputs
  | attached o value =>
    have wanted := values o
    rw [List.filter_cons_of_pos rfl, List.filterMap_cons_some Occurrence.value?_self] at wanted
    -- In the end the option has one value, so it has none before and gets none behind.
    obtain ⟨fresh, last, whole⟩ := toList_append_cons_eq_toList.mp wanted
    obtain ⟨after, done, given, raised, same⟩ := takeOption_of_given writable last fresh
    refine ⟨after, done, fun p => ?_, fun g => ?_, ?_, behind⟩
    · rw [given]
      by_cases now : p = o
      · rw [if_pos now, now, whole, last, List.append_nil]
      · rw [if_neg now]
        have other := values p
        rwa [List.filter_cons_of_pos rfl,
          List.filterMap_cons_none (Occurrence.value?_other now)] at other
    · rw [raised]
      exact flags g
    · rw [same]
      exact inputs
  | apart => simp [Occurrence.isClosed] at here
  | inputs paths =>
    have named : paths.contains [] = false := by
      refine Bool.eq_false_iff.mpr fun unnamed => writable.inputs ?_
      rw [← inputs, List.flatMap_cons, List.map_append]
      exact List.mem_append_right _ <| List.mem_append_left _ <|
        List.mem_map.mpr ⟨[], List.contains_iff_mem.mp unnamed, rfl⟩
    refine ⟨{ taken with inputs := taken.inputs ++ paths.map Path.ofRaw }, ?_, fun o => ?_,
      fun g => ?_, ?_, behind⟩
    · rw [take, named]
      rfl
    · exact values o
    · exact flags g
    · rw [← inputs, List.flatMap_cons, List.map_append, List.append_assoc]
      rfl

/-- What is still to be taken in is taken in, to its end. -/
theorem foldlM_of_remains (writable : target.Writable) (remains : Remains target taken todo) :
    todo.foldlM take taken = .ok target := by
  induction todo generalizing taken with
  | nil =>
    obtain ⟨values, flags, inputs, -⟩ := remains
    have same : taken = target := by
      refine ext_given (fun o => ?_) flags ((List.append_nil _).symm.trans inputs)
      have wanted := (List.append_nil _).symm.trans (values o)
      rw [← Option.head?_toList (o := taken.given o), wanted, Option.head?_toList]
    rw [same]
    rfl
  | cons occurrence todo ih =>
    obtain ⟨after, done, left⟩ := take_of_remains writable remains
    rw [List.foldlM_cons, done]
    exact ih left

end ResourceNames.Arguments
