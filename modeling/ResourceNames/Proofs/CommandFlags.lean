import ResourceNames.Proofs.SettingsResolution

namespace ResourceNames.Arguments

variable {words : List RawText} {arguments after : Arguments} {occurrences : List Occurrence}
  {occurrence : Occurrence} {option : Valued} {value : RawText} {halt : Halt}

/-- What the words of a command line say together. -/
def reading (words : List RawText) : Reading :=
  .ofWords (Word.ofAll words)

/-- The words of a command line hold a flag, whether or not they can be followed. -/
def Asks (words : List RawText) (flag : Flag) : Prop :=
  .flag flag ∈ (reading words).occurrences

instance (words : List RawText) (flag : Flag) : Decidable (Asks words flag) :=
  inferInstanceAs (Decidable (_ ∈ _))

/-- A command line is followed if every word of it can be made out and taken in. -/
theorem parse_eq_ok_iff : parse words = .ok arguments ↔
    (reading words).fault? = none ∧
      (reading words).occurrences.foldlM take {} = .ok arguments ∧
      ¬ (arguments.quiet = true ∧ 0 < arguments.verbose) := by
  unfold parse
  dsimp only
  rw [← reading, bind_eq_ok_iff]
  cases fault : (reading words).fault? with
  | some fault => simp
  | none =>
    have whole : (reading words).counted = (reading words).occurrences := by
      simp [Reading.counted, fault]
    rw [whole]
    constructor
    · rintro ⟨taken, folded, kept⟩
      dsimp only at kept
      split at kept
      · split at kept <;> cases kept
      · rename_i agree
        cases kept
        exact ⟨rfl, folded, agree⟩
    · rintro ⟨-, folded, agree⟩
      exact ⟨arguments, folded, if_neg agree⟩

/-- Words that can all be taken in, but hold two flags that exclude each other. -/
theorem parse_clash (complete : (reading words).fault? = none)
    (folded : (reading words).occurrences.foldlM take {} = .ok arguments)
    (clash : arguments.quiet = true ∧ 0 < arguments.verbose) :
    parse words = .error (.misuse
      (if verboseLast (reading words).occurrences then .conflict (.flag .quiet) (.flag .verbose)
        else .conflict (.flag .verbose) (.flag .quiet))) := by
  have whole : (reading words).counted = (reading words).occurrences := by
    simp [Reading.counted, complete]
  unfold parse
  dsimp only
  rw [← reading, whole, folded, complete]
  dsimp only [bind, Except.bind]
  rw [if_pos clash]
  split <;> rfl

/-- How often the verbose flag and the others are set. -/
def raised (arguments : Arguments) : Flag → Nat
  | .verbose => arguments.verbose
  | .quiet => arguments.quiet.toNat
  | .dryRun => arguments.dryRun.toNat
  | .generateConfig => arguments.generateConfig.toNat
  | .help | .version => 0

theorem eq_of_toNat_eq {a b : Bool} (same : a.toNat = b.toNat) : a = b := by
  cases a <;> cases b <;> first | rfl | cases same

theorem takeValue_raised (taken : arguments.takeValue option value = .ok after) (f : Flag) :
    after.raised f = arguments.raised f := by
  cases option with
  | config | outputDir =>
    obtain ⟨path, -, kept⟩ := bind_eq_ok_iff.mp taken
    cases kept
    rfl
  | suffix =>
    obtain ⟨text, -, kept⟩ := bind_eq_ok_iff.mp taken
    cases kept
    rfl
  | minLength =>
    obtain ⟨text, -, kept⟩ := bind_eq_ok_iff.mp taken
    split at kept <;> cases kept
    rfl
  | outputFormat =>
    dsimp only [takeValue] at taken
    split at taken
    · cases taken
    · split at taken <;> cases taken
      rfl

theorem takeOption_raised (taken : arguments.takeOption option value = .ok after) (f : Flag) :
    after.raised f = arguments.raised f := by
  unfold takeOption at taken
  split at taken
  · cases taken
  · cases valued : arguments.takeValue option value with
    | error misuse =>
      rw [valued] at taken
      cases taken
    | ok with_ =>
      rw [valued] at taken
      cases taken
      exact takeValue_raised valued f

theorem takeFlag_raised {flag : Flag} (taken : arguments.takeFlag flag = .ok after) (f : Flag) :
    0 < after.raised f ↔ 0 < arguments.raised f ∨ flag = f := by
  cases flag with
  | verbose =>
    cases taken
    cases f <;> simp [raised]
  | quiet | dryRun | generateConfig =>
    dsimp only [takeFlag] at taken
    split at taken <;> cases taken
    cases f <;> simp [raised]
  | help | version => cases taken

/-- Only the word for a flag raises it, and the two that end the reading are never raised. -/
theorem take_raised (taken : arguments.take occurrence = .ok after) (f : Flag) :
    0 < after.raised f ↔ 0 < arguments.raised f ∨ occurrence = .flag f := by
  cases occurrence with
  | flag flag => rw [takeFlag_raised taken f, Occurrence.flag.injEq]
  | attached option value => simp [takeOption_raised taken f]
  | apart option value? =>
    cases value? with
    | none => cases taken
    | some value => simp [takeOption_raised taken f]
  | inputs paths =>
    dsimp only [take] at taken
    split at taken <;> cases taken
    have same : ({ arguments with inputs := arguments.inputs ++ paths.map Path.ofRaw } :
      Arguments).raised f = arguments.raised f := rfl
    simp [same]

theorem foldlM_raised (folded : occurrences.foldlM take arguments = .ok after) (f : Flag) :
    0 < after.raised f ↔ 0 < arguments.raised f ∨ .flag f ∈ occurrences := by
  induction occurrences generalizing arguments with
  | nil =>
    cases folded
    simp
  | cons occurrence occurrences ih =>
    obtain ⟨between, taken, rest⟩ := bind_eq_ok_iff.mp folded
    rw [ih rest, take_raised taken f, List.mem_cons, or_assoc, eq_comm (a := occurrence)]

/-- Arguments to work with have the flags that the words hold. -/
theorem parse_raised (parsed : parse words = .ok arguments) (f : Flag) :
    0 < arguments.raised f ↔ Asks words f := by
  obtain ⟨-, folded, -⟩ := parse_eq_ok_iff.mp parsed
  have unraised : ¬ 0 < ({} : Arguments).raised f := by cases f <;> decide
  rw [foldlM_raised folded f, or_iff_right unraised]
  rfl

theorem parse_flags (parsed : parse words = .ok arguments) :
    ¬ Asks words .help ∧ ¬ Asks words .version ∧
      (arguments.dryRun = true ↔ Asks words .dryRun) ∧
      (arguments.generateConfig = true ↔ Asks words .generateConfig) := by
  simp only [← parse_raised parsed]
  simp [raised, Nat.pos_iff_ne_zero]

theorem parse_quiet (parsed : parse words = .ok arguments) :
    arguments.quiet = true ↔ Asks words .quiet := by
  rw [← parse_raised parsed]
  simp [raised, Nat.pos_iff_ne_zero]

/-- The flag that a halt answers, if it answers one. -/
def Halt.flag? : Halt → Option Flag
  | .help => some .help
  | .version => some .version
  | .misuse _ => none

theorem takeOption_halt (halted : arguments.takeOption option value = .error halt) :
    halt.flag? = none := by
  unfold takeOption at halted
  split at halted
  · cases halted
    rfl
  · cases taken : arguments.takeValue option value with
    | error misuse =>
      rw [taken] at halted
      cases halted
      rfl
    | ok after =>
      rw [taken] at halted
      cases halted

theorem take_halt {flag : Flag} (halted : arguments.take occurrence = .error halt)
    (answers : halt.flag? = some flag) : occurrence = .flag flag := by
  cases occurrence with
  | flag f =>
    cases f with
    | verbose => cases halted
    | quiet | dryRun | generateConfig =>
      dsimp only [take, takeFlag] at halted
      split at halted <;> cases halted
      cases answers
    | help | version =>
      cases halted
      cases answers
      rfl
  | attached option value => cases (takeOption_halt halted).symm.trans answers
  | apart option value? =>
    cases value? with
    | none =>
      cases halted
      cases answers
    | some value => cases (takeOption_halt halted).symm.trans answers
  | inputs paths =>
    dsimp only [take] at halted
    split at halted <;> cases halted
    cases answers

theorem foldlM_halt {flag : Flag} (halted : occurrences.foldlM take arguments = .error halt)
    (answers : halt.flag? = some flag) : .flag flag ∈ occurrences := by
  induction occurrences generalizing arguments with
  | nil => cases halted
  | cons occurrence occurrences ih =>
    rw [List.foldlM_cons] at halted
    cases taken : arguments.take occurrence with
    | error early =>
      rw [taken] at halted
      cases halted
      exact List.mem_cons.mpr (.inl (take_halt taken answers).symm)
    | ok between =>
      rw [taken] at halted
      exact List.mem_cons_of_mem _ (ih halted)

theorem Reading.closed_subset (occurrences : List Occurrence) :
    closed occurrences ⊆ occurrences := by
  fun_induction closed occurrences with
  | case1 => exact List.Subset.refl _
  | case2 => exact List.Subset.refl _
  | case3 => exact List.nil_subset _
  | case4 occurrence occurrences more ih => exact List.cons_subset_cons _ ih

/-- The program speaks of itself only when it is asked to. -/
theorem parse_halt {flag : Flag} (halted : parse words = .error halt)
    (answers : halt.flag? = some flag) : Asks words flag := by
  unfold parse at halted
  dsimp only at halted
  rw [← reading] at halted
  cases folded : (reading words).counted.foldlM take {} with
  | error early =>
    rw [folded] at halted
    cases halted
    have member := foldlM_halt folded answers
    unfold Reading.counted at member
    split at member
    · exact Reading.closed_subset _ member
    · exact member
  | ok taken =>
    rw [folded] at halted
    dsimp only [bind, Except.bind] at halted
    split at halted
    · cases halted
      cases answers
    · split at halted
      · split at halted <;> cases halted <;> cases answers
      · cases halted

/-- The arguments with the two flags as they are said to be. -/
def flagged (arguments : Arguments) (plans samples : Bool) : Arguments :=
  { arguments with dryRun := plans, generateConfig := samples }

/-- Values are taken whatever the flags are, and leave them. -/
theorem takeValue_flagged (arguments : Arguments) (option : Valued) (value : RawText)
    (plans samples : Bool) : (arguments.flagged plans samples).takeValue option value =
      (arguments.takeValue option value).map (flagged · plans samples) := by
  cases option with
  | config =>
    cases read : readPath (.valued .config) value <;> simp only [takeValue, read] <;> rfl
  | minLength =>
    cases read : readText value with
    | error misuse =>
      simp only [takeValue, read]
      rfl
    | ok text =>
      simp only [takeValue, read, bind, Except.bind]
      cases readLength text <;> rfl
  | suffix =>
    cases read : readText value <;> simp only [takeValue, read] <;> rfl
  | outputDir =>
    cases read : readPath (.valued .outputDir) value <;> simp only [takeValue, read] <;> rfl
  | outputFormat =>
    by_cases empty : value = []
    · simp only [takeValue, empty, if_true]
      rfl
    · cases read : (Text.ofBytes? value).bind readFormat? <;>
        simp only [takeValue, empty, if_false, read] <;> rfl

theorem takeOption_flagged (arguments : Arguments) (option : Valued) (value : RawText)
    (plans samples : Bool) : (arguments.flagged plans samples).takeOption option value =
      (arguments.takeOption option value).map (flagged · plans samples) := by
  have same : (arguments.flagged plans samples).has option = arguments.has option := by
    cases option <;> rfl
  unfold takeOption
  rw [same, takeValue_flagged]
  cases arguments.has option with
  | true => rfl
  | false => cases arguments.takeValue option value <;> rfl

/-- The arguments for a dry run. -/
def planned (arguments : Arguments) : Arguments :=
  { arguments with dryRun := true }

/-- All but the flag itself is taken for a dry run as it is for a real one. -/
theorem take_planned (taken : arguments.take occurrence = .ok after)
    (other : occurrence ≠ .flag .dryRun) :
    arguments.planned.take occurrence = .ok after.planned := by
  have option {option : Valued} {value : RawText}
      (taken : arguments.takeOption option value = .ok after) :
      arguments.planned.takeOption option value = .ok after.planned := by
    have again := takeOption_flagged arguments option value true arguments.generateConfig
    have kept : after.generateConfig = arguments.generateConfig :=
      eq_of_toNat_eq (takeOption_raised taken .generateConfig)
    rw [taken, ← kept] at again
    rw [planned, ← kept]
    exact again
  cases occurrence with
  | flag f =>
    cases f with
    | verbose =>
      cases taken
      rfl
    | quiet =>
      dsimp only [take, takeFlag] at taken
      split at taken <;> cases taken
      rename_i loud
      simp [take, takeFlag, planned, loud]
    | dryRun => exact absurd rfl other
    | generateConfig =>
      dsimp only [take, takeFlag] at taken
      split at taken <;> cases taken
      rename_i first
      simp [take, takeFlag, planned, first]
    | help => cases taken
    | version => cases taken
  | attached => exact option taken
  | apart _ value? =>
    cases value? with
    | none => cases taken
    | some value => exact option taken
  | inputs paths =>
    dsimp only [take] at taken
    split at taken <;> cases taken
    rename_i named
    rw [take, if_neg named]
    rfl

theorem foldlM_planned (folded : occurrences.foldlM take arguments = .ok after)
    (real : .flag .dryRun ∉ occurrences) :
    occurrences.foldlM take arguments.planned = .ok after.planned := by
  induction occurrences generalizing arguments with
  | nil =>
    cases folded
    rfl
  | cons occurrence occurrences ih =>
    obtain ⟨between, taken, rest⟩ := bind_eq_ok_iff.mp folded
    have other : occurrence ≠ .flag .dryRun := Ne.symm (List.ne_of_not_mem_cons real)
    rw [List.foldlM_cons, take_planned taken other]
    exact ih rest (List.not_mem_of_not_mem_cons real)

/-- A command line for a batch becomes one for a dry run when the flag is put in front. -/
theorem parse_dryRun (parsed : parse words = .ok arguments) (real : arguments.dryRun = false) :
    parse (Text.bytes "--dry-run" :: words) = .ok arguments.planned := by
  have unasked : .flag .dryRun ∉ (reading words).occurrences := by
    intro asked
    exact Bool.false_ne_true (real.symm.trans ((parse_flags parsed).2.2.1.mpr asked))
  obtain ⟨complete, folded, agree⟩ := parse_eq_ok_iff.mp parsed
  have first : reading (Text.bytes "--dry-run" :: words) =
      (reading words).cons (.flag .dryRun) := rfl
  refine parse_eq_ok_iff.mpr ⟨by rw [first]; exact complete, ?_, agree⟩
  rw [first]
  exact foldlM_planned folded unasked

end ResourceNames.Arguments
