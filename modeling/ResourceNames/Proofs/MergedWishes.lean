import Mathlib.Logic.Basic
import ResourceNames.Settings

namespace ResourceNames

/-- Of two wishes it makes no difference which comes later, if there is only one. -/
theorem or_comm_of_apart {α : Type} {first second : Option α}
    (apart : ¬ (first ≠ none ∧ second ≠ none)) : first.or second = second.or first := by
  cases first with
  | none => exact Option.or_none.symm
  | some wish =>
    cases second with
    | none => rfl
    | some other => exact absurd ⟨Option.some_ne_none wish, Option.some_ne_none other⟩ apart

/-- A wish that is granted already changes nothing. -/
theorem getD_of_granted {α : Type} {wish : Option α} {value : α}
    (granted : ∀ wished, wish = some wished → value = wished) : wish.getD value = value := by
  cases wish with
  | none => rfl
  | some wished => exact (granted wished rfl).symm

namespace Overrides

/-- The inputs that are wished for. An empty list is no wish. -/
def wishedInputs (wishes : Overrides) : Option (List Path) :=
  wishes.inputs.filter fun inputs => inputs ≠ []

/-- What can be wished for. -/
inductive Aspect
  | inputs
  | minLength
  | suffix
  | outputDirectory
deriving DecidableEq, Repr

/-- Whether there is a wish for an aspect. -/
def Concerns (wishes : Overrides) : Aspect → Prop
  | .inputs => wishes.wishedInputs ≠ none
  | .minLength => wishes.minLength ≠ none
  | .suffix => wishes.suffix ≠ none
  | .outputDirectory => wishes.outputDirectory ≠ none

instance (wishes : Overrides) (aspect : Aspect) : Decidable (wishes.Concerns aspect) :=
  match aspect with
  | .inputs => inferInstanceAs (Decidable (_ ≠ _))
  | .minLength => inferInstanceAs (Decidable (_ ≠ _))
  | .suffix => inferInstanceAs (Decidable (_ ≠ _))
  | .outputDirectory => inferInstanceAs (Decidable (_ ≠ _))

/-- There is no aspect for which both have a wish. -/
def Disjoint (first second : Overrides) : Prop :=
  ∀ aspect, ¬ (first.Concerns aspect ∧ second.Concerns aspect)

/-- The wishes of both. Where both have one, the later one counts. -/
def andThen (earlier later : Overrides) : Overrides where
  inputs := later.wishedInputs.or earlier.inputs
  minLength := later.minLength.or earlier.minLength
  suffix := later.suffix.or earlier.suffix
  outputDirectory := later.outputDirectory.or earlier.outputDirectory

/-- All that is wished for is so in the settings. -/
structure Granted (wishes : Overrides) (settings : Settings) : Prop where
  inputs : ∀ inputs, wishes.inputs = some inputs → inputs ≠ [] → settings.batch.inputs = inputs
  minLength : ∀ least, wishes.minLength = some least → settings.scan.minLength = least
  suffix : ∀ suffix, wishes.suffix = some suffix → settings.scan.suffix = suffix
  outputDirectory : ∀ dir, wishes.outputDirectory = some dir →
    settings.batch.outputDirectory = some dir

variable {wishes : Overrides}

theorem wishedInputs_eq_some_iff {inputs : List Path} :
    wishes.wishedInputs = some inputs ↔ wishes.inputs = some inputs ∧ inputs ≠ [] := by
  simp [wishedInputs, Option.filter_eq_some_iff]

theorem wishedInputs_andThen (earlier later : Overrides) :
    (earlier.andThen later).wishedInputs = later.wishedInputs.or earlier.wishedInputs := by
  cases wished : later.wishedInputs with
  | none => rw [wishedInputs, andThen, wished, Option.none_or, Option.none_or, wishedInputs]
  | some inputs =>
    have nonempty := (wishedInputs_eq_some_iff.mp wished).2
    rw [Option.some_or, wishedInputs_eq_some_iff, andThen, wished, Option.some_or]
    exact ⟨rfl, nonempty⟩

end Overrides

namespace Settings

open Overrides

variable {settings : Settings} {wishes first second : Overrides}

/-- The two are the same in an aspect. -/
def AlikeIn (settings other : Settings) : Aspect → Prop
  | .inputs => settings.batch.inputs = other.batch.inputs
  | .minLength => settings.scan.minLength = other.scan.minLength
  | .suffix => settings.scan.suffix = other.scan.suffix
  | .outputDirectory => settings.batch.outputDirectory = other.batch.outputDirectory

/-- Each aspect is as it is wished for, or else as it was. -/
theorem merge_eq (settings : Settings) (wishes : Overrides) :
    settings.merge wishes =
      { scan :=
          { minLength := wishes.minLength.getD settings.scan.minLength
            suffix := wishes.suffix.getD settings.scan.suffix }
        batch :=
          { inputs := wishes.wishedInputs.getD settings.batch.inputs
            outputExtension := settings.batch.outputExtension
            outputDirectory := wishes.outputDirectory.or settings.batch.outputDirectory } } := by
  rcases given : wishes.inputs with _ | _ | ⟨input, inputs⟩ <;>
    simp [merge, wishedInputs, given, Option.filter]

/-- Merging twice is merging once what the two come to. -/
theorem merge_andThen (settings : Settings) (first second : Overrides) :
    (settings.merge first).merge second = settings.merge (first.andThen second) := by
  rw [merge_eq settings (first.andThen second), wishedInputs_andThen]
  simp only [merge_eq, andThen, Option.getD_or, Option.or_assoc]

theorem granted_merge (settings : Settings) (wishes : Overrides) :
    wishes.Granted (settings.merge wishes) := by
  rw [merge_eq]
  refine ⟨fun inputs given some => ?_, fun least given => ?_, fun suffix given => ?_,
    fun dir given => ?_⟩
  · rw [wishedInputs_eq_some_iff.mpr ⟨given, some⟩, Option.getD_some]
  · rw [given, Option.getD_some]
  · rw [given, Option.getD_some]
  · rw [given, Option.some_or]

/-- Where an aspect is not wished for, it is left as it was. -/
theorem alikeIn_merge {aspect : Aspect} (unconcerned : ¬ wishes.Concerns aspect)
    (settings : Settings) : (settings.merge wishes).AlikeIn settings aspect := by
  rw [merge_eq]
  cases aspect <;> rw [Concerns, not_ne_iff] at unconcerned <;> simp [AlikeIn, unconcerned]

/-- Wishes that are granted already are all those that change nothing. -/
theorem merge_eq_self_iff : settings.merge wishes = settings ↔ wishes.Granted settings := by
  constructor
  · intro same
    exact same ▸ granted_merge settings wishes
  · intro granted
    have inputs : wishes.wishedInputs.getD settings.batch.inputs = settings.batch.inputs :=
      getD_of_granted fun inputs wished =>
        let ⟨given, nonempty⟩ := wishedInputs_eq_some_iff.mp wished
        granted.inputs inputs given nonempty
    have outputDirectory : wishes.outputDirectory.or settings.batch.outputDirectory =
        settings.batch.outputDirectory := by
      cases given : wishes.outputDirectory with
      | none => exact Option.none_or
      | some dir => rw [granted.outputDirectory dir given, Option.some_or]
    rw [merge_eq, inputs, outputDirectory, getD_of_granted granted.minLength,
      getD_of_granted granted.suffix]

/-- Wishes for nothing are always granted. -/
theorem granted_of_unconcerned (nothing : ∀ aspect, ¬ wishes.Concerns aspect)
    (settings : Settings) : wishes.Granted settings where
  inputs inputs given nonempty :=
    absurd (wishedInputs_eq_some_iff.mpr ⟨given, nonempty⟩)
      (by simp [not_ne_iff.mp (nothing .inputs)])
  minLength least given := absurd given (by simp [not_ne_iff.mp (nothing .minLength)])
  suffix suffix given := absurd given (by simp [not_ne_iff.mp (nothing .suffix)])
  outputDirectory dir given := absurd given (by simp [not_ne_iff.mp (nothing .outputDirectory)])

theorem merge_comm (apart : first.Disjoint second) (settings : Settings) :
    (settings.merge first).merge second = (settings.merge second).merge first := by
  rw [merge_andThen, merge_andThen, merge_eq, merge_eq, wishedInputs_andThen, wishedInputs_andThen]
  simp only [andThen, or_comm_of_apart (apart .inputs), or_comm_of_apart (apart .minLength),
    or_comm_of_apart (apart .suffix), or_comm_of_apart (apart .outputDirectory)]

/-- Wishes act on settings, and the later ones count. What is merged one after the other can be
combined first, aspect by aspect, and merged once. Every wish is granted, and merging it again
changes nothing. An aspect without a wish, and for the inputs this includes an empty list, is left
as it was, and so is the extension always. Wishes for different aspects can be merged in any
order. -/
theorem merge_acts (settings : Settings) (first second : Overrides) :
    (settings.merge first).merge second = settings.merge (first.andThen second) ∧
    first.Granted (settings.merge first) ∧
    (settings.merge first).merge first = settings.merge first ∧
    (∀ aspect, ¬ first.Concerns aspect → (settings.merge first).AlikeIn settings aspect) ∧
    ((∀ aspect, ¬ first.Concerns aspect) → settings.merge first = settings) ∧
    (settings.merge first).batch.outputExtension = settings.batch.outputExtension ∧
    (first.Disjoint second →
      (settings.merge first).merge second = (settings.merge second).merge first) := by
  refine ⟨merge_andThen settings first second, granted_merge settings first, ?_,
    fun aspect unconcerned => alikeIn_merge unconcerned settings, ?_, rfl,
    fun apart => merge_comm apart settings⟩
  · exact merge_eq_self_iff.mpr (granted_merge settings first)
  · intro nothing
    exact merge_eq_self_iff.mpr (granted_of_unconcerned nothing settings)

/-- Inputs and a length are wished for, then a suffix; an empty list of inputs is no wish. -/
theorem merge_acts_apart :
    let first : Overrides := { inputs := some [⟨"a"⟩, ⟨"b"⟩], minLength := some 7 }
    let second : Overrides := { inputs := some [], suffix := some ".BIN" }
    let merged : Settings := ⟨⟨7, ".BIN"⟩, ⟨[⟨"a"⟩, ⟨"b"⟩], "txt", none⟩⟩
    first.Disjoint second ∧ (standard.merge first).merge second = merged ∧
      (standard.merge second).merge first = merged ∧
      ¬ first.Concerns .suffix ∧ (standard.merge first).AlikeIn standard .suffix ∧
      (∀ aspect, ¬ ({ inputs := some [] } : Overrides).Concerns aspect) ∧
      standard.merge { inputs := some [] } = standard := by
  intro first second merged
  have apart : first.Disjoint second := by
    intro aspect
    cases aspect <;> decide
  have unconcerned : ¬ first.Concerns .suffix := by decide
  have nothing : ∀ aspect, ¬ ({ inputs := some [] } : Overrides).Concerns aspect := by
    intro aspect
    cases aspect <;> decide
  obtain ⟨-, -, -, left, -, -, commutes⟩ := merge_acts standard first second
  obtain ⟨-, -, -, -, nowhere, -⟩ := merge_acts standard { inputs := some [] } {}
  have there : (standard.merge first).merge second = merged := by decide
  exact ⟨apart, there, (commutes apart).symm.trans there, unconcerned, left .suffix unconcerned,
    nothing, nowhere nothing⟩

end Settings

end ResourceNames
