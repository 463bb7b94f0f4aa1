import ResourceNames.Proofs.ExtractionExact

namespace ResourceNames

/-- What is left out of a list is a repeat or a value of its own, so that the rest has no more
repeats than the whole. -/
theorem length_add_card_le_of_sublist {names kept : List String} (sub : kept.Sublist names) :
    kept.length + names.toFinset.card ≤ names.length + kept.toFinset.card := by
  induction sub with
  | slnil => rfl
  | @cons kept names name _ ih =>
    have grown : (name :: names).toFinset.card ≤ names.toFinset.card + 1 := by
      rw [List.toFinset_cons]
      exact Finset.card_insert_le name names.toFinset
    rw [List.length_cons]
    omega
  | @cons_cons kept names name sub ih =>
    rw [List.length_cons, List.length_cons, List.toFinset_cons, List.toFinset_cons]
    -- A name that is new to `names` is new to `kept` as well.
    by_cases again : name ∈ kept
    · have inNames : name ∈ names := sub.subset again
      rw [Finset.insert_eq_of_mem (List.mem_toFinset.mpr again),
        Finset.insert_eq_of_mem (List.mem_toFinset.mpr inNames)]
      omega
    · have grown := Finset.card_insert_le name names.toFinset
      rw [Finset.card_insert_of_notMem (mt List.mem_toFinset.mp again)]
      omega

theorem adjacentRepeats_le_of_sublist {names kept : List String}
    (ordered : names.Pairwise (· ≤ ·)) (sub : kept.Sublist names) :
    adjacentRepeats kept ≤ adjacentRepeats names := by
  have whole := adjacentRepeats_add_card ordered
  have part := adjacentRepeats_add_card (ordered.sublist sub)
  have fewer := length_add_card_le_of_sublist sub
  omega

/-- Asking for longer runs leaves out runs and keeps the others where they are. -/
theorem candidates_sublist {least more : Nat} (longer : least ≤ more) (data : List UInt8) :
    (candidates more data).Sublist (candidates least data) := by
  rw [candidates_eq_filter, candidates_eq_filter]
  refine List.monotone_filter_right _ fun run reported => ?_
  rw [Run.reportable_iff] at reported ⊢
  omega

namespace ScanRule

/-- `strict` asks for what `loose` asks for, and may ask for more: longer runs, or more bytes at
their ends. -/
structure Tightens (strict loose : ScanRule) : Prop where
  minLength_le : loose.minLength ≤ strict.minLength
  suffix_suffix : Text.bytes loose.suffix <:+ Text.bytes strict.suffix

variable {strict loose rule : ScanRule}

theorem Tightens.keeps {bytes : List UInt8} (tightens : strict.Tightens loose)
    (kept : strict.keeps bytes) : loose.keeps bytes := by
  obtain ⟨long, ending⟩ := keeps_iff.mp kept
  have longer := tightens.minLength_le
  have enough : max 1 loose.minLength ≤ bytes.length := by omega
  exact keeps_iff.mpr ⟨enough, tightens.suffix_suffix.trans ending⟩

theorem Tightens.keptRuns_eq (tightens : strict.Tightens loose) (data : List UInt8) :
    strict.keptRuns data = (loose.keptRuns data).filter fun run => strict.keeps run.bytes := by
  rw [keptRuns_eq_filter, keptRuns_eq_filter, List.filter_filter]
  refine List.filter_congr fun run _ => ?_
  cases kept : strict.keeps run.bytes with
  | false => rfl
  | true => exact (tightens.keeps kept).symm

/-- Whether a name is long enough and has the suffix. -/
def suits (rule : ScanRule) (name : String) : Bool :=
  decide (rule.minLength ≤ Text.size name ∧ Text.bytes rule.suffix <:+ Text.bytes name)

/-- Of a maximal run the text tells as much as the bytes. -/
theorem suits_text {data : List UInt8} {run : Run} (maximal : run.Maximal data) :
    rule.suits run.text = rule.keeps run.bytes := by
  obtain ⟨-, -, -, -, nonempty, printable, -⟩ := maximal
  have positive : 0 < run.bytes.length := List.length_pos_iff.mpr nonempty
  rw [Bool.eq_iff_iff, keeps_iff, suits, decide_eq_true_eq, Text.size, Run.bytes_text printable]
  have same : rule.minLength ≤ run.bytes.length ↔ max 1 rule.minLength ≤ run.bytes.length := by
    omega
  rw [same]

theorem Tightens.names_eq (tightens : strict.Tightens loose) (data : List UInt8) :
    (strict.extract data).names = (loose.extract data).names.filter strict.suits := by
  refine names_eq_of_perm ((loose.names_ascending data).filter _) ?_
  have suited : (loose.keptRuns data).filter (fun run => strict.suits run.text) =
      strict.keptRuns data := by
    rw [tightens.keptRuns_eq]
    exact List.filter_congr fun run kept => suits_text (mem_keptRuns.mp kept).1
  have texts := (loose.names_perm data).filter strict.suits
  rw [List.filter_map] at texts
  rw [← suited]
  exact texts

/-- A stricter rule finds, in the same order, those names among the ones found before that are long
enough for it and have its suffix. It counts no more candidates, names and repeats, and as many
bytes and runs. -/
theorem extract_tightened (tightens : strict.Tightens loose) (data : List UInt8) :
    let found := loose.extract data
    let left := strict.extract data
    left.names = found.names.filter (fun name =>
        decide (strict.minLength ≤ Text.size name ∧
          Text.bytes strict.suffix <:+ Text.bytes name)) ∧
      left.names.Sublist found.names ∧
      left.statistics.candidates ≤ found.statistics.candidates ∧
      left.statistics.matched ≤ found.statistics.matched ∧
      left.statistics.duplicates ≤ found.statistics.duplicates ∧
      left.statistics.bytesScanned = found.statistics.bytesScanned ∧
      left.statistics.printableRuns = found.statistics.printableRuns := by
  intro found left
  have names : left.names = found.names.filter strict.suits := tightens.names_eq data
  have sub : left.names.Sublist found.names := names ▸ List.filter_sublist
  have reported := (candidates_sublist tightens.minLength_le data).length_le
  have repeats := adjacentRepeats_le_of_sublist (loose.names_ascending data) sub
  have counts := strict.statistics_eq data
  have countsBefore := loose.statistics_eq data
  refine ⟨names, sub, ?_⟩
  rw [counts, countsBefore]
  exact ⟨reported, sub.length_le, repeats, rfl, rfl⟩

/-- Of four names one is too short for the stricter rule, and one lacks its suffix. -/
theorem extract_tightened_pair :
    let strict : ScanRule := ⟨6, "B.SEQ"⟩
    let data := Text.bytes "AB.SEQ\x00X.SEQ\x00B.SEQ\x00AB.SEQ"
    strict.Tightens {} ∧
      (extract {} data).names = ["AB.SEQ", "AB.SEQ", "B.SEQ", "X.SEQ"] ∧
      (strict.extract data).names = ["AB.SEQ", "AB.SEQ"] ∧
      (strict.extract data).statistics.duplicates ≤ (extract {} data).statistics.duplicates := by
  intro strict data
  have tightens : strict.Tightens {} := ⟨by decide, by decide⟩
  have before : (extract {} data).names = ["AB.SEQ", "AB.SEQ", "B.SEQ", "X.SEQ"] :=
    names_eq_of_perm (by decide) (by decide +kernel)
  obtain ⟨names, -, -, -, repeats, -, -⟩ := extract_tightened tightens data
  rw [before] at names
  exact ⟨tightens, before, names.trans (by decide), repeats⟩

end ScanRule

end ResourceNames
