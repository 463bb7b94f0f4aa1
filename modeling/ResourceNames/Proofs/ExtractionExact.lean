import Mathlib.Data.Finset.Card
import ResourceNames.Extraction
import ResourceNames.Proofs.CursorReading
import ResourceNames.Proofs.RunText

namespace ResourceNames

/-- In ascending order equal names are neighbours, so the repeats are what the distinct names
leave over. -/
theorem adjacentRepeats_add_card {names : List String} (ordered : names.Pairwise (· ≤ ·)) :
    adjacentRepeats names + names.toFinset.card = names.length := by
  induction names with
  | nil => rfl
  | cons name names ih =>
    obtain ⟨least, later⟩ := List.pairwise_cons.mp ordered
    cases names with
    | nil => rfl
    | cons following rest =>
      have step : adjacentRepeats (name :: following :: rest) =
          adjacentRepeats (following :: rest) + if name = following then 1 else 0 := by
        simp [adjacentRepeats, List.countP_cons]
      have counted := ih later
      by_cases same : name = following
      · subst same
        have again : (name :: name :: rest).toFinset = (name :: rest).toFinset := by simp
        rw [step, again, if_pos rfl, List.length_cons]
        omega
      · have fresh : name ∉ (following :: rest).toFinset := by
          intro member
          rcases List.mem_cons.mp (List.mem_toFinset.mp member) with equal | deeper
          · exact same equal
          · have above := (List.pairwise_cons.mp later).1 name deeper
            exact same (le_antisymm (least following List.mem_cons_self) above)
        rw [step, if_neg same, List.toFinset_cons, Finset.card_insert_of_notMem fresh,
          List.length_cons]
        omega

namespace ScanRule

/-- The runs of a stream whose texts are its names. -/
def keptRuns (rule : ScanRule) (data : List UInt8) : List Run :=
  Suffix.keep ⟨rule.suffix⟩ (candidates rule.minLength data)

variable {rule : ScanRule} {data : List UInt8} {run : Run}

/-- Whether a run of these bytes is long enough and has the suffix. -/
def keeps (rule : ScanRule) (bytes : List UInt8) : Bool :=
  decide (max 1 rule.minLength ≤ bytes.length) && Suffix.accepts ⟨rule.suffix⟩ bytes

theorem keeps_iff {bytes : List UInt8} :
    rule.keeps bytes ↔
      max 1 rule.minLength ≤ bytes.length ∧ Text.bytes rule.suffix <:+ bytes := by
  simp only [keeps, Bool.and_eq_true, decide_eq_true_eq, Suffix.accepts, Suffix.bytes,
    List.isSuffixOf_iff_suffix]

theorem keptRuns_eq_filter (rule : ScanRule) (data : List UInt8) :
    rule.keptRuns data = (maximalRuns data).filter fun run => rule.keeps run.bytes := by
  rw [keptRuns, Suffix.keep, candidates_eq_filter, List.filter_filter]
  exact List.filter_congr fun run _ => Bool.and_comm _ _

theorem mem_keptRuns :
    run ∈ rule.keptRuns data ↔
      run.Maximal data ∧ max 1 rule.minLength ≤ run.bytes.length ∧
        Text.bytes rule.suffix <:+ run.bytes := by
  rw [keptRuns_eq_filter, List.mem_filter, mem_maximalRuns, keeps_iff]

theorem keptRuns_nodup (rule : ScanRule) (data : List UInt8) : (rule.keptRuns data).Nodup := by
  rw [keptRuns_eq_filter]
  exact (maximalRuns_nodup data).filter _

theorem names_perm (rule : ScanRule) (data : List UInt8) :
    (rule.extract data).names.Perm ((rule.keptRuns data).map Run.text) :=
  List.mergeSort_perm _ _

theorem names_ascending (rule : ScanRule) (data : List UInt8) :
    (rule.extract data).names.Pairwise (· ≤ ·) := by
  have sorted : (((rule.keptRuns data).map Run.text).mergeSort fun a b => decide (a ≤ b)).Pairwise
      fun a b => decide (a ≤ b) = true := by
    apply List.pairwise_mergeSort
    · intro a b c first second
      exact decide_eq_true (le_trans (of_decide_eq_true first) (of_decide_eq_true second))
    · intro a b
      rw [Bool.or_eq_true, decide_eq_true_eq, decide_eq_true_eq]
      exact le_total a b
  exact sorted.imp of_decide_eq_true

/-- There is only one way to list the texts of the kept runs in ascending order. -/
theorem names_eq_of_perm {names : List String} (ascending : names.Pairwise (· ≤ ·))
    (same : names.Perm ((rule.keptRuns data).map Run.text)) : (rule.extract data).names = names :=
  List.Perm.eq_of_pairwise (fun _ _ _ _ => le_antisymm) (rule.names_ascending data) ascending
    ((rule.names_perm data).trans same.symm)

theorem statistics_eq (rule : ScanRule) (data : List UInt8) :
    (rule.extract data).statistics =
      { bytesScanned := data.length
        printableRuns := (maximalRuns data).length
        candidates := (candidates rule.minLength data).length
        matched := (rule.extract data).names.length
        duplicates := adjacentRepeats (rule.extract data).names } := by
  rw [← Cursor.runsSeen_rest_start rule.minLength data]
  rfl

/-- Every name is the text of a kept run, so that its bytes are those of the run. -/
theorem names_bytes_ascending (rule : ScanRule) (data : List UInt8) :
    (rule.extract data).names.Pairwise fun a b => Text.bytes a ≤ Text.bytes b := by
  refine (rule.names_ascending data).imp_of_mem fun {a b} first second ordered => ?_
  obtain ⟨left, leftKept, rfl⟩ := List.mem_map.mp ((rule.names_perm data).mem_iff.mp first)
  obtain ⟨right, rightKept, rfl⟩ := List.mem_map.mp ((rule.names_perm data).mem_iff.mp second)
  rw [Run.bytes_text (mem_keptRuns.mp leftKept).1.printable,
    Run.bytes_text (mem_keptRuns.mp rightKept).1.printable]
  exact Run.bytes_le ordered

/-- A stream without a separator has one name at most, the whole of it. -/
theorem names_of_printable (printable : ∀ byte ∈ data, isPrintable byte) (nonempty : data ≠ []) :
    (rule.extract data).names =
      if max 1 rule.minLength ≤ data.length ∧ Text.bytes rule.suffix <:+ data then
        [(⟨0, data⟩ : Run).text]
      else [] := by
  have whole : maximalRuns data = [⟨0, data⟩] := by
    rw [maximalRuns, runsFrom_printable 0 printable, Run.ofBytes, if_neg nonempty]
  by_cases taken : rule.keeps data
  · rw [if_pos (keeps_iff.mp taken)]
    refine names_eq_of_perm (List.pairwise_singleton _ _) ?_
    simp [keptRuns_eq_filter, whole, taken]
  · rw [if_neg (mt keeps_iff.mpr taken)]
    refine names_eq_of_perm List.Pairwise.nil ?_
    simp [keptRuns_eq_filter, whole, taken]

/-- The names found in a stream are, in ascending order of bytes, the texts of the maximal runs that
are long enough and have the suffix, each as often as there are such runs. The statistics count the
bytes, all maximal runs, those that are long enough, the names, and the names less the distinct. -/
theorem extract_exact (rule : ScanRule) (data : List UInt8) :
    let found := rule.extract data
    found.names.Pairwise (fun a b => Text.bytes a ≤ Text.bytes b) ∧
      (∃ kept : List Run, kept.Nodup ∧
        (∀ run, run ∈ kept ↔ run.Maximal data ∧ max 1 rule.minLength ≤ run.bytes.length ∧
          Text.bytes rule.suffix <:+ run.bytes) ∧
        found.names.Perm (kept.map Run.text)) ∧
      found.statistics.bytesScanned = data.length ∧
      (found.statistics.printableRuns : ℕ∞) = {run : Run | run.Maximal data}.encard ∧
      (found.statistics.candidates : ℕ∞) =
        {run : Run | run.Maximal data ∧ max 1 rule.minLength ≤ run.bytes.length}.encard ∧
      found.statistics.matched = found.names.length ∧
      found.statistics.duplicates + found.names.toFinset.card = found.names.length := by
  refine ⟨rule.names_bytes_ascending data, ⟨rule.keptRuns data, rule.keptRuns_nodup data,
    fun run => mem_keptRuns, rule.names_perm data⟩, rfl, ?_, ?_, rfl,
    adjacentRepeats_add_card (rule.names_ascending data)⟩
  · rw [encard_maximal, ← Cursor.runsSeen_rest_start rule.minLength data]
    rfl
  · have counted := encard_maximal_filter data (Run.reportable rule.minLength)
    simp only [Run.reportable_iff, ← candidates_eq_filter] at counted
    exact counted.symm

end ScanRule

end ResourceNames
