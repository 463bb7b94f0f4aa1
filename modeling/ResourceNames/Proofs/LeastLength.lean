import ResourceNames.Batch
import ResourceNames.Proofs.ExtractionExact

namespace ResourceNames

/-- No run is empty, so that a least length of zero works as one. -/
theorem candidates_of_max_eq {least other : Nat} (same : max 1 least = max 1 other)
    (data : List UInt8) : candidates least data = candidates other data := by
  have reported : Run.reportable least = Run.reportable other := by
    funext run
    rw [Run.reportable, Run.reportable, same]
  rw [candidates_eq_filter, candidates_eq_filter, reported]

namespace ScanRule

variable {rule other : ScanRule}

/-- The length that every name has at least: it is not empty, and it has room for the suffix. -/
def leastLength (rule : ScanRule) : Nat :=
  max 1 (max rule.minLength (Text.size rule.suffix))

/-- What has the suffix is as long as the suffix, whatever length is asked for. -/
theorem keeps_iff_leastLength {bytes : List UInt8} :
    rule.keeps bytes ↔ rule.leastLength ≤ bytes.length ∧ Text.bytes rule.suffix <:+ bytes := by
  rw [keeps_iff]
  refine and_congr_left fun ending => ?_
  have room : Text.size rule.suffix ≤ bytes.length := ending.length_le
  rw [leastLength]
  omega

/-- Rules with one suffix and one least length keep the same runs, although they may be shown
different ones. -/
theorem keptRuns_of_leastLength (suffix : rule.suffix = other.suffix)
    (least : rule.leastLength = other.leastLength) (data : List UInt8) :
    rule.keptRuns data = other.keptRuns data := by
  have alike : ∀ bytes, rule.keeps bytes = other.keeps bytes := by
    intro bytes
    rw [Bool.eq_iff_iff, keeps_iff_leastLength, keeps_iff_leastLength, suffix, least]
  simp only [keptRuns_eq_filter, alike]

theorem names_of_leastLength (suffix : rule.suffix = other.suffix)
    (least : rule.leastLength = other.leastLength) (data : List UInt8) :
    (rule.extract data).names = (other.extract data).names := by
  have texts := other.names_perm data
  rw [← keptRuns_of_leastLength suffix least] at texts
  exact names_eq_of_perm (other.names_ascending data) texts

/-- An entry leaves the same files under rules that find the same names. -/
theorem processEntry_of_names
    (same : ∀ data, (rule.extract data).names = (other.extract data).names) (entry : Entry)
    (fs : FileSystem) :
    (Batch.processEntry rule entry fs).2 = (Batch.processEntry other entry fs).2 := by
  unfold Batch.processEntry
  cases Batch.readInput entry.input fs with
  | error failure => rfl
  | ok data =>
    dsimp only
    rw [same data]
    rcases Batch.writeList (other.extract data).names entry.output fs
      with ⟨failure | count, after⟩ <;> rfl

/-- Of the length that is asked for, no more counts than what exceeds one and the length of the
suffix: the names, the runs, the matches and the repeats depend on nothing else. So zero and one
make no difference at all, and lengths up to that of the suffix make none in the lists. -/
theorem extract_of_same_least (suffix : String) (data : List UInt8) :
    (∀ least least' : Nat,
      max 1 (max least (Text.size suffix)) = max 1 (max least' (Text.size suffix)) →
        let found := extract ⟨least, suffix⟩ data
        let found' := extract ⟨least', suffix⟩ data
        found.names = found'.names ∧
          found.statistics.printableRuns = found'.statistics.printableRuns ∧
          found.statistics.matched = found'.statistics.matched ∧
          found.statistics.duplicates = found'.statistics.duplicates) ∧
    extract ⟨0, suffix⟩ data = extract ⟨1, suffix⟩ data ∧
    ∀ least least' : Nat, least ≤ Text.size suffix → least' ≤ Text.size suffix →
      (extract ⟨least, suffix⟩ data).names = (extract ⟨least', suffix⟩ data).names ∧
        ∀ (entry : Entry) (fs : FileSystem),
          (Batch.processEntry ⟨least, suffix⟩ entry fs).2 =
            (Batch.processEntry ⟨least', suffix⟩ entry fs).2 := by
  have names : ∀ least least' : Nat,
      max 1 (max least (Text.size suffix)) = max 1 (max least' (Text.size suffix)) →
        ∀ data, (extract ⟨least, suffix⟩ data).names = (extract ⟨least', suffix⟩ data).names :=
    fun _ _ same => names_of_leastLength rfl same
  refine ⟨?_, ?_, ?_⟩
  · intro least least' same
    dsimp only
    rw [statistics_eq, statistics_eq, names least least' same data]
    exact ⟨rfl, rfl, rfl, rfl⟩
  · have listed := names 0 1 (by omega) data
    have reported : candidates 0 data = candidates 1 data := candidates_of_max_eq (by decide) data
    have counted :
        (extract ⟨0, suffix⟩ data).statistics = (extract ⟨1, suffix⟩ data).statistics := by
      rw [statistics_eq, statistics_eq, listed, reported]
    exact (Extraction.mk.injEq _ _ _ _).mpr ⟨listed, counted⟩
  · intro least least' short short'
    have same : max 1 (max least (Text.size suffix)) = max 1 (max least' (Text.size suffix)) := by
      omega
    exact ⟨names least least' same data, processEntry_of_names (names least least' same)⟩

/-- For a suffix of four bytes, two and four are the same, and so are three and zero in the list. -/
theorem extract_of_two_or_four :
    let data := Text.bytes "A.SEQ\x00abc\x00A.SEQ"
    max 1 (max 2 (Text.size ".SEQ")) = max 1 (max 4 (Text.size ".SEQ")) ∧
      (extract ⟨2, ".SEQ"⟩ data).names = (extract ⟨4, ".SEQ"⟩ data).names ∧
      (extract ⟨2, ".SEQ"⟩ data).statistics.duplicates =
        (extract ⟨4, ".SEQ"⟩ data).statistics.duplicates ∧
      3 ≤ Text.size ".SEQ" ∧
      (extract ⟨3, ".SEQ"⟩ data).names = (extract ⟨0, ".SEQ"⟩ data).names := by
  intro data
  have same : max 1 (max 2 (Text.size ".SEQ")) = max 1 (max 4 (Text.size ".SEQ")) := by decide
  have short : 3 ≤ Text.size ".SEQ" := by decide
  obtain ⟨alike, -, lists⟩ := extract_of_same_least ".SEQ" data
  obtain ⟨names, -, -, repeats⟩ := alike 2 4 same
  obtain ⟨listed, -⟩ := lists 3 0 short (Nat.zero_le _)
  exact ⟨same, names, repeats, short, listed⟩

end ScanRule

end ResourceNames
