import Mathlib.Algebra.Group.Action.Defs
import Mathlib.Algebra.Order.BigOperators.Group.List
import ResourceNames.Proofs.StricterRules

namespace ResourceNames

/-- The bytes of a run and one that separates it from the next. -/
def Run.room (run : Run) : Nat :=
  run.bytes.length + 1

theorem Run.sum_room_ofBytes_le (position : Nat) (bytes : List UInt8) :
    ((Run.ofBytes position bytes).map Run.room).sum ≤ bytes.length + 1 := by
  rw [Run.ofBytes]
  split
  · exact Nat.zero_le _
  · exact Nat.le_refl _

/-- Every run but the last has the byte that ends it to itself, so that one byte is missing at
most. -/
theorem sum_room_runsFrom_le (position : Nat) (data : List UInt8) :
    ((runsFrom position data).map Run.room).sum ≤ data.length + 1 := by
  induction data using printable_induction generalizing position with
  | last bytes printable =>
    rw [runsFrom_printable position printable]
    exact Run.sum_room_ofBytes_le position bytes
  | separated bytes separator rest printable ends ih =>
    have here := Run.sum_room_ofBytes_le position bytes
    have later := ih (position + bytes.length + 1)
    rw [runsFrom_separated position rest printable ends, List.map_append, List.sum_append,
      List.length_append, List.length_cons]
    omega

/-- As many runs of some length need so much room together. -/
theorem length_mul_le_sum_room {least : Nat} {runs : List Run}
    (long : ∀ run ∈ runs, least ≤ run.bytes.length) :
    runs.length * (least + 1) ≤ (runs.map Run.room).sum := by
  have each : ∀ room ∈ runs.map Run.room, least + 1 ≤ room := by
    intro room member
    obtain ⟨run, listed, rfl⟩ := List.mem_map.mp member
    exact Nat.succ_le_succ (long run listed)
  have total := List.card_nsmul_le_sum (runs.map Run.room) (least + 1) each
  rwa [List.length_map, smul_eq_mul] at total

theorem one_le_length_of_mem_maximalRuns {run : Run} {data : List UInt8}
    (member : run ∈ maximalRuns data) : 1 ≤ run.bytes.length := by
  obtain ⟨-, -, -, -, nonempty, -⟩ := mem_maximalRuns.mp member
  exact List.length_pos_iff.mpr nonempty

theorem two_mul_length_maximalRuns_le (data : List UInt8) :
    2 * (maximalRuns data).length ≤ data.length + 1 := by
  have nonempty : ∀ run ∈ maximalRuns data, 1 ≤ run.bytes.length :=
    fun _ member => one_le_length_of_mem_maximalRuns member
  rw [Nat.mul_comm]
  exact (length_mul_le_sum_room nonempty).trans (sum_room_runsFrom_le 0 data)

variable {minLength : Nat}

/-- Every run has a byte, so that none is too short where no more is asked for. -/
theorem candidates_of_le_one (short : minLength ≤ 1) (data : List UInt8) :
    candidates minLength data = maximalRuns data := by
  rw [candidates_eq_filter, List.filter_eq_self]
  intro run member
  have nonempty := one_le_length_of_mem_maximalRuns member
  rw [Run.reportable_iff]
  omega

theorem candidates_sublist_maximalRuns (minLength : Nat) (data : List UInt8) :
    (candidates minLength data).Sublist (maximalRuns data) := by
  rw [← candidates_of_le_one (Nat.zero_le 1) data]
  exact candidates_sublist (Nat.zero_le minLength) data

theorem sum_room_candidates_le (minLength : Nat) (data : List UInt8) :
    ((candidates minLength data).map Run.room).sum ≤ data.length + 1 := by
  have fewer := (candidates_sublist_maximalRuns minLength data).map Run.room
  exact (fewer.sum_le_sum fun _ _ => Nat.zero_le _).trans (sum_room_runsFrom_le 0 data)

theorem length_candidates_mul_le (minLength : Nat) (data : List UInt8) :
    (candidates minLength data).length * (max 1 minLength + 1) ≤ data.length + 1 := by
  have long : ∀ run ∈ candidates minLength data, max 1 minLength ≤ run.bytes.length := by
    intro run member
    rw [candidates_eq_filter, List.mem_filter] at member
    exact Run.reportable_iff.mp member.2
  exact (length_mul_le_sum_room long).trans (sum_room_candidates_le minLength data)

/-- A name is equal to a neighbour before it only if there is one. -/
theorem adjacentRepeats_le (names : List String) : adjacentRepeats names ≤ names.length - 1 := by
  have pairs : adjacentRepeats names ≤ (names.zip names.tail).length := List.countP_le_length
  rw [List.length_zip, List.length_tail] at pairs
  omega

namespace ScanRule

theorem length_names (rule : ScanRule) (data : List UInt8) :
    (rule.extract data).names.length = (rule.keptRuns data).length := by
  rw [(rule.names_perm data).length_eq, List.length_map]

theorem keptRuns_sublist (rule : ScanRule) (data : List UInt8) :
    (rule.keptRuns data).Sublist (candidates rule.minLength data) :=
  List.filter_sublist

/-- Every run ends with the empty suffix. -/
theorem keptRuns_of_suffix_empty {rule : ScanRule} (empty : rule.suffix = "")
    (data : List UInt8) : rule.keptRuns data = candidates rule.minLength data := by
  rw [keptRuns, Suffix.keep, List.filter_eq_self]
  intro run _
  rw [empty, Suffix.accepts, List.isSuffixOf_iff_suffix]
  exact List.nil_suffix

/-- The statistics keep within the space that the stream has. The runs that are long enough, each
with a byte that separates it from the next, have room in the stream and one byte more, which bounds
their number and that of all runs. There are fewer repeats than names, unless there are none, at
most as many names as candidates and at most as many candidates as runs, and as many where nothing
is asked of the suffix or of the length. -/
theorem statistics_within_space (rule : ScanRule) (data : List UInt8) :
    let counts := (rule.extract data).statistics
    counts.bytesScanned = data.length ∧
    ((candidates rule.minLength data).map fun run => run.bytes.length + 1).sum ≤
      counts.bytesScanned + 1 ∧
    counts.candidates = (candidates rule.minLength data).length ∧
    counts.candidates * (max 1 rule.minLength + 1) ≤ counts.bytesScanned + 1 ∧
    2 * counts.printableRuns ≤ counts.bytesScanned + 1 ∧
    counts.duplicates ≤ counts.matched ∧ counts.matched ≤ counts.candidates ∧
    counts.candidates ≤ counts.printableRuns ∧
    (0 < counts.matched → counts.duplicates < counts.matched) ∧
    (rule.minLength ≤ 1 → counts.candidates = counts.printableRuns) ∧
    (rule.suffix = "" → counts.matched = counts.candidates) := by
  intro counts
  have repeats := adjacentRepeats_le (rule.extract data).names
  have counted : counts = _ := rule.statistics_eq data
  rw [counted]
  refine ⟨rfl, sum_room_candidates_le rule.minLength data, rfl,
    length_candidates_mul_le rule.minLength data, two_mul_length_maximalRuns_le data,
    repeats.trans (Nat.sub_le _ _), ?_,
    (candidates_sublist_maximalRuns rule.minLength data).length_le, ?_, ?_, ?_⟩
  · exact (rule.length_names data).trans_le (rule.keptRuns_sublist data).length_le
  · intro some
    exact Nat.lt_of_le_pred some repeats
  · intro short
    exact congrArg List.length (candidates_of_le_one short data)
  · intro empty
    exact (rule.length_names data).trans
      (congrArg List.length (keptRuns_of_suffix_empty empty data))

/-- A stream that begins and ends with a run leaves no byte of the space: three runs of one byte,
two of them equal. -/
theorem statistics_within_space_full :
    let rule : ScanRule := ⟨1, ""⟩
    let data := Text.bytes "A\x00B\x00A"
    let counts := (rule.extract data).statistics
    rule.minLength ≤ 1 ∧ rule.suffix = "" ∧ 0 < counts.matched ∧ counts.matched = 3 ∧
      counts.duplicates < counts.matched ∧ counts.candidates = counts.printableRuns ∧
      counts.matched = counts.candidates ∧ 2 * counts.printableRuns = counts.bytesScanned + 1 := by
  intro rule data counts
  obtain ⟨scanned, -, reported, -, -, -, -, -, fewer, all, kept⟩ :=
    statistics_within_space rule data
  have three : counts.candidates = 3 := reported.trans (by decide +kernel)
  have bytes : counts.bytesScanned = 5 := scanned.trans (by decide +kernel)
  have short : rule.minLength ≤ 1 := Nat.le_refl 1
  have matched : counts.matched = 3 := (kept rfl).trans three
  have positive : 0 < counts.matched := matched ▸ Nat.succ_pos 2
  refine ⟨short, rfl, positive, matched, fewer positive, all short, kept rfl, ?_⟩
  rw [bytes, ← all short, three]

end ScanRule

end ResourceNames
