import ResourceNames.Proofs.ExtractionExact
import ResourceNames.Proofs.SeparatedStreams

namespace ResourceNames

/-- The bytes of the maximal runs of a stream, in the order in which they stand there. -/
def runBytes (data : List UInt8) : List (List UInt8) :=
  (maximalRuns data).map Run.bytes

theorem runBytes_printable {bytes : List UInt8} (nonempty : bytes ≠ [])
    (printable : ∀ byte ∈ bytes, isPrintable byte) : runBytes bytes = [bytes] := by
  rw [runBytes, maximalRuns, runsFrom_printable 0 printable, Run.ofBytes, if_neg nonempty]
  rfl

theorem runBytes_separated (front back : List UInt8) {separator : UInt8}
    (ends : isPrintable separator = false) :
    runBytes (front ++ separator :: back) = runBytes front ++ runBytes back := by
  rw [runBytes, maximalRuns_separated front back ends, List.map_append, List.map_map]
  rfl

theorem runBytes_nil : runBytes [] = [] := by
  rw [runBytes, maximalRuns, runsFrom_printable 0 (by simp)]
  rfl

theorem runBytes_cons_separator {separator : UInt8} (ends : isPrintable separator = false)
    (rest : List UInt8) : runBytes (separator :: rest) = runBytes rest := by
  have split := runBytes_separated [] rest ends
  rwa [runBytes_nil, List.nil_append, List.nil_append] at split

/-- Bytes that separate runs and belong to none. -/
def Blank (gap : List UInt8) : Prop :=
  ∀ byte ∈ gap, isPrintable byte = false

theorem runBytes_blank_append {gap : List UInt8} (blank : Blank gap) (back : List UInt8) :
    runBytes (gap ++ back) = runBytes back := by
  induction gap with
  | nil => rfl
  | cons separator gap ih =>
    obtain ⟨ends, others⟩ := List.forall_mem_cons.mp blank
    rw [List.cons_append, runBytes_cons_separator ends, ih others]

/-- Whatever separates two parts of a stream, there are the runs of the one and of the other. -/
theorem runBytes_parted {gap : List UInt8} (blank : Blank gap) (nonempty : gap ≠ [])
    (front back : List UInt8) :
    runBytes (front ++ gap ++ back) = runBytes front ++ runBytes back := by
  cases gap with
  | nil => exact absurd rfl nonempty
  | cons separator gap =>
    obtain ⟨ends, others⟩ := List.forall_mem_cons.mp blank
    rw [List.append_assoc, List.cons_append, runBytes_separated front _ ends,
      runBytes_blank_append others]

theorem runBytes_append_blank {gap : List UInt8} (blank : Blank gap) (front : List UInt8) :
    runBytes (front ++ gap) = runBytes front := by
  by_cases empty : gap = []
  · rw [empty, List.append_nil]
  · have parted := runBytes_parted blank empty front []
    rwa [List.append_nil, runBytes_nil, List.append_nil] at parted

/-- A stream that is made of these runs in this order: there is at least one separator between two
runs, and there may be others between them, in front of the first and behind the last. -/
inductive LaidOut : List (List UInt8) → List UInt8 → Prop
  | nothing : LaidOut [] []
  | separator {runs : List (List UInt8)} {rest : List UInt8} {separator : UInt8}
      (ends : isPrintable separator = false) (others : LaidOut runs rest) :
      LaidOut runs (separator :: rest)
  | last {bytes : List UInt8} (nonempty : bytes ≠ [])
      (printable : ∀ byte ∈ bytes, isPrintable byte) : LaidOut [bytes] bytes
  | run {runs : List (List UInt8)} {bytes rest : List UInt8} {separator : UInt8}
      (nonempty : bytes ≠ []) (printable : ∀ byte ∈ bytes, isPrintable byte)
      (ends : isPrintable separator = false) (others : LaidOut runs rest) :
      LaidOut (bytes :: runs) (bytes ++ separator :: rest)

/-- Every stream is made of its maximal runs and of no others. -/
theorem laidOut_iff {runs : List (List UInt8)} {data : List UInt8} :
    LaidOut runs data ↔ runBytes data = runs := by
  constructor
  · intro laid
    induction laid with
    | nothing => exact runBytes_nil
    | separator ends _ ih => rw [runBytes_cons_separator ends, ih]
    | last nonempty printable => exact runBytes_printable nonempty printable
    | run nonempty printable ends _ ih =>
      rw [runBytes_separated _ _ ends, runBytes_printable nonempty printable, ih]
      rfl
  · rintro rfl
    induction data using printable_induction with
    | last bytes printable =>
      by_cases empty : bytes = []
      · rw [empty, runBytes_nil]
        exact .nothing
      · rw [runBytes_printable empty printable]
        exact .last empty printable
    | separated bytes separator rest printable ends ih =>
      -- In front of its first separator a stream has a run or nothing at all.
      by_cases empty : bytes = []
      · rw [empty, List.nil_append, runBytes_cons_separator ends]
        exact .separator ends ih
      · rw [runBytes_separated _ _ ends, runBytes_printable empty printable]
        exact .run empty printable ends ih

/-- Each run occurs in one stream as often as in the other. -/
def SameRuns (data other : List UInt8) : Prop :=
  ∀ bytes, {run : Run | run.Maximal data ∧ run.bytes = bytes}.encard =
    {run : Run | run.Maximal other ∧ run.bytes = bytes}.encard

theorem encard_maximal_bytes (data bytes : List UInt8) :
    {run : Run | run.Maximal data ∧ run.bytes = bytes}.encard = (runBytes data).count bytes := by
  have counted := encard_maximal_filter data fun run => run.bytes == bytes
  simp only [beq_iff_eq] at counted
  rw [counted, runBytes, List.count, List.countP_map, List.countP_eq_length_filter]
  rfl

theorem sameRuns_iff {data other : List UInt8} :
    SameRuns data other ↔ (runBytes data).Perm (runBytes other) := by
  simp only [SameRuns, encard_maximal_bytes, Nat.cast_inj, List.perm_iff_count]

/-- What an extraction tells besides the size of the stream. -/
def Extraction.findings (found : Extraction) : Extraction :=
  { found with statistics.bytesScanned := 0 }

namespace ScanRule

variable {data other : List UInt8}

theorem map_bytes_keptRuns (rule : ScanRule) (data : List UInt8) :
    (rule.keptRuns data).map Run.bytes = (runBytes data).filter rule.keeps := by
  rw [keptRuns_eq_filter, runBytes, List.filter_map]
  rfl

theorem length_candidates (minLength : Nat) (data : List UInt8) :
    (candidates minLength data).length =
      (runBytes data).countP fun bytes => decide (max 1 minLength ≤ bytes.length) := by
  rw [candidates_eq_filter, ← List.countP_eq_length_filter, runBytes, List.countP_map]
  rfl

/-- Texts are made of bytes alone, and sorting forgets the order in which they come. -/
theorem names_of_perm (rule : ScanRule) (same : (runBytes data).Perm (runBytes other)) :
    (rule.extract data).names = (rule.extract other).names := by
  have kept : ((rule.keptRuns other).map Run.bytes).Perm ((rule.keptRuns data).map Run.bytes) := by
    rw [map_bytes_keptRuns, map_bytes_keptRuns]
    exact same.symm.filter _
  have texts : ((rule.keptRuns other).map Run.text).Perm ((rule.keptRuns data).map Run.text) := by
    have mapped := kept.map fun bytes => (⟨0, bytes⟩ : Run).text
    rwa [List.map_map, List.map_map] at mapped
  exact names_eq_of_perm (rule.names_ascending other) ((rule.names_perm other).trans texts)

theorem findings_of_sameRuns (rule : ScanRule) (alike : SameRuns data other) :
    (rule.extract data).findings = (rule.extract other).findings := by
  have same := sameRuns_iff.mp alike
  have names := rule.names_of_perm same
  have seen : (maximalRuns data).length = (maximalRuns other).length := by
    have length := same.length_eq
    rwa [runBytes, runBytes, List.length_map, List.length_map] at length
  have reported : (candidates rule.minLength data).length =
      (candidates rule.minLength other).length := by
    rw [length_candidates, length_candidates]
    exact same.countP_eq _
  simp only [Extraction.findings, statistics_eq, names, seen, reported]

/-- What is found in a stream, its size apart, comes from its maximal runs alone, each taken as often
as it occurs. Hence it makes no difference in which order the runs stand, what separates two parts
of the stream from each other, or what stands in front of the first run and behind the last. -/
theorem findings_from_runs_alone (rule : ScanRule) :
    (∀ data other : List UInt8, SameRuns data other →
      (rule.extract data).findings = (rule.extract other).findings) ∧
    (∀ (runs shuffled : List (List UInt8)) (data other : List UInt8), runs.Perm shuffled →
      LaidOut runs data → LaidOut shuffled other →
      (rule.extract data).findings = (rule.extract other).findings) ∧
    (∀ front gap other back : List UInt8, Blank gap → gap ≠ [] → Blank other → other ≠ [] →
      (rule.extract (front ++ gap ++ back)).findings =
        (rule.extract (front ++ other ++ back)).findings) ∧
    (∀ front data back : List UInt8, Blank front → Blank back →
      (rule.extract (front ++ data ++ back)).findings = (rule.extract data).findings) := by
  refine ⟨fun _ _ => rule.findings_of_sameRuns, ?_, ?_, ?_⟩
  · intro runs shuffled data other perm laid laidOther
    refine rule.findings_of_sameRuns (sameRuns_iff.mpr ?_)
    rwa [laidOut_iff.mp laid, laidOut_iff.mp laidOther]
  · intro front gap other back blank nonempty blankOther nonemptyOther
    refine rule.findings_of_sameRuns (sameRuns_iff.mpr ?_)
    rw [runBytes_parted blank nonempty, runBytes_parted blankOther nonemptyOther]
  · intro front data back blank blankBack
    refine rule.findings_of_sameRuns (sameRuns_iff.mpr ?_)
    rw [runBytes_append_blank blankBack, runBytes_blank_append blank]

/-- Three runs, in order and with one separator between two of them, and again in another order, with
separators on all sides. -/
theorem findings_from_runs_alone_shuffled :
    let runs := ["A.SEQ", "B.SEQ", "B.SEQ"].map Text.bytes
    let shuffled := ["B.SEQ", "A.SEQ", "B.SEQ"].map Text.bytes
    let data := Text.bytes "A.SEQ\x00B.SEQ\x00B.SEQ"
    let other := Text.bytes "\x7fB.SEQ\x00\x01A.SEQ\x02B.SEQ\x00"
    runs.Perm shuffled ∧ LaidOut runs data ∧ LaidOut shuffled other ∧
      (extract {} data).findings = (extract {} other).findings := by
  intro runs shuffled data other
  have perm : runs.Perm shuffled := by decide
  have laid : LaidOut runs data := laidOut_iff.mpr (by decide +kernel)
  have laidOther : LaidOut shuffled other := laidOut_iff.mpr (by decide +kernel)
  obtain ⟨-, arranged, -, -⟩ := findings_from_runs_alone {}
  exact ⟨perm, laid, laidOther, arranged runs shuffled data other perm laid laidOther⟩

end ScanRule

end ResourceNames
