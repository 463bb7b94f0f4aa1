import ResourceNames.Extraction
import ResourceNames.Proofs.CursorReading

namespace ResourceNames

theorem Run.map_shift_ofBytes (distance position : Nat) (bytes : List UInt8) :
    (Run.ofBytes position bytes).map (Run.shift distance) =
      Run.ofBytes (distance + position) bytes := by
  unfold ofBytes
  split <;> rfl

/-- Where a stream begins only moves its runs. -/
theorem map_shift_runsFrom (distance position : Nat) (data : List UInt8) :
    (runsFrom position data).map (Run.shift distance) = runsFrom (distance + position) data := by
  induction data using printable_induction generalizing position with
  | last bytes printable =>
    rw [runsFrom_printable position printable, runsFrom_printable _ printable,
      Run.map_shift_ofBytes]
  | separated bytes separator rest printable ends ih =>
    rw [runsFrom_separated position rest printable ends, runsFrom_separated _ rest printable ends,
      List.map_append, Run.map_shift_ofBytes, ih]
    simp only [Nat.add_assoc]

/-- The run in front of a separator may have others in front of it. -/
theorem runsFrom_append_separator (position : Nat) (front back : List UInt8) {separator : UInt8}
    (ends : isPrintable separator = false) :
    runsFrom position (front ++ separator :: back) =
      runsFrom position front ++ runsFrom (position + front.length + 1) back := by
  induction front using printable_induction generalizing position with
  | last bytes printable =>
    rw [runsFrom_separated position back printable ends, runsFrom_printable position printable]
  | separated bytes first rest printable opens ih =>
    -- The front has a separator of its own, and both sides begin with the run that it ends.
    have length : position + bytes.length + 1 + rest.length + 1 =
        position + (bytes ++ first :: rest).length + 1 := by
      rw [List.length_append, List.length_cons]
      omega
    rw [List.append_assoc, List.cons_append, runsFrom_separated position _ printable opens,
      runsFrom_separated position rest printable opens, ih, length, List.append_assoc]

theorem maximalRuns_separated (front back : List UInt8) {separator : UInt8}
    (ends : isPrintable separator = false) :
    maximalRuns (front ++ separator :: back) =
      maximalRuns front ++ (maximalRuns back).map (Run.shift (front.length + 1)) := by
  rw [maximalRuns, runsFrom_append_separator 0 front back ends, Nat.zero_add]
  exact congrArg _ (map_shift_runsFrom (front.length + 1) 0 back).symm

/-- How long a run is does not depend on where it stands. -/
theorem Run.filter_reportable_shift (minLength distance : Nat) (runs : List Run) :
    (runs.map (Run.shift distance)).filter (Run.reportable minLength) =
      (runs.filter (Run.reportable minLength)).map (Run.shift distance) := by
  rw [List.filter_map]
  rfl

theorem candidates_separated (minLength : Nat) (front back : List UInt8) {separator : UInt8}
    (ends : isPrintable separator = false) :
    candidates minLength (front ++ separator :: back) = candidates minLength front ++
      (candidates minLength back).map (Run.shift (front.length + 1)) := by
  rw [candidates_eq_filter, candidates_eq_filter, candidates_eq_filter,
    maximalRuns_separated front back ends, List.filter_append, Run.filter_reportable_shift]

/-- A separator parts a scan in two: the runs in front of it are reported as if the stream ended
there, those behind it as if the stream began there, only further on, and all of them are seen. -/
theorem scan_separated (minLength : Nat) (front back : List UInt8) {separator : UInt8}
    (ends : isPrintable separator = false) :
    let whole := front ++ separator :: back
    candidates minLength whole = candidates minLength front ++
        (candidates minLength back).map (fun run => ⟨front.length + 1 + run.offset, run.bytes⟩) ∧
      (Cursor.start minLength whole).rest.2.runsSeen =
        (Cursor.start minLength front).rest.2.runsSeen +
          (Cursor.start minLength back).rest.2.runsSeen ∧
      extractStrings minLength whole =
        extractStrings minLength front ++ extractStrings minLength back := by
  intro whole
  have reported := candidates_separated minLength front back ends
  refine ⟨reported, ?_, ?_⟩
  · simp only [whole, Cursor.runsSeen_rest_start, maximalRuns_separated front back ends,
      List.length_append, List.length_map]
  · rw [extractStrings, reported, List.map_append, List.map_map]
    rfl

/-- In front of the separator stands a run that is too short, and one that ends the stream where it
is scanned alone. -/
theorem scan_separated_tail :
    let whole := Text.bytes "AB\x00WXYZ" ++ 0x7f :: Text.bytes "TAIL"
    isPrintable 0x7f = false ∧
      candidates 4 whole = [⟨3, Text.bytes "WXYZ"⟩, ⟨8, Text.bytes "TAIL"⟩] ∧
      (Cursor.start 4 whole).rest.2.runsSeen = 3 ∧ extractStrings 4 whole = ["WXYZ", "TAIL"] := by
  have ends : isPrintable 0x7f = false := by decide
  obtain ⟨reported, seen, texts⟩ :=
    scan_separated 4 (Text.bytes "AB\x00WXYZ") (Text.bytes "TAIL") ends
  exact ⟨ends, reported.trans (by decide +kernel), seen.trans (by decide +kernel),
    texts.trans (by decide +kernel)⟩

end ResourceNames
