import ResourceNames.Proofs.MaximalRuns
import ResourceNames.Run.Cursor

namespace ResourceNames

/-- Whether a run is long enough to be reported. A least length of zero works as one. -/
def Run.reportable (minLength : Nat) (run : Run) : Bool :=
  decide (max 1 minLength ≤ run.bytes.length)

theorem Run.reportable_iff {minLength : Nat} {run : Run} :
    run.reportable minLength ↔ max 1 minLength ≤ run.bytes.length := by
  simp only [reportable, decide_eq_true_eq]

namespace Cursor

/-- All runs in front of a cursor, of whatever length. -/
def ahead (c : Cursor) : List Run :=
  runsFrom c.position c.unread

/-- The run right at a cursor, if there is one. -/
def here (c : Cursor) : List Run :=
  Run.ofBytes c.position (c.unread.takeWhile isPrintable)

theorem found_eq_find? (c : Cursor) : c.found = c.here.find? (Run.reportable c.minLength) := by
  by_cases empty : c.unread.takeWhile isPrintable = []
  · simp [found, here, Run.ofBytes, empty]
  · have positive := List.length_pos_iff.mpr empty
    by_cases long : c.minLength ≤ (c.unread.takeWhile isPrintable).length
    · have reported : max 1 c.minLength ≤ (c.unread.takeWhile isPrintable).length := by omega
      simp [found, here, Run.ofBytes, Run.reportable, empty, positive, long, reported]
    · have passed : ¬max 1 c.minLength ≤ (c.unread.takeWhile isPrintable).length := by omega
      simp [found, here, Run.ofBytes, Run.reportable, empty, long, passed]

theorem here_of_found {c : Cursor} {run : Run} (found : c.found = some run) :
    c.here = [run] ∧ run.reportable c.minLength := by
  rw [found_eq_find?] at found
  have member := List.mem_of_find?_eq_some found
  have alone : c.here = [run] := by
    obtain ⟨nonempty, rfl⟩ := Run.mem_ofBytes.mp member
    exact if_neg nonempty
  exact ⟨alone, List.find?_some found⟩

theorem here_of_not_found {c : Cursor} (missing : c.found = none) :
    ∀ passed ∈ c.here, passed.reportable c.minLength = false := by
  rw [found_eq_find?, List.find?_eq_none] at missing
  exact fun passed member => Bool.eq_false_iff.mpr (missing passed member)

theorem runsSeenHere_eq (c : Cursor) : c.runsSeenHere = c.runsSeen + c.here.length := by
  unfold runsSeenHere here Run.ofBytes
  by_cases empty : c.unread.takeWhile isPrintable = [] <;> simp [empty]

theorem ahead_of_unread {c : Cursor} (done : c.unread = []) : c.ahead = [] := by
  rw [ahead, done, runsFrom_printable _ (by simp)]
  rfl

theorem ahead_last {c : Cursor} (last : c.unread.dropWhile isPrintable = []) : c.ahead = c.here := by
  rw [ahead, runsFrom, if_pos last]
  rfl

theorem ahead_past {c : Cursor} (more : c.unread.dropWhile isPrintable ≠ []) :
    c.ahead = c.here ++ c.past.ahead := by
  rw [ahead, runsFrom, if_neg more]
  rfl

/-- A call that reports a run has passed only runs that are too short, and seen each of them. -/
structure Reports (c : Cursor) (run : Run) (after : Cursor) : Prop where
  split : ∃ short, c.ahead = short ++ run :: after.ahead ∧
    ∀ passed ∈ short, passed.reportable c.minLength = false
  reportable : run.reportable c.minLength
  balance : after.runsSeen + after.ahead.length = c.runsSeen + c.ahead.length
  minLength_eq : after.minLength = c.minLength

/-- A call that reports nothing has seen all there was, and all of it was too short. -/
structure Exhausts (c : Cursor) (after : Cursor) : Prop where
  short : ∀ passed ∈ c.ahead, passed.reportable c.minLength = false
  unread_eq : after.unread = []
  runsSeen_eq : after.runsSeen = c.runsSeen + c.ahead.length
  minLength_eq : after.minLength = c.minLength

theorem Reports.of_past {c after : Cursor} {run : Run} (missing : c.found = none)
    (more : c.unread.dropWhile isPrintable ≠ []) (reports : c.past.Reports run after) :
    c.Reports run after where
  split := by
    obtain ⟨short, split, passed⟩ := reports.split
    refine ⟨c.here ++ short, by rw [ahead_past more, split, List.append_assoc], ?_⟩
    intro run member
    rcases List.mem_append.mp member with near | far
    · exact here_of_not_found missing run near
    · exact passed run far
  reportable := reports.reportable
  balance := by
    have later : after.runsSeen + after.ahead.length = c.runsSeenHere + c.past.ahead.length :=
      reports.balance
    rw [later, runsSeenHere_eq, ahead_past more, List.length_append, Nat.add_assoc]
  minLength_eq := reports.minLength_eq

theorem Exhausts.of_past {c after : Cursor} (missing : c.found = none)
    (more : c.unread.dropWhile isPrintable ≠ []) (exhausts : c.past.Exhausts after) :
    c.Exhausts after where
  short := by
    intro run member
    rw [ahead_past more] at member
    rcases List.mem_append.mp member with near | far
    · exact here_of_not_found missing run near
    · exact exhausts.short run far
  unread_eq := exhausts.unread_eq
  runsSeen_eq := by
    have later : after.runsSeen = c.runsSeenHere + c.past.ahead.length := exhausts.runsSeen_eq
    rw [later, runsSeenHere_eq, ahead_past more, List.length_append, Nat.add_assoc]
  minLength_eq := exhausts.minLength_eq

/-- Every call ends in one of the two ways. -/
theorem next_outcome (c : Cursor) :
    (∃ run, c.next.1 = some run ∧ c.Reports run c.next.2) ∨
      c.next.1 = none ∧ c.Exhausts c.next.2 := by
  fun_induction next c with
  | case1 c last =>
    cases found : c.found with
    | some run =>
      obtain ⟨alone, long⟩ := here_of_found found
      refine .inl ⟨run, rfl, ⟨[], ?_, by simp⟩, long, ?_, rfl⟩
      · rw [ahead_last last, alone, ahead_of_unread rfl, List.nil_append]
      · rw [ahead_last last, ahead_of_unread rfl, runsSeenHere_eq, List.length_nil, Nat.add_zero]
    | none =>
      refine .inr ⟨rfl, ?_, rfl, ?_, rfl⟩
      · exact ahead_last last ▸ here_of_not_found found
      · exact ahead_last last ▸ runsSeenHere_eq c
  | case2 c more run found =>
    obtain ⟨alone, long⟩ := here_of_found found
    refine .inl ⟨run, rfl, ⟨[], ?_, by simp⟩, long, ?_, rfl⟩
    · rw [ahead_past more, alone, List.nil_append, List.singleton_append]
    · rw [ahead_past more, List.length_append, ← Nat.add_assoc, ← runsSeenHere_eq]
      rfl
  | case3 c more missing ih =>
    rcases ih with ⟨run, reported, reports⟩ | ⟨ended, exhausts⟩
    · exact .inl ⟨run, reported, reports.of_past missing more⟩
    · exact .inr ⟨ended, exhausts.of_past missing more⟩

theorem next_reports {c after : Cursor} {run : Run} (call : c.next = (some run, after)) :
    c.Reports run after := by
  rcases c.next_outcome with ⟨found, reported, reports⟩ | ⟨ended, _⟩
  · simp only [call, Option.some.injEq] at reported reports
    exact reported ▸ reports
  · simp [call] at ended

theorem next_exhausts {c after : Cursor} (call : c.next = (none, after)) : c.Exhausts after := by
  rcases c.next_outcome with ⟨found, reported, _⟩ | ⟨_, exhausts⟩
  · simp [call] at reported
  · simpa only [call] using exhausts

theorem Reports.filter_ahead {c after : Cursor} {run : Run} (reports : c.Reports run after) :
    c.ahead.filter (Run.reportable c.minLength) =
      run :: after.ahead.filter (Run.reportable c.minLength) := by
  obtain ⟨short, split, passed⟩ := reports.split
  have nothing : short.filter (Run.reportable c.minLength) = [] :=
    List.filter_eq_nil_iff.mpr fun run member => Bool.eq_false_iff.mp (passed run member)
  rw [split, List.filter_append, nothing, List.nil_append, List.filter_cons_of_pos reports.reportable]

theorem Exhausts.filter_ahead {c after : Cursor} (exhausts : c.Exhausts after) :
    c.ahead.filter (Run.reportable c.minLength) = [] :=
  List.filter_eq_nil_iff.mpr fun run member => Bool.eq_false_iff.mp (exhausts.short run member)

/-- Read to its end, a cursor gives the runs ahead of it that are long enough, and has seen all. -/
theorem rest_outcome (c : Cursor) :
    c.rest.1 = c.ahead.filter (Run.reportable c.minLength) ∧ c.rest.2.unread = [] ∧
      c.rest.2.runsSeen = c.runsSeen + c.ahead.length ∧ c.rest.2.minLength = c.minLength := by
  fun_induction rest c with
  | case1 c after ended =>
    have exhausts := next_exhausts ended
    exact ⟨exhausts.filter_ahead.symm, exhausts.unread_eq, exhausts.runsSeen_eq,
      exhausts.minLength_eq⟩
  | case2 c run after reported _ runs last same ih =>
    have reports := next_reports reported
    obtain ⟨list, unread, seen, minLength⟩ := ih
    simp only [same, reports.minLength_eq] at list unread seen minLength
    refine ⟨?_, unread, seen.trans reports.balance, minLength⟩
    rw [list, reports.filter_ahead]

end Cursor

theorem candidates_eq_filter (minLength : Nat) (data : List UInt8) :
    candidates minLength data = (maximalRuns data).filter (Run.reportable minLength) :=
  (Cursor.start minLength data).rest_outcome.1

theorem Cursor.runsSeen_rest_start (minLength : Nat) (data : List UInt8) :
    (Cursor.start minLength data).rest.2.runsSeen = (maximalRuns data).length := by
  rw [(Cursor.start minLength data).rest_outcome.2.2.1]
  exact Nat.zero_add _

/-- A scan to the end reports the maximal runs that are long enough and no others, in ascending
order and so each once, and it has then seen every maximal run whatever the least length. -/
theorem candidates_are_maximal_runs (minLength : Nat) (data : List UInt8) :
    (∀ run, run ∈ candidates minLength data ↔
        run.Maximal data ∧ max 1 minLength ≤ run.bytes.length) ∧
      (candidates minLength data).Pairwise (fun a b => a.offset < b.offset) ∧
      ((Cursor.start minLength data).rest.2.runsSeen : ℕ∞) = {run : Run | run.Maximal data}.encard := by
  refine ⟨fun run => ?_, ?_, ?_⟩
  · rw [candidates_eq_filter, List.mem_filter, mem_maximalRuns, Run.reportable_iff]
  · rw [candidates_eq_filter]
    exact (maximalRuns_ascending data).filter _
  · rw [Cursor.runsSeen_rest_start, encard_maximal]

end ResourceNames
