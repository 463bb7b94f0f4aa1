import ResourceNames.Proofs.EntryFrame
import ResourceNames.Proofs.ExtractionExact

namespace ResourceNames.Batch

variable {rule : ScanRule} {stopAt : Option Nat} {entry : Entry} {entries : List Entry}
  {report : EntryReport} {reports : List EntryReport} {state : State}
  {files between after : FileSystem}

/-- Each entry can be processed on the files that it finds when its turn comes. -/
def EachProcessable (rule : ScanRule) : List Entry → FileSystem → Prop
  | [], _ => True
  | entry :: entries, files =>
    ∃ report between, processEntry rule entry files = (.ok report, between) ∧
      EachProcessable rule entries between

theorem eachProcessable_iff :
    EachProcessable rule entries files ↔
      ∃ reports after, processAll rule entries files = (.ok reports, after) := by
  induction entries generalizing files with
  | nil => exact ⟨fun _ => ⟨[], files, rfl⟩, fun _ => trivial⟩
  | cons entry entries ih =>
    constructor
    · rintro ⟨report, between, processed, others⟩
      obtain ⟨reports, after, rest⟩ := ih.mp others
      exact ⟨report :: reports, after, processAll_cons_of_ok processed rest⟩
    · rintro ⟨_, after, well⟩
      obtain ⟨report, reports, between, rfl, processed, rest⟩ := processAll_cons_eq_ok well
      exact ⟨report, between, processed, ih.mpr ⟨reports, after, rest⟩⟩

/-- The state behind an entry that is done, with a watcher who may have stopped the batch when the
entry was shown. -/
def State.beyond (stopAt : Option Nat) (entry : Entry) (report : EntryReport) (files : FileSystem)
    (state : State) : State :=
  ((state.take entry.input).present stopAt).finish report files

theorem shown_beyond :
    (state.beyond stopAt entry report files).trace.shown.length = state.trace.shown.length + 1 := by
  simp [State.beyond, State.finish, State.present, State.take]

theorem running_beyond (stopAt : Option Nat) (running : state.trace.running = true) :
    (state.beyond stopAt entry report files).trace.running =
      (stopAt != some (state.trace.shown.length + 1)) := by
  simp [State.beyond, State.finish, State.present, State.take, running]

/-- An entry is not taken up any more when the batch has been stopped. -/
theorem process_stopped (entry : Entry) (entries : List Entry)
    (stopped : state.trace.running = false) :
    process rule stopAt (entry :: entries) state = (.error .cancelled, state) := by
  rw [process, stopped]
  rfl

/-- An entry that is taken up is completed, whether or not the batch is stopped meanwhile. -/
theorem process_onward (running : state.trace.running = true)
    (processed : processEntry rule entry state.files = (.ok report, between)) :
    process rule stopAt (entry :: entries) state =
      match process rule stopAt entries (state.beyond stopAt entry report between) with
      | (.error failure, last) => (.error failure, last)
      | (.ok reports, last) => (.ok (report :: reports), last) := by
  have going : (!state.trace.running) = false := by rw [running]; rfl
  have work : processEntry rule entry ((state.take entry.input).present stopAt).files =
      (.ok report, between) := processed
  rw [process, going]
  dsimp only [Bool.false_eq_true, if_false]
  rw [work]
  rfl

/-- While the showing at which the batch is stopped is still to come, the batch goes on as if it
were let be. -/
theorem process_meanwhile (k : Nat) (entries : List Entry) (running : state.trace.running = true)
    (processed : processEntry rule entry state.files = (.ok report, between)) :
    let next := state.beyond none entry report between
    process rule (some (state.trace.shown.length + (k + 2))) (entry :: entries) state =
      match process rule (some (next.trace.shown.length + (k + 1))) entries next with
      | (.error failure, last) => (.error failure, last)
      | (.ok reports, last) => (.ok (report :: reports), last) := by
  intro next
  have other : (some (state.trace.shown.length + (k + 2)) !=
      some (state.trace.shown.length + 1)) = true := by
    rw [bne_iff_ne, Ne, Option.some.injEq]
    omega
  have same : state.beyond (some (state.trace.shown.length + (k + 2))) entry report between =
      next := by
    simp only [next, State.beyond, State.finish, State.present, State.take, other]
    rfl
  have showing : state.trace.shown.length + (k + 2) = next.trace.shown.length + (k + 1) := by
    rw [shown_beyond]
    omega
  rw [process_onward running processed, same, showing]

/-- A batch that is stopped at one of its showings, before the last entry, completes the entry that
was shown and does not touch those behind it. -/
theorem process_cancelled {k : Nat} (running : state.trace.running = true)
    (well : processAll rule entries state.files = (.ok reports, after))
    (early : k + 1 < entries.length) :
    ∃ last, process rule (some (state.trace.shown.length + (k + 1))) entries state =
        (.error .cancelled, last) ∧
      last.trace.shown.length = state.trace.shown.length + (k + 1) ∧
      processAll rule (entries.take (k + 1)) state.files =
        (.ok (reports.take (k + 1)), last.files) := by
  -- The showing to come is counted from where the batch stands, so that it moves with the entries.
  induction entries generalizing state reports k with
  | nil => exact absurd early (Nat.not_lt_zero _)
  | cons entry entries ih =>
    obtain ⟨report, others, between, rfl, processed, rest⟩ := processAll_cons_eq_ok well
    cases k with
    | zero =>
      cases entries with
      | nil => exact absurd early (Nat.lt_irrefl 1)
      | cons next entries =>
        have stopped : (state.beyond (some (state.trace.shown.length + 1)) entry report
            between).trace.running = false := by
          rw [running_beyond _ running, bne_self_eq_false]
        refine ⟨state.beyond (some (state.trace.shown.length + 1)) entry report between, ?_,
          shown_beyond, processAll_cons_of_ok processed rfl⟩
        rw [process_onward running processed, process_stopped next entries stopped]
    | succ k =>
      obtain ⟨last, cancelled, shown, done⟩ :=
        ih (running_beyond none running) rest (Nat.lt_of_succ_lt_succ early)
      refine ⟨last, ?_, ?_, processAll_cons_of_ok processed done⟩
      · rw [process_meanwhile k entries running processed, cancelled]
      · rw [shown, shown_beyond]
        omega

theorem process_none_cons (entries : List Entry) (running : state.trace.running = true)
    (processed : processEntry rule entry state.files = (.ok report, between)) :
    (process rule none (entry :: entries) state).2 =
      (process rule none entries (state.beyond none entry report between)).2 := by
  rw [process_onward running processed]
  rcases process rule none entries (state.beyond none entry report between)
    with ⟨failure | reports, last⟩ <;> rfl

/-- A batch that is stopped when its last entry is shown, or later still, goes on as if it had been
let be. -/
theorem process_late {k : Nat} (running : state.trace.running = true)
    (well : processAll rule entries state.files = (.ok reports, after))
    (late : entries.length ≤ k + 1) :
    ∃ last, process rule (some (state.trace.shown.length + (k + 1))) entries state =
        (.ok reports, last) ∧
      last.trace.shown.length = state.trace.shown.length + (entries.length + 1) ∧
      last.files = after ∧ last.progress = (process rule none entries state).2.progress := by
  induction entries generalizing state reports k with
  | nil =>
    cases well
    refine ⟨_, rfl, ?_, rfl, rfl⟩
    simp [State.present]
  | cons entry entries ih =>
    obtain ⟨report, others, between, rfl, processed, rest⟩ := processAll_cons_eq_ok well
    rw [process_none_cons entries running processed]
    cases k with
    | zero =>
      obtain rfl := List.length_eq_zero_iff.mp (Nat.le_zero.mp (Nat.le_of_succ_le_succ late))
      cases rest
      rw [process_onward running processed]
      refine ⟨_, rfl, ?_, rfl, rfl⟩
      simp [State.present, shown_beyond]
    | succ k =>
      obtain ⟨last, done, shown, left, counted⟩ :=
        ih (running_beyond none running) rest (Nat.le_of_succ_le_succ late)
      refine ⟨last, ?_, ?_, left, counted⟩
      · rw [process_meanwhile k entries running processed, done]
      · rw [shown, shown_beyond, List.length_cons]
        omega

/-- Cancellation falls between entries. Of entries each of which can be processed at its turn, a
batch that is stopped at its `k`-th showing completes `k`, if there are more, and leaves the files
as the first `k` entries alone would. If there are no more, nothing is lost by it: the report and
the files are those of the batch let be, which has one showing for each entry and one at the end. A
batch that is stopped beforehand does nothing at all, unless there is nothing to do. -/
theorem cancellation_between_entries (rule : ScanRule) (entries : List Entry) (files : FileSystem)
    (each : EachProcessable rule entries files) :
    (∀ k, 1 ≤ k → k < entries.length →
      ∃ trace report left,
        run rule entries (some ⟨true, some k⟩) files = (.error .cancelled, trace, left) ∧
        trace.shown.length = k ∧
        unwatched rule (entries.take k) files = (.ok report, left)) ∧
    (∀ k, 1 ≤ k → entries.length ≤ k →
      ∃ trace report after,
        run rule entries (some ⟨true, some k⟩) files = (.ok report, trace, after) ∧
        trace.shown.length = entries.length + 1 ∧
        unwatched rule entries files = (.ok report, after)) ∧
    ∀ stopAt, ∃ trace,
      run rule entries (some ⟨false, stopAt⟩) files =
        (if entries = [] then .ok (reportOf rule []) else .error .cancelled, trace, files) ∧
      (entries ≠ [] → trace.shown = []) := by
  obtain ⟨reports, after, well⟩ := eachProcessable_iff.mp each
  have alone : unwatched rule entries files = (.ok (reportOf rule reports), after) :=
    unwatched_ok_iff.mpr ⟨reports, well, rfl⟩
  let start : State := ⟨{ total := entries.length }, ⟨[], true⟩, files⟩
  have running : start.trace.running = true := rfl
  refine ⟨?_, ?_, ?_⟩
  · intro k atLeast early
    obtain ⟨k, rfl⟩ := Nat.exists_eq_add_of_le' atLeast
    obtain ⟨last, cancelled, shown, done⟩ := process_cancelled running well early
    rw [List.length_nil, Nat.zero_add] at cancelled shown
    refine ⟨last.trace, reportOf rule (reports.take (k + 1)), last.files, ?_, shown,
      unwatched_ok_iff.mpr ⟨_, done, rfl⟩⟩
    simp only [run, Option.getD_some]
    rw [cancelled]
    rfl
  · intro k atLeast late
    obtain ⟨k, rfl⟩ := Nat.exists_eq_add_of_le' atLeast
    obtain ⟨last, done, shown, rfl, counted⟩ := process_late running well late
    obtain ⟨full, letBe, -, scanned, matched⟩ := process_of_ok running well
    rw [letBe] at counted
    rw [List.length_nil, Nat.zero_add] at done shown
    refine ⟨last.trace, _, last.files, ?_, shown, alone⟩
    simp only [run, Option.getD_some]
    rw [done]
    simp only [Except.map, counted, scanned, matched, start, Nat.zero_add]
    rfl
  · intro stopAt
    cases entries with
    | nil => exact ⟨_, rfl, fun some => absurd rfl some⟩
    | cons entry entries =>
      refine ⟨⟨[], false⟩, ?_, fun _ => rfl⟩
      simp only [run, Option.getD_some]
      rw [process_stopped entry entries rfl]
      rfl

def pair : List Entry := [⟨⟨"a"⟩, ⟨"a.t"⟩⟩, ⟨⟨"b"⟩, ⟨"b.t"⟩⟩]

def pairFiles : FileSystem :=
  FileSystem.blank.set ["work", "a"] (.file (Text.bytes "ONE.SEQ"))
    |>.set ["work", "b"] (.file (Text.bytes "ONE.SEQ"))

theorem eachProcessable_pair : EachProcessable {} pair pairFiles := by
  have listed : ScanRule.listing {} (Text.bytes "ONE.SEQ") = Text.bytes "\"ONE.SEQ\",\n" := by
    rw [ScanRule.listing, ScanRule.names_of_printable (by decide +kernel) (by decide),
      if_pos (by decide)]
    decide
  let between := pairFiles.set ["work", "a.t"] (.file (Text.bytes "\"ONE.SEQ\",\n"))
  have first : processEntry {} ⟨⟨"a"⟩, ⟨"a.t"⟩⟩ pairFiles =
      (.ok (reportOn {} ⟨⟨"a"⟩, ⟨"a.t"⟩⟩ (Text.bytes "ONE.SEQ")), between) := by
    exact processEntry_of_create rfl rfl (List.cons_ne_nil _ _) listed
  have second : processEntry {} ⟨⟨"b"⟩, ⟨"b.t"⟩⟩ between =
      (.ok (reportOn {} ⟨⟨"b"⟩, ⟨"b.t"⟩⟩ (Text.bytes "ONE.SEQ")),
        between.set ["work", "b.t"] (.file (Text.bytes "\"ONE.SEQ\",\n"))) := by
    exact processEntry_of_create rfl rfl (List.cons_ne_nil _ _) listed
  exact ⟨_, _, first, _, _, second, trivial⟩

/-- Stopped at its first showing, a batch of two makes one list; at its second, it makes both. -/
theorem cancellation_in_pair :
    EachProcessable {} pair pairFiles ∧
    (∃ trace report left,
      run {} pair (some ⟨true, some 1⟩) pairFiles = (.error .cancelled, trace, left) ∧
      trace.shown.length = 1 ∧ unwatched {} (pair.take 1) pairFiles = (.ok report, left)) ∧
    ∃ trace report after,
      run {} pair (some ⟨true, some 2⟩) pairFiles = (.ok report, trace, after) ∧
      trace.shown.length = 3 ∧ unwatched {} pair pairFiles = (.ok report, after) := by
  obtain ⟨early, late, -⟩ := cancellation_between_entries {} pair pairFiles eachProcessable_pair
  exact ⟨eachProcessable_pair, early 1 (Nat.le_refl 1) (by decide), late 2 (by decide) (by decide)⟩

end ResourceNames.Batch
