import Mathlib.Algebra.GroupWithZero.Nat
import ResourceNames.Proofs.FileWriting

namespace ResourceNames

/-- Of a batch that is reported on in two parts, what is to be said of the whole. -/
def Report.append (first later : Report) : Report where
  entries := first.entries ++ later.entries
  bytesScanned := first.bytesScanned + later.bytesScanned
  matched := first.matched + later.matched
  rule := first.rule

namespace Batch

variable {rule : ScanRule}

/-- The report whose totals are those of its entries. -/
def reportOf (rule : ScanRule) (reports : List EntryReport) : Report where
  entries := reports
  bytesScanned := (reports.map (·.statistics.bytesScanned)).sum
  matched := (reports.map (·.statistics.matched)).sum
  rule

theorem reportOf_append (first later : List EntryReport) :
    reportOf rule (first ++ later) = (reportOf rule first).append (reportOf rule later) := by
  simp only [reportOf, Report.append, List.map_append, List.sum_append]

/-- Entries one after the other, each with the files that the one before it has left. -/
def processAll (rule : ScanRule) :
    List Entry → FileSystem → Except Failure (List EntryReport) × FileSystem
  | [], files => (.ok [], files)
  | entry :: entries, files =>
    match processEntry rule entry files with
    | (.error failure, files) => (.error failure, files)
    | (.ok report, files) =>
      match processAll rule entries files with
      | (.error failure, files) => (.error failure, files)
      | (.ok reports, files) => (.ok (report :: reports), files)

theorem processAll_append (first second : List Entry) (files : FileSystem) :
    processAll rule (first ++ second) files =
      match processAll rule first files with
      | (.error failure, after) => (.error failure, after)
      | (.ok reports, between) =>
        match processAll rule second between with
        | (.error failure, after) => (.error failure, after)
        | (.ok later, after) => (.ok (reports ++ later), after) := by
  induction first generalizing files with
  | nil =>
    simp only [List.nil_append, processAll]
    split <;> rename_i rest <;> exact rest
  | cons entry entries ih =>
    simp only [List.cons_append, processAll]
    rcases processEntry rule entry files with ⟨failure | report, between⟩
    · rfl
    · dsimp only
      rw [ih between]
      rcases processAll rule entries between with ⟨failure | reports, after⟩
      · rfl
      · dsimp only
        rcases processAll rule second after with ⟨failure | later, last⟩ <;> rfl

/-- A batch has failed because of the first entry that fails, and nothing has come of that entry
or of those behind it. -/
theorem processAll_error_iff {entries : List Entry} {files after : FileSystem}
    {failure : Failure} :
    processAll rule entries files = (.error failure, after) ↔
      ∃ before entry behind reports, entries = before ++ entry :: behind ∧
        processAll rule before files = (.ok reports, after) ∧
        processEntry rule entry after = (.error failure, after) := by
  constructor
  · intro failed
    induction entries generalizing files with
    | nil => cases failed
    | cons entry entries ih =>
      rcases processed : processEntry rule entry files with ⟨cause | report, between⟩
      · simp only [processAll, processed] at failed
        cases failed
        -- The files after the failure are also those in which the entry was taken up.
        have unchanged := processEntry_error processed
        subst unchanged
        exact ⟨[], entry, entries, [], rfl, rfl, processed⟩
      · rcases rest : processAll rule entries between with ⟨cause | reports, last⟩
        · simp only [processAll, processed, rest] at failed
          cases failed
          obtain ⟨before, bad, behind, reports, rfl, well, stuck⟩ := ih rest
          refine ⟨entry :: before, bad, behind, report :: reports, rfl, ?_, stuck⟩
          simp only [processAll, processed, well]
        · simp only [processAll, processed, rest] at failed
          cases failed
  · rintro ⟨before, entry, behind, reports, rfl, well, stuck⟩
    simp only [processAll_append, well, processAll, stuck]

section Unwatched

variable {entries : List Entry} {state : State} {files after : FileSystem}

/-- The state in which the entry behind one that is done finds a batch that nobody can stop. -/
def State.onward (entry : Entry) (report : EntryReport) (files : FileSystem) (state : State) :
    State :=
  ((state.take entry.input).present none).finish report files

theorem running_onward (entry : Entry) (report : EntryReport) (files : FileSystem)
    (running : state.trace.running = true) :
    (state.onward entry report files).trace.running = true := by
  simp [State.onward, State.finish, State.present, State.take, running]

theorem process_cons (entry : Entry) (entries : List Entry) (running : state.trace.running = true) :
    process rule none (entry :: entries) state =
      match processEntry rule entry state.files with
      | (.error failure, files) =>
        (.error failure, { (state.take entry.input).present none with files })
      | (.ok report, files) =>
        match process rule none entries (state.onward entry report files) with
        | (.error failure, last) => (.error failure, last)
        | (.ok reports, last) => (.ok (report :: reports), last) := by
  have going : (!state.trace.running) = false := by rw [running]; rfl
  rw [process, going]
  rfl

theorem process_of_error {failure : Failure} (running : state.trace.running = true)
    (failed : processAll rule entries state.files = (.error failure, after)) :
    ∃ last, process rule none entries state = (.error failure, last) ∧ last.files = after := by
  induction entries generalizing state with
  | nil => cases failed
  | cons entry entries ih =>
    rcases processed : processEntry rule entry state.files with ⟨cause | report, between⟩
    · simp only [processAll, processed] at failed
      cases failed
      rw [process_cons entry entries running, processed]
      exact ⟨_, rfl, rfl⟩
    · rcases rest : processAll rule entries between with ⟨cause | reports, behind⟩
      · simp only [processAll, processed, rest] at failed
        cases failed
        obtain ⟨last, stopped, left⟩ := ih (running_onward entry report between running) rest
        refine ⟨last, ?_, left⟩
        simp only [process_cons entry entries running, processed, stopped]
      · simp only [processAll, processed, rest] at failed
        cases failed

/-- What is counted on the way adds up to the counts of the entries. -/
theorem process_of_ok {reports : List EntryReport} (running : state.trace.running = true)
    (well : processAll rule entries state.files = (.ok reports, after)) :
    ∃ last, process rule none entries state = (.ok reports, last) ∧ last.files = after ∧
      last.progress.bytesScanned =
        state.progress.bytesScanned + (reportOf rule reports).bytesScanned ∧
      last.progress.matched = state.progress.matched + (reportOf rule reports).matched := by
  induction entries generalizing state reports with
  | nil =>
    cases well
    exact ⟨_, rfl, rfl, rfl, rfl⟩
  | cons entry entries ih =>
    rcases processed : processEntry rule entry state.files with ⟨cause | report, between⟩
    · simp only [processAll, processed] at well
      cases well
    · rcases rest : processAll rule entries between with ⟨cause | reports, behind⟩
      · simp only [processAll, processed, rest] at well
        cases well
      · simp only [processAll, processed, rest] at well
        cases well
        obtain ⟨last, done, left, scanned, matched⟩ :=
          ih (running_onward entry report between running) rest
        refine ⟨last, ?_, left, ?_, ?_⟩
        · simp only [process_cons entry entries running, processed, done]
        · rw [scanned]
          exact Nat.add_assoc ..
        · rw [matched]
          exact Nat.add_assoc ..

/-- A batch that nobody watches: the report or the failure, and the files that it leaves. -/
def unwatched (rule : ScanRule) (entries : List Entry) (files : FileSystem) :
    Except Failure Report × FileSystem :=
  ((run rule entries none files).1, (run rule entries none files).2.2)

theorem unwatched_eq_processAll (entries : List Entry) (files : FileSystem) :
    unwatched rule entries files =
      ((processAll rule entries files).1.map (reportOf rule),
        (processAll rule entries files).2) := by
  have running : (⟨{ total := entries.length }, ⟨[], true⟩, files⟩ : State).trace.running = true :=
    rfl
  rcases processed : processAll rule entries files with ⟨failure | reports, after⟩
  · obtain ⟨last, failed, rfl⟩ := process_of_error running processed
    simp only [unwatched, run, Option.getD_none, failed]
    rfl
  · obtain ⟨last, done, rfl, scanned, matched⟩ := process_of_ok running processed
    simp only [unwatched, run, Option.getD_none, done, scanned, matched, Nat.zero_add]
    rfl

theorem unwatched_error_iff {failure : Failure} :
    unwatched rule entries files = (.error failure, after) ↔
      processAll rule entries files = (.error failure, after) := by
  rw [unwatched_eq_processAll]
  rcases processAll rule entries files with ⟨cause | reports, last⟩ <;> simp [Except.map]

theorem unwatched_ok_iff {report : Report} :
    unwatched rule entries files = (.ok report, after) ↔
      ∃ reports, processAll rule entries files = (.ok reports, after) ∧
        reportOf rule reports = report := by
  rw [unwatched_eq_processAll]
  rcases processAll rule entries files with ⟨cause | reports, last⟩
  · simp [Except.map]
  · simp only [Except.map, Prod.mk.injEq, Except.ok.injEq]
    constructor
    · rintro ⟨rfl, rfl⟩
      exact ⟨reports, ⟨rfl, rfl⟩, rfl⟩
    · rintro ⟨_, ⟨rfl, rfl⟩, rfl⟩
      exact ⟨rfl, rfl⟩

/-- A batch of two lists is the batch of the first and then, unless that fails, the batch of the
second on the files that the first has left. It fails with the failure of the first entry that
fails. That entry and those behind it leave no trace, and those before it have done their work. -/
theorem unwatched_composes (rule : ScanRule) :
    (∀ first second files, unwatched rule (first ++ second) files =
      match unwatched rule first files with
      | (.error failure, after) => (.error failure, after)
      | (.ok report, between) =>
        match unwatched rule second between with
        | (.error failure, after) => (.error failure, after)
        | (.ok later, after) => (.ok (report.append later), after)) ∧
    ∀ entries files failure after, unwatched rule entries files = (.error failure, after) ↔
      ∃ before entry behind report, entries = before ++ entry :: behind ∧
        unwatched rule before files = (.ok report, after) ∧
        processEntry rule entry after = (.error failure, after) := by
  refine ⟨?_, ?_⟩
  · intro first second files
    simp only [unwatched_eq_processAll, processAll_append]
    rcases processAll rule first files with ⟨failure | reports, between⟩
    · rfl
    · dsimp only [Except.map]
      rcases processAll rule second between with ⟨failure | later, after⟩
      · rfl
      · simp only [reportOf_append]
  · intro entries files failure after
    simp only [unwatched_error_iff, unwatched_ok_iff, processAll_error_iff]
    constructor
    · rintro ⟨before, entry, behind, reports, split, well, stuck⟩
      exact ⟨before, entry, behind, _, split, ⟨reports, well, rfl⟩, stuck⟩
    · rintro ⟨before, entry, behind, _, split, ⟨reports, well, rfl⟩, stuck⟩
      exact ⟨before, entry, behind, reports, split, well, stuck⟩

end Unwatched

end Batch
end ResourceNames
