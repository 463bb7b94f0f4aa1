import ResourceNames.Proofs.EntryOrder
import ResourceNames.Proofs.Presentation

namespace ResourceNames.Batch

variable {rule : ScanRule} {entry : Entry} {first entries rest : List Entry}
  {report : EntryReport} {reports later : List EntryReport} {state : State}
  {files between after : FileSystem}

/-- How far a batch is when there are reports on its first `k` entries and the entry behind these
has been taken up. Behind the last entry there is none, so that the last is still the one taken
up. -/
def standing (entries : List Entry) (reports : List EntryReport) (k : Nat) : Progress where
  processed := k
  total := entries.length
  bytesScanned := ((reports.take k).map (·.statistics.bytesScanned)).sum
  matched := ((reports.take k).map (·.statistics.matched)).sum
  current? := (entries[k]?.or entries.getLast?).map fun entry => entry.input.text

/-- Reports to come do not change how far a batch was. -/
theorem standing_append (entries : List Entry) (later : List EntryReport) {k : Nat}
    (there : k ≤ reports.length) :
    standing entries (reports ++ later) k = standing entries reports k := by
  simp only [standing, List.take_append_of_le_length there]

/-- A batch whose first entries are done and that nobody has stopped. It has counted what is
reported on them, and has shown how far it was whenever it took one up. -/
structure UnderWay (first rest : List Entry) (reports : List EntryReport) (state : State) :
    Prop where
  done : reports.length = first.length
  running : state.trace.running = true
  counted : state.progress =
    { standing (first ++ rest) reports first.length with
      current? := first.getLast?.map fun entry => entry.input.text }
  shown : state.trace.shown = (List.range first.length).map (standing (first ++ rest) reports)

/-- The state in which a batch begins that is let be. -/
def State.start (entries : List Entry) (files : FileSystem) : State :=
  ⟨{ total := entries.length }, ⟨[], true⟩, files⟩

theorem underWay_start (entries : List Entry) (files : FileSystem) :
    UnderWay [] entries [] (.start entries files) :=
  ⟨rfl, rfl, rfl, rfl⟩

theorem UnderWay.taken (underWay : UnderWay first (entry :: rest) reports state) :
    (state.take entry.input).progress =
      standing (first ++ entry :: rest) reports first.length := by
  have next : (first ++ entry :: rest)[first.length]? = some entry := by simp
  rw [State.take, Progress.startEntry, underWay.counted, standing, next]
  rfl

theorem UnderWay.shows (underWay : UnderWay first (entry :: rest) reports state) :
    ((state.take entry.input).present none).trace.shown =
      (List.range (first.length + 1)).map (standing (first ++ entry :: rest) reports) := by
  rw [List.range_succ, List.map_append, ← underWay.shown, List.map_singleton, ← underWay.taken]
  rfl

/-- The entry that has been taken up is counted when it is done. -/
theorem UnderWay.onward (underWay : UnderWay first (entry :: rest) reports state)
    (report : EntryReport) (files : FileSystem) :
    UnderWay (first ++ [entry]) rest (reports ++ [report])
      (state.beyond none entry report files) where
  done := by simp [underWay.done]
  running := running_beyond none underWay.running
  counted := by
    have counts : (state.beyond none entry report files).progress =
        (state.take entry.input).progress.finishEntry report.statistics := rfl
    have whole : (reports ++ [report]).take (first ++ [entry]).length = reports ++ [report] :=
      List.take_of_length_le (by simp [underWay.done])
    have before : reports.take first.length = reports :=
      List.take_of_length_le (by simp [underWay.done])
    rw [counts, underWay.taken, Progress.finishEntry, standing, standing, whole, before]
    simp
  shown := by
    have shows : (state.beyond none entry report files).trace.shown =
        ((state.take entry.input).present none).trace.shown := rfl
    have same : first ++ [entry] ++ rest = first ++ entry :: rest := by simp
    rw [shows, underWay.shows, same, List.length_append, List.length_singleton]
    refine List.map_congr_left fun k earlier => (standing_append _ _ ?_).symm
    rw [underWay.done]
    exact Nat.le_of_lt_succ (List.mem_range.mp earlier)

/-- A batch goes through entries that can be done, each in its turn, and is then under way in front
of those behind them. -/
theorem UnderWay.through (underWay : UnderWay first (entries ++ rest) reports state)
    (well : processAll rule entries state.files = (.ok later, after)) :
    ∃ middle, UnderWay (first ++ entries) rest (reports ++ later) middle ∧ middle.files = after ∧
      process rule none (entries ++ rest) state =
        ((process rule none rest middle).1.map (later ++ ·),
          (process rule none rest middle).2) := by
  induction entries generalizing first reports later state with
  | nil =>
    cases well
    refine ⟨state, by simpa using underWay, rfl, ?_⟩
    rcases ran : process rule none rest state with ⟨failure | others, last⟩ <;>
      simp [ran, Except.map]
  | cons entry entries ih =>
    obtain ⟨report, others, between, rfl, processed, behind⟩ := processAll_cons_eq_ok well
    obtain ⟨middle, goesOn, left, ran⟩ := ih (underWay.onward report between) behind
    refine ⟨middle, by simpa using goesOn, left, ?_⟩
    rw [List.cons_append, process_going (entries ++ rest) underWay.running processed, ran]
    rcases process rule none rest middle with ⟨failure | last, ended⟩ <;> rfl

/-- Behind the last entry the batch is shown once more. -/
theorem UnderWay.ends (underWay : UnderWay entries [] reports state) :
    (state.present none).trace.shown =
      (List.range (entries.length + 1)).map (standing entries reports) := by
  have last : state.progress = standing entries reports entries.length := by
    rw [underWay.counted, List.append_nil, standing]
    simp
  have shown := underWay.shown
  rw [List.append_nil] at shown
  rw [List.range_succ, List.map_append, ← shown, List.map_singleton, ← last]
  rfl

/-- When the first entries can be done, a batch gets as far as to have them done. -/
theorem exists_underWay (rest : List Entry)
    (well : processAll rule first files = (.ok reports, after)) :
    ∃ middle, UnderWay first rest reports middle ∧ middle.files = after ∧
      process rule none (first ++ rest) (.start (first ++ rest) files) =
        ((process rule none rest middle).1.map (reports ++ ·),
          (process rule none rest middle).2) := by
  simpa only [List.nil_append] using (underWay_start (first ++ rest) files).through well

theorem run_shows_done (well : processAll rule entries files = (.ok reports, after)) :
    ∃ trace, run rule entries (some {}) files = (.ok (reportOf rule reports), trace, after) ∧
      trace.shown = (List.range (entries.length + 1)).map (standing entries reports) := by
  have letBe : (some {} : Option Watch).getD {} = {} := rfl
  obtain ⟨trace, ran⟩ := run_letBe letBe well
  obtain ⟨middle, underWay, -, processed⟩ := exists_underWay [] well
  rw [List.append_nil] at processed
  have shown : trace.shown = (process rule none entries (.start entries files)).2.trace.shown :=
    congrArg (·.2.1.shown) ran.symm
  refine ⟨trace, ran, ?_⟩
  rw [shown, processed]
  exact underWay.ends

theorem run_shows_failed {failure : Failure} (rest : List Entry)
    (well : processAll rule first files = (.ok reports, between))
    (failed : processEntry rule entry between = (.error failure, after)) :
    ∃ trace, run rule (first ++ entry :: rest) (some {}) files = (.error failure, trace, after) ∧
      trace.shown =
        (List.range (first.length + 1)).map (standing (first ++ entry :: rest) reports) := by
  obtain ⟨middle, underWay, rfl, processed⟩ := exists_underWay (entry :: rest) well
  rw [process_failing rest underWay.running failed] at processed
  refine ⟨(middle.failing none entry after).trace, ?_, underWay.shows⟩
  rw [State.start] at processed
  simp only [run, Option.getD_some]
  rw [processed]
  rfl

/-- A batch that may be stopped shows what it would show if it were let be, or the first part. -/
theorem process_shows_prefix (rule : ScanRule) (stopAt : Option Nat) (entries : List Entry)
    {state other : State} (files : state.files = other.files)
    (progress : state.progress = other.progress) (shown : state.trace.shown = other.trace.shown)
    (going : other.trace.running = true) :
    (process rule stopAt entries state).2.trace.shown <+:
      (process rule none entries other).2.trace.shown := by
  induction entries generalizing state other with
  | nil =>
    simp only [process, State.present, shown, progress]
    exact List.prefix_rfl
  | cons entry entries ih =>
    cases running : state.trace.running with
    | false =>
      rw [process_stopped entry entries running, shown]
      exact shown_prefix rule none (entry :: entries) other
    | true =>
      rcases processed : processEntry rule entry state.files with ⟨failure | report, left⟩
      · have again := processed
        rw [files] at again
        rw [process_failing entries running processed, process_failing entries going again]
        simp only [State.failing, State.present, State.take, Progress.startEntry, shown, progress]
        exact List.prefix_rfl
      · have again := processed
        rw [files] at again
        rw [process_going entries running processed, process_going entries going again]
        refine ih rfl ?_ ?_ (running_beyond none going)
        · simp only [State.beyond, State.finish, State.present, State.take, progress]
        · simp only [State.beyond, State.finish, State.present, State.take, shown, progress]

/-- Whatever comes of its entries, a batch that is let be shows how far it was at the first so many
of them, and at most once more than there are entries. -/
theorem run_shows (rule : ScanRule) (entries : List Entry) (files : FileSystem) :
    ∃ reports showings, showings ≤ entries.length + 1 ∧
      (run rule entries (some {}) files).2.1.shown =
        (List.range showings).map (standing entries reports) := by
  rcases processed : processAll rule entries files with ⟨failure | reports, after⟩
  · obtain ⟨first, entry, rest, reports, rfl, well, failed⟩ := processAll_error_iff.mp processed
    obtain ⟨trace, ran, shown⟩ := run_shows_failed rest well failed
    refine ⟨reports, first.length + 1, ?_, ?_⟩
    · rw [List.length_append, List.length_cons]
      omega
    · rw [ran, shown]
  · obtain ⟨trace, ran, shown⟩ := run_shows_done processed
    exact ⟨reports, entries.length + 1, Nat.le_refl _, by rw [ran, shown]⟩

/-- What is shown of a batch is exact. When all entries can be done, it is shown at each entry, with
the counts of the entries before it, and once at the end, with the totals of the report, which are
those of the reports on the entries. When an entry fails, that entry is the last at which it is
shown. A watcher who stops the batch sees the first part of this. So no more entries are ever done
than there are, and more at each showing than at the one before. -/
theorem progress_shown_exactly (rule : ScanRule) (entries : List Entry) (files : FileSystem) :
    (∀ reports after, processAll rule entries files = (.ok reports, after) →
      ∃ report trace, run rule entries (some {}) files = (.ok report, trace, after) ∧
        report.entries = reports ∧
        report.bytesScanned = (reports.map (·.statistics.bytesScanned)).sum ∧
        report.matched = (reports.map (·.statistics.matched)).sum ∧
        trace.shown = (List.range entries.length).map (standing entries reports) ++
          [⟨entries.length, entries.length, report.bytesScanned, report.matched,
            entries.getLast?.map fun entry => entry.input.text⟩]) ∧
    (∀ first entry rest reports between failure after, entries = first ++ entry :: rest →
      processAll rule first files = (.ok reports, between) →
      processEntry rule entry between = (.error failure, after) →
      ∃ trace, run rule entries (some {}) files = (.error failure, trace, after) ∧
        trace.shown = (List.range (first.length + 1)).map (standing entries reports)) ∧
    ∀ watch : Watch,
      let shown := (run rule entries (some watch) files).2.1.shown
      shown <+: (run rule entries (some {}) files).2.1.shown ∧
        (∀ progress ∈ shown, progress.processed ≤ progress.total) ∧
        shown.Pairwise fun earlier later => earlier.processed < later.processed := by
  refine ⟨?_, ?_, ?_⟩
  · intro reports after well
    obtain ⟨trace, ran, shown⟩ := run_shows_done well
    refine ⟨reportOf rule reports, trace, ran, rfl, rfl, rfl, ?_⟩
    have all : reports.length = entries.length := by
      exact processAll_length well
    have last : standing entries reports entries.length =
        ⟨entries.length, entries.length, (reportOf rule reports).bytesScanned,
          (reportOf rule reports).matched, entries.getLast?.map fun entry => entry.input.text⟩ := by
      simp [standing, reportOf, ← all]
    rw [shown, List.range_succ, List.map_append, List.map_singleton, last]
  · rintro first entry rest reports between failure after rfl well failed
    exact run_shows_failed rest well failed
  · intro watch shown
    obtain ⟨reports, showings, atMost, whole⟩ := run_shows rule entries files
    have part : shown <+: (run rule entries (some {}) files).2.1.shown :=
      process_shows_prefix rule watch.stopAt entries rfl rfl rfl rfl
    refine ⟨part, ?_, ?_⟩
    · intro progress member
      have inWhole := part.subset member
      rw [whole] at inWhole
      obtain ⟨k, inRange, rfl⟩ := List.mem_map.mp inWhole
      have early := List.mem_range.mp inRange
      have within : k ≤ entries.length := by omega
      exact within
    · have ascending : ((List.range showings).map (standing entries reports)).Pairwise
          fun earlier later => earlier.processed < later.processed :=
        List.pairwise_map.mpr List.pairwise_lt_range
      rw [whole] at part
      exact ascending.sublist part.sublist

/-- An entry whose input has no name. -/
def nameless : Entry := ⟨⟨""⟩, ⟨"c.t"⟩⟩

theorem processEntry_nameless (files : FileSystem) :
    processEntry {} nameless files = (.error (.inputNotFound ""), files) := by
  have missing : files.read nameless.input = .error .notFound := rfl
  rw [processEntry, readInput, missing]
  rfl

/-- A batch of two is shown three times; so is it with a third entry that fails. -/
theorem progress_shown_of_pair : ∃ reports between,
    processAll {} pair pairFiles = (.ok reports, between) ∧
    processEntry {} nameless between = (.error (.inputNotFound ""), between) ∧
    (∃ report trace, run {} pair (some {}) pairFiles = (.ok report, trace, between) ∧
      trace.shown.map (·.current?) = [some "a", some "b", some "b"]) ∧
    ∃ trace, run {} (pair ++ [nameless]) (some {}) pairFiles =
        (.error (.inputNotFound ""), trace, between) ∧
      trace.shown.map (·.current?) = [some "a", some "b", some ""] := by
  obtain ⟨reports, between, well⟩ := eachProcessable_iff.mp eachProcessable_pair
  have failed := processEntry_nameless between
  obtain ⟨done, -, -⟩ := progress_shown_exactly {} pair pairFiles
  obtain ⟨report, trace, ran, -, -, -, shown⟩ := done reports between well
  obtain ⟨-, stopped, -⟩ := progress_shown_exactly {} (pair ++ [nameless]) pairFiles
  obtain ⟨trace', ran', shown'⟩ :=
    stopped pair nameless [] reports between _ between rfl well failed
  refine ⟨reports, between, well, failed, ⟨report, trace, ran, ?_⟩, trace', ran', ?_⟩
  · rw [shown]
    rfl
  · rw [shown']
    rfl

end ResourceNames.Batch
