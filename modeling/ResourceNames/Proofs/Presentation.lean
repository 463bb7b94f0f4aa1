import ResourceNames.Performance
import ResourceNames.Proofs.Cancellation
import ResourceNames.Proofs.JsonStream
import ResourceNames.Proofs.ListsOnDisk

namespace ResourceNames

namespace Display

/-- Records are printed one by one as they would be together. -/
theorem sayAll_eq (clock : Clock) (display : Display) (records : List Record) :
    display.sayAll clock records =
      { display with printed := display.printed ++ display.console.print clock records } := by
  induction records generalizing display with
  | nil =>
    have nothing : display.console.print clock [] = .none := rfl
    rw [nothing, Output.append_none]
    rfl
  | cons record records ih =>
    rw [sayAll, List.foldl_cons, ← sayAll, ih, Console.print_cons, ← Output.append_assoc, say]
    cases display.console.shows record with
    | false => simp only [Bool.false_eq_true, if_false, Output.append_none]
    | true => simp only [if_true]

/-- Moves the bar for one progress after the other, from the `n`-th moment on. -/
def follow? (elapsed : Nat → Span) : Nat → List Progress → Display → Option Display
  | _, [], display => some display
  | n, progress :: shown, display => do
    let display ← display.move? (elapsed n) progress
    display.follow? elapsed (n + 1) shown

end Display

/-- Whether a bar can be moved is for the clock to decide, not for the bar. -/
theorem ProgressBar.isSome_update? (bar bar' : ProgressBar) (progress : Progress) (elapsed : Span) :
    (bar.update? progress elapsed).isSome = (bar'.update? progress elapsed).isSome := by
  unfold update?
  split
  · rfl
  · rw [Option.isSome_map, Option.isSome_map]

theorem ProgressBar.enabled_of_update? {bar moved : ProgressBar} {progress : Progress}
    {elapsed : Span} (updated : bar.update? progress elapsed = some moved) :
    moved.enabled = bar.enabled := by
  unfold update? at updated
  split at updated
  · cases updated
    rfl
  · obtain ⟨remaining, -, rfl⟩ := Option.map_eq_some_iff.mp updated
    rfl

namespace Display

variable {display display' next : Display} {elapsed : Nat → Span} {shown : List Progress} {n : Nat}

theorem isSome_follow? (display display' : Display) (shown : List Progress) (n : Nat) :
    (display.follow? elapsed n shown).isSome = (display'.follow? elapsed n shown).isSome := by
  induction shown generalizing display display' n with
  | nil => rfl
  | cons progress shown ih =>
    have same := display.bar.isSome_update? display'.bar progress (elapsed n)
    simp only [follow?, move?, bind, Option.bind]
    cases here : display.bar.update? progress (elapsed n) with
    | none =>
      rw [here, Option.isSome_none, eq_comm, Option.isSome_eq_false_iff, Option.isNone_iff_eq_none]
        at same
      rw [same]
      rfl
    | some bar =>
      rw [here, Option.isSome_some, eq_comm, Option.isSome_iff_exists] at same
      obtain ⟨bar', there⟩ := same
      rw [there]
      exact ih _ _ (n + 1)

/-- A bar that moves leaves the console and what stands on it, and is drawn or not as before. -/
theorem follow?_keeps (followed : display.follow? elapsed n shown = some next) :
    next.console = display.console ∧ next.printed = display.printed ∧
      next.bar.enabled = display.bar.enabled := by
  induction shown generalizing display n with
  | nil =>
    cases followed
    exact ⟨rfl, rfl, rfl⟩
  | cons progress shown ih =>
    obtain ⟨between, moved, rest⟩ := Option.bind_eq_some_iff.mp followed
    obtain ⟨bar, updated, rfl⟩ := Option.map_eq_some_iff.mp moved
    obtain ⟨console, printed, drawn⟩ := ih rest
    exact ⟨console, printed, drawn.trans (ProgressBar.enabled_of_update? updated)⟩

end Display

namespace Batch

variable {rule : ScanRule} {stopAt : Option Nat} {elapsed : Nat → Span} {entry : Entry}
  {entries : List Entry} {report : EntryReport} {state : State} {files : FileSystem}

section OneEntry

/-- The state behind an entry that fails: it has been shown, and nothing else. -/
def State.failing (stopAt : Option Nat) (entry : Entry) (files : FileSystem) (state : State) :
    State :=
  { (state.take entry.input).present stopAt with files }

theorem process_failing {failure : Failure} (entries : List Entry)
    (running : state.trace.running = true)
    (processed : processEntry rule entry state.files = (.error failure, files)) :
    process rule stopAt (entry :: entries) state =
      (.error failure, state.failing stopAt entry files) := by
  have work : processEntry rule entry ((state.take entry.input).present stopAt).files =
      (.error failure, files) := processed
  rw [process, running]
  dsimp only [Bool.not_true, Bool.false_eq_true, if_false]
  rw [work]
  rfl

theorem process_going (entries : List Entry) (running : state.trace.running = true)
    (processed : processEntry rule entry state.files = (.ok report, files)) :
    process rule stopAt (entry :: entries) state =
      ((process rule stopAt entries (state.beyond stopAt entry report files)).1.map (report :: ·),
        (process rule stopAt entries (state.beyond stopAt entry report files)).2) := by
  rw [process_onward running processed]
  rcases process rule stopAt entries (state.beyond stopAt entry report files)
    with ⟨failure | reports, last⟩ <;> rfl

variable (display : Display)

theorem perform_stopped (entries : List Entry) (stopped : state.trace.running = false) :
    perform rule stopAt elapsed (entry :: entries) state display =
      some (.error .cancelled, state, display) := by
  rw [perform, stopped]
  rfl

theorem perform_failing {failure : Failure} (entries : List Entry)
    (running : state.trace.running = true)
    (processed : processEntry rule entry state.files = (.error failure, files)) :
    perform rule stopAt elapsed (entry :: entries) state display =
      (display.move? (elapsed state.trace.shown.length) (state.take entry.input).progress).map
        fun display => (.error failure, state.failing stopAt entry files, display) := by
  have work : processEntry rule entry ((state.take entry.input).present stopAt).files =
      (.error failure, files) := processed
  rw [perform, running]
  dsimp only [Bool.not_true, Bool.false_eq_true, if_false]
  rw [work]
  exact Option.map_eq_bind.symm

theorem perform_going (entries : List Entry) (running : state.trace.running = true)
    (processed : processEntry rule entry state.files = (.ok report, files)) :
    perform rule stopAt elapsed (entry :: entries) state display =
      (display.move? (elapsed state.trace.shown.length) (state.take entry.input).progress).bind
        fun display =>
          (perform rule stopAt elapsed entries (state.beyond stopAt entry report files)
            display).map fun (outcome, last, display) =>
              (outcome.map (report :: ·), last, display) := by
  have work : processEntry rule entry ((state.take entry.input).present stopAt).files =
      (.ok report, files) := processed
  rw [perform, running]
  dsimp only [Bool.not_true, Bool.false_eq_true, if_false]
  rw [work]
  refine Option.bind_congr fun display _ => ?_
  exact Option.map_eq_bind.symm

end OneEntry

/-- What has been shown stays shown. -/
theorem shown_prefix (rule : ScanRule) (stopAt : Option Nat) (entries : List Entry)
    (state : State) :
    state.trace.shown <+: (process rule stopAt entries state).2.trace.shown := by
  induction entries generalizing state with
  | nil => exact List.prefix_append _ _
  | cons entry entries ih =>
    cases running : state.trace.running with
    | false =>
      rw [process_stopped entry entries running]
    | true =>
      rcases processed : processEntry rule entry state.files with ⟨failure | report, files⟩
      · rw [process_failing entries running processed]
        exact List.prefix_append _ _
      · rw [process_going entries running processed]
        exact (List.prefix_append _ _).trans (ih (state.beyond stopAt entry report files))

/-- To perform a batch is to process it and to move the bar through all that is shown. -/
theorem perform_eq (rule : ScanRule) (stopAt : Option Nat) (elapsed : Nat → Span)
    (entries : List Entry) (state : State) (display : Display) :
    perform rule stopAt elapsed entries state display =
      (display.follow? elapsed state.trace.shown.length
        ((process rule stopAt entries state).2.trace.shown.drop state.trace.shown.length)).map
          fun display => ((process rule stopAt entries state).1,
            (process rule stopAt entries state).2, display) := by
  induction entries generalizing state display with
  | nil =>
    have shown : (process rule stopAt [] state).2.trace.shown.drop state.trace.shown.length =
        [state.progress] := List.drop_left
    rw [shown, perform, Display.follow?]
    cases display.move? (elapsed state.trace.shown.length) state.progress <;> rfl
  | cons entry entries ih =>
    cases running : state.trace.running with
    | false =>
      rw [perform_stopped display entries running, process_stopped entry entries running,
        List.drop_length]
      rfl
    | true =>
      rcases processed : processEntry rule entry state.files with ⟨failure | report, files⟩
      · have shown : (state.failing stopAt entry files).trace.shown.drop
            state.trace.shown.length = [(state.take entry.input).progress] := List.drop_left
        rw [perform_failing display entries running processed,
          process_failing entries running processed, shown, Display.follow?]
        cases display.move? (elapsed state.trace.shown.length) (state.take entry.input).progress <;>
          rfl
      · let next := state.beyond stopAt entry report files
        -- The entry is shown first, and then all that is shown of those behind it.
        obtain ⟨more, split⟩ := shown_prefix rule stopAt entries next
        have first : next.trace.shown = state.trace.shown ++ [(state.take entry.input).progress] :=
          rfl
        have shown : (process rule stopAt entries next).2.trace.shown.drop
            state.trace.shown.length = (state.take entry.input).progress :: more := by
          rw [← split, first, List.append_assoc]
          exact List.drop_left
        have behind : (process rule stopAt entries next).2.trace.shown.drop
            next.trace.shown.length = more := by
          rw [← split]
          exact List.drop_left
        rw [perform_going display entries running processed,
          process_going entries running processed, shown, Display.follow?]
        cases display.move? (elapsed state.trace.shown.length)
            (state.take entry.input).progress with
        | none => rfl
        | some display =>
          dsimp only [Option.bind, bind]
          rw [ih, behind, shown_beyond, Option.map_map]
          rfl

/-- Nobody who lets a batch be keeps it from going on. -/
theorem running_process (rule : ScanRule) (entries : List Entry) (state : State) :
    (process rule none entries state).2.trace.running = state.trace.running := by
  induction entries generalizing state with
  | nil => simp [process, State.present]
  | cons entry entries ih =>
    cases going : state.trace.running with
    | false =>
      rw [process_stopped entry entries going]
      exact going
    | true =>
      rcases processed : processEntry rule entry state.files with ⟨failure | report, files⟩
      · rw [process_failing entries going processed]
        simp [State.failing, State.present, State.take, going]
      · rw [process_going entries going processed, ih, running_beyond none going]
        rfl

theorem running_run (rule : ScanRule) (entries : List Entry) (running : Bool) (files : FileSystem) :
    (run rule entries (some ⟨running, none⟩) files).2.1.running = running :=
  running_process rule entries ⟨{ total := entries.length }, ⟨[], running⟩, files⟩

end Batch

/-- What has been done, apart from what has been shown. -/
def Performance.work (done : Performance) : Except Failure Report × Bool × FileSystem :=
  (done.outcome, done.running, done.files)

namespace Session

variable {settings : Settings} {console : Console} {pace : Pace} {running : Bool}
  {stopAt : Option Nat} {files left room : FileSystem} {entries : List Entry}
  {failure : Failure} {done : Performance}

/-- What is settled before the first entry is taken up: why there is no batch, or its entries, and
the files then. -/
def prepare (settings : Settings) (running : Bool) (files : FileSystem) :
    Except Failure (List Entry) × FileSystem :=
  if !running then (.error .cancelled, files)
  else
    match settings.entries with
    | .error input => (.error (.invalidPath input.text), files)
    | .ok entries => ((makeRoom settings files).1.map fun _ => entries, (makeRoom settings files).2)

theorem prepare_eq_ok_iff : prepare settings running files = (.ok entries, room) ↔
    running = true ∧ settings.entries = .ok entries ∧
      makeRoom settings files = (.ok (), room) := by
  cases running with
  | false => simp [prepare]
  | true =>
    cases described : settings.entries with
    | error input => simp [prepare, described]
    | ok entries =>
      rcases made : makeRoom settings files with ⟨failure | ⟨⟩, room⟩ <;>
        simp [prepare, described, made, Except.map]

theorem prepare_error_cases (early : prepare settings running files = (.error failure, left)) :
    (running = false ∧ failure = .cancelled ∧ left = files) ∨
    (running = true ∧ ((∃ input, settings.entries = .error input ∧
      failure = .invalidPath input.text ∧ left = files) ∨
      ∃ entries, settings.entries = .ok entries ∧
        makeRoom settings files = (.error failure, left))) := by
  unfold prepare at early
  cases running with
  | false =>
    cases early
    exact .inl ⟨rfl, rfl, rfl⟩
  | true =>
    refine .inr ⟨rfl, ?_⟩
    cases described : settings.entries with
    | error input =>
      rw [described] at early
      cases early
      exact .inl ⟨input, rfl, rfl, rfl⟩
    | ok entries =>
      rw [described] at early
      rcases made : makeRoom settings files with ⟨failure | ⟨⟩, room⟩
      · rw [made] at early
        cases early
        exact .inr ⟨entries, rfl, rfl⟩
      · rw [made] at early
        cases early

/-- Nothing is done and nothing is shown of a batch that is not begun. -/
theorem ripAll_of_prepare_error (early : prepare settings running files = (.error failure, left)) :
    ripAll settings running files = (.error failure, [], left) := by
  obtain ⟨rfl, rfl, rfl⟩ | ⟨rfl, ⟨input, refused, rfl, rfl⟩ | ⟨entries, described, refused⟩⟩ :=
    prepare_error_cases early
  · rfl
  · exact (Comes.unnamed refused).ripAll_eq
  · exact (Comes.roomless described refused).ripAll_eq

theorem perform_of_prepare_error (console : Console) (pace : Pace) (stopAt : Option Nat)
    (early : prepare settings running files = (.error failure, left)) :
    perform settings console pace running stopAt files =
      some { outcome := .error failure, running, files := left } := by
  obtain ⟨rfl, rfl, rfl⟩ | ⟨rfl, ⟨input, refused, rfl, rfl⟩ | ⟨entries, described, refused⟩⟩ :=
    prepare_error_cases early
  · rfl
  · simp only [perform, refused]
    rfl
  · simp only [perform, described, refused]
    rfl

/-- The display of a batch when its first entry is taken up. -/
def opened (settings : Settings) (console : Console) (clock : Clock) (entries : List Entry) :
    Display :=
  ⟨console, console.print clock (opening settings entries),
    .start console.drawsBar entries.length⟩

/-- A batch that is begun is the one that is watched without a display. The bar moves through what
the watcher is shown, and what comes of it is concluded with. -/
theorem perform_of_prepare_ok (console : Console) (pace : Pace) (stopAt : Option Nat)
    (ready : prepare settings running files = (.ok entries, room)) :
    perform settings console pace running stopAt files =
      let (outcome, trace, after) := Batch.run settings.scan entries (some ⟨running, stopAt⟩) room
      ((opened settings console pace.clock entries).follow? pace.elapsed 0 trace.shown).map
        (conclude pace.clock outcome trace.running after) := by
  obtain ⟨rfl, described, made⟩ := prepare_eq_ok_iff.mp ready
  have began : (Display.start console entries.length).sayAll pace.clock
      (opening settings entries) = opened settings console pace.clock entries := by
    rw [Display.sayAll_eq, Display.start, Output.none_append, opened]
  simp only [perform, described, made, Bool.not_true, Bool.false_eq_true, if_false, began]
  rw [Batch.perform_eq]
  simp only [List.length_nil, List.drop_zero]
  exact Option.bind_map.trans Option.map_eq_bind.symm

/-- The batch that the settings describe, watched from outside and without a display. -/
def ripWatched (settings : Settings) (watch : Batch.Watch) (files : FileSystem) :
    Except Failure Report × Batch.Trace × FileSystem :=
  match prepare settings watch.running files with
  | (.error failure, left) => (.error failure, ⟨[], watch.running⟩, left)
  | (.ok entries, room) => Batch.run settings.scan entries (some watch) room

theorem work_of_perform
    (performed : perform settings console pace running stopAt files = some done) :
    let watched := ripWatched settings ⟨running, stopAt⟩ files
    done.work = (watched.1, watched.2.1.running, watched.2.2) := by
  rcases prepared : prepare settings running files with ⟨failure | entries, room⟩
  · rw [perform_of_prepare_error console pace stopAt prepared] at performed
    cases performed
    simp only [ripWatched, prepared]
    rfl
  · rw [perform_of_prepare_ok console pace stopAt prepared] at performed
    obtain ⟨display, -, rfl⟩ := Option.map_eq_some_iff.mp performed
    simp only [ripWatched, prepared]
    rfl

/-- Whether there is an answer does not depend on the display. -/
theorem isSome_perform (settings : Settings) (console : Console) (pace : Pace) (running : Bool)
    (stopAt : Option Nat) (files : FileSystem) (display : Display) :
    (perform settings console pace running stopAt files).isSome = (display.follow? pace.elapsed 0
      (ripWatched settings ⟨running, stopAt⟩ files).2.1.shown).isSome := by
  rcases prepared : prepare settings running files with ⟨failure | entries, room⟩
  · rw [perform_of_prepare_error console pace stopAt prepared]
    simp only [ripWatched, prepared]
    rfl
  · rw [perform_of_prepare_ok console pace stopAt prepared, Option.isSome_map]
    simp only [ripWatched, prepared]
    exact Display.isSome_follow? _ _ _ 0

/-- A batch that nobody ends from outside does what the batch without a display does, and prints
what that batch wants to have shown. -/
theorem perform_let_be (performed : perform settings console pace running none files = some done) :
    ∃ records, ripAll settings running files = (done.outcome, records, done.files) ∧
      done.running = running ∧ done.printed = console.print pace.clock records := by
  rcases prepared : prepare settings running files with ⟨failure | entries, room⟩
  · rw [perform_of_prepare_error console pace none prepared] at performed
    cases performed
    exact ⟨[], ripAll_of_prepare_error prepared, rfl, rfl⟩
  · rw [perform_of_prepare_ok console pace none prepared] at performed
    obtain ⟨rfl, described, made⟩ := prepare_eq_ok_iff.mp prepared
    have ripped := ripAll_of_room described made
    -- Nobody ends the batch from outside, so it is the one that nobody watches.
    have alike : Batch.unwatched settings.scan entries room =
        ((Batch.run settings.scan entries (some ⟨true, none⟩) room).1,
          (Batch.run settings.scan entries (some ⟨true, none⟩) room).2.2) := rfl
    have going := Batch.running_run settings.scan entries true room
    rcases ran : Batch.run settings.scan entries (some ⟨true, none⟩) room
      with ⟨outcome, trace, after⟩
    rw [ran] at performed going
    rw [alike, ran] at ripped
    obtain ⟨display, followed, rfl⟩ := Option.map_eq_some_iff.mp performed
    obtain ⟨shownOn, standing, -⟩ := Display.follow?_keeps followed
    cases outcome with
    | error failure => exact ⟨_, ripped, going, standing⟩
    | ok report =>
      refine ⟨_, ripped, going, ?_⟩
      simp only [conclude, Display.sayAll_eq, Display.finish]
      rw [Console.print_append, standing, shownOn]
      rfl

/-- How a batch is shown has no part in what it does: whatever the console keeps back or spells out,
and at whatever pace the clock runs, outcome, files and the right to go on are the same, also when
the session is ended from outside. The clock alone decides whether there is an answer. A batch that
nobody ends does what the batch without a display does. -/
theorem presentation_is_inert (settings : Settings) (running : Bool) (stopAt : Option Nat)
    (files : FileSystem) (console console' : Console) :
    (∀ pace, (perform settings console pace running stopAt files).map Performance.work =
      (perform settings console' pace running stopAt files).map Performance.work) ∧
    (∀ pace pace' done done', perform settings console pace running stopAt files = some done →
      perform settings console' pace' running stopAt files = some done' →
      done.work = done'.work) ∧
    ∀ pace done, perform settings console pace running none files = some done →
      ∃ records, ripAll settings running files = (done.outcome, records, done.files) ∧
        done.running = running ∧ done.printed = console.print pace.clock records := by
  refine ⟨fun pace => ?_, fun pace pace' done done' here there => ?_,
    fun pace done performed => perform_let_be performed⟩
  · have answered : (perform settings console pace running stopAt files).isSome =
        (perform settings console' pace running stopAt files).isSome := by
      rw [isSome_perform settings console pace running stopAt files (.start console 0),
        isSome_perform settings console' pace running stopAt files (.start console 0)]
    cases here : perform settings console pace running stopAt files with
    | none =>
      rw [here, Option.isSome_none, eq_comm, Option.isSome_eq_false_iff,
        Option.isNone_iff_eq_none] at answered
      rw [answered]
    | some done =>
      rw [here, Option.isSome_some, eq_comm, Option.isSome_iff_exists] at answered
      obtain ⟨done', there⟩ := answered
      rw [there, Option.map_some, Option.map_some, work_of_perform here, work_of_perform there]
  · exact (work_of_perform here).trans (work_of_perform there).symm

end Session

theorem Binary64.quotient_zero (dividend : Binary64) (exponent : Int) :
    dividend.quotient (.finite false 0 exponent) = .nan ∨
      ∃ negative, dividend.quotient (.finite false 0 exponent) = .infinite negative := by
  cases dividend with
  | nan => exact .inl rfl
  | infinite negative => exact .inr ⟨_, rfl⟩
  | finite negative significand e =>
    cases significand with
    | zero => exact .inl rfl
    | succ significand => exact .inr ⟨_, rfl⟩

/-- Where no time passes, there is no speed to tell. -/
theorem Progress.remaining?_still (progress : Progress) :
    progress.remaining? ⟨0, 0⟩ = some ⟨0, 0⟩ := by
  have nothing : Span.inSeconds ⟨0, 0⟩ = .finite false 0 Binary64.minExponent := by decide +kernel
  rw [remaining?]
  split
  · rfl
  · rcases Binary64.quotient_zero (.ofNat progress.processed) Binary64.minExponent with
      none | ⟨negative, none⟩ <;> rw [nothing, none]

def Pace.still : Pace := ⟨fun _ => ⟨0, 0⟩, .stopped⟩

theorem Display.isSome_follow?_still (display : Display) (shown : List Progress) (n : Nat) :
    (display.follow? Pace.still.elapsed n shown).isSome := by
  induction shown generalizing display n with
  | nil => rfl
  | cons progress shown ih =>
    have moves : ∃ bar, display.bar.update? progress ⟨0, 0⟩ = some bar := by
      unfold ProgressBar.update?
      split
      · exact ⟨_, rfl⟩
      · exact ⟨_, by rw [progress.remaining?_still]; rfl⟩
    obtain ⟨bar, moved⟩ := moves
    simp only [follow?, move?, Pace.still, moved, Option.map_some, bind, Option.bind]
    exact ih _ (n + 1)

namespace Session

theorem exists_perform_still (settings : Settings) (console : Console) (running : Bool)
    (stopAt : Option Nat) (files : FileSystem) :
    ∃ done, perform settings console .still running stopAt files = some done := by
  rw [← Option.isSome_iff_exists,
    isSome_perform settings console .still running stopAt files (.start console 0)]
  exact Display.isSome_follow?_still _ _ 0

/-- Two inputs whose lists stand in each other's way, shown to a person in all detail and kept back
from a program: both times the second list is found empty. -/
theorem presentation_is_inert_chained :
    ∃ done done', perform chained ⟨.human, 2, false⟩ .still true none crowded = some done ∧
      perform chained ⟨.json, 0, true⟩ .still true none crowded = some done' ∧
      done.work = done'.work ∧ done.running = true ∧
      done.outcome = .ok (Batch.reportOf {} [Batch.reportOn {} ⟨⟨"a"⟩, ⟨"a.t"⟩⟩ one,
        Batch.reportOn {} ⟨⟨"a.t"⟩, ⟨"a.t.t"⟩⟩ oneListed]) := by
  obtain ⟨-, same, alone⟩ :=
    presentation_is_inert chained true none crowded ⟨.human, 2, false⟩ ⟨.json, 0, true⟩
  obtain ⟨done, here⟩ := exists_perform_still chained ⟨.human, 2, false⟩ true none crowded
  obtain ⟨done', there⟩ := exists_perform_still chained ⟨.json, 0, true⟩ true none crowded
  obtain ⟨records, ripped, going, -⟩ := alone .still done here
  obtain ⟨records', known⟩ := ripAll_chained
  exact ⟨done, done', here, there, same .still .still done done' here there, going,
    (Prod.ext_iff.mp (ripped.symm.trans known)).1⟩

end Session
end ResourceNames
