import ResourceNames.Performance
import ResourceNames.Proofs.BatchOutcome
import ResourceNames.Proofs.EntriesInTurn
import ResourceNames.Proofs.RoomMaking

namespace ResourceNames.Session

variable {session : Session} {step : Step} {steps : List Step}

theorem running_remember (session : Session) (outcome : Except Failure Report) :
    (session.remember outcome).running = session.running := by
  cases outcome <;> rfl

/-- Of all steps only one ends a session. In particular a batch of one's own that is cancelled does
not. -/
theorem running_step : (session.step step).2.running = true ↔
    session.running = true ∧ step ≠ .shutdown := by
  cases step with
  | ripAll | run =>
    simp only [Session.step, running_remember]
    simp
  | entry | read | writeList | printReport | handleError | edit => simp [Session.step]
  | shutdown => simp [Session.step]

theorem running_run : (session.run steps).2.running = true ↔
    session.running = true ∧ .shutdown ∉ steps := by
  induction steps generalizing session with
  | nil => simp [run]
  | cons step steps ih =>
    have behind : (session.run (step :: steps)).2 = ((session.step step).2.run steps).2 := rfl
    rw [behind, ih, running_step, List.mem_cons, not_or, and_assoc, ne_comm]

/-- The reply to a step is that of the session which the steps before it have left. -/
theorem reply_run (session : Session) (steps : List Step) (i : Nat) :
    (session.run steps).1[i]? =
      steps[i]?.map fun step => ((session.run (steps.take i)).2.step step).1 := by
  induction steps generalizing session i with
  | nil => rfl
  | cons step steps ih =>
    cases i with
    | zero => rfl
    | succ i => exact ih (session.step step).2 i

theorem run_take_succ (session : Session) {i : Nat} (next : steps[i]? = some step) :
    (session.run (steps.take (i + 1))).2 = ((session.run (steps.take i)).2.step step).2 := by
  induction steps generalizing session i with
  | nil => cases next
  | cons first steps ih =>
    cases i with
    | zero =>
      cases next
      rfl
    | succ i => exact ih (session.step first).2 next

/-- A batch that is let go on may fail, but it is not cancelled. -/
theorem ripAll_ne_cancelled (settings : Settings) (files : FileSystem) :
    (ripAll settings true files).1 ≠ .error .cancelled := by
  have comes := comes_ripAll settings files
  generalize ripAll settings true files = came at comes
  intro cancelled
  cases comes with
  | unnamed => cases cancelled
  | roomless described refused =>
    cases cancelled
    cases makeRoom_error refused
  | stopped described made failed =>
    cases cancelled
    obtain missing | unreadable | unwritable := Batch.exitCode_of_processAll failed
    · cases missing
    · cases unreadable
    · cases unwritable
  | done => cases cancelled

theorem step_ripAll_outcome (session : Session) :
    (session.step .ripAll).1.outcome = .error .cancelled ↔ session.running = false := by
  have replied : (session.step .ripAll).1.outcome =
      (ripAll session.settings session.running session.files).1.map .report := rfl
  rw [replied]
  cases running : session.running with
  | false => exact ⟨fun _ => rfl, fun _ => rfl⟩
  | true =>
    refine ⟨fun cancelled => ?_, fun stopped => by cases stopped⟩
    have kept := ripAll_ne_cancelled session.settings session.files
    rcases ripped : ripAll session.settings true session.files with ⟨failure | report, shown⟩
    · rw [ripped] at cancelled kept
      cases cancelled
      exact absurd rfl kept
    · rw [ripped] at cancelled
      cases cancelled

/-- Of the whole batch of a session that is over nothing is done and nothing is shown. -/
theorem step_ripAll_over (stopped : session.running = false) :
    (session.step .ripAll).1.records = [] ∧ (session.step .ripAll).2.files = session.files := by
  simp only [Session.step, stopped]
  exact ⟨rfl, rfl⟩

/-- A session goes on until it is asked to end, and never again. Its batch is cancelled exactly if
it has been asked to end before, however often batches of one's own have been cancelled. Then the
files stay as they are, the directory for the lists included, nothing is printed, and no bar is
begun. -/
theorem shutdown_is_final (session : Session) (begun : session.running = true)
    (steps : List Step) (i : Nat) :
    let before := (session.run (steps.take i)).2
    (before.running = true ↔ .shutdown ∉ steps.take i) ∧
    (steps[i]? = some .ripAll → ∃ reply, (session.run steps).1[i]? = some reply ∧
      (reply.outcome = .error .cancelled ↔ .shutdown ∈ steps.take i) ∧
      (.shutdown ∈ steps.take i →
        (session.run (steps.take (i + 1))).2.files = before.files ∧
        (∀ clock, session.console.print clock reply.records = .none) ∧
        ∀ pace stopAt, perform before.settings before.console pace before.running stopAt
          before.files = some
            { outcome := .error .cancelled, running := false, files := before.files,
              printed := .none, bar? := none })) := by
  intro before
  have going : before.running = true ↔ .shutdown ∉ steps.take i := by
    rw [running_run, begun]
    exact and_iff_right rfl
  have stopped : before.running = false ↔ .shutdown ∈ steps.take i := by
    rw [← Bool.not_eq_true, going, not_not]
  refine ⟨going, fun next => ⟨(before.step .ripAll).1, ?_, ?_, fun ended => ?_⟩⟩
  · rw [reply_run, next]
    rfl
  · rw [step_ripAll_outcome, stopped]
  · obtain ⟨unshown, untouched⟩ := step_ripAll_over (stopped.mpr ended)
    refine ⟨?_, fun clock => ?_, fun pace stopAt => ?_⟩
    · rw [run_take_succ session next]
      exact untouched
    · rw [unshown]
      rfl
    · rw [stopped.mpr ended]
      rfl

/-- A batch of one's own that is cancelled beforehand. -/
def cancelledRun : Step :=
  .run [⟨⟨"a"⟩, ⟨"a.txt"⟩⟩] (some ⟨false, none⟩)

/-- The batch is asked for before the session is asked to end, and once more after that. -/
def interrupted : List Step := [cancelledRun, .ripAll, .shutdown, cancelledRun, .ripAll]

/-- There is to be a directory for the lists. -/
def gathering : Session where
  settings := ⟨{}, ⟨[⟨"a"⟩], "txt", some ⟨"lists"⟩⟩⟩
  console := ⟨.human, 2, false⟩
  files := .blank

theorem shutdown_is_final_gathering :
    gathering.running = true ∧ .shutdown ∉ interrupted.take 1 ∧ .shutdown ∈ interrupted.take 4 ∧
    (∃ cancelled reply, (gathering.run interrupted).1[0]? = some cancelled ∧
      cancelled.outcome = .error .cancelled ∧
      (gathering.run interrupted).1[1]? = some reply ∧ reply.outcome ≠ .error .cancelled) ∧
    ∃ reply, (gathering.run interrupted).1[4]? = some reply ∧
      reply.outcome = .error .cancelled ∧
      (gathering.run interrupted).2.files = (gathering.run (interrupted.take 4)).2.files := by
  have early : .shutdown ∉ interrupted.take 1 := by simp [interrupted, cancelledRun]
  have late : .shutdown ∈ interrupted.take 4 := by simp [interrupted]
  obtain ⟨-, first⟩ := shutdown_is_final gathering rfl interrupted 1
  obtain ⟨-, last⟩ := shutdown_is_final gathering rfl interrupted 4
  obtain ⟨reply, replied, outcome, -⟩ := first rfl
  obtain ⟨again, repliedAgain, outcomeAgain, nothing⟩ := last rfl
  exact ⟨rfl, early, late, ⟨_, reply, rfl, rfl, replied, mt outcome.mp early⟩, again,
    repliedAgain, outcomeAgain.mpr late, (nothing late).1⟩

end ResourceNames.Session
