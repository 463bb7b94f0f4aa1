import ResourceNames.Proofs.QuietOutput

namespace ResourceNames

inductive Stream
  | out
  | err
deriving DecidableEq, Repr

def Output.on (output : Output) : Stream → String
  | .out => output.out
  | .err => output.err

theorem Output.on_append (first second : Output) (stream : Stream) :
    (first ++ second).on stream = first.on stream ++ second.on stream := by
  cases stream <;> rfl

instance : DecidablePred Record.IsComplaint
  | .message .error _ | .suggestion _ | .errorLine _ => .isTrue trivial
  | .message .success _ | .message .warning _ | .message .info _ | .message .debug _
  | .message .start _ | .header _ | .separator | .report _ | .plan _ | .line _ => .isFalse id

/-- Complaints are kept apart from all else, but not from other documents. -/
def Record.stream (mode : Mode) (record : Record) : Stream :=
  match record with
  | .errorLine _ => .err
  | record => if record.IsComplaint ∧ mode ≠ .json then .err else .out

namespace Console

variable {console : Console} {clock : Clock} {record : Record}

/-- A record leaves no trace on the other stream. -/
theorem render_elsewhere {stream : Stream} (elsewhere : record.stream console.mode ≠ stream) :
    (console.render clock record).on stream = "" := by
  obtain ⟨mode, verbosity, quiet⟩ := console
  cases record with
  | message level text =>
    cases mode <;> cases level <;> cases stream <;> first | rfl | exact absurd rfl elsewhere
  | suggestion | header | separator | report | plan | line | errorLine =>
    cases mode <;> cases stream <;> first | rfl | exact absurd rfl elsewhere

theorem print_on (console : Console) (clock : Clock) (records : List Record) (stream : Stream) :
    (console.print clock records).on stream = String.join
      (((records.filter console.shows).filter fun record =>
        record.stream console.mode = stream).map fun record =>
          (console.render clock record).on stream) := by
  induction records with
  | nil => cases stream <;> rfl
  | cons record records ih =>
    rw [print_cons, Output.on_append, ih]
    cases shown : console.shows record with
    | false =>
      rw [List.filter_cons_of_neg (Bool.eq_false_iff.mp shown)]
      cases stream <;> simp [Output.on, Output.none]
    | true =>
      rw [List.filter_cons_of_pos shown, if_pos rfl]
      by_cases here : record.stream console.mode = stream
      · rw [List.filter_cons_of_pos (by simp [here]), List.map_cons, String.join_cons]
      · rw [List.filter_cons_of_neg (by simp [here]), render_elsewhere here, String.empty_append]

/-- How a record is written does not depend on how much is shown, plans apart. -/
theorem render_of_isTold (told : record.IsTold) (mode : Mode) (verbosity : Nat) (quiet : Bool)
    (clock : Clock) : Console.render ⟨mode, verbosity, quiet⟩ clock record =
      Console.render ⟨mode, 0, false⟩ clock record := by
  cases record with
  | message level text => cases level <;> cases mode <;> rfl
  | suggestion | report => cases mode <;> rfl
  | header | separator | plan | line | errorLine => exact told.elim

/-- Complaints are shown on every console. -/
theorem shows_of_isComplaint (complaint : record.IsComplaint) : console.shows record = true := by
  cases record with
  | message level text => cases level <;> first | rfl | exact complaint.elim
  | suggestion | errorLine => rfl
  | header | separator | report | plan | line => exact complaint.elim

/-- Of what is told in a batch, a quiet console shows the complaints and nothing else. -/
theorem shows_quiet (told : record.IsTold) (mode : Mode) (verbosity : Nat) :
    Console.shows ⟨mode, verbosity, true⟩ record = decide record.IsComplaint := by
  cases record with
  | message level text => cases level <;> rfl
  | suggestion | report => rfl
  | header | separator | plan | line | errorLine => exact told.elim

theorem shows_mono {mode : Mode} {low high : Nat} (more : low ≤ high)
    (shown : Console.shows ⟨mode, low, false⟩ record = true) :
    Console.shows ⟨mode, high, false⟩ record = true := by
  cases record with
  | message level text =>
    cases level with
    | error => rfl
    | success | warning | info | debug | start =>
      simp only [shows, Bool.not_false, Bool.true_and, decide_eq_true_eq] at shown ⊢
      exact shown.trans more
  | suggestion | header | separator | report | plan | line | errorLine => rfl

/-- From the second level on nothing is kept back. -/
theorem shows_of_two_le {verbosity : Nat} (enough : 2 ≤ verbosity) (mode : Mode)
    (record : Record) : Console.shows ⟨mode, verbosity, false⟩ record = true := by
  refine shows_mono enough ?_
  cases record with
  | message level text => cases level <;> rfl
  | suggestion | header | separator | report | plan | line | errorLine => rfl

/-- What a console shows of some records on a stream. -/
def said (console : Console) (stream : Stream) (records : List Record) : List Record :=
  (records.filter console.shows).filter fun record => record.stream console.mode = stream

end Console

/-- The complaints among some records that are shown on a stream. -/
def complaintsOn (mode : Mode) (stream : Stream) (records : List Record) : List Record :=
  (records.filter fun record => record.IsComplaint).filter fun record =>
    record.stream mode = stream

namespace Console

variable {records : List Record}

theorem said_sublist {low high : Nat} (more : low ≤ high) (mode : Mode) (stream : Stream)
    (records : List Record) :
    (said ⟨mode, low, false⟩ stream records).Sublist (said ⟨mode, high, false⟩ stream records) :=
  (List.monotone_filter_right records fun _ shown => shows_mono more shown).filter _

theorem said_quiet (told : ∀ record ∈ records, record.IsTold) (mode : Mode) (verbosity : Nat)
    (stream : Stream) :
    said ⟨mode, verbosity, true⟩ stream records = complaintsOn mode stream records := by
  have shown : records.filter (shows ⟨mode, verbosity, true⟩) =
      records.filter fun record => record.IsComplaint :=
    List.filter_congr fun record member => shows_quiet (told record member) mode verbosity
  rw [said, shown, complaintsOn]

/-- Whatever is kept back, no complaint is. -/
theorem complaints_said (console : Console) (stream : Stream) (records : List Record) :
    (said console stream records).filter (fun record => record.IsComplaint) =
      complaintsOn console.mode stream records := by
  rw [said, complaintsOn, List.filter_filter, List.filter_filter, List.filter_filter]
  refine List.filter_congr fun record _ => ?_
  by_cases complaint : record.IsComplaint
  · simp [complaint, shows_of_isComplaint complaint]
  · simp [complaint]

/-- A stream holds the texts of what is said on it. -/
theorem print_told (told : ∀ record ∈ records, record.IsTold) (mode : Mode) (verbosity : Nat)
    (quiet : Bool) (clock : Clock) (stream : Stream) :
    (Console.print ⟨mode, verbosity, quiet⟩ clock records).on stream = String.join
      ((said ⟨mode, verbosity, quiet⟩ stream records).map fun record =>
        (Console.render ⟨mode, 0, false⟩ clock record).on stream) := by
  rw [print_on]
  refine congrArg String.join (List.map_congr_left fun record member => ?_)
  have listed := List.mem_of_mem_filter (List.mem_of_mem_filter member)
  rw [render_of_isTold (told record listed)]

end Console

namespace Session

/-- The step that tells what came of a batch: its report is printed, or its failure is handled. -/
def aftermath : Except Failure Answer → Step
  | .ok _ => .printReport
  | .error _ => .handleError

/-- What a session prints of a batch and of what came of it. -/
def output (session : Session) (clock : Clock) : Output :=
  session.transcript
    [(.ripAll, clock), (aftermath (session.step .ripAll).1.outcome, clock)]

/-- What is shown of the end of a batch. -/
def verdict : Except Failure Report → List Record
  | .ok report => [.report report]
  | .error failure => failure.records

variable (settings : Settings) (running : Bool) (files : FileSystem)

/-- What there is to be shown of a batch and of what came of it. -/
def account : List Record :=
  let (outcome, records, _) := ripAll settings running files
  records ++ verdict outcome

theorem verdict_isTold (outcome : Except Failure Report) :
    ∀ record ∈ verdict outcome, record.IsTold := by
  cases outcome with
  | error failure => exact failure.records_isTold
  | ok report =>
    intro record member
    rw [List.mem_singleton.mp member]
    trivial

theorem account_isTold : ∀ record ∈ account settings running files, record.IsTold :=
  List.forall_mem_append.mpr ⟨ripAll_isTold settings running files, verdict_isTold _⟩

/-- What is shown of a batch under way is no complaint. -/
theorem complaintsOn_account (mode : Mode) (stream : Stream) :
    complaintsOn mode stream (account settings running files) =
      match (ripAll settings running files).1 with
      | .ok _ => []
      | .error failure => failure.records.filter fun record => record.stream mode = stream := by
  let console : Console := ⟨mode, 0, true⟩
  have quiet : console.quiet = true := rfl
  have kept := ripAll_kept_back quiet settings running files
  rcases ripped : ripAll settings running files with ⟨outcome, records, after⟩
  rw [ripped] at kept
  have none : records.filter (fun record => record.IsComplaint) = [] := by
    refine List.filter_eq_nil_iff.mpr fun record member complaint => ?_
    have shown : console.shows record = true :=
      Console.shows_of_isComplaint (of_decide_eq_true complaint)
    rw [kept record member] at shown
    cases shown
  rw [account, ripped]
  dsimp only
  rw [complaintsOn, List.filter_append, none, List.nil_append]
  cases outcome with
  | ok report => rfl
  | error failure =>
    have all : failure.records.filter (fun record => record.IsComplaint) = failure.records :=
      List.filter_eq_self.mpr fun record member =>
        decide_eq_true (failure.records_isComplaint record member)
    rw [verdict, all]

theorem output_eq (session : Session) (clock : Clock) : session.output clock =
    session.console.print clock (account session.settings session.running session.files) := by
  rcases ripped : ripAll session.settings session.running session.files
    with ⟨failure | report, records, after⟩
  · simp only [output, account, transcript, step, ripped, remember, Except.map, aftermath,
      Output.append_none, Console.print_append, Option.map_some, Option.getD_some, verdict]
  · simp only [output, account, transcript, step, ripped, remember, Except.map, aftermath,
      Output.append_none, Console.print_append, Option.map_some, Option.toList_some, verdict]

theorem output_rip (console : Console) (clock : Clock) :
    (Command.rip settings console files).output clock =
      console.print clock (account settings true files) := by
  rcases ripped : ripAll settings true files with ⟨failure | report, records, after⟩ <;>
    simp only [Command.rip, account, ripped] <;> rfl

/-- What is shown of a batch and of what came of it grows with the level, on either stream. On each
stream stand the texts of what is said there, which are the same at every level. What is said at a
level is said, in the same order, at every higher level, and from the second on nothing is kept
back. Asked to be quiet, the session says nothing but the complaints, which are none if the batch is
done, and are what its failure wants to have shown if it is not; and these are said at every
level. -/
theorem output_grows (session : Session) (mode : Mode) :
    let told := account session.settings session.running session.files
    let said (verbosity : Nat) (quiet : Bool) (stream : Stream) : List Record :=
      Console.said ⟨mode, verbosity, quiet⟩ stream told
    let outcome := (ripAll session.settings session.running session.files).1
    (∀ verbosity quiet clock stream,
      ({ session with console := ⟨mode, verbosity, quiet⟩ }.output clock).on stream = String.join
        ((said verbosity quiet stream).map fun record =>
          (Console.render ⟨mode, 0, false⟩ clock record).on stream)) ∧
    (∀ low high, low ≤ high → ∀ stream,
      (said low false stream).Sublist (said high false stream)) ∧
    (∀ verbosity, 2 ≤ verbosity → ∀ stream, said verbosity false stream =
      told.filter fun record => record.stream mode = stream) ∧
    (∀ verbosity stream, said verbosity true stream = complaintsOn mode stream told) ∧
    (∀ verbosity quiet stream, (said verbosity quiet stream).filter
      (fun record => record.IsComplaint) = complaintsOn mode stream told) ∧
    (∀ report, outcome = .ok report → ∀ stream, complaintsOn mode stream told = []) ∧
    (∀ failure, outcome = .error failure → ∀ stream, complaintsOn mode stream told =
      failure.records.filter fun record => record.stream mode = stream) ∧
    ∀ console clock, (Command.rip session.settings console session.files).output clock =
      { session with console, running := true }.output clock := by
  intro told said outcome
  have isTold : ∀ record ∈ told, record.IsTold :=
    account_isTold session.settings session.running session.files
  have complaints := complaintsOn_account session.settings session.running session.files mode
  refine ⟨fun verbosity quiet clock stream => ?_, fun low high more stream =>
    Console.said_sublist more mode stream told, fun verbosity enough stream => ?_,
    fun verbosity stream => Console.said_quiet isTold mode verbosity stream,
    fun verbosity quiet stream => Console.complaints_said ⟨mode, verbosity, quiet⟩ stream told,
    fun report done stream => ?_, fun failure failed stream => ?_, fun console clock => ?_⟩
  · rw [output_eq]
    exact Console.print_told isTold mode verbosity quiet clock stream
  · have all : told.filter (Console.shows ⟨mode, verbosity, false⟩) = told :=
      List.filter_eq_self.mpr fun record _ => Console.shows_of_two_le enough mode record
    simp only [said, Console.said, all]
  · rw [complaints stream, show (ripAll _ _ _).1 = _ from done]
  · rw [complaints stream, show (ripAll _ _ _).1 = _ from failed]
  · rw [output_eq, output_rip]

/-- A batch that is done, told briefly and in all detail, and one that is cancelled before it
begins, told to a quiet console. -/
theorem output_grows_chained :
    let session : Session :=
      { settings := chained, console := ⟨.plain, 0, false⟩, files := crowded }
    let told := account chained true crowded
    let ended := account chained false crowded
    0 ≤ 2 ∧ (Console.said ⟨.plain, 0, false⟩ .out told).Sublist
        (Console.said ⟨.plain, 2, false⟩ .out told) ∧
      (∃ report, (ripAll chained true crowded).1 = .ok report) ∧
      (∀ clock, ({ session with console := ⟨.plain, 0, true⟩ }.output clock).on .out = "") ∧
      (ripAll chained false crowded).1 = .error .cancelled ∧
      Console.said ⟨.plain, 0, true⟩ .err ended =
        [.message .error "Operation was cancelled by user"] := by
  intro session told ended
  obtain ⟨texts, grows, -, quiet, -, silent, -, -⟩ := output_grows session .plain
  obtain ⟨-, -, -, quietly, -, -, complains, -⟩ :=
    output_grows { session with running := false } .plain
  obtain ⟨records, ripped⟩ := ripAll_chained
  have done : (ripAll chained true crowded).1 = .ok _ := congrArg Prod.fst ripped
  have complaint := (quietly 0 .err).trans (complains .cancelled rfl .err)
  refine ⟨by decide, grows 0 2 (by decide) .out, ⟨_, done⟩, fun clock => ?_, rfl, complaint⟩
  rw [texts 0 true clock .out, quiet 0 .out, silent _ done .out]
  rfl

end Session
end ResourceNames
