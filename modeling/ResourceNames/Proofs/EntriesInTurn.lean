import ResourceNames.Proofs.EntryFrame

namespace ResourceNames.Batch

variable {rule : ScanRule} {entry : Entry} {entries before behind : List Entry}
  {fs between reached after : FileSystem} {code : Nat}

theorem readInput_unreadable {path : Path} {cause : Cause} (read : fs.read path = .error cause)
    (other : cause ≠ .notFound) :
    readInput path fs = .error (.inputUnreadable path.text cause) := by
  unfold readInput
  rw [read]
  split
  · rename_i data same
    cases same
  · rename_i missing
    exact absurd (Except.error.inj missing) other
  · rename_i refused _ same
    rw [Except.error.inj same]

/-- An entry whose input can be read comes to what becomes of its list. -/
theorem processEntry_of_read (rule : ScanRule) {data : List UInt8}
    (read : fs.read entry.input = .ok data) :
    processEntry rule entry fs =
      match fs.write entry.output (rule.listing data) with
      | (.error cause, after) => (.error (.outputNotWritable entry.output.text cause), after)
      | (.ok (), after) => (.ok (reportOn rule entry data), after) := by
  simp only [processEntry, readInput_eq_ok_iff.mpr read, writeList_eq, ScanRule.listing]
  rcases fs.write entry.output (Text.bytes (LiteralList.render (rule.extract data).names))
    with ⟨cause | ⟨⟩, after⟩ <;> rfl

theorem processEntry_ok_iff {report : EntryReport} :
    processEntry rule entry fs = (.ok report, after) ↔ ∃ data, fs.read entry.input = .ok data ∧
      report = reportOn rule entry data ∧
      fs.write entry.output (rule.listing data) = (.ok (), after) := by
  constructor
  · intro processed
    obtain ⟨data, -, -, read, rfl, -⟩ := processEntry_ok processed
    rw [processEntry_of_read rule read] at processed
    rcases wrote : fs.write entry.output (rule.listing data) with ⟨cause | ⟨⟩, left⟩
    · rw [wrote] at processed
      cases processed
    · rw [wrote] at processed
      cases processed
      exact ⟨data, read, rfl, wrote⟩
  · rintro ⟨data, read, rfl, written⟩
    rw [processEntry_of_read rule read, written]

/-- Why an entry cannot be done, and the code with which the program ends for it. Whether the list
can be written is asked only if the input can be read. -/
inductive Stuck (rule : ScanRule) (entry : Entry) (fs : FileSystem) : Nat → Prop
  | missing (read : fs.read entry.input = .error .notFound) : Stuck rule entry fs 3
  | unreadable {cause : Cause} (read : fs.read entry.input = .error cause)
      (other : cause ≠ .notFound) : Stuck rule entry fs 4
  | unwritable {data : List UInt8} {cause : Cause} (read : fs.read entry.input = .ok data)
      (refused : (fs.write entry.output (rule.listing data)).1 = .error cause) :
      Stuck rule entry fs 5

/-- An entry that is stuck fails, and leaves the files as they are. -/
theorem Stuck.fails (stuck : Stuck rule entry fs code) :
    ∃ failure : Failure, failure.exitCode = code ∧
      processEntry rule entry fs = (.error failure, fs) := by
  cases stuck with
  | missing read =>
    refine ⟨.inputNotFound entry.input.text, rfl, ?_⟩
    simp only [processEntry, readInput, read]
    rfl
  | @unreadable cause read other =>
    refine ⟨.inputUnreadable entry.input.text cause, rfl, ?_⟩
    simp only [processEntry, readInput_unreadable read other]
  | @unwritable data cause read refused =>
    refine ⟨.outputNotWritable entry.output.text cause, rfl, ?_⟩
    have failed := processEntry_of_read rule read
    rcases wrote : fs.write entry.output (rule.listing data) with ⟨outcome, after⟩
    rw [wrote] at refused failed
    cases refused
    rw [failed, processEntry_error failed]

/-- An entry can be done or it is stuck. -/
theorem done_or_stuck (rule : ScanRule) (entry : Entry) (fs : FileSystem) :
    (∃ data after, fs.read entry.input = .ok data ∧
      fs.write entry.output (rule.listing data) = (.ok (), after)) ∨
    ∃ code, Stuck rule entry fs code := by
  cases read : fs.read entry.input with
  | error cause =>
    right
    by_cases missing : cause = .notFound
    · exact ⟨3, .missing (missing ▸ read)⟩
    · exact ⟨4, .unreadable read missing⟩
  | ok data =>
    rcases wrote : fs.write entry.output (rule.listing data) with ⟨cause | ⟨⟩, after⟩
    · exact .inr ⟨5, .unwritable read (congrArg Prod.fst wrote)⟩
    · exact .inl ⟨data, after, rfl, wrote⟩

theorem stuck_of_processEntry {failure : Failure}
    (failed : processEntry rule entry fs = (.error failure, after)) :
    Stuck rule entry fs failure.exitCode := by
  rcases done_or_stuck rule entry fs with ⟨data, left, read, written⟩ | ⟨code, stuck⟩
  · rw [processEntry_of_read rule read, written] at failed
    cases failed
  · obtain ⟨other, rfl, failed'⟩ := stuck.fails
    rw [failed] at failed'
    cases failed'
    exact stuck

/-- An entry is stuck for one reason. -/
theorem Stuck.unique {other : Nat} (stuck : Stuck rule entry fs code)
    (again : Stuck rule entry fs other) : code = other := by
  obtain ⟨failure, rfl, failed⟩ := stuck.fails
  obtain ⟨failure', rfl, failed'⟩ := again.fails
  cases failed.symm.trans failed'
  rfl

/-- Each entry is read, and its list is written in one piece, among the files that the entry before
it has left. -/
inductive InTurn (rule : ScanRule) : List Entry → FileSystem → FileSystem → Prop
  | nil {fs : FileSystem} : InTurn rule [] fs fs
  | cons {entry : Entry} {entries : List Entry} {data : List UInt8}
      {fs between after : FileSystem} (read : fs.read entry.input = .ok data)
      (written : fs.write entry.output (rule.listing data) = (.ok (), between))
      (rest : InTurn rule entries between after) : InTurn rule (entry :: entries) fs after

/-- An entry whose output is made anew, or emptied, comes first. -/
theorem InTurn.cons_of_create {data listed : List UInt8} {l : Location}
    (read : fs.read entry.input = .ok data)
    (opened : fs.create entry.output = .ok (l, fs.set l (.file []))) (inner : l ≠ [])
    (listing : rule.listing data = listed)
    (rest : InTurn rule entries (fs.set l (.file listed)) after) :
    InTurn rule (entry :: entries) fs after :=
  .cons read (FileSystem.write_of_create opened inner _) (listing ▸ rest)

theorem inTurn_iff : InTurn rule entries fs after ↔
    ∃ reports, processAll rule entries fs = (.ok reports, after) := by
  constructor
  · intro turn
    induction turn with
    | nil => exact ⟨[], rfl⟩
    | @cons entry _ data _ _ _ read written _ ih =>
      obtain ⟨reports, rest⟩ := ih
      have processed := processEntry_ok_iff.mpr ⟨data, read, rfl, written⟩
      exact ⟨reportOn rule entry data :: reports, processAll_cons_of_ok processed rest⟩
  · rintro ⟨reports, well⟩
    induction entries generalizing fs reports with
    | nil =>
      cases well
      exact .nil
    | cons entry entries ih =>
      obtain ⟨report, others, between, rfl, processed, rest⟩ := processAll_cons_eq_ok well
      obtain ⟨data, read, -, written⟩ := processEntry_ok_iff.mp processed
      exact .cons read written (ih others rest)

theorem InTurn.of_append {first second : List Entry}
    (turn : InTurn rule (first ++ second) fs after) :
    ∃ between, InTurn rule first fs between ∧ InTurn rule second between after := by
  induction first generalizing fs with
  | nil => exact ⟨fs, .nil, turn⟩
  | cons entry first ih =>
    cases turn with
    | cons read written rest =>
      obtain ⟨between, front, back⟩ := ih rest
      exact ⟨between, .cons read written front, back⟩

/-- Entries that have been done have changed no more than the files at their outputs. -/
theorem InTurn.frame (turn : InTurn rule entries fs after) :
    after.skeleton = fs.skeleton ∧ ∀ l, after.node? l = fs.node? l ∨
      (∃ entry ∈ entries, fs.place? entry.output = some l) ∧
        ∃ content, after.node? l = some (.file content) := by
  induction turn with
  | nil => exact ⟨rfl, fun _ => .inl rfl⟩
  | @cons entry entries data fs between after read written _ ih =>
    obtain ⟨shape, frame⟩ := ih
    -- What the first list changes, if anything, is the file at its place.
    have first : between = fs ∨ ∃ l, fs.place? entry.output = some l ∧ fs.skeleton.2 l = none ∧
        between = fs.set l (.file (rule.listing data)) := by
      obtain ⟨cause, failed⟩ | same | ⟨l, placed, free, made⟩ :=
        FileSystem.write_cases entry.output (rule.listing data) fs
      · cases failed.symm.trans written
      · exact .inl (congrArg Prod.snd (written.symm.trans same))
      · exact .inr ⟨l, placed, free, congrArg Prod.snd (written.symm.trans made)⟩
    have shapeFirst : between.skeleton = fs.skeleton := by
      obtain rfl | ⟨l, -, free, rfl⟩ := first
      · rfl
      · exact FileSystem.skeleton_set_file _ free
    refine ⟨shape.trans shapeFirst, fun l => ?_⟩
    obtain kept | ⟨⟨other, member, placed⟩, file⟩ := frame l
    · rw [kept]
      obtain rfl | ⟨place, placed, free, rfl⟩ := first
      · exact .inl rfl
      · by_cases here : place = l
        · subst here
          exact .inr ⟨⟨entry, List.mem_cons_self, placed⟩, _,
            FileSystem.node?_set_self fs _ (FileSystem.ne_nil_of_free free)⟩
        · exact .inl (FileSystem.node?_set_of_ne _ here)
    · rw [FileSystem.place?_of_skeleton shapeFirst] at placed
      exact .inr ⟨⟨other, List.mem_cons_of_mem _ member, placed⟩, file⟩

/-- Among entries that have been done, the list of one is that of its input in its turn, unless it
went to a device or an entry behind it has written to the same place. -/
theorem InTurn.lists {earlier later : List Entry} {one : Entry}
    (turn : InTurn rule (earlier ++ one :: later) fs after) (writable : fs.Writable one.output)
    (kept : ∀ other ∈ later, fs.place? other.output ≠ fs.place? one.output) :
    ∃ taken data, InTurn rule earlier fs taken ∧ taken.read one.input = .ok data ∧
      after.read one.output = .ok (rule.listing data) := by
  obtain ⟨taken, front, rest⟩ := turn.of_append
  cases rest with
  | @cons _ _ data _ left _ read written back =>
    obtain ⟨reports, first⟩ := inTurn_iff.mp front
    obtain ⟨others, second⟩ := inTurn_iff.mp back
    have processed := processEntry_ok_iff.mpr ⟨data, read, rfl, written⟩
    obtain ⟨_, read', -, listed⟩ := processAll_lists_taken first processed second writable kept
    cases read.symm.trans read'
    exact ⟨taken, data, front, read, listed⟩

/-- The first entry that is stuck decides, and the files stay as it has found them. -/
theorem processAll_of_stuck (turn : InTurn rule before fs reached)
    (stuck : Stuck rule entry reached code) (behind : List Entry) :
    ∃ failure : Failure, failure.exitCode = code ∧
      processAll rule (before ++ entry :: behind) fs = (.error failure, reached) := by
  obtain ⟨reports, well⟩ := inTurn_iff.mp turn
  obtain ⟨failure, exits, failed⟩ := stuck.fails
  exact ⟨failure, exits, processAll_error_iff.mpr ⟨_, _, _, _, rfl, well, failed⟩⟩

theorem stuck_of_processAll {failure : Failure}
    (failed : processAll rule entries fs = (.error failure, after)) :
    ∃ before entry behind, entries = before ++ entry :: behind ∧
      InTurn rule before fs after ∧ Stuck rule entry after failure.exitCode := by
  obtain ⟨before, entry, behind, reports, split, well, processed⟩ := processAll_error_iff.mp failed
  exact ⟨before, entry, behind, split, inTurn_iff.mpr ⟨reports, well⟩,
    stuck_of_processEntry processed⟩

/-- Whatever comes of entries, those in front have been done and nothing else has. -/
theorem turn_of_processAll {outcome : Except Failure (List EntryReport)}
    (processed : processAll rule entries fs = (outcome, after)) :
    ∃ first, first <+: entries ∧ InTurn rule first fs after := by
  cases outcome with
  | ok reports => exact ⟨entries, List.prefix_rfl, inTurn_iff.mpr ⟨reports, processed⟩⟩
  | error failure =>
    obtain ⟨before, entry, behind, rfl, turn, -⟩ := stuck_of_processAll processed
    exact ⟨before, List.prefix_append _ _, turn⟩

theorem exitCode_of_processAll {failure : Failure}
    (failed : processAll rule entries fs = (.error failure, after)) :
    failure.exitCode = 3 ∨ failure.exitCode = 4 ∨ failure.exitCode = 5 := by
  obtain ⟨_, entry, _, -, -, stuck⟩ := stuck_of_processAll failed
  generalize failure.exitCode = code at stuck
  cases stuck with
  | missing => exact .inl rfl
  | unreadable => exact .inr (.inl rfl)
  | unwritable => exact .inr (.inr rfl)

end ResourceNames.Batch
