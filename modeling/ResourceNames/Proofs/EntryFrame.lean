import ResourceNames.Proofs.BatchComposition
import ResourceNames.Proofs.FilePlaces

namespace ResourceNames

/-- The list of the names in a stream, as it is written to a file. -/
def ScanRule.listing (rule : ScanRule) (data : List UInt8) : List UInt8 :=
  Text.bytes (LiteralList.render (rule.extract data).names)

/-- The paths of an entry, as they are shown. -/
def Entry.shown (entry : Entry) : String × String :=
  (entry.input.text, entry.output.text)

/-- The paths that a report tells of. -/
def EntryReport.shown (report : EntryReport) : String × String :=
  (report.input, report.output)

namespace Batch

variable {rule : ScanRule} {entry : Entry} {fs after : FileSystem} {report : EntryReport}

/-- What is reported of an entry whose input holds these bytes. -/
def reportOn (rule : ScanRule) (entry : Entry) (data : List UInt8) : EntryReport where
  input := entry.input.text
  output := entry.output.text
  statistics := (rule.extract data).statistics
  unescaped := (rule.extract data).names.countP LiteralList.needsEscaping

theorem readInput_eq_ok_iff {path : Path} {data : List UInt8} :
    readInput path fs = .ok data ↔ fs.read path = .ok data := by
  unfold readInput
  split <;> rename_i read <;> simp [read]

/-- An entry that is done has its list in the file at its output, and no other file has changed. -/
theorem processEntry_ok (processed : processEntry rule entry fs = (.ok report, after)) :
    ∃ data l opened, fs.read entry.input = .ok data ∧ report = reportOn rule entry data ∧
      fs.create entry.output = .ok (l, opened) ∧
      ((∃ onRead? onWrite?, fs.node? l = some (.special onRead? onWrite?) ∧ after = fs) ∨
        (fs.skeleton.2 l = none ∧ after = fs.set l (.file (rule.listing data)))) := by
  unfold processEntry at processed
  split at processed
  · cases processed
  · rename_i data readData
    have read := readInput_eq_ok_iff.mp readData
    dsimp only at processed
    split at processed
    · cases processed
    · rename_i count written wrote
      cases processed
      unfold writeList at wrote
      split at wrote
      · cases wrote
      · rename_i l opened created
        refine ⟨data, l, opened, read, rfl, created, ?_⟩
        have left := congrArg Prod.snd wrote
        dsimp only at left
        obtain ⟨-, -, -, ⟨onRead?, onWrite?, special, rfl⟩ | ⟨free, rfl⟩⟩ :=
          FileSystem.create_eq_ok created
        · rw [writeLines_special special] at left
          exact .inl ⟨onRead?, onWrite?, special, left.symm⟩
        · rw [writeLines_file fs (FileSystem.ne_nil_of_free free)] at left
          exact .inr ⟨free, left.symm⟩

theorem processEntry_of_create {data list : List UInt8} {l : Location}
    (read : fs.read entry.input = .ok data)
    (opened : fs.create entry.output = .ok (l, fs.set l (.file []))) (inner : l ≠ [])
    (listed : rule.listing data = list) :
    processEntry rule entry fs = (.ok (reportOn rule entry data), fs.set l (.file list)) := by
  subst listed
  simp only [processEntry, readInput_eq_ok_iff.mpr read, writeList, opened,
    writeLines_file fs inner]
  rfl

theorem processEntry_of_device {data : List UInt8} {l : Location} {onRead? : Option Cause}
    (read : fs.read entry.input = .ok data) (opened : fs.create entry.output = .ok (l, fs))
    (device : fs.node? l = some (.special onRead? none)) :
    processEntry rule entry fs = (.ok (reportOn rule entry data), fs) := by
  simp only [processEntry, readInput_eq_ok_iff.mpr read, writeList, opened,
    writeLines_device device]
  rfl

/-- An entry changes no more than the file at its output. -/
theorem processEntry_frame (processed : processEntry rule entry fs = (.ok report, after)) :
    after.skeleton = fs.skeleton ∧
      ∀ l, fs.place? entry.output ≠ some l → after.node? l = fs.node? l := by
  obtain ⟨data, place, opened, -, rfl, created, ⟨_, _, _, rfl⟩ | ⟨free, rfl⟩⟩ :=
    processEntry_ok processed
  · exact ⟨rfl, fun _ _ => rfl⟩
  · refine ⟨FileSystem.skeleton_set_file _ free, fun l elsewhere => ?_⟩
    have here : fs.place? entry.output = some place := FileSystem.place?_of_create created
    exact FileSystem.node?_set_of_ne _ fun same => elsewhere (same ▸ here)

section Several

variable {entries first second : List Entry} {reports before later : List EntryReport}

theorem processAll_cons_eq_ok
    (well : processAll rule (entry :: entries) fs = (.ok reports, after)) :
    ∃ report others between, reports = report :: others ∧
      processEntry rule entry fs = (.ok report, between) ∧
      processAll rule entries between = (.ok others, after) := by
  rcases processed : processEntry rule entry fs with ⟨failure | report, between⟩
  · simp only [processAll, processed] at well
    cases well
  · rcases rest : processAll rule entries between with ⟨failure | others, last⟩
    · simp only [processAll, processed, rest] at well
      cases well
    · simp only [processAll, processed, rest] at well
      cases well
      exact ⟨report, others, between, rfl, rfl, rest⟩

theorem processAll_cons_of_ok {between : FileSystem}
    (processed : processEntry rule entry fs = (.ok report, between))
    (rest : processAll rule entries between = (.ok reports, after)) :
    processAll rule (entry :: entries) fs = (.ok (report :: reports), after) := by
  simp only [processAll, processed, rest]

/-- There is a report on every entry, in order. -/
theorem processAll_shown (well : processAll rule entries fs = (.ok reports, after)) :
    reports.map EntryReport.shown = entries.map Entry.shown := by
  induction entries generalizing fs reports with
  | nil =>
    cases well
    rfl
  | cons entry entries ih =>
    obtain ⟨report, others, between, rfl, processed, rest⟩ := processAll_cons_eq_ok well
    obtain ⟨data, place, opened, -, rfl, -⟩ := processEntry_ok processed
    exact congrArg (entry.shown :: ·) (ih rest)

theorem processAll_length (well : processAll rule entries fs = (.ok reports, after)) :
    reports.length = entries.length := by
  simpa using congrArg List.length (processAll_shown well)

/-- Several entries change no more than the files at their outputs. -/
theorem processAll_frame (well : processAll rule entries fs = (.ok reports, after)) :
    after.skeleton = fs.skeleton ∧
      ∀ l, (∀ entry ∈ entries, fs.place? entry.output ≠ some l) → after.node? l = fs.node? l := by
  induction entries generalizing fs reports with
  | nil =>
    cases well
    exact ⟨rfl, fun _ _ => rfl⟩
  | cons entry entries ih =>
    obtain ⟨report, others, between, rfl, processed, rest⟩ := processAll_cons_eq_ok well
    obtain ⟨shape, frame⟩ := processEntry_frame processed
    obtain ⟨shapeRest, frameRest⟩ := ih rest
    refine ⟨shapeRest.trans shape, fun l elsewhere => ?_⟩
    obtain ⟨notFirst, notOthers⟩ := List.forall_mem_cons.mp elsewhere
    rw [frameRest l, frame l notFirst]
    intro other member
    rw [FileSystem.place?_of_skeleton shape]
    exact notOthers other member

/-- An entry finds the files as those before it have left them. -/
theorem processAll_split
    (well : processAll rule (first ++ entry :: second) fs = (.ok reports, after)) :
    ∃ before report later taken left, reports = before ++ report :: later ∧
      processAll rule first fs = (.ok before, taken) ∧
      processEntry rule entry taken = (.ok report, left) ∧
      processAll rule second left = (.ok later, after) := by
  induction first generalizing fs reports with
  | nil =>
    obtain ⟨report, later, left, rfl, processed, rest⟩ := processAll_cons_eq_ok well
    exact ⟨[], report, later, fs, left, rfl, rfl, processed, rest⟩
  | cons front first ih =>
    obtain ⟨told, others, between, rfl, processed, rest⟩ := processAll_cons_eq_ok well
    obtain ⟨before, report, later, taken, left, rfl, done, here, behind⟩ := ih rest
    exact ⟨told :: before, report, later, taken, left, rfl,
      processAll_cons_of_ok processed done, here, behind⟩

/-- The list of an entry is that of its input as it was when the entry was taken up, and stays, if
no entry behind it writes to the same place. -/
theorem processAll_lists_taken {taken left : FileSystem}
    (earlier : processAll rule first fs = (.ok before, taken))
    (processed : processEntry rule entry taken = (.ok report, left))
    (behind : processAll rule second left = (.ok later, after))
    (writable : fs.Writable entry.output)
    (kept : ∀ other ∈ second, fs.place? other.output ≠ fs.place? entry.output) :
    ∃ data, taken.read entry.input = .ok data ∧ report = reportOn rule entry data ∧
      after.read entry.output = .ok (rule.listing data) := by
  obtain ⟨shape, -⟩ := processAll_frame earlier
  obtain ⟨shapeLeft, -⟩ := processEntry_frame processed
  obtain ⟨shapeAfter, frameAfter⟩ := processAll_frame behind
  obtain ⟨data, place, opened, read, rfl, created, written⟩ := processEntry_ok processed
  obtain ⟨l, openedFirst, free⟩ := writable.free
  have target : fs.place? entry.output = some l := FileSystem.place?_of_create openedFirst
  -- The entry has opened the place which its path would have opened at the beginning.
  have same : place = l := by
    have found := FileSystem.place?_of_create created
    rw [FileSystem.place?_of_skeleton shape] at found
    exact Option.some.inj (found.symm.trans target)
  subst same
  refine ⟨data, read, rfl, ?_⟩
  have holds : left.node? place = some (.file (rule.listing data)) := by
    rcases written with ⟨onRead?, onWrite?, special, -⟩ | ⟨-, rfl⟩
    · have freeTaken : taken.skeleton.2 place = none := by rw [shape, free]
      simp [FileSystem.skeleton, special] at freeTaken
    · exact FileSystem.node?_set_self taken _ (FileSystem.ne_nil_of_free free)
  have untouched : after.node? place = left.node? place := by
    refine frameAfter place fun other member => ?_
    rw [FileSystem.place?_of_skeleton (shapeLeft.trans shape), ← target]
    exact kept other member
  exact FileSystem.read_of_create openedFirst
    (FileSystem.directoriesIn_of_skeleton (shapeAfter.trans (shapeLeft.trans shape)))
    (untouched.trans holds)

/-- The list of an entry is that of its input as it was at the beginning, if no entry before it has
written to that input, and stays, if no entry behind it writes to the same place. -/
theorem processAll_lists
    (well : processAll rule (first ++ entry :: second) fs = (.ok reports, after))
    (writable : fs.Writable entry.output)
    (unread : ∀ other ∈ first, fs.place? other.output ≠ fs.place? entry.input)
    (kept : ∀ other ∈ second, fs.place? other.output ≠ fs.place? entry.output) :
    ∃ data, fs.read entry.input = .ok data ∧
      reports[first.length]? = some (reportOn rule entry data) ∧
      after.read entry.output = .ok (rule.listing data) := by
  obtain ⟨before, report, later, taken, left, rfl, earlier, processed, behind⟩ :=
    processAll_split well
  obtain ⟨shape, frame⟩ := processAll_frame earlier
  obtain ⟨data, read, rfl, listed⟩ :=
    processAll_lists_taken earlier processed behind writable kept
  refine ⟨data, ?_, ?_, listed⟩
  · refine FileSystem.read_mono (FileSystem.directoriesIn_of_skeleton shape.symm) ?_ read
    intro input located file
    refine (frame input fun other member => ?_).symm
    have found := FileSystem.place?_of_locate file located
    rw [FileSystem.place?_of_skeleton shape] at found
    exact found ▸ unread other member
  · rw [← processAll_length earlier, List.getElem?_append_right (Nat.le_refl _), Nat.sub_self]
    rfl

end Several

end Batch
end ResourceNames
