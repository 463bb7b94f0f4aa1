import ResourceNames.Proofs.EntriesInTurn
import ResourceNames.Proofs.ListsOnDisk
import ResourceNames.Proofs.RawTexts

namespace ResourceNames

namespace FileSystem

variable {fs after : FileSystem} {path : Path} {content : List UInt8} {cause : Cause}

/-- Why a content is not written: nothing can be opened at the path, or what is opened there is a
device that takes no bytes. -/
inductive Refuses (fs : FileSystem) (path : Path) (content : List UInt8) : Cause → Prop
  | unopened {cause : Cause} (refused : fs.create path = .error cause) :
      fs.Refuses path content cause
  | full {l : Location} {onRead? : Option Cause} {cause : Cause}
      (opened : fs.create path = .ok (l, fs))
      (device : fs.node? l = some (.special onRead? (some cause))) (filled : content ≠ []) :
      fs.Refuses path content cause

/-- A content that is refused leaves no trace. A regular file, once it is open, refuses none. -/
theorem write_error_iff : fs.write path content = (.error cause, after) ↔
    after = fs ∧ fs.Refuses path content cause := by
  constructor
  · intro failed
    cases opened : fs.create path with
    | error refused =>
      rw [write, opened] at failed
      cases failed
      exact ⟨rfl, .unopened opened⟩
    | ok place =>
      obtain ⟨l, left⟩ := place
      obtain ⟨onRead?, onWrite?, special, rfl⟩ | ⟨inner, rfl⟩ := create_cases opened
      · simp only [write, opened, openFile, special] at failed
        cases onWrite? with
        | none => cases failed
        | some refused =>
          by_cases empty : content = []
          · simp only [if_pos empty] at failed
            cases failed
          · simp only [if_neg empty] at failed
            cases failed
            exact ⟨rfl, .full opened special empty⟩
      · rw [write_of_create opened inner] at failed
        cases failed
  · rintro ⟨rfl, refuses⟩
    cases refuses with
    | unopened refused => simp only [write, refused]
    | full opened device filled => simp only [write, opened, openFile, device, if_neg filled]

end FileSystem

namespace Batch

variable {rule : ScanRule} {entry : Entry} {fs after : FileSystem} {failure : Failure} {code : Nat}

/-- What an entry fails with. It is the input that is named if that cannot be read, whatever there
is at the output. -/
inductive FailsWith (rule : ScanRule) (entry : Entry) (fs : FileSystem) : Failure → Prop
  | missing (read : fs.read entry.input = .error .notFound) :
      FailsWith rule entry fs (.inputNotFound entry.input.text)
  | unreadable {cause : Cause} (read : fs.read entry.input = .error cause)
      (other : cause ≠ .notFound) :
      FailsWith rule entry fs (.inputUnreadable entry.input.text cause)
  | unwritable {data : List UInt8} {cause : Cause} (read : fs.read entry.input = .ok data)
      (refused : fs.Refuses entry.output (rule.listing data) cause) :
      FailsWith rule entry fs (.outputNotWritable entry.output.text cause)

theorem FailsWith.processEntry_eq (fails : FailsWith rule entry fs failure) :
    processEntry rule entry fs = (.error failure, fs) := by
  cases fails with
  | missing read =>
    simp only [processEntry, readInput, read]
    rfl
  | unreadable read other => simp only [processEntry, readInput_unreadable read other]
  | unwritable read refused =>
    rw [processEntry_of_read rule read, FileSystem.write_error_iff.mpr ⟨rfl, refused⟩]

theorem failsWith_of_stuck (stuck : Stuck rule entry fs code) :
    ∃ failure, FailsWith rule entry fs failure := by
  cases stuck with
  | missing read => exact ⟨_, .missing read⟩
  | unreadable read other => exact ⟨_, .unreadable read other⟩
  | @unwritable data cause read refused =>
    rcases wrote : fs.write entry.output (rule.listing data) with ⟨outcome, left⟩
    rw [wrote] at refused
    cases refused
    exact ⟨_, .unwritable read (FileSystem.write_error_iff.mp wrote).2⟩

/-- An entry fails as a whole, and for one reason. -/
theorem processEntry_error_iff : processEntry rule entry fs = (.error failure, after) ↔
    after = fs ∧ FailsWith rule entry fs failure := by
  constructor
  · intro failed
    obtain ⟨other, fails⟩ := failsWith_of_stuck (stuck_of_processEntry failed)
    cases failed.symm.trans fails.processEntry_eq
    exact ⟨rfl, fails⟩
  · rintro ⟨rfl, fails⟩
    exact fails.processEntry_eq

theorem processEntry_failed_iff :
    (processEntry rule entry fs).1 = .error failure ↔ FailsWith rule entry fs failure := by
  constructor
  · intro failed
    exact (processEntry_error_iff.mp (Prod.ext failed rfl)).2
  · intro fails
    rw [fails.processEntry_eq]

/-- An entry that fails leaves all files as they were, an older list at its output included. It
fails for a missing input when the input is not found, and for an unreadable one when that cannot be
read for any other cause; what is at the output does not matter then. It fails for its output only
if the input can be read. Each failure names the path that it is about. -/
theorem entry_fails_whole (rule : ScanRule) (entry : Entry) (fs : FileSystem) :
    (∀ failure after, processEntry rule entry fs = (.error failure, after) →
      after = fs ∧ (failure = .inputNotFound entry.input.text ∨
        (∃ cause, failure = .inputUnreadable entry.input.text cause) ∨
        ∃ cause, failure = .outputNotWritable entry.output.text cause)) ∧
    (∀ path, (processEntry rule entry fs).1 = .error (.inputNotFound path) ↔
      path = entry.input.text ∧ fs.read entry.input = .error .notFound) ∧
    (∀ path cause, (processEntry rule entry fs).1 = .error (.inputUnreadable path cause) ↔
      path = entry.input.text ∧ cause ≠ .notFound ∧ fs.read entry.input = .error cause) ∧
    ∀ path cause, (processEntry rule entry fs).1 = .error (.outputNotWritable path cause) ↔
      path = entry.output.text ∧ ∃ data, fs.read entry.input = .ok data ∧
        fs.Refuses entry.output (rule.listing data) cause := by
  refine ⟨?_, ?_, ?_, ?_⟩
  · intro failure after failed
    obtain ⟨unchanged, fails⟩ := processEntry_error_iff.mp failed
    refine ⟨unchanged, ?_⟩
    cases fails with
    | missing => exact .inl rfl
    | unreadable => exact .inr (.inl ⟨_, rfl⟩)
    | unwritable => exact .inr (.inr ⟨_, rfl⟩)
  · intro path
    rw [processEntry_failed_iff]
    constructor
    · intro fails
      cases fails with
      | missing read => exact ⟨rfl, read⟩
    · rintro ⟨rfl, read⟩
      exact .missing read
  · intro path cause
    rw [processEntry_failed_iff]
    constructor
    · intro fails
      cases fails with
      | unreadable read other => exact ⟨rfl, other, read⟩
    · rintro ⟨rfl, other, read⟩
      exact .unreadable read other
  · intro path cause
    rw [processEntry_failed_iff]
    constructor
    · intro fails
      cases fails with
      | unwritable read refused => exact ⟨rfl, _, read, refused⟩
    · rintro ⟨rfl, data, read, refused⟩
      exact .unwritable read refused

/-- The list of an earlier batch stays when the input is missing, or is a directory, and a device
that has no room for a list is named. -/
theorem entry_fails_crowded :
    (∃ after, processEntry {} ⟨⟨"b"⟩, ⟨"a.t"⟩⟩ Session.crowded =
        (.error (.inputNotFound "b"), after) ∧ after = Session.crowded) ∧
    (∃ after, processEntry {} ⟨⟨"x"⟩, ⟨"a.t"⟩⟩ Session.crowded =
        (.error (.inputUnreadable "x" .isDirectory), after) ∧ after = Session.crowded) ∧
    ∃ after, processEntry {} ⟨⟨"a"⟩, ⟨"/dev/full"⟩⟩ Session.crowded =
        (.error (.outputNotWritable "/dev/full" .noSpace), after) ∧ after = Session.crowded := by
  have missing : Session.crowded.read ⟨"b"⟩ = .error .notFound := rfl
  have directory : Session.crowded.read ⟨"x"⟩ = .error .isDirectory := rfl
  have read : Session.crowded.read ⟨"a"⟩ = .ok Session.one := rfl
  have opened : Session.crowded.create ⟨"/dev/full"⟩ =
      .ok (["dev", "full"], Session.crowded) := rfl
  have device : Session.crowded.node? ["dev", "full"] =
      some (.special (some .outOfMemory) (some .noSpace)) := by decide
  have full : Session.crowded.Refuses ⟨"/dev/full"⟩ (ScanRule.listing {} Session.one) .noSpace := by
    rw [Session.listing_one]
    exact .full opened device (by decide)
  refine ⟨?_, ?_, ?_⟩
  · obtain ⟨whole, notFound, -, -⟩ := entry_fails_whole {} ⟨⟨"b"⟩, ⟨"a.t"⟩⟩ Session.crowded
    have failed := (notFound "b").mpr ⟨(Path.text_mk _).symm, missing⟩
    exact ⟨_, Prod.ext failed rfl, (whole _ _ (Prod.ext failed rfl)).1⟩
  · obtain ⟨whole, -, unreadable, -⟩ := entry_fails_whole {} ⟨⟨"x"⟩, ⟨"a.t"⟩⟩ Session.crowded
    have failed := (unreadable "x" .isDirectory).mpr ⟨(Path.text_mk _).symm, by decide, directory⟩
    exact ⟨_, Prod.ext failed rfl, (whole _ _ (Prod.ext failed rfl)).1⟩
  · obtain ⟨whole, -, -, unwritable⟩ :=
      entry_fails_whole {} ⟨⟨"a"⟩, ⟨"/dev/full"⟩⟩ Session.crowded
    have failed := (unwritable "/dev/full" .noSpace).mpr ⟨(Path.text_mk _).symm, _, read, full⟩
    exact ⟨_, Prod.ext failed rfl, (whole _ _ (Prod.ext failed rfl)).1⟩

end Batch
end ResourceNames
