import ResourceNames.Proofs.BatchComposition
import ResourceNames.Session

namespace ResourceNames.Session

open Batch

variable {settings : Settings} {files : FileSystem}
  {came : Except Failure Report × List Record × FileSystem}

/-- What can come of the batch that settings describe: there are no entries, no directory for the
lists, an entry that fails, or a report. With each stands what is shown and which files are left. -/
inductive Comes (settings : Settings) (files : FileSystem) :
    Except Failure Report × List Record × FileSystem → Prop
  | unnamed {input : Path} (refused : settings.entries = .error input) :
      Comes settings files (.error (.invalidPath input.text), [], files)
  | roomless {entries : List Entry} {failure : Failure} {room : FileSystem}
      (described : settings.entries = .ok entries)
      (refused : makeRoom settings files = (.error failure, room)) :
      Comes settings files (.error failure, [], room)
  | stopped {entries : List Entry} {failure : Failure} {room after : FileSystem}
      (described : settings.entries = .ok entries)
      (made : makeRoom settings files = (.ok (), room))
      (failed : processAll settings.scan entries room = (.error failure, after)) :
      Comes settings files (.error failure, opening settings entries, after)
  | done {entries : List Entry} {reports : List EntryReport} {room after : FileSystem}
      (described : settings.entries = .ok entries)
      (made : makeRoom settings files = (.ok (), room))
      (well : processAll settings.scan entries room = (.ok reports, after)) :
      Comes settings files
        (.ok (reportOf settings.scan reports),
          opening settings entries ++ closing (reportOf settings.scan reports), after)

theorem ripAll_of_room {entries : List Entry} {room : FileSystem}
    (described : settings.entries = .ok entries)
    (made : makeRoom settings files = (.ok (), room)) :
    ripAll settings true files =
      match unwatched settings.scan entries room with
      | (.error failure, after) => (.error failure, opening settings entries, after)
      | (.ok report, after) => (.ok report, opening settings entries ++ closing report, after) := by
  rcases ran : Batch.run settings.scan entries none room with ⟨failure | report, trace, after⟩ <;>
    simp only [ripAll, described, made, unwatched, ran] <;> rfl

theorem Comes.ripAll_eq (comes : Comes settings files came) :
    ripAll settings true files = came := by
  cases comes with
  | unnamed refused =>
    rw [ripAll, refused]
    rfl
  | roomless described refused =>
    rw [ripAll, described]
    dsimp only
    rw [refused]
    rfl
  | stopped described made failed =>
    rw [ripAll_of_room described made, unwatched_error_iff.mpr failed]
  | done described made well =>
    rw [ripAll_of_room described made, unwatched_ok_iff.mpr ⟨_, well, rfl⟩]

theorem exists_comes (settings : Settings) (files : FileSystem) :
    ∃ came, Comes settings files came := by
  cases described : settings.entries with
  | error input => exact ⟨_, .unnamed described⟩
  | ok entries =>
    rcases made : makeRoom settings files with ⟨failure | ⟨⟩, room⟩
    · exact ⟨_, .roomless described made⟩
    · rcases processed : processAll settings.scan entries room with ⟨failure | reports, after⟩
      · exact ⟨_, .stopped described made processed⟩
      · exact ⟨_, .done described made processed⟩

theorem comes_iff : Comes settings files came ↔ ripAll settings true files = came := by
  refine ⟨Comes.ripAll_eq, ?_⟩
  rintro rfl
  obtain ⟨came, comes⟩ := exists_comes settings files
  rwa [comes.ripAll_eq]

theorem comes_ripAll (settings : Settings) (files : FileSystem) :
    Comes settings files (ripAll settings true files) :=
  comes_iff.mpr rfl

/-- A report is made of what the entries came to, once there was a directory for the lists. -/
theorem ripAll_eq_ok {running : Bool} {report : Report} {records : List Record}
    {after : FileSystem}
    (ripped : ripAll settings running files = (.ok report, records, after)) :
    ∃ entries reports room, settings.entries = .ok entries ∧
      makeRoom settings files = (.ok (), room) ∧
      processAll settings.scan entries room = (.ok reports, after) ∧
      report = reportOf settings.scan reports := by
  cases running with
  | false => cases ripped
  | true =>
    cases comes_iff.mpr ripped with
    | done described made well => exact ⟨_, _, _, described, made, well, rfl⟩

theorem ripAll_of_processAll {entries : List Entry} {reports : List EntryReport}
    {room after : FileSystem} (described : settings.entries = .ok entries)
    (made : makeRoom settings files = (.ok (), room))
    (well : processAll settings.scan entries room = (.ok reports, after)) :
    ∃ records, ripAll settings true files =
      (.ok (reportOf settings.scan reports), records, after) :=
  ⟨_, (Comes.done described made well).ripAll_eq⟩

end ResourceNames.Session
