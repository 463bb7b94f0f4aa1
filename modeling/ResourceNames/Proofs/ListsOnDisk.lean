import ResourceNames.Proofs.BatchOutcome
import ResourceNames.Proofs.EntryFrame
import ResourceNames.Proofs.ExtractionExact
import ResourceNames.Proofs.RoomMaking
import ResourceNames.Settings.Store

namespace ResourceNames.Session

open Batch

variable {settings : Settings} {running : Bool} {files after : FileSystem} {report : Report}
  {records : List Record}

def one : List UInt8 := Text.bytes "ONE.SEQ"

def two : List UInt8 := Text.bytes "TWO.SEQ"

def oneListed : List UInt8 := Text.bytes "\"ONE.SEQ\",\n"

def twoListed : List UInt8 := Text.bytes "\"TWO.SEQ\",\n"

theorem names_one : (ScanRule.extract {} one).names = ["ONE.SEQ"] := by
  rw [ScanRule.names_of_printable (by decide +kernel) (by decide), if_pos (by decide)]
  decide

theorem listing_one : ScanRule.listing {} one = oneListed := by
  rw [ScanRule.listing, names_one]
  decide

theorem listing_two : ScanRule.listing {} two = twoListed := by
  rw [ScanRule.listing, ScanRule.names_of_printable (by decide +kernel) (by decide),
    if_pos (by decide)]
  decide

theorem listing_oneListed : ScanRule.listing {} oneListed = [] := by
  rw [ScanRule.listing, ScanRule.names_of_printable (by decide +kernel) (by decide),
    if_neg (by decide)]
  rfl

def crowded : FileSystem :=
  FileSystem.blank.set ["work", "a"] (.file one) |>.set ["work", "a.t"] (.file two)
    |>.set ["work", "x"] .directory |>.set ["work", "x", "a"] (.file one)
    |>.set ["work", "y"] .directory |>.set ["work", "y", "a"] (.file two)

/-- The list of the first input is the second input. -/
def chained : Settings := ⟨{}, ⟨[⟨"a"⟩, ⟨"a.t"⟩], "t", none⟩⟩

/-- The second list is found empty, for its input has no name any more. -/
theorem ripAll_chained :
    let between := crowded.set ["work", "a.t"] (.file oneListed)
    ∃ records, ripAll chained true crowded =
      (.ok (reportOf {} [reportOn {} ⟨⟨"a"⟩, ⟨"a.t"⟩⟩ one,
          reportOn {} ⟨⟨"a.t"⟩, ⟨"a.t.t"⟩⟩ oneListed]),
        records, between.set ["work", "a.t.t"] (.file [])) := by
  intro between
  have first : processEntry {} ⟨⟨"a"⟩, ⟨"a.t"⟩⟩ crowded =
      (.ok (reportOn {} ⟨⟨"a"⟩, ⟨"a.t"⟩⟩ one), between) := by
    exact processEntry_of_create rfl rfl (List.cons_ne_nil _ _) listing_one
  have second : processEntry {} ⟨⟨"a.t"⟩, ⟨"a.t.t"⟩⟩ between =
      (.ok (reportOn {} ⟨⟨"a.t"⟩, ⟨"a.t.t"⟩⟩ oneListed),
        between.set ["work", "a.t.t"] (.file [])) := by
    exact processEntry_of_create rfl rfl (List.cons_ne_nil _ _) listing_oneListed
  have described : chained.entries = .ok [⟨⟨"a"⟩, ⟨"a.t"⟩⟩, ⟨⟨"a.t"⟩, ⟨"a.t.t"⟩⟩] := by decide
  have made : makeRoom chained crowded = (.ok (), crowded) := rfl
  refine ripAll_of_processAll described made ?_
  simp only [chained, processAll, first, second]

/-- Two inputs of one name have their lists in one directory. -/
def gathered : Settings := ⟨{}, ⟨[⟨"x/a"⟩, ⟨"y/a"⟩], "t", some ⟨"lists"⟩⟩⟩

theorem makeRoom_lists (wanted : settings.batch.outputDirectory = some ⟨"lists"⟩) :
    makeRoom settings crowded = (.ok (), crowded.set ["work", "lists"] .directory) := by
  have missing : crowded.makeDirectory ⟨"lists"⟩ =
      .ok (crowded.set ["work", "lists"] .directory) := rfl
  simp only [makeRoom, wanted, FileSystem.makeDirectories_of_ok (by decide) missing,
    Except.mapError]

/-- The second list takes the place of the first. -/
theorem ripAll_gathered :
    let room := crowded.set ["work", "lists"] .directory
    let between := room.set ["work", "lists", "a.t"] (.file oneListed)
    ∃ records, ripAll gathered true crowded =
      (.ok (reportOf {} [reportOn {} ⟨⟨"x/a"⟩, ⟨"lists/a.t"⟩⟩ one,
          reportOn {} ⟨⟨"y/a"⟩, ⟨"lists/a.t"⟩⟩ two]),
        records, between.set ["work", "lists", "a.t"] (.file twoListed)) := by
  intro room between
  have made : makeRoom gathered crowded = (.ok (), room) := makeRoom_lists rfl
  have first : processEntry {} ⟨⟨"x/a"⟩, ⟨"lists/a.t"⟩⟩ room =
      (.ok (reportOn {} ⟨⟨"x/a"⟩, ⟨"lists/a.t"⟩⟩ one), between) := by
    exact processEntry_of_create rfl rfl (List.cons_ne_nil _ _) listing_one
  have second : processEntry {} ⟨⟨"y/a"⟩, ⟨"lists/a.t"⟩⟩ between =
      (.ok (reportOn {} ⟨⟨"y/a"⟩, ⟨"lists/a.t"⟩⟩ two),
        between.set ["work", "lists", "a.t"] (.file twoListed)) := by
    exact processEntry_of_create rfl rfl (List.cons_ne_nil _ _) listing_two
  have described : gathered.entries =
      .ok [⟨⟨"x/a"⟩, ⟨"lists/a.t"⟩⟩, ⟨⟨"y/a"⟩, ⟨"lists/a.t"⟩⟩] := by decide
  refine ripAll_of_processAll described made ?_
  simp only [gathered, processAll, first, second]

/-- The list goes to a device. -/
def discarded : Settings := ⟨{}, ⟨[⟨"a"⟩], "/null", some ⟨"/dev"⟩⟩⟩

/-- The list vanishes. -/
theorem ripAll_discarded :
    ∃ records, ripAll discarded true crowded =
      (.ok (reportOf {} [reportOn {} ⟨⟨"a"⟩, ⟨"/dev/null"⟩⟩ one]), records, crowded) := by
  have made : makeRoom discarded crowded = (.ok (), crowded) := by
    have taken : crowded.makeDirectory ⟨"/dev"⟩ = .error .alreadyExists := rfl
    have there : crowded.isDirectory ⟨"/dev"⟩ = true := rfl
    simp only [makeRoom, discarded,
      FileSystem.makeDirectories_of_there (by decide) taken there, Except.mapError]
  have done : processEntry {} ⟨⟨"a"⟩, ⟨"/dev/null"⟩⟩ crowded =
      (.ok (reportOn {} ⟨⟨"a"⟩, ⟨"/dev/null"⟩⟩ one), crowded) := by
    have read : crowded.read ⟨"a"⟩ = .ok one := rfl
    have opened : crowded.create ⟨"/dev/null"⟩ = .ok (["dev", "null"], crowded) := rfl
    have wrote : writeLines ["ONE.SEQ"] ["dev", "null"] crowded = (.ok 11, crowded) := by
      decide
    simp only [processEntry, readInput_eq_ok_iff.mpr read, names_one, writeList, opened, wrote,
      Except.mapError]
    simp only [reportOn, names_one]
  have described : discarded.entries = .ok [⟨⟨"a"⟩, ⟨"/dev/null"⟩⟩] := by decide
  refine ripAll_of_processAll described made ?_
  simp only [discarded, processAll, done]

/-- The report tells what is on disk. It shows the paths of one entry for each input. Take an entry
whose list goes to a regular file, to which no later entry writes, and whose input no earlier entry
has written to; the paths are looked at when the directory for the lists is there. Then its list is
that of the bytes which its input held when the batch was asked for. -/
theorem lists_on_disk (ripped : ripAll settings running files = (.ok report, records, after)) :
    ∃ entries, settings.entries = .ok entries ∧
      report.entries.map EntryReport.shown = entries.map Entry.shown ∧
      ∀ before entry later, entries = before ++ entry :: later →
        let room := (makeRoom settings files).2
        room.Writable entry.output →
        (∀ other ∈ before, room.place? other.output ≠ room.place? entry.input) →
        (∀ other ∈ later, room.place? other.output ≠ room.place? entry.output) →
        ∃ data told, room.read entry.input = .ok data ∧
          (files.has entry.input = true → files.read entry.input = .ok data) ∧
          report.entries[before.length]? = some told ∧
          told.statistics = (settings.scan.extract data).statistics ∧
          after.read entry.output =
            .ok (Text.bytes (LiteralList.render (settings.scan.extract data).names)) := by
  obtain ⟨entries, reports, room, described, made, well, rfl⟩ := ripAll_eq_ok ripped
  refine ⟨entries, described, processAll_shown well, ?_⟩
  rintro before entry later rfl
  have gains := makeRoom_gains settings files
  rw [made] at gains ⊢
  intro room writable unread kept
  obtain ⟨data, read, told, listed⟩ := processAll_lists well writable unread kept
  exact ⟨data, _, read, fun there => gains.read_back there read, told, rfl, listed⟩

/-- The first list of a batch stands, although the second entry has read it for its input. -/
theorem lists_on_disk_chained : ∃ report records after,
    ripAll chained true crowded = (.ok report, records, after) ∧
    crowded.Writable ⟨"a.t"⟩ ∧ crowded.place? ⟨"a.t.t"⟩ ≠ crowded.place? ⟨"a.t"⟩ ∧
    ∃ data, crowded.read ⟨"a"⟩ = .ok data ∧
      after.read ⟨"a.t"⟩ =
        .ok (Text.bytes (LiteralList.render (ScanRule.extract {} data).names)) := by
  obtain ⟨records, ripped⟩ := ripAll_chained
  have writable : crowded.Writable ⟨"a.t"⟩ := by
    refine ⟨["work", "a.t"], ?_⟩
    rfl
  have apart : crowded.place? ⟨"a.t.t"⟩ ≠ crowded.place? ⟨"a.t"⟩ := by decide
  have kept : ∀ other ∈ [(⟨⟨"a.t"⟩, ⟨"a.t.t"⟩⟩ : Entry)],
      crowded.place? other.output ≠ crowded.place? ⟨"a.t"⟩ := by
    intro other member
    cases List.mem_singleton.mp member
    exact apart
  obtain ⟨entries, described, -, lists⟩ := lists_on_disk ripped
  cases described
  obtain ⟨data, told, read, -, -, -, listed⟩ := lists [] _ _ rfl writable
    (fun _ member => absurd member List.not_mem_nil) kept
  exact ⟨_, records, _, ripped, writable, apart, data, read, listed⟩

/-- Every report on a batch with these settings tells the lists as they are on disk, whatever the
entries have to do with each other. -/
def TellsWhatIsOnDisk (settings : Settings) (files : FileSystem) : Prop :=
  ∀ report records after, ripAll settings true files = (.ok report, records, after) →
    ∀ entry ∈ report.entries, ∀ data, files.read entry.input = .ok data →
      after.read entry.output =
        .ok (Text.bytes (LiteralList.render (settings.scan.extract data).names))

theorem not_tells (found : List UInt8) {entry : EntryReport} {data : List UInt8}
    (ripped : ∃ records, ripAll settings true files = (.ok report, records, after))
    (reported : entry ∈ report.entries) (read : files.read entry.input = .ok data)
    (left : after.read entry.output = .ok found) (different : settings.scan.listing data ≠ found) :
    ¬ TellsWhatIsOnDisk settings files := by
  intro tells
  obtain ⟨records, ripped⟩ := ripped
  have claimed := tells report records after ripped entry reported data read
  exact different (Except.ok.inj (claimed.symm.trans left))

/-- Settings that are in order, with different inputs, and yet a report does not tell what is on
disk. -/
def Misleads (settings : Settings) (files : FileSystem) : Prop :=
  Settings.check settings files = .ok () ∧ settings.batch.inputs.Nodup ∧
    ¬ TellsWhatIsOnDisk settings files

/-- An input is overwritten before it is read, a list is overwritten, one vanishes in a device. -/
theorem lists_misread_lost_discarded :
    Misleads chained crowded ∧ Misleads gathered crowded ∧ Misleads discarded crowded := by
  have first : crowded.read ⟨"a"⟩ = .ok one := rfl
  have second : crowded.read ⟨"a.t"⟩ = .ok two := rfl
  have third : crowded.read ⟨"x/a"⟩ = .ok one := rfl
  have oneIs (found : List UInt8) (other : oneListed ≠ found) : ScanRule.listing {} one ≠ found :=
    listing_one ▸ other
  have twoIs (found : List UInt8) (other : twoListed ≠ found) : ScanRule.listing {} two ≠ found :=
    listing_two ▸ other
  refine ⟨?_, ?_, ?_⟩
  · refine ⟨by decide, by decide, not_tells [] ripAll_chained
      (List.mem_cons_of_mem _ List.mem_cons_self) second ?_ (twoIs _ (by decide))⟩
    rfl
  · refine ⟨by decide, by decide, not_tells twoListed ripAll_gathered
      List.mem_cons_self third ?_ (oneIs _ (by decide))⟩
    rfl
  · refine ⟨?_, by decide, not_tells [] ripAll_discarded List.mem_cons_self first ?_
      (oneIs _ (by decide))⟩
    · decide
    · rfl

end ResourceNames.Session
