import ResourceNames.Proofs.EntriesInTurn
import ResourceNames.Proofs.ListsOnDisk
import ResourceNames.Proofs.SettingsResolution

namespace ResourceNames

namespace FileSystem

variable {fs : FileSystem} {path : Path} {cause : Cause}

/-- Paths that lead to something other than a file that is read or a place where nothing is. -/
inductive Barred (fs : FileSystem) (path : Path) : Cause → Prop
  | nul (inside : 0 ∈ path.raw) : Barred fs path .nulInPath
  | longPath (clean : 0 ∉ path.raw) (long : maxPath < path.raw.length) :
      Barred fs path .nameTooLong
  | longName {front rest : List RawText} {name : RawText} {dir : Location}
      (accepted : accept path = .ok ()) (split : path.names = front ++ name :: rest)
      (walked : fs.walk (fs.origin path) front = .ok dir)
      (directory : fs.isDirectoryAt dir = true)
      (proper : name ≠ [Path.dot] ∧ name ≠ [Path.dot, Path.dot])
      (long : maxName < name.length) : Barred fs path .nameTooLong
  | belowFile {front rest : List RawText} {name : RawText} {l : Location}
      (accepted : accept path = .ok ()) (split : path.names = front ++ name :: rest)
      (walked : fs.walk (fs.origin path) front = .ok l) (file : fs.isDirectoryAt l = false) :
      Barred fs path .notDirectory
  | directory (there : fs.isDirectory path = true) : Barred fs path .isDirectory

theorem read_of_accept_error (refused : accept path = .error cause) :
    fs.read path = .error cause := by
  simp [read, locate, refused, bind, Except.bind]

/-- A walk that cannot go on ends the reading. -/
theorem read_of_enter_error {front rest : List RawText} {name : RawText} {l : Location}
    (accepted : accept path = .ok ()) (split : path.names = front ++ name :: rest)
    (walked : fs.walk (fs.origin path) front = .ok l) (refused : fs.enter l name = .error cause) :
    fs.read path = .error cause := by
  have stopped : fs.walk (fs.origin path) path.names = .error cause := by
    rw [split, walk_append, walked]
    dsimp only
    rw [walk, refused]
  simp [read, locate, accepted, stopped, bind, Except.bind]

theorem Barred.read_eq (barred : fs.Barred path cause) : fs.read path = .error cause := by
  cases barred with
  | nul inside =>
    refine read_of_accept_error ?_
    rw [accept, if_pos (List.contains_iff_mem.mpr inside)]
  | longPath clean long =>
    refine read_of_accept_error ?_
    have named : path.raw ≠ [] := by
      intro empty
      rw [empty] at long
      exact absurd long (by decide)
    rw [accept, if_neg (mt List.contains_iff_mem.mp clean), if_neg named, if_pos long]
  | longName accepted split walked directory proper long =>
    refine read_of_enter_error accepted split walked ?_
    simp [enter, directory, proper.1, proper.2, long]
  | belowFile accepted split walked file =>
    refine read_of_enter_error accepted split walked ?_
    simp [enter, file]
  | directory there =>
    unfold isDirectory at there
    split at there
    · rename_i l located
      simp [read, located, node?_of_isDirectoryAt there, bind, Except.bind]
    · cases there

theorem Barred.ne_notFound (barred : fs.Barred path cause) : cause ≠ .notFound := by
  cases barred <;> decide

end FileSystem

namespace Command

open Batch

variable {words : List RawText} {arguments : Arguments} {settings : Settings}
  {files room : FileSystem} {entries : List Entry}

/-- The command line asks for a batch of these entries, and there is room for the lists. -/
structure Begins (words : List RawText) (files : FileSystem) (arguments : Arguments)
    (settings : Settings) (entries : List Entry) (room : FileSystem) : Prop where
  parsed : Arguments.parse words = .ok arguments
  noSample : arguments.generateConfig = false
  noPlan : arguments.dryRun = false
  loaded : arguments.settings files = .ok settings
  described : settings.entries = .ok entries
  made : Session.makeRoom settings files = (.ok (), room)

/-- The program ends as the entries do. -/
theorem Begins.ends (begins : Begins words files arguments settings entries room)
    {outcome : Except Failure (List EntryReport)} {after : FileSystem}
    (processed : processAll settings.scan entries room = (outcome, after)) :
    (run words files).files = after ∧ (run words files).exitCode =
      match outcome with
      | .ok _ => 0
      | .error failure => failure.exitCode := by
  have runs : run words files =
      rip settings ⟨arguments.outputMode, arguments.verbosity, arguments.quiet⟩ files := by
    simp [run, begins.parsed, execute, begins.noSample, begins.loaded, begins.noPlan]
  rw [runs, rip]
  cases outcome with
  | ok reports =>
    rw [(Session.Comes.done begins.described begins.made processed).ripAll_eq]
    exact ⟨rfl, rfl⟩
  | error failure =>
    rw [(Session.Comes.stopped begins.described begins.made processed).ripAll_eq]
    exact ⟨rfl, rfl⟩

theorem Begins.stops (begins : Begins words files arguments settings entries room)
    {before behind : List Entry} {entry : Entry} {reached : FileSystem} {code : Nat}
    (split : entries = before ++ entry :: behind) (turn : InTurn settings.scan before room reached)
    (stuck : Stuck settings.scan entry reached code) :
    (run words files).files = reached ∧ (run words files).exitCode = code := by
  obtain ⟨failure, rfl, failed⟩ := processAll_of_stuck turn stuck behind
  rw [← split] at failed
  exact begins.ends failed

/-- The exit code tells what has become of the entries, and the files are as they have left them.
The program ends well exactly if each entry can be read and written in its turn. Otherwise the first
that cannot decides, with a code for a missing input, one for an input that cannot be read, whatever
bars it, and one for a list that cannot be written. It and those behind it leave no trace. The lists
of those before it are complete, but for those that go to a device or are overwritten. -/
theorem exitCode_tells (begins : Begins words files arguments settings entries room) :
    ((run words files).exitCode = 0 ↔ ∃ after, InTurn settings.scan entries room after) ∧
    (∀ after, InTurn settings.scan entries room after → (run words files).files = after) ∧
    ((run words files).exitCode ≠ 0 → ∃ before entry behind reached code,
      entries = before ++ entry :: behind ∧ InTurn settings.scan before room reached ∧
        Stuck settings.scan entry reached code) ∧
    ∀ before entry behind reached code, entries = before ++ entry :: behind →
      InTurn settings.scan before room reached → Stuck settings.scan entry reached code →
      (run words files).exitCode = code ∧ (run words files).files = reached ∧
      (∀ cause, reached.Barred entry.input cause → code = 4) ∧
      (∀ l, reached.node? l ≠ room.node? l →
        ∃ other ∈ before, room.place? other.output = some l) ∧
      ∀ earlier one later, before = earlier ++ one :: later → room.Writable one.output →
        (∀ other ∈ later, room.place? other.output ≠ room.place? one.output) →
        ∃ taken data, InTurn settings.scan earlier room taken ∧
          taken.read one.input = .ok data ∧
          reached.read one.output = .ok (settings.scan.listing data) := by
  refine ⟨⟨?_, ?_⟩, ?_, ?_, ?_⟩
  · intro exits
    rcases processed : processAll settings.scan entries room with ⟨failure | reports, after⟩
    · have coded : failure.exitCode = 0 := (begins.ends processed).2.symm.trans exits
      rcases exitCode_of_processAll processed with three | four | five <;> omega
    · exact ⟨after, inTurn_iff.mpr ⟨reports, processed⟩⟩
  · rintro ⟨after, turn⟩
    obtain ⟨reports, well⟩ := inTurn_iff.mp turn
    exact (begins.ends well).2
  · intro after turn
    obtain ⟨reports, well⟩ := inTurn_iff.mp turn
    exact (begins.ends well).1
  · intro fails
    rcases processed : processAll settings.scan entries room with ⟨failure | reports, after⟩
    · obtain ⟨before, entry, behind, split, turn, stuck⟩ := stuck_of_processAll processed
      exact ⟨before, entry, behind, after, failure.exitCode, split, turn, stuck⟩
    · exact absurd (begins.ends processed).2 fails
  · intro before entry behind reached code split turn stuck
    obtain ⟨left, exits⟩ := begins.stops split turn stuck
    refine ⟨exits, left, ?_, ?_, ?_⟩
    · intro cause barred
      exact stuck.unique (.unreadable barred.read_eq barred.ne_notFound)
    · intro l differs
      exact ((turn.frame.2 l).resolve_left differs).1
    · rintro earlier one later rfl writable kept
      exact turn.lists writable kept

theorem settings_crowded (arguments : Arguments) (unnamed : arguments.config = none)
    (fit : (Settings.standard.merge arguments.overrides).Fit Session.crowded) :
    arguments.settings Session.crowded = .ok (Settings.standard.merge arguments.overrides) := by
  refine Arguments.settings_eq_ok_iff.mpr
    ⟨.standard, unnamed ▸ .standard rfl ?_, Arguments.amends_iff.mpr rfl, fit⟩
  decide

theorem created_one : Session.crowded.create ⟨"a.txt"⟩ =
    .ok (["work", "a.txt"], Session.crowded.set ["work", "a.txt"] (.file [])) := rfl

theorem turn_one : InTurn {} [⟨⟨"a"⟩, ⟨"a.txt"⟩⟩] Session.crowded
    (Session.crowded.set ["work", "a.txt"] (.file Session.oneListed)) := by
  exact .cons_of_create rfl created_one (List.cons_ne_nil _ _) Session.listing_one .nil

def twoInputs : Arguments := { inputs := [⟨"a"⟩, ⟨"b"⟩] }

theorem begins_two : Begins ["a", "b"] Session.crowded twoInputs
    (Settings.standard.merge twoInputs.overrides)
    [⟨⟨"a"⟩, ⟨"a.txt"⟩⟩, ⟨⟨"b"⟩, ⟨"b.txt"⟩⟩] Session.crowded where
  parsed := rfl
  noSample := rfl
  noPlan := rfl
  loaded := settings_crowded twoInputs rfl
    ⟨by decide, by decide, by decide, by decide, fun dir given => by cases given⟩
  described := rfl
  made := rfl

/-- The list of the first input stands when the second is found missing. -/
theorem exitCode_tells_missing : ∃ data, Session.crowded.read ⟨"a"⟩ = .ok data ∧
    (run ["a", "b"] Session.crowded).exitCode = 3 ∧
    (run ["a", "b"] Session.crowded).files.read ⟨"a.txt"⟩ = .ok (ScanRule.listing {} data) := by
  have missing : (Session.crowded.set ["work", "a.txt"] (.file Session.oneListed)).read ⟨"b"⟩ =
      .error .notFound := rfl
  obtain ⟨exits, left, -, -, lists⟩ := (exitCode_tells begins_two).2.2.2 [⟨⟨"a"⟩, ⟨"a.txt"⟩⟩]
    ⟨⟨"b"⟩, ⟨"b.txt"⟩⟩ [] _ 3 rfl turn_one (.missing missing)
  obtain ⟨taken, data, turn, read, listed⟩ :=
    lists [] _ [] rfl ⟨_, created_one⟩ (List.forall_mem_nil _)
  cases turn
  rw [left]
  exact ⟨data, read, exits, listed⟩

/-- Whenever an entry is stuck, each entry before it has the list of its input at its output. -/
def KeepsLists (words : List RawText) (files : FileSystem) : Prop :=
  ∀ arguments settings entries room, Begins words files arguments settings entries room →
    ∀ before entry behind reached code, entries = before ++ entry :: behind →
      InTurn settings.scan before room reached → Stuck settings.scan entry reached code →
      ∀ earlier one later, before = earlier ++ one :: later →
        ∃ taken data, InTurn settings.scan earlier room taken ∧
          taken.read one.input = .ok data ∧
          (run words files).files.read one.output = .ok (settings.scan.listing data)

def threeInputs : Arguments :=
  { inputs := [⟨"x/a"⟩, ⟨"y/a"⟩, ⟨"z"⟩], outputDirectory := some ⟨"lists"⟩ }

theorem begins_three : Begins ["x/a", "y/a", "z", "-o", "lists"] Session.crowded threeInputs
    (Settings.standard.merge threeInputs.overrides)
    [⟨⟨"x/a"⟩, ⟨"lists/a.txt"⟩⟩, ⟨⟨"y/a"⟩, ⟨"lists/a.txt"⟩⟩, ⟨⟨"z"⟩, ⟨"lists/z.txt"⟩⟩]
    (Session.crowded.set ["work", "lists"] .directory) where
  parsed := rfl
  noSample := rfl
  noPlan := rfl
  loaded := settings_crowded threeInputs rfl
    ⟨by decide, by decide, by decide, by decide, by decide⟩
  described := by decide
  made := Session.makeRoom_lists rfl

/-- The second of two inputs of one name has its list at the place of the first. -/
theorem turn_gathered :
    let room := Session.crowded.set ["work", "lists"] .directory
    let between := room.set ["work", "lists", "a.txt"] (.file Session.oneListed)
    InTurn {} [⟨⟨"x/a"⟩, ⟨"lists/a.txt"⟩⟩, ⟨⟨"y/a"⟩, ⟨"lists/a.txt"⟩⟩] room
      (between.set ["work", "lists", "a.txt"] (.file Session.twoListed)) := by
  intro room between
  exact .cons_of_create rfl rfl (List.cons_ne_nil _ _) Session.listing_one
    (.cons_of_create rfl rfl (List.cons_ne_nil _ _) Session.listing_two .nil)

/-- The list of the first is gone when a third input is found missing. -/
theorem not_keepsLists_gathered :
    ¬ KeepsLists ["x/a", "y/a", "z", "-o", "lists"] Session.crowded := by
  intro keeps
  let room := Session.crowded.set ["work", "lists"] .directory
  let reached := (room.set ["work", "lists", "a.txt"] (.file Session.oneListed)).set
    ["work", "lists", "a.txt"] (.file Session.twoListed)
  have missing : reached.read ⟨"z"⟩ = .error .notFound := rfl
  have stuck : Stuck {} ⟨⟨"z"⟩, ⟨"lists/z.txt"⟩⟩ reached 3 := .missing missing
  obtain ⟨taken, data, start, read, listed⟩ :=
    keeps _ _ _ _ begins_three [_, _] _ [] _ _ rfl turn_gathered stuck [] _ [_] rfl
  cases start
  have first : room.read ⟨"x/a"⟩ = .ok Session.one := rfl
  have same : data = Session.one := Except.ok.inj (read.symm.trans first)
  subst same
  have found : reached.read ⟨"lists/a.txt"⟩ = .ok Session.twoListed := rfl
  rw [(begins_three.stops rfl turn_gathered stuck).1, found] at listed
  have listing : ScanRule.listing {} Session.one = Session.twoListed :=
    (Except.ok.inj listed).symm
  rw [Session.listing_one] at listing
  exact absurd listing (by decide)

end Command
end ResourceNames
