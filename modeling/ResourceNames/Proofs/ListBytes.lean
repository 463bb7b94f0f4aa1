import ResourceNames.Proofs.EntryFrame
import ResourceNames.Proofs.ExtractionExact

namespace ResourceNames

/-- The bytes of a run on a line of its own, between quotes and with a comma. -/
def Run.rawLine (run : Run) : List UInt8 :=
  0x22 :: run.bytes ++ [0x22, 0x2c, 0x0a]

/-- Lists of printable runs are written without any change to their bytes. -/
theorem LiteralList.bytes_render_texts {runs : List Run}
    (printable : ∀ run ∈ runs, ∀ byte ∈ run.bytes, isPrintable byte) :
    Text.bytes (render (runs.map Run.text)) = runs.flatMap Run.rawLine := by
  have opening : Text.bytes "\"" = [0x22] := by decide
  have closing : Text.bytes "\",\n" = [0x22, 0x2c, 0x0a] := by decide
  induction runs with
  | nil => exact bytes_render_nil
  | cons run runs ih =>
    obtain ⟨first, others⟩ := List.forall_mem_cons.mp printable
    have line : (pieces run.text).flatten = run.rawLine := by
      simp [pieces, opening, closing, Run.bytes_text first, Run.rawLine]
    rw [List.map_cons, bytes_render_cons, line, ih others, List.flatMap_cons]

namespace ScanRule

variable {rule : ScanRule} {data : List UInt8}

/-- The kept runs of a stream in ascending order of their bytes. -/
def rankedRuns (rule : ScanRule) (data : List UInt8) : List Run :=
  (rule.keptRuns data).mergeSort fun a b => decide (a.bytes ≤ b.bytes)

theorem rankedRuns_perm (rule : ScanRule) (data : List UInt8) :
    (rule.rankedRuns data).Perm (rule.keptRuns data) :=
  List.mergeSort_perm _ _

theorem rankedRuns_ascending (rule : ScanRule) (data : List UInt8) :
    ((rule.rankedRuns data).map Run.bytes).Pairwise (· ≤ ·) := by
  have sorted : (rule.rankedRuns data).Pairwise fun a b => decide (a.bytes ≤ b.bytes) = true := by
    apply List.pairwise_mergeSort
    · intro a b c first second
      exact decide_eq_true (List.le_trans (of_decide_eq_true first) (of_decide_eq_true second))
    · intro a b
      rw [Bool.or_eq_true, decide_eq_true_eq, decide_eq_true_eq]
      exact List.le_total a.bytes b.bytes
  exact List.pairwise_map.mpr (sorted.imp of_decide_eq_true)

/-- Sorting the texts is sorting the bytes, since a text has its run's bytes for its characters. -/
theorem names_eq_rankedRuns (rule : ScanRule) (data : List UInt8) :
    (rule.extract data).names = (rule.rankedRuns data).map Run.text := by
  have names : (rule.extract data).names =
      ((rule.keptRuns data).map Run.text).mergeSort fun a b => decide (a ≤ b) := rfl
  rw [names, rankedRuns]
  refine (List.map_mergeSort fun a _ b _ => ?_).symm
  rw [decide_eq_decide]
  exact Run.text_le_iff.symm

/-- The list of a stream is made of raw bytes of the stream. -/
theorem listing_eq_rawLines (rule : ScanRule) (data : List UInt8) :
    rule.listing data = (rule.rankedRuns data).flatMap Run.rawLine := by
  rw [listing, names_eq_rankedRuns]
  refine LiteralList.bytes_render_texts fun run ranked => ?_
  have kept := (rule.rankedRuns_perm data).mem_iff.mp ranked
  exact (mem_keptRuns.mp kept).1.printable

end ScanRule

/-- Whether a device stands there, in which bytes leave no trace. -/
def FileSystem.isDeviceAt (fs : FileSystem) (l : Location) : Bool :=
  fs.node? l matches some (.special _ _)

namespace Batch

variable {rule : ScanRule} {entry : Entry} {fs after : FileSystem} {report : EntryReport}

/-- An entry that is done has put the raw bytes of its input into the file at its output: those of
the maximal runs that are long enough and have the suffix, in ascending order and with repetitions,
each between quotes and with a comma and a newline behind it. Nothing is left of what the file held
before, and all else in the file system is as it was. A device at the output keeps nothing. -/
theorem list_of_raw_bytes (processed : processEntry rule entry fs = (.ok report, after)) :
    ∃ data l, fs.read entry.input = .ok data ∧ fs.place? entry.output = some l ∧
      ∃ runs : List Run, runs.Nodup ∧
        (∀ run, run ∈ runs ↔ run.Maximal data ∧ max 1 rule.minLength ≤ run.bytes.length ∧
          Text.bytes rule.suffix <:+ run.bytes) ∧
        (runs.map Run.bytes).Pairwise (· ≤ ·) ∧
        let list := runs.flatMap fun run => 0x22 :: run.bytes ++ [0x22, 0x2c, 0x0a]
        (fs.isDeviceAt l = true → after = fs) ∧
        (fs.isDeviceAt l = false →
          after.read entry.output = .ok list ∧ after.node? l = some (.file list) ∧
            after.current = fs.current ∧
            ∀ other, other ≠ l → after.node? other = fs.node? other) := by
  obtain ⟨data, l, opened, read, rfl, created, written⟩ := processEntry_ok processed
  have ranked := rule.rankedRuns_perm data
  refine ⟨data, l, read, FileSystem.place?_of_create created, rule.rankedRuns data,
    ranked.nodup_iff.mpr (rule.keptRuns_nodup data),
    fun run => ranked.mem_iff.trans ScanRule.mem_keptRuns, rule.rankedRuns_ascending data, ?_, ?_⟩
  · intro device
    rcases written with ⟨-, -, -, same⟩ | ⟨free, -⟩
    · exact same
    · cases here : fs.node? l with
      | none => simp [FileSystem.isDeviceAt, here] at device
      | some node =>
        rcases node with content | _ | _ <;>
          simp [FileSystem.isDeviceAt, FileSystem.skeleton, here] at device free
  · intro regular
    rcases written with ⟨onRead?, onWrite?, special, -⟩ | ⟨free, rfl⟩
    · simp [FileSystem.isDeviceAt, special] at regular
    · have inner := FileSystem.ne_nil_of_free free
      have holds := FileSystem.node?_set_self fs (.file (rule.listing data)) inner
      have shape := FileSystem.skeleton_set_file (rule.listing data) free
      have listed : rule.listing data =
          (rule.rankedRuns data).flatMap fun run => 0x22 :: run.bytes ++ [0x22, 0x2c, 0x0a] :=
        rule.listing_eq_rawLines data
      rw [← listed]
      refine ⟨?_, holds, rfl, fun other elsewhere => ?_⟩
      · exact FileSystem.read_of_create created (FileSystem.directoriesIn_of_skeleton shape) holds
      · exact FileSystem.node?_set_of_ne _ (Ne.symm elsewhere)

/-- Two runs of the same bytes, and a smaller one between them. -/
def shuffled : List UInt8 :=
  Text.bytes "B.SEQ" ++ 0 :: (Text.bytes "A.SEQ" ++ 0 :: Text.bytes "B.SEQ")

def shuffledRuns : List Run :=
  [⟨0, Text.bytes "B.SEQ"⟩, ⟨6, Text.bytes "A.SEQ"⟩, ⟨12, Text.bytes "B.SEQ"⟩]

theorem mem_shuffledRuns {run : Run} : run ∈ shuffledRuns ↔
    run.Maximal shuffled ∧ max 1 4 ≤ run.bytes.length ∧ Text.bytes ".SEQ" <:+ run.bytes := by
  have outer : ∀ byte ∈ Text.bytes "B.SEQ", isPrintable byte := by decide +kernel
  have inner : ∀ byte ∈ Text.bytes "A.SEQ", isPrintable byte := by decide +kernel
  have runs : maximalRuns shuffled = shuffledRuns := by
    rw [maximalRuns, shuffled, runsFrom_separated 0 _ outer (by decide),
      runsFrom_separated _ _ inner (by decide), runsFrom_printable _ outer]
    decide
  have fit : ∀ run ∈ shuffledRuns,
      max 1 4 ≤ run.bytes.length ∧ Text.bytes ".SEQ" <:+ run.bytes := by decide
  rw [← mem_maximalRuns, runs]
  exact ⟨fun member => ⟨member, fit run member⟩, And.left⟩

/-- The input beside an output that holds more than its list will have. -/
def stale : FileSystem :=
  FileSystem.blank.set ["work", "a"] (.file shuffled)
    |>.set ["work", "a.t"] (.file (List.replicate 99 0))

theorem read_stale : stale.read ⟨"a"⟩ = .ok shuffled := rfl

/-- The smaller run comes first, and the others are both kept. -/
theorem list_of_raw_bytes_stale : ∃ report after,
    processEntry {} ⟨⟨"a"⟩, ⟨"a.t"⟩⟩ stale = (.ok report, after) ∧
    after.read ⟨"a.t"⟩ = .ok (Text.bytes "\"A.SEQ\",\n\"B.SEQ\",\n\"B.SEQ\",\n") ∧
    after.node? ["work", "a"] = some (.file shuffled) := by
  have opened : stale.create ⟨"a.t"⟩ =
      .ok (["work", "a.t"], stale.set ["work", "a.t"] (.file [])) := rfl
  have processed : processEntry {} ⟨⟨"a"⟩, ⟨"a.t"⟩⟩ stale = _ :=
    processEntry_of_create read_stale opened (List.cons_ne_nil _ _) rfl
  obtain ⟨data, l, read, placed, runs, distinct, members, ascending, -, kept⟩ :=
    list_of_raw_bytes processed
  cases read_stale.symm.trans read
  cases (FileSystem.place?_of_create opened).symm.trans placed
  have same : runs.Perm shuffledRuns :=
    (List.perm_ext_iff_of_nodup distinct (by decide)).mpr fun run =>
      (members run).trans mem_shuffledRuns.symm
  have sorted : runs.map Run.bytes =
      [Text.bytes "A.SEQ", Text.bytes "B.SEQ", Text.bytes "B.SEQ"] :=
    List.Perm.eq_of_pairwise (fun a b _ _ => List.le_antisymm) ascending (by decide)
      ((same.map Run.bytes).trans (by decide))
  have list : (runs.flatMap fun run => 0x22 :: run.bytes ++ [0x22, 0x2c, 0x0a]) =
      Text.bytes "\"A.SEQ\",\n\"B.SEQ\",\n\"B.SEQ\",\n" := by
    rw [← List.flatMap_map Run.bytes fun bytes => 0x22 :: bytes ++ [0x22, 0x2c, 0x0a], sorted]
    decide
  obtain ⟨listed, -, -, others⟩ := kept (by decide)
  rw [list] at listed
  refine ⟨_, _, processed, listed, ?_⟩
  rw [others _ (by decide)]
  decide

/-- An entry that is done has left the raw bytes of its list at its output. -/
def LeavesRawBytes (rule : ScanRule) (entry : Entry) (fs : FileSystem) : Prop :=
  ∀ report after data, processEntry rule entry fs = (.ok report, after) →
    fs.read entry.input = .ok data →
    after.read entry.output = .ok ((rule.rankedRuns data).flatMap Run.rawLine)

/-- The list has vanished in a device. -/
theorem not_leavesRawBytes_device : ¬ LeavesRawBytes {} ⟨⟨"a"⟩, ⟨"/dev/null"⟩⟩ stale := by
  intro leaves
  have opened : stale.create ⟨"/dev/null"⟩ = .ok (["dev", "null"], stale) := rfl
  have device : stale.node? ["dev", "null"] = some (.special none none) := by decide
  have claimed := leaves _ _ _ (processEntry_of_device read_stale opened device) read_stale
  have nothing : stale.read ⟨"/dev/null"⟩ = .ok [] := rfl
  have empty := Except.ok.inj (nothing.symm.trans claimed)
  have kept : (⟨6, Text.bytes "A.SEQ"⟩ : Run) ∈ ScanRule.rankedRuns {} shuffled := by
    rw [(ScanRule.rankedRuns_perm {} shuffled).mem_iff, ScanRule.mem_keptRuns]
    exact mem_shuffledRuns.mp (by decide)
  exact absurd (List.flatMap_eq_nil_iff.mp empty.symm _ kept) (by decide)

end Batch

end ResourceNames
