import ResourceNames.Batch
import ResourceNames.Proofs.SinkWriting

namespace ResourceNames

theorem Catalog.settle_settle (l : Location) (first second : Node)
    (entries : List (Location × Node)) :
    settle l second (settle l first entries) = settle l second entries := by
  induction entries with
  | nil => simp [settle]
  | cons entry rest ih =>
    by_cases before : l < entry.1
    · simp [settle, before]
    · by_cases here : l = entry.1
      · simp only [settle, ← here, if_neg (List.lt_irrefl l), if_true]
      · simp [settle, before, here, ih]

namespace FileSystem

theorem set_set (fs : FileSystem) (l : Location) (first second : Node) :
    (fs.set l first).set l second = fs.set l second := by
  simp only [set, Catalog.insert, Catalog.settle_settle]

theorem node?_set_self {l : Location} (fs : FileSystem) (node : Node) (inner : l ≠ []) :
    (fs.set l node).node? l = some node := by
  rw [node?, if_neg inner, set, Catalog.find?_insert, if_pos rfl]

/-- Opening a file for writing makes it or empties it, or opens a special file as it is. -/
theorem create_cases {fs after : FileSystem} {path : Path} {l : Location}
    (opened : fs.create path = .ok (l, after)) :
    (∃ onRead? onWrite?, fs.node? l = some (.special onRead? onWrite?) ∧ after = fs) ∨
      (l ≠ [] ∧ after = fs.set l (.file [])) := by
  unfold create at opened
  cases found : fs.slot path with
  | error cause =>
    rw [found] at opened
    cases opened
  | ok place? =>
    rw [found] at opened
    cases place? with
    | none => cases opened
    | some place =>
      dsimp only [Bind.bind, Except.bind] at opened
      split at opened
      · cases opened
      · split at opened
        · cases opened
        · split at opened
          · cases opened
          · rename_i onRead? onWrite? special
            cases opened
            exact .inl ⟨onRead?, onWrite?, special, rfl⟩
          · rename_i noDirectory noSpecial
            cases opened
            exact .inr ⟨fun root => noDirectory (by rw [root]; rfl), rfl⟩

theorem write_of_create {fs : FileSystem} {path : Path} {l : Location}
    (opened : fs.create path = .ok (l, fs.set l (.file []))) (inner : l ≠ [])
    (content : List UInt8) : fs.write path content = (.ok (), fs.set l (.file content)) := by
  simp only [write, opened, openFile, node?_set_self fs _ inner, set_set, List.nil_append]

theorem openFile_collects {l : Location} (fs : FileSystem) (inner : l ≠ []) :
    (openFile l).Collects fun bytes after => after = fs.set l (.file bytes) := by
  rintro bytes _ rfl piece
  refine ⟨fs.set l (.file (bytes ++ piece)), ?_, rfl⟩
  simp only [openFile, node?_set_self fs _ inner, set_set]

/-- A device that refuses nothing takes all bytes, and they are gone. -/
theorem openFile_device {fs : FileSystem} {l : Location} {onRead? : Option Cause}
    (device : fs.node? l = some (.special onRead? none)) :
    (openFile l).Collects fun _ after => after = fs := by
  rintro bytes _ rfl piece
  exact ⟨_, by simp only [openFile, device], rfl⟩

/-- A device that refuses bytes has taken none. -/
theorem openFile_refusing {fs : FileSystem} {l : Location} {onRead? : Option Cause} {cause : Cause}
    (refusing : fs.node? l = some (.special onRead? (some cause))) :
    (openFile l).Takes (· = cause) fun bytes after => bytes = [] ∧ after = fs := by
  rintro bytes _ ⟨rfl, rfl⟩ piece
  simp only [openFile, refusing]
  split
  · rename_i nothing
    exact ⟨nothing, rfl⟩
  · rfl

/-- A special file takes or refuses bytes without a trace. -/
theorem openFile_keeps {fs : FileSystem} {l : Location} {onRead? onWrite? : Option Cause}
    (special : fs.node? l = some (.special onRead? onWrite?)) :
    (openFile l).Keeps fun after => after = fs := by
  rintro _ rfl piece
  simp only [openFile, special]
  cases onWrite? <;> rfl

end FileSystem

namespace Batch

/-- A list that is not refused has arrived in full when the buffer is flushed. -/
theorem writeLines_of_takes {l : Location} {fs : FileSystem} {refuses : Cause → Prop}
    {holds : List UInt8 → FileSystem → Prop} (takes : (FileSystem.openFile l).Takes refuses holds)
    (nothing : holds [] fs) (names : List String) :
    Sink.Ends refuses (fun count after => count = Text.size (LiteralList.render names) ∧
      holds (Text.bytes (LiteralList.render names)) after) (writeLines names l fs) := by
  have filled := (takes.buffered bufferSize).writeTo (Sink.Buffer.holds_empty nothing) names
  unfold writeLines
  dsimp only
  rcases wrote : LiteralList.writeTo (.buffered bufferSize (FileSystem.openFile l)) names
    (.empty fs) with ⟨cause | count, buffer⟩
  · rw [wrote] at filled
    exact filled
  · rw [wrote] at filled
    obtain ⟨rfl, held⟩ := filled
    have emptied := takes.flush held
    dsimp only
    rcases flushed : buffer.flush (FileSystem.openFile l) with ⟨cause | ⟨⟩, last⟩
    · rw [flushed] at emptied
      exact emptied
    · rw [flushed] at emptied
      obtain ⟨empty, whole⟩ := emptied
      exact ⟨rfl, whole.behind_of_size empty⟩

/-- A list that goes to a place which takes all bytes arrives in full. -/
theorem writeLines_of_collects {l : Location} {fs : FileSystem}
    {holds : List UInt8 → FileSystem → Prop} (collects : (FileSystem.openFile l).Collects holds)
    (nothing : holds [] fs) (names : List String) : ∃ after,
      writeLines names l fs = (.ok (Text.size (LiteralList.render names)), after) ∧
        holds (Text.bytes (LiteralList.render names)) after := by
  have arrived := writeLines_of_takes collects.takes nothing names
  rcases wrote : writeLines names l fs with ⟨cause | count, after⟩
  · rw [wrote] at arrived
    exact False.elim arrived
  · rw [wrote] at arrived
    obtain ⟨rfl, all⟩ := arrived
    exact ⟨after, rfl, all⟩

theorem writeLines_file {l : Location} (fs : FileSystem) (inner : l ≠ []) (names : List String) :
    writeLines names l (fs.set l (.file [])) =
      (.ok (Text.size (LiteralList.render names)),
        fs.set l (.file (Text.bytes (LiteralList.render names)))) := by
  obtain ⟨after, wrote, rfl⟩ :=
    writeLines_of_collects (FileSystem.openFile_collects fs inner) rfl names
  exact wrote

/-- A device that refuses nothing takes the list without a trace. -/
theorem writeLines_device {fs : FileSystem} {l : Location} {onRead? : Option Cause}
    (device : fs.node? l = some (.special onRead? none)) (names : List String) :
    writeLines names l fs = (.ok (Text.size (LiteralList.render names)), fs) := by
  obtain ⟨after, wrote, rfl⟩ :=
    writeLines_of_collects (FileSystem.openFile_device device) rfl names
  exact wrote

theorem writeLines_special {fs : FileSystem} {l : Location} {onRead? onWrite? : Option Cause}
    (special : fs.node? l = some (.special onRead? onWrite?)) (names : List String) :
    (writeLines names l fs).2 = fs := by
  have file := FileSystem.openFile_keeps special
  have written : (LiteralList.writeTo (.buffered bufferSize (FileSystem.openFile l)) names
      (.empty fs)).2.behind = fs := (file.buffered bufferSize).writeTo rfl names
  unfold writeLines
  dsimp only
  split
  · rename_i cause buffer wrote
    rwa [wrote] at written
  · rename_i count buffer wrote
    rw [wrote] at written
    have flushed := file.flush written
    split
    · rename_i cause last emptied
      rwa [emptied] at flushed
    · rename_i last emptied
      rwa [emptied] at flushed

/-- A device that refuses bytes refuses every list but the empty one. -/
theorem writeLines_refusing {fs : FileSystem} {l : Location} {onRead? : Option Cause}
    {cause : Cause} (refusing : fs.node? l = some (.special onRead? (some cause)))
    (names : List String) :
    writeLines names l fs = (if names = [] then .ok 0 else .error cause, fs) := by
  cases names with
  | nil => rfl
  | cons name names =>
    have arrived := writeLines_of_takes (FileSystem.openFile_refusing refusing) ⟨rfl, rfl⟩
      (name :: names)
    have kept := writeLines_special refusing (name :: names)
    rcases wrote : writeLines (name :: names) l fs with ⟨refused | count, after⟩
    · rw [wrote] at arrived kept
      cases arrived
      cases kept
      rfl
    · rw [wrote] at arrived
      cases LiteralList.bytes_render_eq_nil_iff.mp arrived.2.1

/-- A list is written as if it went to its file in one piece. -/
theorem writeList_eq (names : List String) (path : Path) (fs : FileSystem) :
    writeList names path fs =
      match fs.write path (Text.bytes (LiteralList.render names)) with
      | (.error cause, after) => (.error (.outputNotWritable path.text cause), after)
      | (.ok (), after) => (.ok (Text.size (LiteralList.render names)), after) := by
  cases created : fs.create path with
  | error cause => simp only [writeList, FileSystem.write, created]
  | ok opened =>
    obtain ⟨l, opened⟩ := opened
    obtain ⟨onRead?, onWrite?, special, rfl⟩ | ⟨inner, rfl⟩ := FileSystem.create_cases created
    · cases onWrite? with
      | none =>
        simp only [writeList, FileSystem.write, created, writeLines_device special,
          FileSystem.openFile, special]
        rfl
      | some cause =>
        simp only [writeList, FileSystem.write, created, writeLines_refusing special,
          FileSystem.openFile, special, LiteralList.bytes_render_eq_nil_iff]
        split
        · rename_i none
          subst none
          rfl
        · rfl
    · simp only [writeList, created, writeLines_file fs inner,
        FileSystem.write_of_create created inner]
      rfl

theorem writeList_error {names : List String} {path : Path} {fs after : FileSystem}
    {failure : Failure} (failed : writeList names path fs = (.error failure, after)) :
    after = fs := by
  unfold writeList at failed
  split at failed
  · cases failed
    rfl
  · rename_i l opened created
    obtain ⟨onRead?, onWrite?, special, rfl⟩ | ⟨inner, rfl⟩ := FileSystem.create_cases created
    · rw [← writeLines_special special names]
      exact (congrArg Prod.snd failed).symm
    · rw [writeLines_file fs inner] at failed
      cases failed

/-- An entry that fails, in reading or in writing, leaves the files as it found them. -/
theorem processEntry_error {rule : ScanRule} {entry : Entry} {fs after : FileSystem}
    {failure : Failure} (failed : processEntry rule entry fs = (.error failure, after)) :
    after = fs := by
  unfold processEntry at failed
  split at failed
  · cases failed
    rfl
  · dsimp only at failed
    split at failed
    · rename_i cause written wrote
      cases failed
      exact writeList_error wrote
    · cases failed

end Batch
end ResourceNames
