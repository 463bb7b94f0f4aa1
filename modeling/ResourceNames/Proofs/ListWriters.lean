import ResourceNames.Proofs.FilePlaces

namespace ResourceNames

namespace Sink

variable {α : Type} {answer : α} {capacity : Nat} {bytes : List UInt8} {stored after : Memory}

/-- What comes of writing bytes where there is room for `capacity` of them: they are stored and
answered for, or the writing is refused and as many are stored as there was room for. -/
inductive Fills (capacity : Nat) (bytes : List UInt8) (answer : α) :
    Except Full α × Memory → Prop
  | whole {after : Memory} (fits : bytes.length ≤ capacity) (content : after.content = bytes) :
      Fills capacity bytes answer (.ok answer, after)
  | cut {after : Memory} (beyond : capacity < bytes.length)
      (content : after.content = bytes.take capacity) :
      Fills capacity bytes answer (.error .full, after)

/-- Where bytes have been cut, those behind them make no difference. -/
theorem fills_behind_cut (beyond : capacity < bytes.length)
    (content : after.content = bytes.take capacity) (rest : List UInt8) :
    Fills capacity (bytes ++ rest) answer (.error .full, after) := by
  refine .cut ?_ ?_
  · rw [List.length_append]
    omega
  · rw [content, List.take_append_of_le_length (Nat.le_of_lt beyond)]

/-- A piece is stored as far as it fits behind what is there. -/
theorem bounded_write (held : stored.content = bytes) (fits : bytes.length ≤ capacity)
    (piece : List UInt8) :
    Fills capacity (bytes ++ piece) () ((bounded capacity).write piece stored) := by
  have size : stored.size = bytes.length := by rw [← Memory.length_content, held]
  have content : (stored.put (piece.take (capacity - stored.size))).content =
      (bytes ++ piece).take capacity := by
    rw [Memory.content_put, held, size, List.take_append, List.take_of_length_le fits]
  unfold bounded
  dsimp only
  by_cases room : piece.length ≤ capacity - stored.size
  · have whole : (bytes ++ piece).length ≤ capacity := by
      rw [List.length_append]
      omega
    rw [if_pos room]
    exact .whole whole (by rw [content, List.take_of_length_le whole])
  · rw [if_neg room]
    refine .cut ?_ content
    rw [List.length_append]
    omega

theorem bounded_writeAll (held : stored.content = bytes) (fits : bytes.length ≤ capacity)
    (pieces : List (List UInt8)) :
    Fills capacity (bytes ++ pieces.flatten) () ((bounded capacity).writeAll pieces stored) := by
  induction pieces generalizing bytes stored with
  | nil =>
    rw [List.flatten_nil, List.append_nil]
    exact .whole fits held
  | cons piece pieces ih =>
    have first := bounded_write held fits piece
    rw [List.flatten_cons, ← List.append_assoc]
    rcases wrote : (bounded capacity).write piece stored with ⟨outcome, between⟩
    rw [wrote] at first
    cases first with
    | whole room content =>
      simp only [writeAll, wrote]
      exact ih content room
    | cut beyond content =>
      simp only [writeAll, wrote]
      exact fills_behind_cut beyond content _

end Sink

namespace LiteralList

open Sink

/-- The lines in front use up room for those behind them, up to the one that is cut. -/
theorem fills_writeTo {capacity : Nat} {bytes : List UInt8} {stored : Memory}
    (held : stored.content = bytes) (fits : bytes.length ≤ capacity) (values : List String) :
    Fills capacity (bytes ++ Text.bytes (render values)) (Text.size (render values))
      (writeTo (bounded capacity) values stored) := by
  induction values generalizing bytes stored with
  | nil =>
    rw [bytes_render_nil, List.append_nil]
    exact .whole fits held
  | cons value values ih =>
    have line := bounded_writeAll held fits (pieces value)
    rw [bytes_render_cons, ← List.append_assoc]
    rcases wrote : (bounded capacity).writeAll (pieces value) stored with ⟨outcome, between⟩
    rw [wrote] at line
    cases line with
    | whole room content =>
      have others := ih content room
      rcases wroteOthers : writeTo (bounded capacity) values between with ⟨outcome, after⟩
      rw [wroteOthers] at others
      simp only [writeTo, wrote]
      rw [wroteOthers, size_render_cons]
      cases others with
      | whole room content => exact .whole room content
      | cut beyond content => exact .cut beyond content
    | cut beyond content =>
      simp only [writeTo, wrote]
      exact fills_behind_cut beyond content _

/-- Writing a list where there is room for `capacity` bytes succeeds exactly if its rendering fits,
and then tells its size. Whether it fits or is cut, in a value, in a character, within a line or
between lines, what is stored are the first bytes of the rendering, as many as there is room for. -/
theorem writeTo_bounded (capacity : Nat) (values : List String) :
    ∃ stored, writeTo (bounded capacity) values .empty =
        (if Text.size (render values) ≤ capacity then .ok (Text.size (render values))
          else .error .full, stored) ∧
      stored.content = (Text.bytes (render values)).take capacity := by
  have fills := fills_writeTo Memory.content_empty (Nat.zero_le capacity) values
  rcases wrote : writeTo (bounded capacity) values .empty with ⟨outcome, stored⟩
  rw [wrote, List.nil_append] at fills
  refine ⟨stored, ?_⟩
  cases fills with
  | whole fits content =>
    have room : Text.size (render values) ≤ capacity := fits
    rw [if_pos room, List.take_of_length_le fits]
    exact ⟨rfl, content⟩
  | cut beyond content =>
    have crowded : ¬ Text.size (render values) ≤ capacity := Nat.not_le.mpr beyond
    rw [if_neg crowded]
    exact ⟨rfl, content⟩

/-- The cut falls between the two bytes of a character. -/
example : (writeTo (bounded 2) ["é"] .empty).2.content = [0x22, 0xc3] := by decide

theorem memory_collects : Sink.memory.Collects fun bytes stored => stored.content = bytes := by
  rintro bytes stored rfl piece
  exact ⟨stored.put piece, rfl, Memory.content_put piece stored⟩

theorem writeTo_memory (values : List String) :
    ∃ stored, writeTo Sink.memory values .empty = (.ok (Text.size (render values)), stored) ∧
      stored.content = Text.bytes (render values) := by
  have written := memory_collects.takes.writeTo Memory.content_empty values
  rcases wrote : writeTo Sink.memory values .empty with ⟨nothing | count, stored⟩
  · cases nothing
  · rw [wrote] at written
    obtain ⟨rfl, content⟩ := written
    exact ⟨stored, rfl, content⟩

/-- The bytes of a list are those of its rendering, whether it is written to memory or, through a
buffer, to a file, and each writer tells their number. Whatever a path leads to, the list goes there
as if its rendering were written in one piece, and is refused exactly when that is. Where it leaves
a file, the rendering is read from it afterwards, and nothing else has changed. -/
theorem writers_agree (values : List String) (path : Path) (fs : FileSystem) :
    let rendered := Text.bytes (render values)
    (∃ stored, writeTo Sink.memory values .empty = (.ok rendered.length, stored) ∧
      stored.content = rendered) ∧
    (Batch.writeList values path fs =
      match fs.write path rendered with
      | (.error cause, after) => (.error (.outputNotWritable path.text cause), after)
      | (.ok (), after) => (.ok rendered.length, after)) ∧
    (fs.Writable path → ∃ l after, fs.place? path = some l ∧
      Batch.writeList values path fs = (.ok rendered.length, after) ∧
      after.read path = .ok rendered ∧ after = fs.set l (.file rendered)) := by
  intro rendered
  refine ⟨writeTo_memory values, Batch.writeList_eq values path fs, fun writable => ?_⟩
  obtain ⟨l, opened, free⟩ := writable.free
  have inner := FileSystem.ne_nil_of_free free
  refine ⟨l, _, FileSystem.place?_of_create opened, ?_, ?_, rfl⟩
  · rw [Batch.writeList_eq, FileSystem.write_of_create opened inner]
    rfl
  · exact FileSystem.read_of_create opened
      (FileSystem.directoriesIn_of_skeleton (FileSystem.skeleton_set_file rendered free))
      (FileSystem.node?_set_self fs _ inner)

/-- An empty value, one with a quote and a newline, and a character of two bytes. -/
def mixed : List String := ["", "a\"\n", "é"]

/-- The path of the list, and a longer file under it. -/
def overfull : FileSystem :=
  FileSystem.blank.set ["work", "list.txt"] (.file (List.replicate 99 0))

theorem writers_agree_mixed : overfull.Writable ⟨"list.txt"⟩ ∧
    ∃ after, Batch.writeList mixed ⟨"list.txt"⟩ overfull = (.ok 17, after) ∧
      after.read ⟨"list.txt"⟩ = .ok (Text.bytes "\"\",\n\"a\"\n\",\n\"é\",\n") := by
  have writable : overfull.Writable ⟨"list.txt"⟩ := by
    refine ⟨["work", "list.txt"], ?_⟩
    rfl
  obtain ⟨-, -, file⟩ := writers_agree mixed ⟨"list.txt"⟩ overfull
  obtain ⟨l, after, -, written, read, -⟩ := file writable
  exact ⟨writable, after, written, read⟩

end LiteralList

end ResourceNames
