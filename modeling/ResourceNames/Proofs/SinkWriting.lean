import ResourceNames.LiteralList.Sink

namespace ResourceNames

theorem Text.bytes_append (a b : String) : bytes (a ++ b) = bytes a ++ bytes b := by
  simp only [bytes, String.toList_append, List.flatMap_append]

theorem LiteralList.bytes_render_cons (value : String) (values : List String) :
    Text.bytes (render (value :: values)) =
      (pieces value).flatten ++ Text.bytes (render values) := by
  simp [render, line, pieces, Text.bytes_append, String.join_cons]

theorem LiteralList.bytes_render_nil : Text.bytes (render []) = [] := rfl

theorem LiteralList.bytes_render_eq_nil_iff {values : List String} :
    Text.bytes (render values) = [] ↔ values = [] := by
  cases values with
  | nil => exact ⟨fun _ => rfl, fun _ => rfl⟩
  | cons value values =>
    rw [bytes_render_cons]
    refine ⟨fun none => absurd none (List.cons_ne_nil _ _), fun none => ?_⟩
    cases none

theorem LiteralList.size_render_cons (value : String) (values : List String) :
    Text.size (render (value :: values)) = Text.size value + 4 + Text.size (render values) := by
  have quote : (Text.bytes "\"").length = 1 := rfl
  have stop : (Text.bytes "\",\n").length = 3 := rfl
  simp only [Text.size, bytes_render_cons, pieces, List.flatten_cons, List.flatten_nil,
    List.append_nil, List.length_append, quote, stop]
  omega

namespace Sink

variable {σ ε : Type} {sink : Sink σ ε} {s : σ} {bytes : List UInt8}

/-- What comes of writing is as it should be, or the writing has been refused for one of the reasons
that `refuses` tells. -/
def Ends {α : Type} (refuses : ε → Prop) (well : α → σ → Prop) : Except ε α × σ → Prop
  | (.error e, _) => refuses e
  | (.ok a, after) => well a after

@[simp] theorem ends_error {α : Type} {refuses : ε → Prop} {well : α → σ → Prop} {e : ε} :
    Ends refuses well (.error e, s) ↔ refuses e := .rfl

@[simp] theorem ends_ok {α : Type} {refuses : ε → Prop} {well : α → σ → Prop} {a : α} :
    Ends refuses well (.ok a, s) ↔ well a s := .rfl

/-- A sink takes every piece whole unless it refuses it, and `holds` tells the bytes that a state of
it has taken. -/
def Takes (sink : Sink σ ε) (refuses : ε → Prop) (holds : List UInt8 → σ → Prop) : Prop :=
  ∀ ⦃bytes s⦄, holds bytes s → ∀ piece,
    Ends refuses (fun _ after => holds (bytes ++ piece) after) (sink.write piece s)

/-- A sink takes every piece whole, and `holds` tells the bytes that a state of it has taken. -/
def Collects (sink : Sink σ ε) (holds : List UInt8 → σ → Prop) : Prop :=
  ∀ ⦃bytes s⦄, holds bytes s → ∀ piece, ∃ after,
    sink.write piece s = (.ok (), after) ∧ holds (bytes ++ piece) after

section Taking

variable {refuses : ε → Prop} {holds : List UInt8 → σ → Prop}

theorem Collects.takes (collects : sink.Collects holds) : sink.Takes (fun _ => False) holds := by
  intro bytes s held piece
  obtain ⟨after, wrote, more⟩ := collects held piece
  rw [wrote]
  exact more

theorem Takes.writeAll (takes : sink.Takes refuses holds) (held : holds bytes s)
    (pieces : List (List UInt8)) :
    Ends refuses (fun _ after => holds (bytes ++ pieces.flatten) after)
      (sink.writeAll pieces s) := by
  induction pieces generalizing bytes s with
  | nil => simpa [Sink.writeAll, Ends] using held
  | cons piece pieces ih =>
    have first := takes held piece
    rcases wrote : sink.write piece s with ⟨e | ⟨⟩, next⟩
    · rw [wrote] at first
      simpa only [Sink.writeAll, wrote, ends_error] using first
    · rw [wrote] at first
      have later := ih first
      simpa only [Sink.writeAll, wrote, List.flatten_cons, List.append_assoc] using later

/-- A list is written as it is rendered, and its bytes are counted. -/
theorem Takes.writeTo (takes : sink.Takes refuses holds) (held : holds bytes s)
    (values : List String) :
    Ends refuses (fun count after => count = Text.size (LiteralList.render values) ∧
      holds (bytes ++ Text.bytes (LiteralList.render values)) after)
      (LiteralList.writeTo sink values s) := by
  induction values generalizing bytes s with
  | nil =>
    refine ⟨rfl, ?_⟩
    simpa only [LiteralList.bytes_render_nil, List.append_nil] using held
  | cons value values ih =>
    have first := takes.writeAll held (LiteralList.pieces value)
    rcases wrote : sink.writeAll (LiteralList.pieces value) s with ⟨e | ⟨⟩, next⟩
    · rw [wrote] at first
      simpa only [LiteralList.writeTo, wrote, ends_error] using first
    · rw [wrote] at first
      have later := ih first
      rcases rest : LiteralList.writeTo sink values next with ⟨e | count, after⟩
      · rw [rest] at later
        simpa only [LiteralList.writeTo, wrote, rest, ends_error] using later
      · rw [rest] at later
        obtain ⟨rfl, all⟩ := later
        simp only [LiteralList.writeTo, wrote, rest, LiteralList.size_render_cons]
        refine ⟨rfl, ?_⟩
        simpa only [LiteralList.bytes_render_cons, List.append_assoc] using all

/-- The bytes that a buffer holds back follow those that it has handed on. -/
def Buffer.Holds (holds : List UInt8 → σ → Prop) (bytes : List UInt8) (buffer : Buffer σ) : Prop :=
  buffer.size = buffer.held.reverse.flatten.length ∧
    ∃ passed, holds passed buffer.behind ∧ bytes = passed ++ buffer.held.reverse.flatten

theorem Buffer.holds_empty (held : holds bytes s) : (Buffer.empty s).Holds holds bytes :=
  ⟨rfl, bytes, held, by simp [Buffer.empty]⟩

theorem Takes.flush {buffer : Buffer σ} (takes : sink.Takes refuses holds)
    (held : buffer.Holds holds bytes) :
    Ends refuses (fun _ after => after.size = 0 ∧ after.Holds holds bytes)
      (buffer.flush sink) := by
  obtain ⟨size, passed, behind, rfl⟩ := held
  unfold Buffer.flush
  split
  · rename_i nothing
    exact ⟨nothing, size, passed, behind, rfl⟩
  · have handed := takes behind buffer.held.reverse.flatten
    rcases wrote : sink.write buffer.held.reverse.flatten buffer.behind with ⟨e | ⟨⟩, after⟩
    · rw [wrote] at handed
      exact handed
    · rw [wrote] at handed
      exact ⟨rfl, Buffer.holds_empty handed⟩

theorem Buffer.Holds.hold {buffer : Buffer σ} (held : buffer.Holds holds bytes)
    (piece : List UInt8) : (buffer.hold piece).Holds holds (bytes ++ piece) := by
  obtain ⟨size, passed, behind, rfl⟩ := held
  exact ⟨by simp [Buffer.hold, size], passed, behind, by simp [Buffer.hold]⟩

/-- What has gone through an empty buffer has gone to the sink behind it. -/
theorem Buffer.Holds.behind_of_size {buffer : Buffer σ} (held : buffer.Holds holds bytes)
    (nothing : buffer.size = 0) : holds bytes buffer.behind := by
  obtain ⟨size, passed, behind, rfl⟩ := held
  rw [nothing, eq_comm, List.length_eq_zero_iff] at size
  rwa [size, List.append_nil]

theorem Takes.buffered (takes : sink.Takes refuses holds) (capacity : Nat) :
    (Sink.buffered capacity sink).Takes refuses (Buffer.Holds holds) := by
  intro bytes buffer held piece
  unfold Sink.buffered
  dsimp only
  by_cases room : buffer.size + piece.length < capacity
  · rw [if_pos room]
    exact held.hold piece
  · -- A piece that goes past the buffer must find it empty, or it would overtake what is held.
    have ready : Ends refuses
        (fun _ flushed => flushed.Holds holds bytes ∧ (capacity ≤ piece.length → flushed.size = 0))
        (if capacity < buffer.size + piece.length then buffer.flush sink else (.ok (), buffer)) := by
      split
      · have emptied := takes.flush held
        rcases made : buffer.flush sink with ⟨e | ⟨⟩, flushed⟩
        · rwa [made] at emptied
        · rw [made] at emptied
          exact ⟨emptied.2, fun _ => emptied.1⟩
      · exact ⟨held, fun large => by omega⟩
    rw [if_neg room]
    rcases made : (if capacity < buffer.size + piece.length then buffer.flush sink
      else (.ok (), buffer)) with ⟨e | ⟨⟩, flushed⟩
    · rwa [made] at ready
    · rw [made] at ready
      obtain ⟨kept, nothing⟩ := ready
      dsimp only
      split
      · exact kept.hold piece
      · rename_i small
        have large : capacity ≤ piece.length := Nat.le_of_not_lt small
        have passed := takes (kept.behind_of_size (nothing large)) piece
        change Ends refuses _ ((sink.write piece flushed.behind).1,
          { flushed with behind := (sink.write piece flushed.behind).2 })
        rcases wrote : sink.write piece flushed.behind with ⟨e | ⟨⟩, after⟩
        · rwa [wrote] at passed
        · rw [wrote] at passed
          have empty := kept.1
          rw [nothing large, eq_comm, List.length_eq_zero_iff] at empty
          exact ⟨kept.1, _, passed, by rw [empty, List.append_nil]⟩

end Taking

/-- Writing into a sink, whatever comes of it, leaves a property of its state as it is. -/
def Keeps (sink : Sink σ ε) (kept : σ → Prop) : Prop :=
  ∀ ⦃s⦄, kept s → ∀ piece, kept (sink.write piece s).2

section Keeping

variable {kept : σ → Prop}

theorem Keeps.writeAll (keeps : sink.Keeps kept) (here : kept s) (pieces : List (List UInt8)) :
    kept (sink.writeAll pieces s).2 := by
  induction pieces generalizing s with
  | nil => exact here
  | cons piece pieces ih =>
    have later := keeps here piece
    unfold Sink.writeAll
    split
    · rename_i after wrote
      rw [wrote] at later
      exact ih later
    · rename_i failure after wrote
      rwa [wrote] at later

theorem Keeps.writeTo (keeps : sink.Keeps kept) (here : kept s) (values : List String) :
    kept (LiteralList.writeTo sink values s).2 := by
  induction values generalizing s with
  | nil => exact here
  | cons value values ih =>
    have later := keeps.writeAll here (LiteralList.pieces value)
    unfold LiteralList.writeTo
    split
    · rename_i failure after wrote
      rwa [wrote] at later
    · rename_i after wrote
      rw [wrote] at later
      have rest := ih later
      split
      · rename_i failure last wroteRest
        rwa [wroteRest] at rest
      · rename_i count last wroteRest
        rwa [wroteRest] at rest

theorem Keeps.flush {buffer : Buffer σ} (keeps : sink.Keeps kept) (here : kept buffer.behind) :
    kept (buffer.flush sink).2.behind := by
  unfold Buffer.flush
  split
  · exact here
  · exact keeps here _

theorem Keeps.buffered (keeps : sink.Keeps kept) (capacity : Nat) :
    (Sink.buffered capacity sink).Keeps fun buffer => kept buffer.behind := by
  intro buffer here piece
  have ready : kept (if capacity < buffer.size + piece.length then buffer.flush sink
      else (.ok (), buffer)).2.behind := by
    split
    · exact keeps.flush here
    · exact here
  unfold Sink.buffered
  dsimp only
  split
  · exact here
  · split
    · exact ready
    · split
      · exact ready
      · exact keeps ready piece

end Keeping
end Sink
end ResourceNames
