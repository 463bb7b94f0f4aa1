import ResourceNames.LiteralList

namespace ResourceNames

/-- A place for bytes. `write` stores a piece whole, or as much of it as the place takes, and tells
why the rest was refused. -/
structure Sink (σ ε : Type) where
  write : List UInt8 → σ → Except ε Unit × σ

namespace Sink

variable {σ ε : Type}

/-- Writes the pieces in order, up to the first that is refused. -/
def writeAll (sink : Sink σ ε) : List (List UInt8) → σ → Except ε Unit × σ
  | [], s => (.ok (), s)
  | piece :: pieces, s =>
    match sink.write piece s with
    | (.ok (), s) => sink.writeAll pieces s
    | (.error e, s) => (.error e, s)

/-- Bytes in memory, the latest first, and their number. -/
structure Memory where
  latestFirst : List UInt8
  size : Nat
  counted : size = latestFirst.length
deriving DecidableEq, Repr

namespace Memory

def empty : Memory := ⟨[], 0, rfl⟩

/-- The bytes in the order in which they came. -/
def content (memory : Memory) : List UInt8 :=
  memory.latestFirst.reverse

def put (piece : List UInt8) (memory : Memory) : Memory where
  latestFirst := piece.reverse ++ memory.latestFirst
  size := memory.size + piece.length
  counted := by simp [memory.counted, Nat.add_comm]

@[simp] theorem content_empty : empty.content = [] := rfl

@[simp] theorem content_put (piece : List UInt8) (memory : Memory) :
    (memory.put piece).content = memory.content ++ piece := by
  simp [content, put]

theorem length_content (memory : Memory) : memory.content.length = memory.size := by
  simp [content, memory.counted]

end Memory

/-- Memory that grows as needed. -/
def memory : Sink Memory Empty where
  write piece stored := (.ok (), stored.put piece)

/-- A refusal because there is no room left. -/
inductive Full
  | full
deriving DecidableEq, Repr

/-- Room for `capacity` bytes: a piece that does not fit is stored as far as it does. -/
def bounded (capacity : Nat) : Sink Memory Full where
  write piece stored :=
    let room := capacity - stored.size
    (if piece.length ≤ room then .ok () else .error .full, stored.put (piece.take room))

/-- Bytes held back in front of another sink, latest piece first. -/
structure Buffer (σ : Type) where
  held : List (List UInt8)
  size : Nat
  behind : σ

namespace Buffer

def empty (behind : σ) : Buffer σ := ⟨[], 0, behind⟩

/-- Hands on what is held back; a refused buffer is given up. -/
def flush (sink : Sink σ ε) (buffer : Buffer σ) : Except ε Unit × Buffer σ :=
  if buffer.size = 0 then (.ok (), buffer)
  else
    let (outcome, behind) := sink.write buffer.held.reverse.flatten buffer.behind
    (outcome, empty behind)

def hold (piece : List UInt8) (buffer : Buffer σ) : Buffer σ :=
  { buffer with held := piece :: buffer.held, size := buffer.size + piece.length }

end Buffer

/-- Holds back up to `capacity` bytes, so that `sink` sees few large pieces. A piece that would
overfill the buffer flushes it first; one as large as the buffer goes past it. -/
def buffered (capacity : Nat) (sink : Sink σ ε) : Sink (Buffer σ) ε where
  write piece buffer :=
    if buffer.size + piece.length < capacity then (.ok (), buffer.hold piece)
    else
      let (outcome, flushed) :=
        if capacity < buffer.size + piece.length then buffer.flush sink else (.ok (), buffer)
      match outcome with
      | .error e => (.error e, flushed)
      | .ok () =>
        if piece.length < capacity then (.ok (), flushed.hold piece)
        else
          let (outcome, behind) := sink.write piece flushed.behind
          (outcome, { flushed with behind })

end Sink

namespace LiteralList

variable {σ ε : Type}

/-- Writes a list line by line and counts the bytes, four a line besides the value. -/
def writeTo (sink : Sink σ ε) : List String → σ → Except ε Nat × σ
  | [], s => (.ok 0, s)
  | value :: values, s =>
    match sink.writeAll (pieces value) s with
    | (.error e, s) => (.error e, s)
    | (.ok (), s) =>
      match writeTo sink values s with
      | (.error e, s) => (.error e, s)
      | (.ok written, s) => (.ok (Text.size value + 4 + written), s)

end LiteralList

end ResourceNames
