import ResourceNames.Run

namespace ResourceNames

/-- A place in a stream, from which its printable runs are read one at a time.
`unread` begins at `position`; runs shorter than `minLength` are passed over but counted. -/
structure Cursor where
  minLength : Nat
  position : Nat
  unread : List UInt8
  runsSeen : Nat
deriving DecidableEq, Repr

namespace Cursor

def start (minLength : Nat) (data : List UInt8) : Cursor :=
  ⟨minLength, 0, data, 0⟩

/-- The printable bytes right at the cursor, if they are enough to be reported. -/
def found (c : Cursor) : Option Run :=
  let bytes := c.unread.takeWhile isPrintable
  if 0 < bytes.length ∧ c.minLength ≤ bytes.length then some ⟨c.position, bytes⟩ else none

/-- The number of runs seen once the bytes right at the cursor have been read. -/
def runsSeenHere (c : Cursor) : Nat :=
  if (c.unread.takeWhile isPrintable).isEmpty then c.runsSeen else c.runsSeen + 1

/-- The cursor behind the printable bytes right at it and the byte that ends them. -/
def past (c : Cursor) : Cursor :=
  { c with
    position := c.position + (c.unread.takeWhile isPrintable).length + 1
    unread := (c.unread.dropWhile isPrintable).tail
    runsSeen := c.runsSeenHere }

theorem length_unread_past_lt {c : Cursor} (more : c.unread.dropWhile isPrintable ≠ []) :
    c.past.unread.length < c.unread.length := by
  have shorter := (List.dropWhile_suffix isPrintable (l := c.unread)).length_le
  have positive := List.length_pos_iff.2 more
  simp only [past, List.length_tail]
  omega

/-- The next reportable run and the cursor behind it. A run that ends with the stream is read
without a separator, and the cursor stays in front of it with nothing left to read. -/
def next (c : Cursor) : Option Run × Cursor :=
  if c.unread.dropWhile isPrintable = [] then
    (c.found, { c with unread := [], runsSeen := c.runsSeenHere })
  else
    match c.found with
    | some run => (some run, c.past)
    | none => c.past.next
termination_by c.unread.length
decreasing_by exact length_unread_past_lt ‹_›

theorem length_unread_next_lt {c : Cursor} {run : Run} (reported : c.next.1 = some run) :
    c.next.2.unread.length < c.unread.length := by
  fun_induction next c with
  | case1 c done =>
    have nonempty : c.unread ≠ [] := by
      intro empty
      simp [found, empty] at reported
    simpa [List.length_pos_iff] using nonempty
  | case2 c more run' here => exact length_unread_past_lt more
  | case3 c more here ih => exact Nat.lt_trans (ih reported) (length_unread_past_lt more)

/-- Passes `n` reportable runs and gives the one behind them. -/
def nth : Nat → Cursor → Option Run × Cursor
  | 0, c => c.next
  | n + 1, c =>
    match c.next with
    | (none, after) => (none, after)
    | (some _, after) => nth n after

/-- All remaining reportable runs, and the cursor at the end of the stream. -/
def rest (c : Cursor) : List Run × Cursor :=
  match reported : c.next with
  | (none, after) => ([], after)
  | (some run, after) =>
    have : after.unread.length < c.unread.length := by
      simpa [reported] using length_unread_next_lt (congrArg Prod.fst reported)
    let (runs, last) := after.rest
    (run :: runs, last)
termination_by c.unread.length

end Cursor

/-- The reportable runs of a stream, in the order in which they stand there. -/
def candidates (minLength : Nat) (data : List UInt8) : List Run :=
  (Cursor.start minLength data).rest.1

end ResourceNames
