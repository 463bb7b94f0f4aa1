import ResourceNames.Run.Cursor

namespace ResourceNames

/-- A part of a stream in which runs are read place by place. `looked` are the places that have been
looked at, the latest first. -/
structure Window where
  minLength : Nat
  bytes : List UInt8
  position : Nat
  runsSeen : Nat
  looked : List Nat
deriving DecidableEq, Repr

namespace Window

def start (minLength : Nat) (data : List UInt8) : Window :=
  ⟨minLength, data, 0, 0, []⟩

/-- The cursor that stands where the window has been read to. -/
def cursor (w : Window) : Cursor :=
  ⟨w.minLength, w.position, w.bytes.drop w.position, w.runsSeen⟩

/-- The window with the position behind the byte that is being looked at. -/
def onward (w : Window) : Window :=
  { w with position := w.position + 1, looked := w.position :: w.looked }

/-- The byte at the position. This and every other access by place has no answer where it leaves its
bounds. -/
def look? (w : Window) : Option (UInt8 × Window) :=
  w.bytes[w.position]?.map fun byte => (byte, w.onward)

/-- The bytes from `first` up to `last`. -/
def slice? (w : Window) (first last : Nat) : Option (List UInt8) :=
  if first ≤ last ∧ last ≤ w.bytes.length then some ((w.bytes.take last).drop first) else none

/-- The difference of two places, if it is not below zero. -/
def distance? (first last : Nat) : Option Nat :=
  if first ≤ last then some (last - first) else none

/-- Whether a run of a length is reported. -/
def reports (w : Window) (length : Nat) : Bool :=
  0 < length && w.minLength ≤ length

/-- Counts a run, unless it is empty. -/
def count (w : Window) (length : Nat) : Window :=
  { w with runsSeen := if 0 < length then w.runsSeen + 1 else w.runsSeen }

/-- The window with no more than the bytes in front of a place, and its position there. -/
def cutTo (w : Window) (place : Nat) (bytes : List UInt8) : Window :=
  { w with bytes := bytes, position := place }

@[simp] theorem bytes_count (w : Window) (length : Nat) :
    (w.count length).bytes = w.bytes := rfl

@[simp] theorem position_count (w : Window) (length : Nat) :
    (w.count length).position = w.position := rfl

@[simp] theorem looked_count (w : Window) (length : Nat) :
    (w.count length).looked = w.looked := rfl

theorem runsSeen_count (w : Window) (length : Nat) :
    (w.count length).runsSeen = if 0 < length then w.runsSeen + 1 else w.runsSeen := rfl

@[simp] theorem reports_count (w : Window) (length other : Nat) :
    (w.count length).reports other = w.reports other := rfl

@[simp] theorem bytes_cutTo (w : Window) (place : Nat) (bytes : List UInt8) :
    (w.cutTo place bytes).bytes = bytes := rfl

@[simp] theorem position_cutTo (w : Window) (place : Nat) (bytes : List UInt8) :
    (w.cutTo place bytes).position = place := rfl

@[simp] theorem runsSeen_cutTo (w : Window) (place : Nat) (bytes : List UInt8) :
    (w.cutTo place bytes).runsSeen = w.runsSeen := rfl

@[simp] theorem looked_cutTo (w : Window) (place : Nat) (bytes : List UInt8) :
    (w.cutTo place bytes).looked = w.looked := rfl

/-- A window in which a run is being read that begins at `begin`. -/
structure Reading where
  begin : Nat
  window : Window
deriving DecidableEq, Repr

/-- What one byte, or the end of the bytes, comes to. -/
inductive Turn
  | onward (reading : Reading)
  | ended (run? : Option Run) (window : Window)
deriving DecidableEq, Repr

namespace Reading

/-- Looks at one byte. A separator ends the run, and it is reported or the next one begins behind
the separator. With no byte left the run is cut off the window, so that it is not read again. -/
def turn? (r : Reading) : Option Turn :=
  if r.window.position < r.window.bytes.length then do
    let (byte, w) ← r.window.look?
    if isPrintable byte then
      return .onward ⟨r.begin, w⟩
    let last ← distance? 1 w.position
    let length ← distance? r.begin last
    let counted := w.count length
    if counted.reports length then
      let bytes ← counted.slice? r.begin (r.begin + length)
      return .ended (some ⟨r.begin, bytes⟩) counted
    return .onward ⟨counted.position, counted⟩
  else do
    let length ← distance? r.begin r.window.bytes.length
    if 0 < length then
      let counted := r.window.count length
      let bytes ← counted.slice? r.begin counted.bytes.length
      let rest ← counted.slice? 0 r.begin
      return .ended (if counted.reports length then some ⟨r.begin, bytes⟩ else none)
        (counted.cutTo r.begin rest)
    return .ended none r.window

/-- Only a byte that has been looked at leads onward. -/
theorem look?_of_onward {r later : Reading} (turned : r.turn? = some (.onward later)) :
    ∃ byte w, r.window.look? = some (byte, w) ∧ later.window.bytes = w.bytes ∧
      later.window.position = w.position := by
  unfold turn? at turned
  split at turned
  · obtain ⟨⟨byte, w⟩, looked, turned⟩ := Option.bind_eq_some_iff.mp turned
    refine ⟨byte, w, looked, ?_⟩
    dsimp only at turned
    split at turned
    · cases turned
      exact ⟨rfl, rfl⟩
    · obtain ⟨last, -, turned⟩ := Option.bind_eq_some_iff.mp turned
      obtain ⟨length, -, turned⟩ := Option.bind_eq_some_iff.mp turned
      split at turned
      · obtain ⟨bytes, -, turned⟩ := Option.bind_eq_some_iff.mp turned
        cases turned
      · cases turned
        exact ⟨bytes_count .., position_count ..⟩
  · obtain ⟨length, -, turned⟩ := Option.bind_eq_some_iff.mp turned
    split at turned
    · obtain ⟨bytes, -, turned⟩ := Option.bind_eq_some_iff.mp turned
      obtain ⟨rest, -, turned⟩ := Option.bind_eq_some_iff.mp turned
      cases turned
    · cases turned

theorem shorter_of_onward {r later : Reading} (turned : r.turn? = some (.onward later)) :
    later.window.bytes.length - later.window.position <
      r.window.bytes.length - r.window.position := by
  obtain ⟨byte, w, looked, bytes, position⟩ := look?_of_onward turned
  obtain ⟨_, there, same⟩ := Option.map_eq_some_iff.mp looked
  obtain ⟨within, -⟩ := List.getElem?_eq_some_iff.mp there
  cases same
  rw [bytes, position, onward]
  dsimp only
  omega

/-- Turns until there is a run to be reported, or no byte left. -/
def read? (r : Reading) : Option (Option Run × Window) :=
  match turned : r.turn? with
  | none => none
  | some (.ended run? w) => some (run?, w)
  | some (.onward later) =>
    have := shorter_of_onward turned
    later.read?
termination_by r.window.bytes.length - r.window.position

end Reading

/-- The next reportable run and the window behind it. -/
def next? (w : Window) : Option (Option Run × Window) :=
  (Reading.mk w.position w).read?

end Window

end ResourceNames
