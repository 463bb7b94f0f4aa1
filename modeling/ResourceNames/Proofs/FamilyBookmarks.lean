import ResourceNames.Proofs.CursorReading
import ResourceNames.Run.Family

namespace ResourceNames

namespace Cursor

theorem next_of_unread {c : Cursor} (done : c.unread = []) : c.next = (none, c) := by
  obtain ⟨minLength, position, unread, runsSeen⟩ := c
  subst done
  rw [next, if_pos (by simp)]
  simp [found, runsSeenHere]

theorem nth_of_unread {c : Cursor} (done : c.unread = []) (n : Nat) : c.nth n = (none, c) := by
  cases n with
  | zero => exact next_of_unread done
  | succ n => simp only [nth, next_of_unread done]

theorem unread_of_nth_none {c : Cursor} {n : Nat} (ended : (c.nth n).1 = none) :
    (c.nth n).2.unread = [] := by
  induction n generalizing c with
  | zero => exact (next_exhausts (Prod.ext ended rfl)).unread_eq
  | succ n ih =>
    match call : c.next with
    | (none, after) =>
      simp only [nth, call]
      exact (next_exhausts call).unread_eq
    | (some run, after) =>
      simp only [nth, call] at ended ⊢
      exact ih ended

end Cursor

/-- A place in the candidates of a stream. -/
structure Bookmark where
  minLength : Nat
  place : Nat
deriving DecidableEq, Repr

namespace Bookmark

/-- The candidates that are counted through. -/
def candidates (data : List UInt8) (mark : Bookmark) : List Run :=
  ResourceNames.candidates mark.minLength data

/-- The candidate at the mark, if they reach that far. -/
def run? (data : List UInt8) (mark : Bookmark) : Option Run :=
  (mark.candidates data)[mark.place]?

def move (distance : Nat) (mark : Bookmark) : Bookmark :=
  { mark with place := mark.place + distance }

@[simp] theorem move_minLength (distance : Nat) (mark : Bookmark) :
    (mark.move distance).minLength = mark.minLength := rfl

@[simp] theorem move_place (distance : Nat) (mark : Bookmark) :
    (mark.move distance).place = mark.place + distance := rfl

@[simp] theorem candidates_move (data : List UInt8) (distance : Nat) (mark : Bookmark) :
    (mark.move distance).candidates data = mark.candidates data := rfl

theorem move_move (first second : Nat) (mark : Bookmark) :
    (mark.move first).move second = mark.move (first + second) := by
  simp only [move, Nat.add_assoc]

/-- The number of maximal runs up to the last candidate in front of the mark. A mark that has left
the candidates behind has all maximal runs behind it. -/
noncomputable def seen (data : List UInt8) (mark : Bookmark) : ℕ∞ :=
  match mark.place with
  | 0 => 0
  | place + 1 =>
    match (mark.candidates data)[place]? with
    | some last => {run : Run | run.Maximal data ∧ run.offset ≤ last.offset}.encard
    | none => {run : Run | run.Maximal data}.encard

theorem seen_move_of_some {data : List UInt8} {mark : Bookmark} {run : Run}
    (given : mark.run? data = some run) :
    (mark.move 1).seen data =
      {other : Run | other.Maximal data ∧ other.offset ≤ run.offset}.encard := by
  rw [run?] at given
  simp only [seen, move_place, candidates_move, given]

theorem seen_move_of_none {data : List UInt8} {mark : Bookmark} (ended : mark.run? data = none) :
    (mark.move 1).seen data = {run : Run | run.Maximal data}.encard := by
  rw [run?] at ended
  simp only [seen, move_place, candidates_move, ended]

end Bookmark

/-- A cursor that stands at a mark: behind the candidates in front of the mark, it has the others
ahead of it, and has seen exactly the runs that are not ahead. -/
structure Cursor.At (data : List UInt8) (c : Cursor) (mark : Bookmark) : Prop where
  minLength_eq : c.minLength = mark.minLength
  behind : ∃ earlier, maximalRuns data = earlier ++ c.ahead ∧ earlier.length = c.runsSeen
  filter_ahead : c.ahead.filter (Run.reportable mark.minLength) =
    (mark.candidates data).drop mark.place
  seen_eq : (c.runsSeen : ℕ∞) = mark.seen data

namespace Cursor

variable {data : List UInt8} {c after : Cursor} {mark : Bookmark}

theorem at_start (minLength : Nat) (data : List UInt8) :
    (start minLength data).At data ⟨minLength, 0⟩ where
  minLength_eq := rfl
  behind := ⟨[], rfl, rfl⟩
  filter_ahead := (candidates_eq_filter minLength data).symm
  seen_eq := rfl

/-- With nothing left to read and all runs seen, every place behind the candidates is as good. -/
theorem at_beyond (done : c.unread = []) (all : c.runsSeen = (maximalRuns data).length)
    (same : c.minLength = mark.minLength) (beyond : (mark.candidates data).length < mark.place) :
    c.At data mark where
  minLength_eq := same
  behind := ⟨_, by rw [ahead_of_unread done, List.append_nil], all.symm⟩
  filter_ahead := by
    rw [ahead_of_unread done, List.drop_eq_nil_of_le beyond.le]
    rfl
  seen_eq := by
    obtain ⟨minLength, place⟩ := mark
    cases place with
    | zero => exact absurd beyond (Nat.not_lt_zero _)
    | succ place =>
      have ended : (⟨minLength, place⟩ : Bookmark).run? data = none :=
        List.getElem?_eq_none_iff.mpr (Nat.le_of_lt_succ beyond)
      have seen := Bookmark.seen_move_of_none ended
      rw [encard_maximal, ← all] at seen
      exact seen.symm

theorem At.runsSeen_add_ahead (stands : c.At data mark) :
    c.runsSeen + c.ahead.length = (maximalRuns data).length := by
  obtain ⟨earlier, whole, seen⟩ := stands.behind
  rw [whole, List.length_append, seen]

theorem At.exhausts (stands : c.At data mark) (exhausts : c.Exhausts after) :
    (mark.candidates data).length ≤ mark.place ∧
      ∀ n, after.At data (mark.move (n + 1)) := by
  have nothing := exhausts.filter_ahead
  rw [stands.minLength_eq, stands.filter_ahead, List.drop_eq_nil_iff] at nothing
  have all := exhausts.runsSeen_eq.trans stands.runsSeen_add_ahead
  have minLength := exhausts.minLength_eq.trans stands.minLength_eq
  exact ⟨nothing, fun n => at_beyond exhausts.unread_eq all minLength
    (nothing.trans_lt (Nat.lt_add_of_pos_right (Nat.succ_pos n)))⟩

theorem At.reports {run : Run} (stands : c.At data mark) (reports : c.Reports run after) :
    mark.run? data = some run ∧ after.At data (mark.move 1) := by
  have remaining := reports.filter_ahead
  rw [stands.minLength_eq, stands.filter_ahead] at remaining
  have reported : (mark.candidates data)[mark.place]? = some run := by
    rw [← List.head?_drop, remaining, List.head?_cons]
  -- Where the reported run stands among all runs decides how many of them have been seen.
  obtain ⟨short, split, _⟩ := reports.split
  obtain ⟨earlier, whole, seen⟩ := stands.behind
  have place : maximalRuns data = (earlier ++ short) ++ run :: after.ahead := by
    rw [whole, split, List.append_assoc]
  have count : after.runsSeen = (earlier ++ short).length + 1 := by
    have balance := reports.balance
    rw [split, ← seen] at balance
    simp only [List.length_append, List.length_cons] at balance ⊢
    omega
  exact ⟨reported, {
    minLength_eq := reports.minLength_eq.trans stands.minLength_eq
    behind := by
      refine ⟨earlier ++ short ++ [run], by simp [place], ?_⟩
      simp only [count, List.length_append, List.length_singleton]
    filter_ahead := by
      rw [Bookmark.candidates_move, Bookmark.move_place, ← List.tail_drop, remaining]
      rfl
    seen_eq := by
      rw [Bookmark.seen_move_of_some reported, encard_maximal_upto place, count] }⟩

/-- A call gives the candidate `n` places behind the mark and leaves the cursor behind that one. -/
theorem At.nth (stands : c.At data mark) (n : Nat) :
    (c.nth n).1 = (mark.move n).run? data ∧ (c.nth n).2.At data (mark.move (n + 1)) := by
  induction n generalizing c mark with
  | zero =>
    match call : c.next with
    | (none, after) =>
      obtain ⟨beyond, later⟩ := stands.exhausts (next_exhausts call)
      simp only [Cursor.nth, call]
      exact ⟨(List.getElem?_eq_none_iff.mpr beyond).symm, later 0⟩
    | (some run, after) =>
      obtain ⟨reported, later⟩ := stands.reports (next_reports call)
      simp only [Cursor.nth, call]
      exact ⟨reported.symm, later⟩
  | succ n ih =>
    match call : c.next with
    | (none, after) =>
      obtain ⟨beyond, later⟩ := stands.exhausts (next_exhausts call)
      simp only [Cursor.nth, call]
      refine ⟨(List.getElem?_eq_none_iff.mpr ?_).symm, later (n + 1)⟩
      exact beyond.trans (Nat.le_add_right _ _)
    | (some run, after) =>
      obtain ⟨_, later⟩ := stands.reports (next_reports call)
      have further := ih later
      rw [Bookmark.move_move, Bookmark.move_move, Nat.add_comm 1 n, Nat.add_comm 1 (n + 1)] at further
      simpa only [Cursor.nth, call] using further

theorem At.rest (stands : c.At data mark) :
    c.rest.1 = (mark.candidates data).drop mark.place ∧
      c.rest.2.At data (mark.move ((mark.candidates data).length + 1)) := by
  obtain ⟨list, unread, seen, minLength⟩ := c.rest_outcome
  rw [stands.minLength_eq, stands.filter_ahead] at list
  have all := seen.trans stands.runsSeen_add_ahead
  refine ⟨list, at_beyond unread all (minLength.trans stands.minLength_eq) ?_⟩
  simp only [Bookmark.candidates_move, Bookmark.move_place]
  omega

end Cursor

/-- Marks in place of the cursors of a family. What they show is looked up in the candidates. -/
structure Bookmarks where
  data : List UInt8
  marks : List Bookmark
  latest? : Option Run := none

namespace Bookmarks

open Family (Move Sight)

def start (minLength : Nat) (data : List UInt8) : Bookmarks :=
  ⟨data, [⟨minLength, 0⟩], none⟩

def put (marks : Bookmarks) (member : Nat) (mark : Bookmark) : Bookmarks :=
  { marks with marks := marks.marks.set member mark }

/-- What a move shows and where it leaves the mark that it is addressed to. No other mark moves. -/
def ask (marks : Bookmarks) (member : Nat) (mark : Bookmark) : Move → Sight × Bookmarks
  | .next =>
    let run? := mark.run? marks.data
    (.run run?, { marks.put member (mark.move 1) with latest? := run? })
  | .nth n =>
    let run? := (mark.move n).run? marks.data
    (.run run?, { marks.put member (mark.move (n + 1)) with latest? := run? })
  | .clone => (.member marks.marks.length, { marks with marks := marks.marks ++ [mark] })
  | .restart minLength => (.nothing, marks.put member ⟨minLength, 0⟩)
  | .rest =>
    let list := mark.candidates marks.data
    (.runs (list.drop mark.place), marks.put member (mark.move (list.length + 1)))
  | .restWith suffix =>
    let list := mark.candidates marks.data
    (.runs (suffix.keep (list.drop mark.place)), marks.put member (mark.move (list.length + 1)))
  | .latestEndsWith ending => (.verdict (marks.latest?.map fun run => run.endsWith ending), marks)

def step (marks : Bookmarks) (member : Nat) (move : Move) : Sight × Bookmarks :=
  match marks.marks[member]? with
  | none => (.nothing, marks)
  | some mark => marks.ask member mark move

theorem data_step (marks : Bookmarks) (member : Nat) (move : Move) :
    (marks.step member move).2.data = marks.data := by
  unfold step
  split
  · rfl
  · cases move <;> rfl

/-- All that the moves show, one after the other, and the marks that they leave. -/
def run (marks : Bookmarks) : List (Nat × Move) → List Sight × Bookmarks
  | [] => ([], marks)
  | (member, move) :: moves =>
    let (sight, marks) := marks.step member move
    let (sights, marks) := marks.run moves
    (sight :: sights, marks)

theorem data_run (marks : Bookmarks) (moves : List (Nat × Move)) :
    (marks.run moves).2.data = marks.data := by
  induction moves generalizing marks with
  | nil => rfl
  | cons addressed moves ih => exact (ih _).trans (marks.data_step addressed.1 addressed.2)

end Bookmarks

namespace Family

/-- All that the moves show, one after the other, and the family that they leave. -/
def run (family : Family) : List (Nat × Move) → List Sight × Family
  | [] => ([], family)
  | (member, move) :: moves =>
    let (sight, family) := family.step member move
    let (sights, family) := family.run moves
    (sight :: sights, family)

/-- A family each of whose cursors stands at the mark of the same number. -/
structure Follows (family : Family) (marks : Bookmarks) : Prop where
  data_eq : family.data = marks.data
  latest_eq : family.latest? = marks.latest?
  length_eq : family.cursors.length = marks.marks.length
  stands : ∀ {member : Nat} {c : Cursor} {mark : Bookmark}, family.cursors[member]? = some c →
    marks.marks[member]? = some mark → c.At marks.data mark

variable {family : Family} {marks : Bookmarks}

theorem follows_start (minLength : Nat) (data : List UInt8) :
    (start minLength data).Follows (.start minLength data) where
  data_eq := rfl
  latest_eq := rfl
  length_eq := rfl
  stands := by
    intro member c mark atCursor atMark
    cases member with
    | zero =>
      cases atCursor
      cases atMark
      exact Cursor.at_start minLength data
    | succ member => cases atCursor

theorem Follows.put {c : Cursor} {mark : Bookmark} (follows : family.Follows marks)
    (stands : c.At marks.data mark) (member : Nat) :
    (family.put member c).Follows (marks.put member mark) where
  data_eq := follows.data_eq
  latest_eq := follows.latest_eq
  length_eq := by simp [Family.put, Bookmarks.put, follows.length_eq]
  stands := by
    intro other c' mark' atCursor atMark
    simp only [Family.put, Bookmarks.put] at atCursor atMark
    by_cases same : member = other
    · subst same
      obtain ⟨within, rfl⟩ := List.getElem?_eq_some_iff.mp atCursor
      obtain ⟨_, rfl⟩ := List.getElem?_eq_some_iff.mp atMark
      rw [List.getElem_set_self, List.getElem_set_self]
      exact stands
    · rw [List.getElem?_set_ne same] at atCursor atMark
      exact follows.stands atCursor atMark

theorem Follows.clone {c : Cursor} {mark : Bookmark} (follows : family.Follows marks)
    (stands : c.At marks.data mark) :
    { family with cursors := family.cursors ++ [c] }.Follows
      { marks with marks := marks.marks ++ [mark] } where
  data_eq := follows.data_eq
  latest_eq := follows.latest_eq
  length_eq := by simp [follows.length_eq]
  stands := by
    intro other c' mark' atCursor atMark
    rw [List.getElem?_append, follows.length_eq] at atCursor
    rw [List.getElem?_append] at atMark
    split at atCursor
    · rename_i within
      rw [if_pos within] at atMark
      exact follows.stands atCursor atMark
    · rename_i outside
      rw [if_neg outside] at atMark
      rw [List.getElem?_singleton] at atCursor atMark
      split at atCursor
      · rename_i last
        rw [if_pos last] at atMark
        cases atCursor
        cases atMark
        exact stands
      · cases atCursor

theorem Follows.ask {member : Nat} {c : Cursor} {mark : Bookmark} (follows : family.Follows marks)
    (stands : c.At marks.data mark) (move : Move) :
    (family.ask member c move).1 = (marks.ask member mark move).1 ∧
      (family.ask member c move).2.Follows (marks.ask member mark move).2 := by
  cases move with
  | next =>
    obtain ⟨shown, later⟩ := stands.nth 0
    have moved := follows.put later member
    exact ⟨congrArg Sight.run shown, ⟨moved.data_eq, shown, moved.length_eq, moved.stands⟩⟩
  | nth n =>
    obtain ⟨shown, later⟩ := stands.nth n
    have moved := follows.put later member
    exact ⟨congrArg Sight.run shown, ⟨moved.data_eq, shown, moved.length_eq, moved.stands⟩⟩
  | clone => exact ⟨congrArg Sight.member follows.length_eq, follows.clone stands⟩
  | restart minLength =>
    have fresh := follows.put (Cursor.at_start minLength marks.data) member
    rw [← follows.data_eq] at fresh
    exact ⟨rfl, fresh⟩
  | rest =>
    obtain ⟨shown, later⟩ := stands.rest
    exact ⟨congrArg Sight.runs shown, follows.put later member⟩
  | restWith suffix =>
    obtain ⟨shown, later⟩ := stands.rest
    exact ⟨congrArg (Sight.runs ∘ suffix.keep) shown, follows.put later member⟩
  | latestEndsWith ending =>
    exact ⟨by simp only [Family.ask, Bookmarks.ask, follows.latest_eq], follows⟩

theorem Follows.step (follows : family.Follows marks) (member : Nat) (move : Move) :
    (family.step member move).1 = (marks.step member move).1 ∧
      (family.step member move).2.Follows (marks.step member move).2 := by
  unfold Family.step Bookmarks.step
  cases atCursor : family.cursors[member]? with
  | none =>
    have outside : marks.marks[member]? = none := by
      rw [List.getElem?_eq_none_iff, ← follows.length_eq]
      exact List.getElem?_eq_none_iff.mp atCursor
    rw [outside]
    exact ⟨rfl, follows⟩
  | some c =>
    have within : member < marks.marks.length := by
      rw [← follows.length_eq]
      exact (List.getElem?_eq_some_iff.mp atCursor).1
    have atMark := List.getElem?_eq_getElem within
    rw [atMark]
    exact follows.ask (follows.stands atCursor atMark) move

theorem Follows.run (follows : family.Follows marks) (moves : List (Nat × Move)) :
    (family.run moves).1 = (marks.run moves).1 ∧ (family.run moves).2.Follows (marks.run moves).2 := by
  induction moves generalizing family marks with
  | nil => exact ⟨rfl, follows⟩
  | cons addressed moves ih =>
    obtain ⟨shown, later⟩ := follows.step addressed.1 addressed.2
    obtain ⟨sights, last⟩ := ih later
    exact ⟨congrArg₂ List.cons shown sights, last⟩

/-- Cursors over one stream read its candidates like marks moved along the list: each gives the
candidate at its place, a clone has a place of its own, a restart goes back to the beginning, and
the runs that a member has seen are those up to the last candidate it has passed, or all once it
has been told that there are no more. From then on every call tells the same and changes nothing. -/
theorem run_reads_candidates (minLength : Nat) (data : List UInt8) (moves : List (Nat × Move)) :
    let family := (start minLength data).run moves
    let marks := (Bookmarks.start minLength data).run moves
    family.1 = marks.1 ∧ family.2.cursors.length = marks.2.marks.length ∧
      (∀ member mark, marks.2.marks[member]? = some mark →
        (family.2.runsSeen member : ℕ∞) = mark.seen data) ∧
      ∀ c ∈ family.2.cursors, ∀ n, (c.nth n).1 = none →
        (c.nth n).2.runsSeen = {run : Run | run.Maximal data}.encard ∧
        ∀ k, (c.nth n).2.nth k = (none, (c.nth n).2) := by
  intro family marks
  obtain ⟨shown, follows⟩ := (follows_start minLength data).run moves
  have sameData : ((Bookmarks.start minLength data).run moves).2.data = data :=
    Bookmarks.data_run _ moves
  refine ⟨shown, follows.length_eq, ?_, ?_⟩
  · intro member mark atMark
    have within : member < family.2.cursors.length := by
      rw [follows.length_eq]
      exact (List.getElem?_eq_some_iff.mp atMark).1
    have atCursor := List.getElem?_eq_getElem within
    have stands := follows.stands atCursor atMark
    rw [sameData] at stands
    simpa [runsSeen, atCursor] using stands.seen_eq
  · intro c member n ended
    refine ⟨?_, Cursor.nth_of_unread (Cursor.unread_of_nth_none ended)⟩
    obtain ⟨number, within, rfl⟩ := List.getElem_of_mem member
    have atCursor := List.getElem?_eq_getElem within
    have atMark := List.getElem?_eq_getElem (follows.length_eq ▸ within)
    have stands := follows.stands atCursor atMark
    rw [sameData] at stands
    obtain ⟨given, later⟩ := stands.nth n
    rw [later.seen_eq, ← Bookmark.move_move, Bookmark.seen_move_of_none (given.symm.trans ended)]

end Family
end ResourceNames
