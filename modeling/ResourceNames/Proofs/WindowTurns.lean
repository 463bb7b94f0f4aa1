import ResourceNames.Proofs.MaximalRuns
import ResourceNames.Run.Window

namespace ResourceNames

theorem Cursor.next_of_printable {c : Cursor} (printable : ∀ byte ∈ c.unread, isPrintable byte) :
    c.next = (c.found, { c with unread := [], runsSeen := c.runsSeenHere }) := by
  rw [next, if_pos (List.dropWhile_eq_nil_iff.mpr printable)]

namespace Window

variable {front run back : List UInt8} {w : Window}

theorem slice?_eq (split : w.bytes = front ++ run ++ back) :
    w.slice? front.length (front.length + run.length) = some run := by
  have within : front.length ≤ front.length + run.length ∧
      front.length + run.length ≤ w.bytes.length := by
    rw [split, List.length_append, List.length_append]
    omega
  have taken : w.bytes.take (front.length + run.length) = front ++ run := by
    rw [split, List.take_left' List.length_append]
  rw [slice?, if_pos within, taken, List.drop_left]

theorem slice?_front (split : w.bytes = front ++ back) :
    w.slice? 0 front.length = some front := by
  have within : front.length ≤ w.bytes.length := by
    rw [split, List.length_append]
    exact Nat.le_add_right ..
  rw [slice?, if_pos ⟨Nat.zero_le _, within⟩, List.drop_zero, split, List.take_left]

theorem distance?_eq {first last : Nat} (le : first ≤ last) :
    distance? first last = some (last - first) :=
  if_pos le

namespace Reading

variable {r : Reading} {byte separator : UInt8}

/-- The cursor in front of the run that is being read. -/
def cursor (r : Reading) : Cursor :=
  ⟨r.window.minLength, r.begin, r.window.bytes.drop r.begin, r.window.runsSeen⟩

/-- In front of the run being read stands `front`, of the run `run` has been looked at, and `back`
has not. -/
structure Splits (r : Reading) (front run back : List UInt8) : Prop where
  bytes_eq : r.window.bytes = front ++ run ++ back
  begin_eq : r.begin = front.length
  position_eq : r.window.position = front.length + run.length
  printable : ∀ byte ∈ run, isPrintable byte

theorem Splits.look?_eq (splits : r.Splits front run (byte :: back)) :
    r.window.position < r.window.bytes.length ∧
      r.window.look? = some (byte, r.window.onward) := by
  have place : r.window.position = (front ++ run).length := by
    rw [splits.position_eq, List.length_append]
  have there : r.window.bytes[r.window.position]? = some byte := by
    rw [splits.bytes_eq, place, List.getElem?_append_right (Nat.le_refl _), Nat.sub_self]
    rfl
  refine ⟨(List.getElem?_eq_some_iff.mp there).1, ?_⟩
  rw [look?, there]
  rfl

theorem Splits.turn?_printable (splits : r.Splits front run (byte :: back))
    (printable : isPrintable byte) :
    r.turn? = some (.onward ⟨r.begin, r.window.onward⟩) := by
  obtain ⟨within, looked⟩ := splits.look?_eq
  rw [turn?, if_pos within, looked]
  simp [printable]

theorem Splits.turn?_separator (splits : r.Splits front run (separator :: back))
    (ends : isPrintable separator = false) :
    r.turn? =
      let counted := r.window.onward.count run.length
      some (if counted.reports run.length then .ended (some ⟨r.begin, run⟩) counted
        else .onward ⟨counted.position, counted⟩) := by
  obtain ⟨within, looked⟩ := splits.look?_eq
  have last : distance? 1 r.window.onward.position = some r.window.position :=
    distance?_eq (Nat.le_add_left ..)
  have length : distance? r.begin r.window.position = some run.length := by
    rw [splits.begin_eq, splits.position_eq, distance?_eq (Nat.le_add_right ..),
      Nat.add_sub_cancel_left]
  have bytes : (r.window.onward.count run.length).slice? r.begin (r.begin + run.length) =
      some run := by
    rw [splits.begin_eq]
    exact slice?_eq ((bytes_count ..).trans splits.bytes_eq)
  rw [turn?, if_pos within, looked]
  simp only [Option.bind_some, Option.bind_eq_bind, ends, last, length, bytes, Bool.false_eq_true,
    if_false]
  split <;> rfl

theorem Splits.turn?_end (splits : r.Splits front run []) :
    r.turn? =
      let counted := r.window.count run.length
      some (if run = [] then .ended none r.window
        else .ended (if counted.reports run.length then some ⟨r.begin, run⟩ else none)
          (counted.cutTo r.begin front)) := by
  have whole : r.window.bytes.length = front.length + run.length := by
    rw [splits.bytes_eq, List.append_nil, List.length_append]
  have atEnd : ¬r.window.position < r.window.bytes.length := by
    rw [whole, splits.position_eq]
    exact Nat.lt_irrefl _
  have length : distance? r.begin r.window.bytes.length = some run.length := by
    rw [splits.begin_eq, whole, distance?_eq (Nat.le_add_right ..), Nat.add_sub_cancel_left]
  rw [turn?, if_neg atEnd, length]
  by_cases empty : run = []
  · simp [empty]
  · have positive : 0 < run.length := List.length_pos_iff.mpr empty
    have counted : (r.window.count run.length).bytes = front ++ run ++ [] :=
      (bytes_count ..).trans splits.bytes_eq
    have bytes : (r.window.count run.length).slice? r.begin
        (r.window.count run.length).bytes.length = some run := by
      rw [bytes_count, whole, splits.begin_eq]
      exact slice?_eq counted
    have rest : (r.window.count run.length).slice? 0 r.begin = some front := by
      rw [splits.begin_eq]
      exact slice?_front (counted.trans (List.append_nil _))
    simp only [Option.bind_some, Option.bind_eq_bind, positive, if_true, empty, if_false, bytes,
      rest]
    rfl

theorem Splits.cursor_eq (splits : r.Splits front run back) :
    r.cursor = ⟨r.window.minLength, r.begin, run ++ back, r.window.runsSeen⟩ := by
  rw [cursor, splits.bytes_eq, splits.begin_eq, List.append_assoc, List.drop_left]

theorem cursor_count (w : Window) (length : Nat) :
    (w.count length).cursor =
      { w.cursor with runsSeen := if 0 < length then w.runsSeen + 1 else w.runsSeen } := rfl

/-- The run is found that has been looked at, if it is long enough. -/
theorem Splits.found_eq (splits : r.Splits front run back)
    (alone : (run ++ back).takeWhile isPrintable = run) :
    r.cursor.found = if r.window.reports run.length then some ⟨r.begin, run⟩ else none := by
  rw [splits.cursor_eq, Cursor.found, alone, reports]
  simp only [Bool.and_eq_true, decide_eq_true_eq]

theorem Splits.runsSeenHere_eq (splits : r.Splits front run back)
    (alone : (run ++ back).takeWhile isPrintable = run) :
    r.cursor.runsSeenHere = (r.window.count run.length).runsSeen := by
  rw [splits.cursor_eq, Cursor.runsSeenHere, alone, runsSeen_count]
  by_cases empty : run = []
  · simp [empty]
  · simp [empty, List.length_pos_iff.mpr empty]

theorem Splits.next_end (splits : r.Splits front run []) :
    r.cursor.next =
      (if r.window.reports run.length then some ⟨r.begin, run⟩ else none,
        ⟨r.window.minLength, r.begin, [], (r.window.count run.length).runsSeen⟩) := by
  have alone : (run ++ []).takeWhile isPrintable = run := by
    rw [List.append_nil]
    exact List.takeWhile_eq_self_iff.mpr splits.printable
  have printable : ∀ byte ∈ r.cursor.unread, isPrintable byte := by
    rw [splits.cursor_eq, List.append_nil]
    exact splits.printable
  rw [Cursor.next_of_printable printable, splits.found_eq alone, splits.runsSeenHere_eq alone]
  rfl

theorem Splits.next_separator (splits : r.Splits front run (separator :: back))
    (ends : isPrintable separator = false) :
    r.cursor.next =
      let counted := r.window.onward.count run.length
      if counted.reports run.length then (some ⟨r.begin, run⟩, counted.cursor)
      else counted.cursor.next := by
  have alone := takeWhile_separated back splits.printable ends
  have remaining := dropWhile_separated back splits.printable ends
  have unread : r.cursor.unread = run ++ separator :: back := by rw [splits.cursor_eq]
  have place : r.begin + run.length = r.window.position := by
    rw [splits.begin_eq, splits.position_eq]
  have behind : r.window.bytes.drop (r.window.position + 1) = back := by
    have split : r.window.bytes = (front ++ run ++ [separator]) ++ back := by
      simp [splits.bytes_eq]
    rw [split, splits.position_eq]
    exact List.drop_left' (by simp [Nat.add_assoc])
  have past : r.cursor.past = (r.window.onward.count run.length).cursor := by
    rw [Cursor.past, splits.runsSeenHere_eq alone, unread, alone, remaining, List.tail_cons,
      cursor_count, runsSeen_count]
    simp only [cursor, Window.cursor, onward, behind, place]
  have more : r.cursor.unread.dropWhile isPrintable ≠ [] := by
    rw [unread, remaining]
    exact List.cons_ne_nil _ _
  rw [Cursor.next, if_neg more, splits.found_eq alone, past]
  by_cases long : r.window.reports run.length
  · rw [if_pos long]
    exact (if_pos long).symm
  · rw [if_neg long]
    exact (if_neg long).symm

end Reading

end Window

end ResourceNames
