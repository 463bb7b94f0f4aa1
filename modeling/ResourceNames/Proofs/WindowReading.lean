import ResourceNames.Proofs.FamilyBookmarks
import ResourceNames.Proofs.WindowTurns

namespace ResourceNames

namespace Window

variable {data front run back : List UInt8} {w : Window}

/-- A window between two calls. While there is something left to be read, no place from the position
on has been looked at. -/
structure Sound (data : List UInt8) (w : Window) : Prop where
  held : w.bytes <+: data
  position_le : w.position ≤ w.bytes.length
  behind : ∀ byte ∈ (w.bytes.take w.position).getLast?, isPrintable byte = false
  seen_le : w.runsSeen ≤ w.position + 1
  descending : w.looked.Pairwise (· > ·)
  looked_lt : ∀ place ∈ w.looked, place < data.length
  seen_le_of_more : w.position < w.bytes.length → w.runsSeen ≤ w.position
  unlooked : w.position < w.bytes.length → ∀ place ∈ w.looked, place < w.position

theorem Sound.behind_separator (sound : w.Sound data) :
    w.position = 0 ∨ ∃ byte, w.bytes[w.position - 1]? = some byte ∧ isPrintable byte = false := by
  rcases Nat.eq_zero_or_pos w.position with start | positive
  · exact .inl start
  · have within : w.position - 1 < w.bytes.length := by
      have le := sound.position_le
      omega
    have last : (w.bytes.take w.position).getLast? = some w.bytes[w.position - 1] := by
      rw [List.getLast?_eq_getElem?, List.length_take_of_le sound.position_le,
        List.getElem?_take_of_lt (by omega), List.getElem?_eq_getElem within]
    exact .inr ⟨w.bytes[w.position - 1], List.getElem?_eq_getElem within, sound.behind _ last⟩

theorem sound_start (minLength : Nat) (data : List UInt8) : (start minLength data).Sound data where
  held := List.prefix_rfl
  position_le := Nat.zero_le _
  behind := by simp [start]
  seen_le := Nat.zero_le _
  descending := List.Pairwise.nil
  looked_lt := by simp [start]
  seen_le_of_more _ := Nat.le_refl _
  unlooked _ := by simp [start]

namespace Reading

variable {r : Reading} {byte separator : UInt8}

/-- A reading within a call. -/
structure Sound (data : List UInt8) (r : Reading) (front run back : List UInt8) : Prop
    extends r.Splits front run back where
  held : r.window.bytes <+: data
  behind : ∀ byte ∈ front.getLast?, isPrintable byte = false
  seen_le : r.window.runsSeen ≤ r.begin
  descending : r.window.looked.Pairwise (· > ·)
  unlooked : ∀ place ∈ r.window.looked, place < r.window.position

theorem unlooked_onward (unlooked : ∀ place ∈ w.looked, place < w.position) :
    ∀ place ∈ w.onward.looked, place < w.onward.position := by
  intro place member
  rcases List.mem_cons.mp member with rfl | earlier
  · exact Nat.lt_succ_self _
  · exact Nat.lt_succ_of_lt (unlooked place earlier)

theorem Sound.onward_printable (sound : r.Sound data front run (byte :: back))
    (printable : isPrintable byte) :
    (Reading.mk r.begin r.window.onward).Sound data front (run ++ [byte]) back where
  bytes_eq := by simp [onward, sound.bytes_eq]
  begin_eq := sound.begin_eq
  position_eq := by simp [onward, sound.position_eq, Nat.add_assoc]
  printable := by
    intro other member
    rcases List.mem_append.mp member with inRun | last
    · exact sound.printable other inRun
    · exact List.mem_singleton.mp last ▸ printable
  held := sound.held
  behind := sound.behind
  seen_le := sound.seen_le
  descending := List.pairwise_cons.mpr ⟨sound.unlooked, sound.descending⟩
  unlooked := unlooked_onward sound.unlooked

theorem Sound.onward_separator (sound : r.Sound data front run (separator :: back))
    (ends : isPrintable separator = false) :
    let counted := r.window.onward.count run.length
    (Reading.mk counted.position counted).Sound data (front ++ run ++ [separator]) [] back where
  bytes_eq := by simp [onward, sound.bytes_eq]
  begin_eq := by simp [onward, sound.position_eq, Nat.add_assoc]
  position_eq := by simp [onward, sound.position_eq, Nat.add_assoc]
  printable := by simp
  held := by
    rw [bytes_count]
    exact sound.held
  behind := by simpa using ends
  seen_le := by
    have seen : r.window.runsSeen ≤ r.window.position := by
      rw [sound.position_eq, ← sound.begin_eq]
      exact sound.seen_le.trans (Nat.le_add_right ..)
    rw [position_count, runsSeen_count]
    simp only [onward]
    split <;> omega
  descending := by
    rw [looked_count]
    exact List.pairwise_cons.mpr ⟨sound.unlooked, sound.descending⟩
  unlooked := by
    rw [looked_count, position_count]
    exact unlooked_onward sound.unlooked

theorem Sound.looked_lt (sound : r.Sound data front run back) :
    ∀ place ∈ r.window.looked, place < data.length := by
  intro place member
  have before := sound.unlooked place member
  have inside := sound.held.length_le
  rw [sound.bytes_eq, List.length_append, List.length_append] at inside
  rw [sound.position_eq] at before
  omega

theorem Sound.window (sound : r.Sound data front [] back) : r.window.Sound data where
  held := sound.held
  position_le := by
    rw [sound.position_eq, sound.bytes_eq]
    simp
  behind := by
    rw [sound.position_eq, sound.bytes_eq]
    simpa using sound.behind
  seen_le := by
    have seen := sound.seen_le
    rw [sound.begin_eq] at seen
    rw [sound.position_eq]
    exact seen.trans (Nat.le_add_right ..)
  descending := sound.descending
  looked_lt := sound.looked_lt
  seen_le_of_more _ := by
    rw [sound.position_eq, List.length_nil, Nat.add_zero, ← sound.begin_eq]
    exact sound.seen_le
  unlooked _ := sound.unlooked

/-- Behind the last run nothing is left to be read. -/
theorem Sound.cutTo (sound : r.Sound data front run []) :
    ((r.window.count run.length).cutTo r.begin front).Sound data where
  held := by
    refine List.IsPrefix.trans ?_ sound.held
    rw [sound.bytes_eq, List.append_assoc]
    exact List.prefix_append ..
  position_le := sound.begin_eq.le
  behind := by
    rw [position_cutTo, bytes_cutTo, sound.begin_eq, List.take_length]
    exact sound.behind
  seen_le := by
    rw [runsSeen_cutTo, position_cutTo, runsSeen_count]
    have seen := sound.seen_le
    split <;> omega
  descending := by
    rw [looked_cutTo, looked_count]
    exact sound.descending
  looked_lt := by
    rw [looked_cutTo, looked_count]
    exact sound.looked_lt
  seen_le_of_more more := by
    rw [position_cutTo, bytes_cutTo, sound.begin_eq] at more
    exact absurd more (Nat.lt_irrefl _)
  unlooked more := by
    rw [position_cutTo, bytes_cutTo, sound.begin_eq] at more
    exact absurd more (Nat.lt_irrefl _)

end Reading

theorem Sound.reading (sound : w.Sound data) (more : w.position < w.bytes.length) :
    (Reading.mk w.position w).Sound data (w.bytes.take w.position) []
      (w.bytes.drop w.position) where
  bytes_eq := by simp
  begin_eq := (List.length_take_of_le more.le).symm
  position_eq := by simp [List.length_take_of_le more.le]
  printable := by simp
  held := sound.held
  behind := sound.behind
  seen_le := sound.seen_le_of_more more
  descending := sound.descending
  unlooked := sound.unlooked more

/-- What a call leads to from a reading: an answer and a window behind it, which are those of the
cursor. The window has moved on, has been cut, or is at its end. -/
structure Reading.Answers (data : List UInt8) (r : Reading) (run? : Option Run) (after : Window) :
    Prop where
  read?_eq : r.read? = some (run?, after)
  next_eq : r.cursor.next = (run?, after.cursor)
  sound : after.Sound data
  remembered : r.window.looked <:+ after.looked
  progress : r.begin < after.position ∨ after.bytes.length < r.window.bytes.length ∨
    after.position = r.window.bytes.length

namespace Reading

variable {r later : Reading} {run? : Option Run} {after : Window}

theorem read?_of_onward (turned : r.turn? = some (.onward later)) : r.read? = later.read? := by
  rw [read?]
  split
  · rename_i unanswered
    cases turned.symm.trans unanswered
  · rename_i ended
    cases turned.symm.trans ended
  · rename_i onward
    cases turned.symm.trans onward
    rfl

theorem read?_of_ended (turned : r.turn? = some (.ended run? after)) :
    r.read? = some (run?, after) := by
  rw [read?]
  split
  · rename_i unanswered
    cases turned.symm.trans unanswered
  · rename_i ended
    cases turned.symm.trans ended
    rfl
  · rename_i onward
    cases turned.symm.trans onward

/-- A call goes on with what one more byte leads to. -/
theorem Answers.of_onward (answers : later.Answers data run? after)
    (turned : r.turn? = some (.onward later)) (same : r.cursor.next = later.cursor.next)
    (begin_le : r.begin ≤ later.begin) (bytes_eq : later.window.bytes = r.window.bytes)
    (looked_eq : later.window.looked = r.window.position :: r.window.looked) :
    r.Answers data run? after where
  read?_eq := (read?_of_onward turned).trans answers.read?_eq
  next_eq := same.trans answers.next_eq
  sound := answers.sound
  remembered := by
    have earlier := answers.remembered
    rw [looked_eq] at earlier
    exact (List.suffix_cons ..).trans earlier
  progress := by
    have moved := answers.progress
    rw [bytes_eq] at moved
    omega

theorem Sound.begin_le (sound : r.Sound data front run back) : r.begin ≤ r.window.position := by
  rw [sound.begin_eq, sound.position_eq]
  exact Nat.le_add_right ..

/-- With no byte left there is nothing, or a run to be cut off. -/
theorem Sound.answers_end (sound : r.Sound data front run []) :
    ∃ run? after, r.Answers data run? after := by
  have turned := sound.turn?_end
  have next := sound.next_end
  by_cases empty : run = []
  · subst empty
    have place : r.window.position = r.begin := by
      rw [sound.position_eq, sound.begin_eq, List.length_nil, Nat.add_zero]
    have atEnd : r.window.position = r.window.bytes.length := by
      simp [sound.position_eq, sound.bytes_eq]
    have cursor : r.window.cursor = ⟨r.window.minLength, r.begin, [], r.window.runsSeen⟩ := by
      rw [Window.cursor, List.drop_eq_nil_of_le atEnd.ge, place]
    refine ⟨none, r.window, read?_of_ended turned, ?_, sound.window, List.suffix_rfl,
      .inr (.inr atEnd)⟩
    rw [next, cursor]
    rfl
  · dsimp only at turned
    rw [if_neg empty, reports_count] at turned
    have cursor : ((r.window.count run.length).cutTo r.begin front).cursor =
        ⟨r.window.minLength, r.begin, [], (r.window.count run.length).runsSeen⟩ := by
      rw [Window.cursor, position_cutTo, bytes_cutTo, sound.begin_eq, List.drop_length]
      rfl
    have shorter : front.length < r.window.bytes.length := by
      simp [sound.bytes_eq, List.length_pos_iff.mpr empty]
    exact ⟨_, _, read?_of_ended turned, next.trans (by rw [cursor]), sound.cutTo,
      List.suffix_rfl, .inr (.inl shorter)⟩

/-- A call has an answer, since no access leaves its bounds. The induction is on the bytes that have
not been looked at. -/
theorem Sound.answers (sound : r.Sound data front run back) :
    ∃ run? after, r.Answers data run? after := by
  induction back generalizing r front run with
  | nil => exact sound.answers_end
  | cons byte back ih =>
    by_cases printable : isPrintable byte
    · obtain ⟨run?, after, answers⟩ := ih (sound.onward_printable printable)
      exact ⟨run?, after, answers.of_onward (sound.turn?_printable printable) rfl (Nat.le_refl _)
        rfl rfl⟩
    · have ends : isPrintable byte = false := Bool.eq_false_iff.mpr printable
      have turned := sound.turn?_separator ends
      have next := sound.next_separator ends
      have later := sound.onward_separator ends
      have behind : r.begin < (r.window.onward.count run.length).position := by
        rw [position_count]
        exact Nat.lt_succ_of_le sound.begin_le
      dsimp only at turned next later
      by_cases long : (r.window.onward.count run.length).reports run.length
      · rw [if_pos long] at turned next
        exact ⟨_, _, read?_of_ended turned, next, later.window,
          by rw [looked_count]; exact List.suffix_cons .., .inl behind⟩
      · rw [if_neg long] at turned next
        obtain ⟨run?, after, answers⟩ := ih later
        exact ⟨run?, after, answers.of_onward turned next behind.le (bytes_count ..)
          (looked_count ..)⟩

end Reading

/-- What a call of a window comes to. -/
structure Answers (data : List UInt8) (w : Window) (run? : Option Run) (after : Window) : Prop where
  next?_eq : w.next? = some (run?, after)
  next_eq : w.cursor.next = (run?, after.cursor)
  sound : after.Sound data
  remembered : w.looked <:+ after.looked
  progress : w.position < after.position ∨ after.bytes.length < w.bytes.length ∨
    run? = none ∧ after = w

/-- At the end nothing is looked at, and nothing changes. -/
theorem Sound.answers_atEnd (sound : w.Sound data) (atEnd : w.position = w.bytes.length) :
    w.Answers data none w where
  next?_eq := by
    have splits : (Reading.mk w.position w).Splits w.bytes [] [] :=
      ⟨by simp, atEnd, by simp [atEnd], by simp⟩
    exact Reading.read?_of_ended splits.turn?_end
  next_eq := Cursor.next_of_unread (List.drop_eq_nil_of_le atEnd.ge)
  sound := sound
  remembered := List.suffix_rfl
  progress := .inr (.inr ⟨rfl, rfl⟩)

theorem Sound.answers (sound : w.Sound data) : ∃ run? after, w.Answers data run? after := by
  rcases sound.position_le.eq_or_lt with atEnd | more
  · exact ⟨none, w, sound.answers_atEnd atEnd⟩
  · obtain ⟨run?, after, answers⟩ := (sound.reading more).answers
    refine ⟨run?, after, answers.read?_eq, answers.next_eq, answers.sound, answers.remembered, ?_⟩
    rcases answers.progress with moved | cut | atEnd
    · exact .inl moved
    · exact .inr (.inl cut)
    · exact .inl (more.trans_eq atEnd.symm)

theorem Sound.answers_of_call {run? : Option Run} {after : Window} (sound : w.Sound data)
    (call : w.next? = some (run?, after)) : w.Answers data run? after := by
  obtain ⟨_, _, answers⟩ := sound.answers
  cases call.symm.trans answers.next?_eq
  exact answers

/-- The windows that a window at the start of the data has become, by calls of one of them and by
clones of one. -/
inductive Reached (minLength : Nat) (data : List UInt8) : List Window → Prop
  | start : Reached minLength data [start minLength data]
  | next {windows : List Window} {member : Nat} {w after : Window} {run? : Option Run}
      (reached : Reached minLength data windows) (there : windows[member]? = some w)
      (call : w.next? = some (run?, after)) : Reached minLength data (windows.set member after)
  | clone {windows : List Window} {member : Nat} {w : Window}
      (reached : Reached minLength data windows) (there : windows[member]? = some w) :
      Reached minLength data (windows ++ [w])

variable {minLength : Nat} {windows : List Window}

theorem Reached.sound (reached : Reached minLength data windows) :
    ∀ w ∈ windows, w.Sound data := by
  induction reached with
  | start => exact fun w member => List.mem_singleton.mp member ▸ sound_start minLength data
  | @next windows _ w after run? reached there call ih =>
    intro other member
    rcases List.mem_or_eq_of_mem_set member with earlier | rfl
    · exact ih other earlier
    · exact ((ih w (List.mem_of_getElem? there)).answers_of_call call).sound
  | @clone windows _ w reached there ih =>
    intro other member
    rcases List.mem_append.mp member with earlier | last
    · exact ih other earlier
    · exact List.mem_singleton.mp last ▸ ih w (List.mem_of_getElem? there)

section Families

variable {family : Family} {member : Nat} {moves : List (Nat × Family.Move)}

theorem cursor_there (follows : family.cursors = windows.map cursor)
    (there : windows[member]? = some w) : family.cursors[member]? = some w.cursor := by
  rw [follows, List.getElem?_map, there, Option.map_some]

theorem cursors_step_next {run? : Option Run} {after : Window}
    (follows : family.cursors = windows.map cursor) (there : windows[member]? = some w)
    (answers : w.Answers data run? after) :
    (family.step member .next).2.cursors = (windows.set member after).map cursor := by
  rw [Family.step, cursor_there follows there]
  simp only [Family.ask, Family.put, answers.next_eq, follows, List.map_set]

theorem cursors_step_clone (follows : family.cursors = windows.map cursor)
    (there : windows[member]? = some w) :
    (family.step member .clone).2.cursors = (windows ++ [w]).map cursor := by
  rw [Family.step, cursor_there follows there]
  simp only [Family.ask, follows, List.map_append, List.map_cons, List.map_nil]

/-- A call or a clone in the family is one of the windows. -/
theorem Reached.step (member : Nat) {move : Family.Move} (only : move = .next ∨ move = .clone)
    (reached : Reached minLength data windows) (follows : family.cursors = windows.map cursor) :
    ∃ after, Reached minLength data after ∧
      (family.step member move).2.cursors = after.map cursor := by
  match there : windows[member]? with
  | none =>
    have nobody : family.cursors[member]? = none := by
      rw [follows, List.getElem?_map, there, Option.map_none]
    rw [Family.step, nobody]
    exact ⟨windows, reached, follows⟩
  | some w =>
    rcases only with rfl | rfl
    · obtain ⟨run?, after, answers⟩ := (reached.sound w (List.mem_of_getElem? there)).answers
      exact ⟨windows.set member after, reached.next there answers.next?_eq,
        cursors_step_next follows there answers⟩
    · exact ⟨windows ++ [w], reached.clone there, cursors_step_clone follows there⟩

/-- Calls and clones lead a family to no other cursors than those of such windows. -/
theorem Reached.of_moves (only : ∀ addressed ∈ moves, addressed.2 = .next ∨ addressed.2 = .clone)
    (reached : Reached minLength data windows) (follows : family.cursors = windows.map cursor) :
    ∃ after, Reached minLength data after ∧ (family.run moves).2.cursors = after.map cursor := by
  induction moves generalizing family windows with
  | nil => exact ⟨windows, reached, follows⟩
  | cons addressed moves ih =>
    obtain ⟨here, later⟩ := List.forall_mem_cons.mp only
    obtain ⟨between, stepped, followed⟩ := reached.step addressed.1 here follows
    exact ih later stepped followed

theorem run_append_one (family : Family) (moves : List (Nat × Family.Move)) (member : Nat)
    (move : Family.Move) :
    (family.run (moves ++ [(member, move)])).2 = ((family.run moves).2.step member move).2 := by
  induction moves generalizing family with
  | nil => rfl
  | cons addressed moves ih => exact ih _

/-- Such windows stand where calls and clones lead a family. -/
theorem Reached.exists_moves (reached : Reached minLength data windows) :
    ∃ moves : List (Nat × Family.Move),
      (∀ addressed ∈ moves, addressed.2 = .next ∨ addressed.2 = .clone) ∧
        ((Family.start minLength data).run moves).2.cursors = windows.map cursor := by
  induction reached with
  | start => exact ⟨[], by simp, rfl⟩
  | @next windows member w after run? reached there call ih =>
    obtain ⟨moves, only, follows⟩ := ih
    have answers := (reached.sound w (List.mem_of_getElem? there)).answers_of_call call
    refine ⟨moves ++ [(member, .next)], ?_, ?_⟩
    · exact List.forall_mem_append.mpr ⟨only, List.forall_mem_singleton.mpr (.inl rfl)⟩
    · rw [run_append_one]
      exact cursors_step_next follows there answers
  | @clone windows member w reached there ih =>
    obtain ⟨moves, only, follows⟩ := ih
    refine ⟨moves ++ [(member, .clone)], ?_, ?_⟩
    · exact List.forall_mem_append.mpr ⟨only, List.forall_mem_singleton.mpr (.inr rfl)⟩
    · rw [run_append_one]
      exact cursors_step_clone follows there

end Families

/-- Whatever calls and clones a window has come from, it holds the front of the data and stands
behind a separator, each place has been looked at once, and a call of it stays within its bounds. -/
theorem Reached.reads_safely (reached : Reached minLength data windows) (member : w ∈ windows) :
    w.bytes <+: data ∧ w.position ≤ w.bytes.length ∧
      (w.position = 0 ∨
        ∃ byte, w.bytes[w.position - 1]? = some byte ∧ isPrintable byte = false) ∧
      w.runsSeen ≤ w.position + 1 ∧ w.looked.Nodup ∧ (∀ place ∈ w.looked, place < data.length) ∧
      ∃ run? after, w.next? = some (run?, after) ∧ w.cursor.next = (run?, after.cursor) ∧
        w.looked <:+ after.looked ∧
        (w.position < after.position ∨ after.bytes.length < w.bytes.length ∨
          run? = none ∧ after = w) := by
  have sound := reached.sound w member
  obtain ⟨run?, after, answers⟩ := sound.answers
  exact ⟨sound.held, sound.position_le, sound.behind_separator, sound.seen_le,
    sound.descending.imp Nat.ne_of_gt, sound.looked_lt, run?, after, answers.next?_eq,
    answers.next_eq, answers.remembered, answers.progress⟩

/-- A window that has passed a run that is too short and reported the next one, and its clone. A
call of either passes what is left, which is too short as well, and cuts it off. -/
theorem Reached.reads_safely_clone :
    let data := Text.bytes "AB\x00LONG\x01XY"
    let w : Window := ⟨4, data, 8, 2, [7, 6, 5, 4, 3, 2, 1, 0]⟩
    let after : Window := ⟨4, Text.bytes "AB\x00LONG\x01", 8, 3, [9, 8, 7, 6, 5, 4, 3, 2, 1, 0]⟩
    Reached 4 data [w, w] ∧ w ∈ [w, w] ∧ w.next? = some (none, after) ∧
      w.cursor.next = (none, after.cursor) ∧ after.bytes.length < w.bytes.length := by
  intro data w after
  have reported : (Window.start 4 data).next? = some (some ⟨3, Text.bytes "LONG"⟩, w) := by
    decide +kernel
  have first : [Window.start 4 data][0]? = some (Window.start 4 data) := rfl
  have alone : Reached 4 data [w] := Reached.start.next first reported
  have same : [w][0]? = some w := rfl
  have reached : Reached 4 data [w, w] := alone.clone same
  have member : w ∈ [w, w] := List.mem_cons_self
  obtain ⟨-, -, -, -, -, -, run?, after', call, follows, -, moved⟩ := reached.reads_safely member
  have cut : w.next? = some (none, after) := by decide +kernel
  cases cut.symm.trans call
  refine ⟨reached, member, cut, follows, ?_⟩
  rcases moved with moved | shorter | ⟨-, unchanged⟩
  · exact absurd moved (by decide)
  · exact shorter
  · exact absurd unchanged (by decide)

end Window

end ResourceNames
