import Mathlib.Data.List.TakeWhile
import Mathlib.Data.Set.Card
import ResourceNames.Run

namespace ResourceNames

/-- Every stream is printable to its end, or its first printable bytes are ended by a separator. -/
@[elab_as_elim]
theorem printable_induction {motive : List UInt8 → Prop}
    (last : ∀ bytes, (∀ byte ∈ bytes, isPrintable byte) → motive bytes)
    (separated : ∀ bytes separator rest, (∀ byte ∈ bytes, isPrintable byte) →
      isPrintable separator = false → motive rest → motive (bytes ++ separator :: rest))
    (data : List UInt8) : motive data := by
  induction size : data.length using Nat.strong_induction_on generalizing data with
  | h n ih =>
    have printable : ∀ byte ∈ data.takeWhile isPrintable, isPrintable byte :=
      fun byte member => List.mem_takeWhile_imp member
    have split : data.takeWhile isPrintable ++ data.dropWhile isPrintable = data :=
      List.takeWhile_append_dropWhile
    cases remaining : data.dropWhile isPrintable with
    | nil =>
      rw [remaining, List.append_nil] at split
      exact split ▸ last _ printable
    | cons separator rest =>
      have ends : isPrintable separator = false := by
        have head := List.head?_dropWhile_not isPrintable data
        simpa only [remaining, List.head?_cons, Bool.not_eq_true] using head
      rw [remaining] at split
      have shorter : rest.length < n := by
        rw [← size, ← split]
        simp only [List.length_append, List.length_cons]
        omega
      exact split ▸ separated _ separator rest printable ends (ih _ shorter rest rfl)

section Separated

variable {bytes : List UInt8} {separator : UInt8}

theorem takeWhile_separated (rest : List UInt8) (printable : ∀ byte ∈ bytes, isPrintable byte)
    (ends : isPrintable separator = false) :
    (bytes ++ separator :: rest).takeWhile isPrintable = bytes := by
  rw [List.takeWhile_append_of_pos printable, List.takeWhile_cons_of_neg (by simp [ends]),
    List.append_nil]

theorem dropWhile_separated (rest : List UInt8) (printable : ∀ byte ∈ bytes, isPrintable byte)
    (ends : isPrintable separator = false) :
    (bytes ++ separator :: rest).dropWhile isPrintable = separator :: rest := by
  rw [List.dropWhile_append_of_pos printable, List.dropWhile_cons_of_neg (by simp [ends])]

end Separated

/-- Bytes as the run at a position, if there are any. -/
def Run.ofBytes (position : Nat) (bytes : List UInt8) : List Run :=
  if bytes = [] then [] else [⟨position, bytes⟩]

/-- The runs of a stream whose first byte stands at `position`, whatever their lengths. -/
def runsFrom (position : Nat) (data : List UInt8) : List Run :=
  let bytes := data.takeWhile isPrintable
  if data.dropWhile isPrintable = [] then Run.ofBytes position bytes
  else
    Run.ofBytes position bytes ++
      runsFrom (position + bytes.length + 1) (data.dropWhile isPrintable).tail
termination_by data.length
decreasing_by
  have shorter := List.length_dropWhile_le isPrintable data
  have positive := List.length_pos_iff.mpr ‹_›
  simp only [List.length_tail]
  omega

theorem runsFrom_printable {bytes : List UInt8} (position : Nat)
    (printable : ∀ byte ∈ bytes, isPrintable byte) :
    runsFrom position bytes = Run.ofBytes position bytes := by
  have ended := List.dropWhile_eq_nil_iff.mpr printable
  have whole := List.takeWhile_eq_self_iff.mpr printable
  rw [runsFrom, if_pos ended, whole]

theorem runsFrom_separated {bytes : List UInt8} {separator : UInt8} (position : Nat)
    (rest : List UInt8) (printable : ∀ byte ∈ bytes, isPrintable byte)
    (ends : isPrintable separator = false) :
    runsFrom position (bytes ++ separator :: rest) =
      Run.ofBytes position bytes ++ runsFrom (position + bytes.length + 1) rest := by
  have remaining := dropWhile_separated rest printable ends
  rw [runsFrom, takeWhile_separated rest printable ends, remaining,
    if_neg (List.cons_ne_nil _ _), List.tail_cons]

/-- The same bytes, `distance` places further on. -/
def Run.shift (distance : Nat) (run : Run) : Run :=
  ⟨distance + run.offset, run.bytes⟩

/-- A stream of printable bytes is one run, since nothing on either side could end it. -/
theorem Run.maximal_printable_iff {bytes : List UInt8} {run : Run}
    (printable : ∀ byte ∈ bytes, isPrintable byte) :
    run.Maximal bytes ↔ bytes ≠ [] ∧ run = ⟨0, bytes⟩ := by
  constructor
  · rintro ⟨front, back, whole, atOffset, nonempty, _, opens, closes⟩
    have noFront : front = [] := by
      cases edge : front.getLast? with
      | none => exact List.getLast?_eq_none_iff.mp edge
      | some byte =>
        have inside : byte ∈ bytes := by simp [whole, List.mem_of_getLast? edge]
        exact absurd (printable byte inside) (by simp [opens byte edge])
    have noBack : back = [] := by
      cases edge : back.head? with
      | none => exact List.head?_eq_none_iff.mp edge
      | some byte =>
        have inside : byte ∈ bytes := by simp [whole, List.mem_of_head? edge]
        exact absurd (printable byte inside) (by simp [closes byte edge])
    subst noFront noBack
    rw [List.nil_append, List.append_nil] at whole
    rw [List.length_nil] at atOffset
    rw [whole, atOffset]
    exact ⟨nonempty, rfl⟩
  · rintro ⟨nonempty, rfl⟩
    exact ⟨[], [], by simp, rfl, nonempty, printable, by simp, by simp⟩

theorem Run.Maximal.printable {data : List UInt8} {run : Run} (maximal : run.Maximal data) :
    ∀ byte ∈ run.bytes, isPrintable byte := by
  obtain ⟨_, _, _, _, _, printable, _⟩ := maximal
  exact printable

theorem Run.Maximal.before_separator {front : List UInt8} {separator : UInt8} {run : Run}
    (maximal : run.Maximal front) (ends : isPrintable separator = false) (back : List UInt8) :
    run.Maximal (front ++ separator :: back) := by
  obtain ⟨before, after, rfl, atOffset, nonempty, printable, opens, closes⟩ := maximal
  refine ⟨before, after ++ separator :: back, by simp, atOffset, nonempty, printable, opens, ?_⟩
  cases after with
  | nil => simpa using ends
  | cons next rest => simpa using closes

theorem Run.Maximal.behind_separator {back : List UInt8} {separator : UInt8} {run : Run}
    (maximal : run.Maximal back) (ends : isPrintable separator = false) (front : List UInt8) :
    (run.shift (front.length + 1)).Maximal (front ++ separator :: back) := by
  obtain ⟨before, after, rfl, atOffset, nonempty, printable, opens, closes⟩ := maximal
  refine ⟨front ++ separator :: before, after, by simp [shift], ?_, nonempty, printable, ?_, closes⟩
  · simp only [shift, List.length_append, List.length_cons, ← atOffset]
    omega
  · cases before with
    | nil => simpa using ends
    | cons first rest => simpa [List.getLast?_append, List.getLast?_cons_cons] using opens

/-- A separator parts the maximal runs in front of it from those behind it. -/
theorem Run.maximal_separated_iff {front back : List UInt8} {separator : UInt8} {run : Run}
    (ends : isPrintable separator = false) :
    run.Maximal (front ++ separator :: back) ↔
      run.Maximal front ∨
        ∃ later : Run, later.Maximal back ∧ run = later.shift (front.length + 1) := by
  constructor
  · rintro ⟨before, after, whole, atOffset, nonempty, printable, opens, closes⟩
    -- A run cannot hold the separator, so it lies wholly on one side of it.
    have absent : separator ∉ run.bytes := fun member => by simp [printable _ member] at ends
    rw [List.append_assoc, List.append_eq_append_iff] at whole
    rcases whole with ⟨middle, rfl, backEq⟩ | ⟨middle, rfl, afterEq⟩
    · cases middle with
      | nil =>
        obtain ⟨first, bytes, bytesEq⟩ := List.exists_cons_of_ne_nil nonempty
        rw [bytesEq, List.nil_append, List.cons_append, List.cons.injEq] at backEq
        exact absurd (by simp [bytesEq, backEq.1]) absent
      | cons first middle =>
        rw [List.cons_append, List.cons.injEq] at backEq
        refine .inr ⟨⟨middle.length, run.bytes⟩, ⟨middle, after, by simp [backEq.2], rfl, nonempty,
          printable, ?_, closes⟩, ?_⟩
        · intro byte edge
          exact opens byte (by simp [List.getLast?_cons, Option.mem_def.mp edge])
        · have place : run.offset = front.length + 1 + middle.length := by
            rw [← atOffset, List.length_append, List.length_cons]
            omega
          rw [shift, ← place]
    · rcases List.append_eq_append_iff.mp afterEq with ⟨rest, rfl, rfl⟩ | ⟨rest, bytesEq, restEq⟩
      · refine .inl ⟨before, rest, by simp, atOffset, nonempty, printable, opens, ?_⟩
        intro byte edge
        exact closes byte (by simp [Option.mem_def.mp edge])
      · cases rest with
        | nil =>
          rw [List.append_nil] at bytesEq
          exact .inl ⟨before, [], by simp [bytesEq], atOffset, nonempty, printable, opens, by simp⟩
        | cons first rest =>
          rw [List.cons_append, List.cons.injEq] at restEq
          exact absurd (by simp [bytesEq, restEq.1]) absent
  · rintro (earlier | ⟨later, maximal, rfl⟩)
    · exact earlier.before_separator ends back
    · exact maximal.behind_separator ends front

theorem Run.mem_ofBytes {position : Nat} {bytes : List UInt8} {run : Run} :
    run ∈ Run.ofBytes position bytes ↔ bytes ≠ [] ∧ run = ⟨position, bytes⟩ := by
  unfold ofBytes
  split
  · simp [*]
  · simp [*]

theorem mem_runsFrom {data : List UInt8} {position : Nat} {run : Run} :
    run ∈ runsFrom position data ↔
      ∃ found : Run, found.Maximal data ∧ run = found.shift position := by
  induction data using printable_induction generalizing position with
  | last bytes printable =>
    simp [runsFrom_printable position printable, Run.mem_ofBytes,
      Run.maximal_printable_iff printable, Run.shift, and_assoc]
  | separated bytes separator rest printable ends ih =>
    simp only [runsFrom_separated position rest printable ends, List.mem_append, Run.mem_ofBytes,
      ih, Run.maximal_separated_iff ends, Run.maximal_printable_iff printable]
    constructor
    · rintro (⟨nonempty, rfl⟩ | ⟨found, maximal, rfl⟩)
      · exact ⟨⟨0, bytes⟩, .inl ⟨nonempty, rfl⟩, rfl⟩
      · exact ⟨_, .inr ⟨found, maximal, rfl⟩, by simp only [Run.shift, Nat.add_assoc]⟩
    · rintro ⟨_, ⟨nonempty, rfl⟩ | ⟨found, maximal, rfl⟩, rfl⟩
      · exact .inl ⟨nonempty, rfl⟩
      · exact .inr ⟨found, maximal, by simp only [Run.shift, Nat.add_assoc]⟩

/-- Between two runs stands at least the byte that ends the first. -/
theorem runsFrom_spaced (position : Nat) (data : List UInt8) :
    (runsFrom position data).Pairwise fun a b => a.offset + a.bytes.length < b.offset := by
  induction data using printable_induction generalizing position with
  | last bytes printable =>
    rw [runsFrom_printable position printable, Run.ofBytes]
    split <;> simp
  | separated bytes separator rest printable ends ih =>
    rw [runsFrom_separated position rest printable ends, List.pairwise_append]
    refine ⟨?_, ih _, ?_⟩
    · rw [Run.ofBytes]
      split <;> simp
    · intro a first b later
      obtain ⟨_, rfl⟩ := Run.mem_ofBytes.mp first
      obtain ⟨found, _, rfl⟩ := mem_runsFrom.mp later
      simp only [Run.shift]
      omega

/-- All maximal runs of a stream, in the order in which they stand there. -/
def maximalRuns (data : List UInt8) : List Run :=
  runsFrom 0 data

theorem mem_maximalRuns {data : List UInt8} {run : Run} :
    run ∈ maximalRuns data ↔ run.Maximal data := by
  simp [maximalRuns, mem_runsFrom, Run.shift]

theorem maximalRuns_ascending (data : List UInt8) :
    (maximalRuns data).Pairwise fun a b => a.offset < b.offset :=
  (runsFrom_spaced 0 data).imp fun spaced => Nat.lt_of_le_of_lt (Nat.le_add_right _ _) spaced

theorem maximalRuns_nodup (data : List UInt8) : (maximalRuns data).Nodup :=
  (maximalRuns_ascending data).imp fun ascending same => by simp [same] at ascending

/-- Counting in the list counts the maximal runs themselves, each of which it holds once. -/
theorem encard_maximal_filter (data : List UInt8) (chosen : Run → Bool) :
    {run : Run | run.Maximal data ∧ chosen run}.encard =
      ((maximalRuns data).filter chosen).length := by
  have distinct := (maximalRuns_nodup data).filter chosen
  have same : {run : Run | run.Maximal data ∧ chosen run} =
      ((maximalRuns data).filter chosen).toFinset := by
    ext run
    simp [mem_maximalRuns]
  rw [same, Set.encard_coe_eq_coe_finsetCard, List.toFinset_card_of_nodup distinct]

theorem encard_maximal (data : List UInt8) :
    {run : Run | run.Maximal data}.encard = (maximalRuns data).length := by
  simpa using encard_maximal_filter data fun _ => true

/-- Up to a run stand that run and those listed in front of it. -/
theorem encard_maximal_upto {data : List UInt8} {earlier later : List Run} {run : Run}
    (split : maximalRuns data = earlier ++ run :: later) :
    {other : Run | other.Maximal data ∧ other.offset ≤ run.offset}.encard =
      (earlier.length + 1 : Nat) := by
  have ascending := maximalRuns_ascending data
  rw [split, List.pairwise_append, List.pairwise_cons] at ascending
  obtain ⟨_, ⟨above, _⟩, below⟩ := ascending
  have before : earlier.filter (fun other => decide (other.offset ≤ run.offset)) = earlier :=
    List.filter_eq_self.mpr fun other member =>
      decide_eq_true (below other member run List.mem_cons_self).le
  have behind : later.filter (fun other => decide (other.offset ≤ run.offset)) = [] :=
    List.filter_eq_nil_iff.mpr fun other member => by simpa using above other member
  have count := encard_maximal_filter data fun other => decide (other.offset ≤ run.offset)
  simpa [split, before, behind] using count

end ResourceNames
