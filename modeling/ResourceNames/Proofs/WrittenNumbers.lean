import Mathlib.Data.List.Basic
import ResourceNames.Toml.Moment
import ResourceNames.Toml.Number

namespace ResourceNames.Toml

variable {n : Nat} {digits rest behind : List Char}

theorem isDigit_of_mem_toDigits : ∀ c ∈ Nat.toDigits 10 n, isDigit c = true :=
  fun _ member => Nat.isDigit_of_mem_toDigits (by decide) (by decide) member

/-- A number begins with a digit, and with a zero only if it is nothing else. -/
theorem toDigits_cases (n : Nat) :
    Nat.toDigits 10 n = ['0'] ∨
      ∃ d ds, Nat.toDigits 10 n = d :: ds ∧ isDigit d = true ∧ d ≠ '0' := by
  induction n using Nat.strongRecOn with
  | ind n ih =>
    by_cases small : n < 10
    · rw [Nat.toDigits_of_lt_base small]
      match n, small with
      | 0, _ => exact .inl rfl
      | n + 1, small =>
        refine .inr ⟨_, _, rfl, Nat.isDigit_digitChar.trans (decide_eq_true small), fun zero => ?_⟩
        have value := congrArg Char.toNat zero
        rw [Nat.toNat_digitChar_of_lt_ten small] at value
        exact absurd value (by simp)
    · have large : 10 ≤ n := Nat.le_of_not_lt small
      rw [Nat.toDigits_of_base_le (by decide) large]
      rcases ih (n / 10) (by omega) with zero | ⟨d, ds, split, digit, notZero⟩
      · have value := congrArg (Nat.ofDigitChars 10 · 0) zero
        rw [Nat.ofDigitChars_ten_toDigits] at value
        have none : n / 10 = 0 := value
        omega
      · exact .inr ⟨d, _, by rw [split]; rfl, digit, notZero⟩

theorem natValue_toDigits (n : Nat) : natValue 10 (Nat.toDigits 10 n) = n := by
  have same : natValue 10 (Nat.toDigits 10 n) = Nat.ofDigitChars 10 (Nat.toDigits 10 n) 0 := by
    refine List.foldl_ext _ _ 0 fun value c member => ?_
    rw [digitValue, if_pos (isDigit_of_mem_toDigits c member)]
  rw [same, Nat.ofDigitChars_ten_toDigits]

theorem moreDigits_append (all : ∀ c ∈ digits, isDigit c = true) (rest : List Char) :
    moreDigits isDigit (digits ++ '\n' :: rest) = some (digits, '\n' :: rest) := by
  induction digits with
  | nil => rfl
  | cons d digits ih =>
    obtain ⟨first, others⟩ := List.forall_mem_cons.mp all
    have notLow : d ≠ '_' := by
      rintro rfl
      exact absurd first (by decide)
    rw [List.cons_append, moreDigits.eq_2 _ _ _ fun _ _ low => absurd low notLow, if_neg notLow,
      if_pos first, ih others]
    rfl

theorem decimalDigits_number (n : Nat) (rest : List Char) :
    decimalDigits (Nat.toDigits 10 n ++ '\n' :: rest) =
      some (Nat.toDigits 10 n, '\n' :: rest) := by
  rcases toDigits_cases n with zero | ⟨d, ds, split, digit, notZero⟩
  · rw [zero]
    rfl
  · have all := isDigit_of_mem_toDigits (n := n)
    rw [split] at all ⊢
    have others : ∀ c ∈ ds, isDigit c = true := (List.forall_mem_cons.mp all).2
    rw [List.cons_append, decimalDigits.eq_2 _ fun _ zero => notZero (List.cons.inj zero).1,
      Toml.digits, if_pos digit, moreDigits_append others]
    rfl

/-- Behind the digits of a number there is no mark that would make it part of a date or a time. -/
theorem expect?_of_fixedDigits {count low high value : Nat} (mark : Char)
    (all : ∀ c ∈ digits, isDigit c = true)
    (read : fixedDigits count low high (digits ++ '\n' :: rest) = some (value, behind))
    (notDigit : isDigit mark = false) (notFeed : mark ≠ '\n') : expect? mark behind = none := by
  unfold fixedDigits at read
  dsimp only at read
  split at read
  · rename_i taken
    obtain ⟨-, allTaken, -⟩ := taken
    cases read
    have within : count ≤ digits.length := by
      by_contra beyond
      have member : '\n' ∈ (digits ++ '\n' :: rest).take count := by
        rw [List.take_append, List.mem_append]
        refine .inr ?_
        obtain ⟨further, split⟩ : ∃ further, count - digits.length = further + 1 :=
          ⟨count - digits.length - 1, by omega⟩
        rw [split, List.take_succ_cons]
        exact List.mem_cons_self
      exact absurd (List.all_eq_true.mp allTaken '\n' member) (by decide)
    rw [List.drop_append_of_le_length within]
    rcases left : digits.drop count with _ | ⟨d, ds⟩
    · rw [List.nil_append, expect?, if_neg notFeed]
    · have member : d ∈ digits.drop count := by
        rw [left]
        exact List.mem_cons_self
      have digit := all d (List.mem_of_mem_drop member)
      rw [List.cons_append, expect?, if_neg]
      rintro rfl
      rw [digit] at notDigit
      cases notDigit
  · cases read

theorem moment?_number (n : Nat) (rest : List Char) :
    moment? (Nat.toDigits 10 n ++ '\n' :: rest) = none := by
  have all := isDigit_of_mem_toDigits (n := n)
  have noDate : date? (Nat.toDigits 10 n ++ '\n' :: rest) = none := by
    unfold date?
    rcases read : fixedDigits 4 0 9999 (Nat.toDigits 10 n ++ '\n' :: rest) with _ | ⟨year, behind⟩
    · rfl
    · simp [expect?_of_fixedDigits '-' all read (by decide) (by decide)]
  have noTime : time? (Nat.toDigits 10 n ++ '\n' :: rest) = none := by
    unfold time?
    rcases read : fixedDigits 2 0 23 (Nat.toDigits 10 n ++ '\n' :: rest) with _ | ⟨hour, behind⟩
    · rfl
    · simp [expect?_of_fixedDigits ':' all read (by decide) (by decide)]
  rw [moment?, noDate]
  exact noTime

theorem head_number {d : Char} {ds : List Char}
    (split : Nat.toDigits 10 n ++ '\n' :: rest = d :: ds) :
    isDigit d = true ∧ (d = '0' → ds = '\n' :: rest) := by
  rcases toDigits_cases n with zero | ⟨e, es, written, digit, notZero⟩
  · rw [zero] at split
    cases split
    exact ⟨by decide, fun _ => rfl⟩
  · rw [written] at split
    cases split
    exact ⟨digit, fun zero => absurd zero notZero⟩

theorem sign_number (n : Nat) (rest : List Char) :
    sign (Nat.toDigits 10 n ++ '\n' :: rest) = (false, Nat.toDigits 10 n ++ '\n' :: rest) := by
  rw [sign]
  · intro _ signed
    exact absurd (head_number signed).1 (by decide)
  · intro _ signed
    exact absurd (head_number signed).1 (by decide)

theorem float_number (n : Nat) (rest : List Char) :
    float (Nat.toDigits 10 n ++ '\n' :: rest) = none := by
  unfold float
  rw [sign_number]
  dsimp only
  split
  · exact absurd (head_number ‹_›).1 (by decide)
  · exact absurd (head_number ‹_›).1 (by decide)
  · rw [decimalDigits_number]
    rfl

theorem integer_number (inside : (n : Int) ≤ maxInteger) (rest : List Char) :
    integer (Nat.toDigits 10 n ++ '\n' :: rest) = some ((n : Int), '\n' :: rest) := by
  have ranged : inRange (n : Int) = some (n : Int) := by
    rw [inRange, if_pos ⟨Int.le_trans (by decide) (Int.natCast_nonneg n), inside⟩]
  have decimal (based : Char) (other : based ≠ '\n') (digits : List Char) :
      Nat.toDigits 10 n ++ '\n' :: rest ≠ '0' :: based :: digits :=
    fun same => other (List.cons.inj ((head_number same).2 rfl)).1
  unfold integer
  split
  · exact absurd ‹_› (decimal 'x' (by decide) _)
  · exact absurd ‹_› (decimal 'o' (by decide) _)
  · exact absurd ‹_› (decimal 'b' (by decide) _)
  · rw [sign_number]
    dsimp only
    rw [decimalDigits_number]
    simp [natValue_toDigits, ranged]

end ResourceNames.Toml
