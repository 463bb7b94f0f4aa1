import Mathlib.Algebra.Order.Field.Basic
import Mathlib.Algebra.Order.Field.Rat
import Mathlib.Tactic.Linarith
import Mathlib.Tactic.Ring
import ResourceNames.ByteSize

namespace ResourceNames

namespace Binary64

variable {num num' den k : Nat}

/-- An integer and the fraction that is rounded to it are at most a half apart. -/
theorem roundDiv_near (num : Nat) (positive : 0 < den) :
    2 * (den * roundDiv num den) ≤ 2 * num + den ∧
      2 * num ≤ 2 * (den * roundDiv num den) + den := by
  have whole := Nat.div_add_mod num den
  have part := Nat.mod_lt num positive
  have next : den * (num / den + 1) = den * (num / den) + den := Nat.mul_succ _ _
  unfold roundDiv
  dsimp only
  split_ifs <;> omega

theorem roundDiv_mul (positive : 0 < den) (k : Nat) : roundDiv (k * den) den = k := by
  rw [roundDiv, Nat.mul_mod_left, Nat.mul_div_cancel k positive]
  exact if_pos positive

theorem roundDiv_mono (positive : 0 < den) (le : num ≤ num') :
    roundDiv num den ≤ roundDiv num' den := by
  by_contra reversed
  have above : den * (roundDiv num' den + 1) ≤ den * roundDiv num den :=
    Nat.mul_le_mul_left den (Nat.lt_of_not_le reversed)
  rw [Nat.mul_succ] at above
  -- The two are so close that the fractions they are rounded from must be the same.
  have upper := (roundDiv_near num positive).1
  have lower := (roundDiv_near num' positive).2
  have same : num = num' := by omega
  exact reversed (same ▸ Nat.le_refl _)

/-- Halfway between two numbers of which the lower is odd. -/
theorem roundDiv_of_tie (positive : 0 < den) (tie : 2 * num = 2 * (den * k) + den)
    (odd : k % 2 = 1) : roundDiv num den = k + 1 := by
  have whole := Nat.div_add_mod num den
  have quotient : num / den = k := by
    rw [Nat.mul_comm den k] at tie
    refine Nat.div_eq_of_lt_le ?_ ?_
    · omega
    · rw [Nat.succ_mul]
      omega
  have half : 2 * (num % den) = den := by
    rw [quotient] at whole
    omega
  rw [roundDiv, quotient, half]
  simp [odd]

/-- An even number is reached from halfway below it. -/
theorem even_le_roundDiv_iff (num : Nat) (positive : 0 < den) (even : k % 2 = 0) :
    k ≤ roundDiv num den ↔ 2 * (den * k) ≤ 2 * num + den := by
  obtain ⟨upper, lower⟩ := roundDiv_near num positive
  constructor
  · intro reached
    have scaled := Nat.mul_le_mul_left den reached
    omega
  · intro near
    by_contra missed
    have scaled : den * (roundDiv num den + 1) ≤ den * k :=
      Nat.mul_le_mul_left den (Nat.lt_of_not_le missed)
    rw [Nat.mul_succ] at scaled
    have next : k = roundDiv num den + 1 := by
      refine Nat.eq_of_mul_eq_mul_left positive ?_
      rw [Nat.mul_succ]
      omega
    have up : roundDiv num den = roundDiv num den + 1 :=
      roundDiv_of_tie positive (by omega) (by omega)
    omega

end Binary64

namespace ByteSize

variable {size other : ByteSize}

/-- Fifty-three bits are enough for every size below `2 ^ 53`. -/
theorem measured_of_lt (small : size.bytes < 2 ^ 53) : size.measured = size.bytes := by
  have bits : size.bytes.log2 - 52 = 0 := by
    by_cases none : size.bytes = 0
    · simp [none]
    · have top := (Nat.log2_lt none).mpr small
      omega
  have exact := Binary64.roundDiv_mul Nat.one_pos size.bytes
  rw [Nat.mul_one] at exact
  simp only [measured, bits, Nat.pow_eq, Nat.pow_zero, exact, Nat.mul_one]

/-- Beyond, what is rounded off does not reach the leading bit. -/
theorem le_measured_of_le (large : 2 ^ 53 ≤ size.bytes) : 2 ^ 52 ≤ size.measured := by
  have nonzero : size.bytes ≠ 0 := by
    rintro none
    simp [none] at large
  have top : 53 ≤ size.bytes.log2 := (Nat.le_log2 nonzero).mpr large
  have leading := Nat.log2_self_le nonzero
  have split : 2 ^ size.bytes.log2 = 2 ^ 52 * 2 ^ (size.bytes.log2 - 52) := by
    rw [← Nat.pow_add]
    congr 1
    omega
  have positive : 0 < 2 ^ (size.bytes.log2 - 52) := Nat.two_pow_pos _
  have kept := Binary64.roundDiv_mono positive (split ▸ leading)
  rw [Binary64.roundDiv_mul positive] at kept
  exact kept.trans (Nat.le_mul_of_pos_right _ positive)

namespace Scale

theorem unit_pos (scale : Scale) : 0 < scale.unit := by
  cases scale <;> decide

/-- Of two units the larger is at least 1024 times the smaller. -/
theorem unit_trichotomy (one two : Scale) :
    one = two ∨ one ≠ .gigabytes ∧ 1024 * one.unit ≤ two.unit ∨
      two ≠ .gigabytes ∧ 1024 * two.unit ≤ one.unit := by
  cases one <;> cases two <;> decide

theorem unit_le_of_ne_gigabytes {scale : Scale} (small : scale ≠ .gigabytes) :
    scale.unit ≤ 1024 ^ 2 := by
  revert small
  cases scale <;> decide

theorem eq_bytes_of_unit_lt {scale : Scale} (small : scale.unit < 1024) : scale = .bytes := by
  revert small
  cases scale <;> decide

end Scale

/-- The unit in which a size is shown is decided by the size that is measured. -/
theorem scale_cases (size : ByteSize) :
    size.scale = .bytes ∧ size.measured < 1024 ∨
      size.scale = .kilobytes ∧ 1024 ≤ size.measured ∧ size.measured < 1024 ^ 2 ∨
      size.scale = .megabytes ∧ 1024 ^ 2 ≤ size.measured ∧ size.measured < 1024 ^ 3 ∨
      size.scale = .gigabytes ∧ 1024 ^ 3 ≤ size.measured := by
  have kilobyte : Scale.kilobytes.unit = 1024 := rfl
  have megabyte : Scale.megabytes.unit = 1024 ^ 2 := rfl
  have gigabyte : Scale.gigabytes.unit = 1024 ^ 3 := rfl
  unfold scale
  rw [kilobyte, megabyte, gigabyte]
  split_ifs <;> simp only [true_and] <;> omega

theorem lt_next_unit (small : size.scale ≠ .gigabytes) :
    size.measured < 1024 * size.scale.unit := by
  rcases size.scale_cases with ⟨named, below⟩ | ⟨named, -, below⟩ | ⟨named, -, below⟩ | ⟨named, -⟩
  · rwa [named]
  · rwa [named]
  · rwa [named]
  · exact absurd named small

/-- Only nothing at all is less than its unit. -/
theorem unit_le_max (size : ByteSize) : size.scale.unit ≤ max 1 size.measured := by
  rcases size.scale_cases with ⟨named, -⟩ | ⟨named, above, -⟩ | ⟨named, above, -⟩ | ⟨named, above⟩
  · exact named ▸ Nat.le_max_left ..
  · exact named ▸ above.trans (Nat.le_max_right ..)
  · exact named ▸ above.trans (Nat.le_max_right ..)
  · exact named ▸ above.trans (Nat.le_max_right ..)

/-- No larger unit fits into the size. -/
theorem unit_le_of_le_measured {scale : Scale} (fits : scale.unit ≤ size.measured) :
    scale.unit ≤ size.scale.unit := by
  rcases scale.unit_trichotomy size.scale with rfl | ⟨-, smaller⟩ | ⟨small, larger⟩
  · exact Nat.le_refl _
  · omega
  · have below := lt_next_unit small
    omega

/-- In a unit below the last a size is measured exactly. -/
theorem measured_of_ne_gigabytes (small : size.scale ≠ .gigabytes) :
    size.measured = size.bytes := by
  have below := lt_next_unit small
  have unit := Scale.unit_le_of_ne_gigabytes small
  refine measured_of_lt ?_
  by_contra large
  have above := le_measured_of_le (Nat.le_of_not_lt large)
  omega

/-- No size below a gigabyte is measured as one. -/
theorem le_bytes_of_gigabytes (large : size.scale = .gigabytes) : 1024 ^ 3 ≤ size.bytes := by
  have unit : size.scale.unit = 1024 ^ 3 := large ▸ rfl
  have fits := size.unit_le_max
  by_contra below
  have exact : size.measured = size.bytes := measured_of_lt (by omega)
  omega

theorem tenths_le (small : size.scale ≠ .gigabytes) : size.tenths ≤ 10240 := by
  have below : 10 * size.measured ≤ 10240 * size.scale.unit := by
    have next := lt_next_unit small
    omega
  have rounded := Binary64.roundDiv_mono size.scale.unit_pos below
  rwa [Binary64.roundDiv_mul size.scale.unit_pos] at rounded

theorem le_tenths (fits : size.scale.unit ≤ size.measured) : 10 ≤ size.tenths := by
  have above := Binary64.roundDiv_mono size.scale.unit_pos (Nat.mul_le_mul_left 10 fits)
  rwa [Binary64.roundDiv_mul size.scale.unit_pos] at above

theorem tenths_of_bytes (counted : size.scale = .bytes) : size.tenths = 10 * size.bytes := by
  have exact : size.measured = size.bytes := measured_of_ne_gigabytes (by simp [counted])
  have whole := Binary64.roundDiv_mul Nat.one_pos (10 * size.bytes)
  rw [Nat.mul_one] at whole
  rw [tenths, counted, exact]
  exact whole

/-- What is shown of a larger size is no smaller, also in another unit. -/
theorem tenths_mul_unit_mono (le : size.measured ≤ other.measured) :
    size.tenths * size.scale.unit ≤ other.tenths * other.scale.unit := by
  have fits := size.unit_le_max
  have fits' := other.unit_le_max
  have positive := size.scale.unit_pos
  rcases size.scale.unit_trichotomy other.scale with same | ⟨small, beyond⟩ | ⟨small, back⟩
  · have rounded := Binary64.roundDiv_mono other.scale.unit_pos (Nat.mul_le_mul_left 10 le)
    rw [tenths, tenths, same]
    exact Nat.mul_le_mul_right _ rounded
  · have lower : 10 ≤ other.tenths := le_tenths (by omega)
    calc size.tenths * size.scale.unit
        ≤ 10240 * size.scale.unit := Nat.mul_le_mul_right _ (tenths_le small)
      _ ≤ 10 * other.scale.unit := by omega
      _ ≤ other.tenths * other.scale.unit := Nat.mul_le_mul_right _ lower
  · have below := lt_next_unit small
    have positive' := other.scale.unit_pos
    omega

/-- The last twentieth of a unit is rounded to a whole one of the next. -/
theorem tenths_lt_iff (small : size.scale ≠ .gigabytes) :
    size.tenths < 10240 ↔ 20 * size.bytes < 20479 * size.scale.unit := by
  have reached : 10240 ≤ Binary64.roundDiv (10 * size.measured) size.scale.unit ↔
      2 * (size.scale.unit * 10240) ≤ 2 * (10 * size.measured) + size.scale.unit :=
    Binary64.even_le_roundDiv_iff (10 * size.measured) size.scale.unit_pos (by decide)
  rw [← tenths, measured_of_ne_gigabytes small] at reached
  omega

/-- A number of units. -/
structure Quantity where
  number : ℚ
  scale : Scale
deriving DecidableEq

namespace Quantity

def bytes (quantity : Quantity) : ℚ :=
  quantity.number * quantity.scale.unit

/-- The number that digits stand for, with a point among them or without. -/
def number? (text : List Char) : Option ℚ :=
  let whole := text.takeWhile Char.isDigit
  match whole, text.dropWhile Char.isDigit with
  | [], _ => none
  | _, [] => some (Nat.ofDigitChars 10 whole 0)
  | _, '.' :: places =>
    if places.isEmpty || !places.all Char.isDigit then none
    else some (Nat.ofDigitChars 10 whole 0 + Nat.ofDigitChars 10 places 0 / 10 ^ places.length)
  | _, _ => none

def scale? (symbol : List Char) : Option Scale :=
  [Scale.bytes, .kilobytes, .megabytes, .gigabytes].find? fun scale =>
    scale.symbol.toList = symbol

/-- A number, a blank and the symbol of a unit. -/
def ofText? (text : String) : Option Quantity := do
  let number ← number? (text.toList.takeWhile (· ≠ ' '))
  let scale ← scale? (text.toList.dropWhile (· ≠ ' ')).tail
  return ⟨number, scale⟩

theorem takeWhile_digits (n : Nat) (rest : List Char)
    (ends : ∀ c ∈ rest.head?, c.isDigit = false) :
    (Nat.toDigits 10 n ++ rest).takeWhile Char.isDigit = Nat.toDigits 10 n ∧
      (Nat.toDigits 10 n ++ rest).dropWhile Char.isDigit = rest := by
  have all : ∀ c ∈ Nat.toDigits 10 n, c.isDigit = true := fun _ member =>
    Nat.isDigit_of_mem_toDigits (by decide) (by decide) member
  rw [List.takeWhile_append_of_pos all, List.dropWhile_append_of_pos all]
  cases rest with
  | nil => simp
  | cons c rest => simp [ends c rfl]

theorem number?_toDigits (n : Nat) : number? (Nat.toDigits 10 n) = some (n : ℚ) := by
  obtain ⟨whole, behind⟩ := takeWhile_digits n [] (by simp)
  rw [List.append_nil] at whole behind
  unfold number?
  rw [whole, behind]
  cases digits : Nat.toDigits 10 n with
  | nil => exact absurd digits Nat.toDigits_ne_nil
  | cons d ds => simp [← digits, Nat.ofDigitChars_ten_toDigits]

theorem number?_decimal (n : Nat) {tenth : Nat} (digit : tenth < 10) :
    number? (Nat.toDigits 10 n ++ '.' :: Nat.toDigits 10 tenth) = some ((n : ℚ) + tenth / 10) := by
  obtain ⟨whole, behind⟩ := takeWhile_digits n ('.' :: Nat.toDigits 10 tenth) (by simp)
  have single := Nat.toDigits_of_lt_base digit
  have place : (Nat.digitChar tenth).isDigit = true :=
    Nat.isDigit_digitChar.trans (decide_eq_true digit)
  have value := Nat.ofDigitChars_ten_toDigits (n := tenth)
  rw [single] at whole behind value
  unfold number?
  rw [single, whole, behind]
  cases digits : Nat.toDigits 10 n with
  | nil => exact absurd digits Nat.toDigits_ne_nil
  | cons d ds => simp [← digits, place, value, Nat.ofDigitChars_ten_toDigits]

theorem ofText?_eq_some {text : String} {number : List Char} {scale : Scale} {value : ℚ}
    (split : text.toList = number ++ ' ' :: scale.symbol.toList) (plain : ∀ c ∈ number, c ≠ ' ')
    (read : number? number = some value) : ofText? text = some ⟨value, scale⟩ := by
  have unblank : ∀ c ∈ number, decide (c ≠ ' ') = true := fun c member =>
    decide_eq_true (plain c member)
  have front : text.toList.takeWhile (· ≠ ' ') = number := by
    rw [split, List.takeWhile_append_of_pos unblank]
    simp
  have symbol : text.toList.dropWhile (· ≠ ' ') = ' ' :: scale.symbol.toList := by
    rw [split, List.dropWhile_append_of_pos unblank]
    simp
  have named : scale? scale.symbol.toList = some scale := by
    cases scale <;> decide
  rw [ofText?, front, symbol, read, List.tail_cons, named]
  rfl

end Quantity

theorem toList_toString (n : Nat) : (toString n).toList = Nat.toDigits 10 n :=
  String.toList_ofList

theorem ne_blank_of_mem_toDigits {n : Nat} {c : Char} (member : c ∈ Nat.toDigits 10 n) :
    c ≠ ' ' := by
  rintro rfl
  have digit := Nat.isDigit_of_mem_toDigits (by decide) (by decide) member
  exact absurd digit (by decide)

/-- What a size is shown as: tenths of its unit. -/
def shown (size : ByteSize) : Quantity :=
  ⟨size.tenths / 10, size.scale⟩

theorem toList_text_of_bytes (counted : size.scale = .bytes) :
    size.text.toList = Nat.toDigits 10 size.bytes ++ ' ' :: Scale.bytes.symbol.toList := by
  have plain : size.text = toString size.bytes ++ " B" := by
    unfold text
    rw [counted]
    rfl
  rw [plain, String.toList_append, toList_toString]
  rfl

theorem toList_text_of_ne_bytes (large : size.scale ≠ .bytes) :
    size.text.toList =
      (Nat.toDigits 10 (size.tenths / 10) ++ '.' :: Nat.toDigits 10 (size.tenths % 10)) ++
        ' ' :: size.scale.symbol.toList := by
  have pointed : size.text = toString (size.tenths / 10) ++ "." ++ toString (size.tenths % 10) ++
      " " ++ size.scale.symbol := by
    unfold text
    cases scale : size.scale with
    | bytes => exact absurd scale large
    | kilobytes => rfl
    | megabytes => rfl
    | gigabytes => rfl
  rw [pointed]
  simp only [String.toList_append, toList_toString]
  simp

theorem ofText?_text (size : ByteSize) : Quantity.ofText? size.text = some size.shown := by
  by_cases counted : size.scale = .bytes
  · have value : (size.bytes : ℚ) = size.tenths / 10 := by
      rw [tenths_of_bytes counted, Nat.cast_mul]
      exact (mul_div_cancel_left₀ _ (by norm_num)).symm
    have read := Quantity.number?_toDigits size.bytes
    rw [value] at read
    rw [shown, counted]
    exact Quantity.ofText?_eq_some (toList_text_of_bytes counted)
      (fun _ => ne_blank_of_mem_toDigits) read
  · have value : ((size.tenths / 10 : ℕ) : ℚ) + (size.tenths % 10 : ℕ) / 10 = size.tenths / 10 := by
      have parts : (10 * (size.tenths / 10) + size.tenths % 10 : ℕ) = (size.tenths : ℚ) :=
        congrArg Nat.cast (Nat.div_add_mod size.tenths 10)
      rw [Nat.cast_add, Nat.cast_mul] at parts
      push_cast at parts
      linarith
    have read := Quantity.number?_decimal (size.tenths / 10) (Nat.mod_lt size.tenths (by decide))
    rw [value] at read
    refine Quantity.ofText?_eq_some (toList_text_of_ne_bytes counted) ?_ read
    intro c member
    rcases List.mem_append.mp member with whole | place
    · exact ne_blank_of_mem_toDigits whole
    · rcases List.mem_cons.mp place with rfl | digit
      · decide
      · exact ne_blank_of_mem_toDigits digit

example : Quantity.ofText? (mk 1536).text = some ⟨3 / 2, .kilobytes⟩ := by decide +kernel

theorem bytes_shown (size : ByteSize) :
    size.shown.bytes = ((size.tenths * size.scale.unit : ℕ) : ℚ) / 10 := by
  rw [Quantity.bytes, shown, Nat.cast_mul]
  ring

/-- A tenth of a unit is as fine as sizes are shown. -/
theorem shown_near (size : ByteSize) :
    |size.shown.bytes - size.measured| ≤ (size.scale.unit : ℚ) / 20 := by
  obtain ⟨upper, lower⟩ :=
    Binary64.roundDiv_near (10 * size.measured) size.scale.unit_pos
  rw [← tenths] at upper lower
  have upper' : (2 * (size.scale.unit * size.tenths) : ℚ) ≤
      2 * (10 * size.measured) + size.scale.unit := by exact_mod_cast upper
  have lower' : (2 * (10 * size.measured) : ℚ) ≤
      2 * (size.scale.unit * size.tenths) + size.scale.unit := by exact_mod_cast lower
  rw [bytes_shown, Nat.cast_mul, abs_le]
  constructor <;> linarith

theorem shown_mono (le : size.measured ≤ other.measured) :
    size.shown.bytes ≤ other.shown.bytes := by
  rw [bytes_shown, bytes_shown]
  have scaled := tenths_mul_unit_mono le
  gcongr

theorem shown_of_lt (small : size.bytes < 1024) : size.shown = ⟨size.bytes, .bytes⟩ := by
  have exact : size.measured = size.bytes := measured_of_lt (by omega)
  have fits := size.unit_le_max
  have counted : size.scale = .bytes := Scale.eq_bytes_of_unit_lt (by omega)
  rw [shown, counted, tenths_of_bytes counted, Nat.cast_mul]
  congr 1
  exact mul_div_cancel_left₀ _ (by norm_num)

/-- A size below `2 ^ 53` is shown as a number of units that differs from it by no more than a
twentieth of the unit, and not at all below 1024. The unit is the largest that fits into the size,
if there is one. A larger size is shown as no less, in whatever units the two are shown. -/
theorem text_shows_size (representable : size.bytes < 2 ^ 53) :
    ∃ shown, Quantity.ofText? size.text = some shown ∧
      |shown.bytes - size.bytes| ≤ (shown.scale.unit : ℚ) / 20 ∧
      (size.bytes < 1024 → shown.bytes = size.bytes) ∧
      (1 ≤ size.bytes → shown.scale.unit ≤ size.bytes ∧
        ∀ scale : Scale, scale.unit ≤ size.bytes → scale.unit ≤ shown.scale.unit) ∧
      ∀ larger : ByteSize, size.bytes ≤ larger.bytes → larger.bytes < 2 ^ 53 →
        ∃ shown', Quantity.ofText? larger.text = some shown' ∧ shown.bytes ≤ shown'.bytes := by
  have exact := measured_of_lt representable
  refine ⟨size.shown, ofText?_text size, exact ▸ shown_near size, ?_, ?_, ?_⟩
  · intro small
    rw [shown_of_lt small, Quantity.bytes]
    exact mul_one _
  · intro some
    have fits := size.unit_le_max
    rw [exact, Nat.max_eq_right some] at fits
    exact ⟨fits, fun scale within => unit_le_of_le_measured (exact ▸ within)⟩
  · intro larger le representable'
    refine ⟨larger.shown, ofText?_text larger, shown_mono ?_⟩
    rwa [exact, measured_of_lt representable']

/-- The last size of which kilobytes are shown shows as much as the first in megabytes. -/
theorem text_shows_size_below_megabyte :
    (1048575 < 2 ^ 53) ∧ ∃ shown, Quantity.ofText? (mk 1048575).text = some shown ∧
      |shown.bytes - 1048575| ≤ (shown.scale.unit : ℚ) / 20 ∧ shown.scale.unit ≤ 1048575 ∧
      ∃ shown', Quantity.ofText? (mk 1048576).text = some shown' ∧ shown.bytes ≤ shown'.bytes := by
  have representable : (mk 1048575).bytes < 2 ^ 53 := by decide
  obtain ⟨shown, read, near, -, fits, mono⟩ := text_shows_size representable
  exact ⟨representable, shown, read, near, (fits (by decide)).1,
    mono (mk 1048576) (by decide) (by decide)⟩

/-- Whether a size is carried to the next unit where it would be shown as 1024 of its own. -/
def Carried (size : ByteSize) : Prop :=
  ∀ shown, Quantity.ofText? size.text = some shown → shown.scale ≠ .gigabytes →
    shown.number < 1024

theorem number_shown_lt_iff : size.shown.number < 1024 ↔ size.tenths < 10240 := by
  rw [shown, div_lt_iff₀ (by norm_num)]
  norm_cast

theorem carried_iff : size.Carried ↔ (size.scale ≠ .gigabytes → size.tenths < 10240) := by
  constructor
  · intro carried small
    exact number_shown_lt_iff.mp (carried size.shown (ofText?_text size) small)
  · intro below shown read small
    cases (ofText?_text size).symm.trans read
    exact number_shown_lt_iff.mpr (below small)

/-- A number in a unit other than the last is 1024 at most. It is less, unless the size lies in the
last twentieth of a unit before a megabyte or a gigabyte: the unit is chosen first, and the number
is rounded to 1024 afterwards. -/
theorem carried_before_last_twentieth (size : ByteSize) :
    (∃ shown, Quantity.ofText? size.text = some shown ∧
      (shown.scale ≠ .gigabytes → shown.number ≤ 1024)) ∧
    (size.Carried ↔
      ¬(20479 * 1024 ≤ 20 * size.bytes ∧ size.bytes < 1024 ^ 2 ∨
        20479 * 1024 ^ 2 ≤ 20 * size.bytes ∧ size.bytes < 1024 ^ 3)) := by
  refine ⟨⟨size.shown, ofText?_text size, fun small => ?_⟩, ?_⟩
  · have most : (size.tenths : ℚ) ≤ 10240 := by exact_mod_cast tenths_le small
    rw [shown, div_le_iff₀ (by norm_num)]
    exact most.trans (by norm_num)
  · rw [carried_iff]
    by_cases last : size.scale = .gigabytes
    · have large := le_bytes_of_gigabytes last
      simp only [last, ne_eq, not_true_eq_false, false_implies, true_iff]
      omega
    · have below := lt_next_unit last
      have fits := size.unit_le_max
      rw [measured_of_ne_gigabytes last] at below fits
      rw [tenths_lt_iff last]
      simp only [ne_eq, last, not_false_eq_true, true_implies]
      cases named : size.scale with
      | bytes =>
        have unit : Scale.bytes.unit = 1 := rfl
        rw [named] at below fits
        omega
      | kilobytes =>
        have unit : Scale.kilobytes.unit = 1024 := rfl
        rw [named] at below fits
        omega
      | megabytes =>
        have unit : Scale.megabytes.unit = 1024 ^ 2 := rfl
        rw [named] at below fits
        omega
      | gigabytes => exact absurd named last

theorem not_carried_below_megabyte : ¬∀ size : ByteSize, size.bytes < 2 ^ 64 → size.Carried := by
  intro carried
  have below := carried_iff.mp (carried (mk 1048575) (by decide)) (by decide +kernel)
  exact absurd below (by decide +kernel)

end ByteSize

end ResourceNames
