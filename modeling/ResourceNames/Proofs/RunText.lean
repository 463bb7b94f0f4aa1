import Mathlib.Data.String.Basic
import ResourceNames.Run
import ResourceNames.Text

namespace ResourceNames

theorem toNat_lt_of_isPrintable {byte : UInt8} (printable : isPrintable byte) :
    byte.toNat < 0x80 := by
  simp only [isPrintable, Bool.or_eq_true, Bool.and_eq_true, decide_eq_true_eq,
    UInt8.le_iff_toNat_le, UInt8.reduceToNat] at printable
  omega

theorem toNat_ofNat_byte (byte : UInt8) : (Char.ofNat byte.toNat).toNat = byte.toNat := by
  have small := byte.toNat_lt
  have valid : byte.toNat.isValidChar := .inl (by omega)
  rw [Char.ofNat, dif_pos valid]
  rfl

/-- Below `0x80` a character and the only byte of its encoding have the same code. -/
theorem utf8EncodeChar_of_isPrintable {byte : UInt8} (printable : isPrintable byte) :
    String.utf8EncodeChar (Char.ofNat byte.toNat) = [byte] := by
  have small := toNat_lt_of_isPrintable printable
  have value : (Char.ofNat byte.toNat).val.toNat = byte.toNat := toNat_ofNat_byte byte
  have size : (Char.ofNat byte.toNat).utf8Size = 1 := by
    rw [Char.utf8Size_eq_one_iff, UInt32.le_iff_toNat_le, value]
    exact Nat.le_of_lt_succ small
  have same : (Char.ofNat byte.toNat).val.toUInt8 = byte := by
    rw [← UInt8.toNat_inj, UInt32.toNat_toUInt8, value]
    omega
  rw [String.utf8EncodeChar_eq_singleton size, same]

theorem Run.bytes_text {run : Run} (printable : ∀ byte ∈ run.bytes, isPrintable byte) :
    Text.bytes run.text = run.bytes := by
  obtain ⟨offset, bytes⟩ := run
  rw [Text.bytes, text, String.toList_ofList, List.flatMap_map]
  induction bytes with
  | nil => rfl
  | cons byte bytes ih =>
    obtain ⟨first, others⟩ := List.forall_mem_cons.mp printable
    rw [List.flatMap_cons, utf8EncodeChar_of_isPrintable first, ih others]
    rfl

theorem Run.text_lt {a b : Run} (less : a.bytes < b.bytes) : a.text < b.text := by
  rw [String.lt_iff_toList_lt, text, text, String.toList_ofList, String.toList_ofList]
  refine List.map_lt (fun x y below => ?_) less
  rw [Char.lt_def, UInt32.lt_iff_toNat_lt]
  have values : (Char.ofNat x.toNat).toNat < (Char.ofNat y.toNat).toNat := by
    rw [toNat_ofNat_byte, toNat_ofNat_byte]
    exact UInt8.lt_iff_toNat_lt.mp below
  exact values

/-- Runs whose texts are in order have their bytes in order. -/
theorem Run.bytes_le {a b : Run} (ordered : a.text ≤ b.text) : a.bytes ≤ b.bytes := by
  by_contra reversed
  exact absurd (text_lt (List.not_le.mp reversed)) (not_lt.mpr ordered)

theorem Run.text_le_iff {a b : Run} : a.text ≤ b.text ↔ a.bytes ≤ b.bytes := by
  refine ⟨bytes_le, fun ordered => ?_⟩
  by_contra reversed
  have back := bytes_le (not_le.mp reversed).le
  have same : a.text = b.text := by rw [text, text, List.le_antisymm ordered back]
  exact reversed same.le

end ResourceNames
