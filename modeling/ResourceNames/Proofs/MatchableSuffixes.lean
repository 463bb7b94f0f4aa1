import ResourceNames.Proofs.LeastLength
import ResourceNames.Proofs.RawTexts
import ResourceNames.Proofs.SettingsResolution

namespace ResourceNames

theorem isPrintable_iff {byte : UInt8} :
    isPrintable byte ↔
      0x20 ≤ byte.toNat ∧ byte.toNat ≤ 0x7E ∨ 0x09 ≤ byte.toNat ∧ byte.toNat ≤ 0x0D := by
  simp only [isPrintable, Bool.or_eq_true, Bool.and_eq_true, decide_eq_true_eq,
    UInt8.le_iff_toNat_le, UInt8.reduceToNat]

theorem printable_utf8EncodeChar_iff {c : Char} :
    (∀ byte ∈ String.utf8EncodeChar c, isPrintable byte) ↔
      0x20 ≤ c.toNat ∧ c.toNat ≤ 0x7E ∨ 0x09 ≤ c.toNat ∧ c.toNat ≤ 0x0D := by
  by_cases beyond : 0x7F < c.toNat
  · obtain ⟨byte, member⟩ := List.exists_mem_of_ne_nil _ (String.utf8EncodeChar_ne_nil (c := c))
    have large := Text.le_toNat_of_mem_utf8EncodeChar beyond member
    constructor
    · intro printable
      have small := toNat_lt_of_isPrintable (printable byte member)
      omega
    · omega
  · have same : c.val.toUInt8.toNat = c.toNat := by
      have code : c.val.toNat = c.toNat := rfl
      rw [UInt32.toNat_toUInt8, code]
      omega
    rw [Text.utf8EncodeChar_of_le (Nat.le_of_not_lt beyond), List.forall_mem_singleton,
      isPrintable_iff, same]

theorem Text.printable_bytes_iff {text : String} :
    (∀ byte ∈ Text.bytes text, isPrintable byte) ↔
      ∀ c ∈ text.toList,
        0x20 ≤ c.toNat ∧ c.toNat ≤ 0x7E ∨ 0x09 ≤ c.toNat ∧ c.toNat ≤ 0x0D := by
  simp only [Text.bytes, List.forall_mem_flatMap, printable_utf8EncodeChar_iff]

namespace ScanRule

variable {rule : ScanRule} {data : List UInt8}

/-- A name ends with the suffix and is the text of a run. -/
theorem printable_of_mem_names {name : String} (member : name ∈ (rule.extract data).names) :
    ∀ byte ∈ Text.bytes rule.suffix, isPrintable byte := by
  obtain ⟨run, kept, -⟩ := List.mem_map.mp ((rule.names_perm data).mem_iff.mp member)
  obtain ⟨maximal, -, ending⟩ := mem_keptRuns.mp kept
  exact fun byte inside => maximal.printable byte (ending.subset inside)

theorem names_eq_nil_of_unprintable
    (unprintable : ∃ byte ∈ Text.bytes rule.suffix, isPrintable byte = false) :
    (rule.extract data).names = [] := by
  obtain ⟨byte, inside, separates⟩ := unprintable
  refine List.eq_nil_iff_forall_not_mem.mpr fun name member => ?_
  exact absurd (printable_of_mem_names member byte inside) (Bool.eq_false_iff.mp separates)

/-- The suffix, and in front of it as many letters as it is too short. -/
def specimen (rule : ScanRule) : List UInt8 :=
  List.replicate (rule.leastLength - Text.size rule.suffix) 0x41 ++ Text.bytes rule.suffix

theorem length_specimen (rule : ScanRule) : rule.specimen.length = rule.leastLength := by
  have room : Text.size rule.suffix ≤ rule.leastLength := by
    rw [leastLength]
    omega
  rw [specimen, List.length_append, List.length_replicate]
  exact Nat.sub_add_cancel room

theorem names_specimen (printable : ∀ byte ∈ Text.bytes rule.suffix, isPrintable byte) :
    (rule.extract rule.specimen).names = [(⟨0, rule.specimen⟩ : Run).text] := by
  have all : ∀ byte ∈ rule.specimen, isPrintable byte := by
    intro byte member
    rcases List.mem_append.mp member with letter | ending
    · rw [List.eq_of_mem_replicate letter]
      rfl
    · exact printable byte ending
  have length := rule.length_specimen
  have positive : 1 ≤ rule.leastLength := Nat.le_max_left ..
  have nonempty : rule.specimen ≠ [] := List.length_pos_iff.mp (length ▸ positive)
  have long : max 1 rule.minLength ≤ rule.specimen.length := by
    rw [length, leastLength]
    omega
  rw [names_of_printable all nonempty, if_pos ⟨long, List.suffix_append ..⟩]

/-- The check of settings asks of a suffix only that it is not empty. -/
theorem check_of_suffix_ne_empty {settings : Settings} {fs : FileSystem}
    (least : rule.minLength ≠ 0) (nonempty : rule.suffix ≠ "") (fit : settings.check fs = .ok ()) :
    { settings with scan := rule }.check fs = .ok () := by
  rw [Settings.check_eq_ok_iff] at fit ⊢
  exact { fit with
    minLength := Nat.one_le_iff_ne_zero.mpr least
    suffix := nonempty }

/-- There is a stream with a match exactly if the suffix is printable, byte by byte or, what is the
same, character by character, and then one that is no longer than the least length asks for. With
any other suffix nothing is found in whatever stream, although settings stay fit with it. -/
theorem suffix_matchable_iff_printable (rule : ScanRule) :
    ((∃ data, (rule.extract data).names ≠ []) ↔
      ∀ byte ∈ Text.bytes rule.suffix, isPrintable byte) ∧
    ((∀ byte ∈ Text.bytes rule.suffix, isPrintable byte) →
      ∃ data, data.length = max 1 (max rule.minLength (Text.size rule.suffix)) ∧
        (rule.extract data).names ≠ []) ∧
    ((∀ byte ∈ Text.bytes rule.suffix, isPrintable byte) ↔
      ∀ c ∈ rule.suffix.toList,
        0x20 ≤ c.toNat ∧ c.toNat ≤ 0x7E ∨ 0x09 ≤ c.toNat ∧ c.toNat ≤ 0x0D) ∧
    ((∃ byte ∈ Text.bytes rule.suffix, isPrintable byte = false) →
      (∀ data, (rule.extract data).names = [] ∧ (rule.extract data).statistics.matched = 0) ∧
      (rule.minLength ≠ 0 → ∀ (settings : Settings) (fs : FileSystem),
        settings.check fs = .ok () → { settings with scan := rule }.check fs = .ok ())) := by
  have shortest : (∀ byte ∈ Text.bytes rule.suffix, isPrintable byte) →
      ∃ data, data.length = rule.leastLength ∧ (rule.extract data).names ≠ [] := by
    intro printable
    refine ⟨rule.specimen, rule.length_specimen, ?_⟩
    rw [names_specimen printable]
    exact List.cons_ne_nil _ _
  refine ⟨⟨?_, ?_⟩, shortest, Text.printable_bytes_iff, ?_⟩
  · rintro ⟨data, found⟩
    obtain ⟨name, member⟩ := List.exists_mem_of_ne_nil _ found
    exact printable_of_mem_names member
  · intro printable
    obtain ⟨data, -, found⟩ := shortest printable
    exact ⟨data, found⟩
  · intro unprintable
    have nothing : ∀ data, (rule.extract data).names = [] :=
      fun _ => names_eq_nil_of_unprintable unprintable
    refine ⟨fun data => ⟨nothing data, congrArg List.length (nothing data)⟩, ?_⟩
    intro least settings fs fit
    refine check_of_suffix_ne_empty least ?_ fit
    intro empty
    obtain ⟨byte, inside, -⟩ := unprintable
    simp [empty, Text.bytes] at inside

/-- An accented letter is two bytes, none of which is printable. -/
theorem suffix_matchable_iff_printable_accented :
    (∃ byte ∈ Text.bytes ".sé", isPrintable byte = false) ∧
      (∀ data, (extract ⟨4, ".sé"⟩ data).names = []) ∧
      { Settings.standard with scan := ⟨4, ".sé"⟩ }.check FileSystem.blank = .ok () ∧
      ∃ data, data.length = 12 ∧ (extract ⟨12, ".SEQ"⟩ data).names ≠ [] := by
  obtain ⟨-, -, -, refused⟩ := suffix_matchable_iff_printable ⟨4, ".sé"⟩
  obtain ⟨-, found, -⟩ := suffix_matchable_iff_printable ⟨12, ".SEQ"⟩
  have unprintable : ∃ byte ∈ Text.bytes ".sé", isPrintable byte = false := by decide
  have printable : ∀ byte ∈ Text.bytes ".SEQ", isPrintable byte := by decide +kernel
  have standard : Settings.standard.check FileSystem.blank = .ok () := by decide
  obtain ⟨nothing, fit⟩ := refused unprintable
  exact ⟨unprintable, fun data => (nothing data).1, fit (by decide) _ _ standard, found printable⟩

end ScanRule

end ResourceNames
