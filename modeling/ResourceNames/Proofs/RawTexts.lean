import Mathlib.Data.String.Basic
import ResourceNames.Path

namespace ResourceNames

namespace Text

theorem bytes_ofList (chars : List Char) :
    bytes (String.ofList chars) = chars.flatMap String.utf8EncodeChar := by
  rw [bytes, String.toList_ofList]

/-- A character beyond `0x7F` has no byte below `0x80`. -/
theorem le_toNat_of_mem_utf8EncodeChar {c : Char} (beyond : 0x7F < c.toNat) {byte : UInt8}
    (member : byte ∈ String.utf8EncodeChar c) : 0x80 ≤ byte.toNat := by
  have large : ¬c.val.toNat ≤ 0x7F := Nat.not_le.mpr beyond
  unfold String.utf8EncodeChar at member
  simp only [if_neg large] at member
  split at member
  · simp only [List.mem_cons, List.not_mem_nil, or_false] at member
    rcases member with rfl | rfl <;> simp only [UInt8.toNat_ofNat'] <;> omega
  · split at member
    · simp only [List.mem_cons, List.not_mem_nil, or_false] at member
      rcases member with rfl | rfl | rfl <;> simp only [UInt8.toNat_ofNat'] <;> omega
    · simp only [List.mem_cons, List.not_mem_nil, or_false] at member
      rcases member with rfl | rfl | rfl | rfl <;> simp only [UInt8.toNat_ofNat'] <;> omega

theorem utf8EncodeChar_of_le {c : Char} (ascii : c.toNat ≤ 0x7F) :
    String.utf8EncodeChar c = [c.val.toUInt8] := by
  refine String.utf8EncodeChar_eq_singleton ?_
  rw [Char.utf8Size_eq_one_iff, UInt32.le_iff_toNat_le]
  exact ascii

/-- The byte of a character up to `0x7F` stands only where the character does. -/
theorem mem_bytes_iff {c : Char} (ascii : c.toNat ≤ 0x7F) {text : String} :
    c.val.toUInt8 ∈ bytes text ↔ c ∈ text.toList := by
  have code : c.val.toUInt8.toNat = c.toNat := by
    have value : c.val.toNat = c.toNat := rfl
    rw [UInt32.toNat_toUInt8, value]
    omega
  rw [bytes, List.mem_flatMap]
  constructor
  · rintro ⟨d, member, byte⟩
    by_cases beyond : 0x7F < d.toNat
    · have large := le_toNat_of_mem_utf8EncodeChar beyond byte
      omega
    · rw [utf8EncodeChar_of_le (Nat.le_of_not_lt beyond), List.mem_singleton] at byte
      have same : c.toNat = d.toNat := by
        have value : d.val.toNat = d.toNat := rfl
        rw [← code, byte, UInt32.toNat_toUInt8, value]
        omega
      rwa [Char.toNat_inj.mp same]
  · intro member
    exact ⟨c, member, by rw [utf8EncodeChar_of_le ascii]; exact List.mem_singleton_self _⟩

theorem toByteArray_bytes (text : String) : (bytes text).toByteArray = text.toByteArray := by
  rw [← String.utf8Encode_toList, List.utf8Encode, bytes]

theorem bytes_injective : Function.Injective bytes := fun a b same => by
  rw [← String.toByteArray_inj, ← toByteArray_bytes, same, toByteArray_bytes]

/-- Bytes are read as a text exactly if they are those of the text. -/
theorem ofBytes?_eq_some_iff {raw : RawText} {text : String} :
    ofBytes? raw = some text ↔ raw = bytes text := by
  have whole : ByteArray.mk raw.toArray = raw.toByteArray :=
    ByteArray.ext List.data_toByteArray.symm
  have back : raw = bytes text ↔ raw.toByteArray = text.toByteArray := by
    refine ⟨fun same => same ▸ toByteArray_bytes text, fun same => ?_⟩
    have lists := congrArg (fun array => array.data.toList)
      (same.trans (toByteArray_bytes text).symm)
    simpa only [List.data_toByteArray, List.toList_toArray] using lists
  rw [ofBytes?, whole, back, String.fromUTF8?]
  constructor
  · intro read
    split at read
    · cases read
      rfl
    · cases read
  · intro same
    have valid : raw.toByteArray.IsValidUTF8 := same ▸ text.isValidUTF8
    rw [dif_pos valid, Option.some.injEq, ← String.toByteArray_inj]
    exact same

theorem ofBytes?_bytes (text : String) : ofBytes? (bytes text) = some text :=
  ofBytes?_eq_some_iff.mpr rfl

variable {raw : RawText}

theorem first?_char (c : Char) (rest : RawText) :
    first? (String.utf8EncodeChar c ++ rest) = some c := by
  have short : (String.utf8EncodeChar c).length ≤ 4 := by
    rw [String.length_utf8EncodeChar]
    exact c.utf8Size_le_four
  rw [first?, List.take_append, List.take_of_length_le short, List.toByteArray_append]
  exact ByteArray.utf8DecodeChar?_utf8EncodeChar_append

/-- Raw text that begins with a character begins with its bytes. -/
theorem exists_of_first? {c : Char} (found : first? raw = some c) :
    ∃ rest, raw = String.utf8EncodeChar c ++ rest := by
  obtain ⟨behind, whole⟩ := ByteArray.exists_of_utf8DecodeChar?_eq_some found
  have lists := congrArg (fun array => array.data.toList) whole
  simp only [List.data_toByteArray, List.toList_toArray, ByteArray.data_append,
    Array.toList_append] at lists
  refine ⟨behind.data.toList ++ raw.drop 4, ?_⟩
  rw [← List.append_assoc, ← lists, List.take_append_drop]

theorem piecesBehind_eq (passed : Nat) (raw : RawText) :
    piecesBehind passed raw = pieces (raw.drop passed) := by
  induction raw generalizing passed with
  | nil =>
    rw [List.drop_nil]
    cases passed <;> rfl
  | cons first rest ih =>
    cases passed with
    | zero => rfl
    | succ passed => exact ih passed

theorem pieces_char (c : Char) (rest : RawText) :
    pieces (String.utf8EncodeChar c ++ rest) = .char c :: pieces rest := by
  have found := first?_char c rest
  have length := String.length_utf8EncodeChar c
  cases chars : String.utf8EncodeChar c with
  | nil => exact absurd (length.symm.trans (congrArg List.length chars)) c.utf8Size_pos.ne'
  | cons first others =>
    rw [chars] at found length
    have behind : c.utf8Size - 1 = others.length := by
      rw [← length]
      rfl
    rw [pieces, List.cons_append, piecesBehind, ← List.cons_append, found]
    dsimp only
    rw [behind, piecesBehind_eq, List.drop_left]

/-- Text consists of its characters. -/
theorem pieces_bytes (text : String) : pieces (bytes text) = text.toList.map .char := by
  unfold bytes
  induction text.toList with
  | nil => rfl
  | cons c rest ih => rw [List.flatMap_cons, pieces_char, ih, List.map_cons]

/-- Text is shown as it is. -/
theorem shown_bytes (text : String) : shown (bytes text) = text := by
  rw [shown, pieces_bytes, List.map_map]
  exact (congrArg String.ofList (List.map_id _)).trans String.ofList_toList

theorem brokenLength_pos (raw : RawText) : 0 < brokenLength raw := by
  unfold brokenLength
  repeat' split
  all_goals decide

theorem pieces_broken {first : UInt8} {rest : RawText} (found : first? (first :: rest) = none) :
    pieces (first :: rest) =
      .broken ((first :: rest).take (brokenLength (first :: rest))) ::
        pieces ((first :: rest).drop (brokenLength (first :: rest))) := by
  obtain ⟨count, more⟩ := Nat.exists_eq_succ_of_ne_zero (brokenLength_pos (first :: rest)).ne'
  rw [pieces, piecesBehind, found]
  dsimp only
  rw [piecesBehind_eq, more]
  rfl

/-- No byte is lost in the pieces, and none is added. -/
theorem flatMap_pieces (raw : RawText) : (pieces raw).flatMap Piece.bytes = raw := by
  induction length : raw.length using Nat.strongRecOn generalizing raw with
  | ind n ih =>
    subst length
    cases raw with
    | nil => rfl
    | cons first rest =>
      cases found : first? (first :: rest) with
      | some c =>
        obtain ⟨behind, whole⟩ := exists_of_first? found
        have shorter : behind.length < (first :: rest).length := by
          rw [whole, List.length_append, String.length_utf8EncodeChar]
          exact Nat.lt_add_of_pos_left c.utf8Size_pos
        rw [whole, pieces_char, List.flatMap_cons, ih _ shorter behind rfl]
        rfl
      | none =>
        have positive := brokenLength_pos (first :: rest)
        have shorter : ((first :: rest).drop (brokenLength (first :: rest))).length <
            (first :: rest).length := by
          rw [List.length_drop, List.length_cons]
          omega
        rw [pieces_broken found, List.flatMap_cons, ih _ shorter _ rfl]
        exact List.take_append_drop _ _

end Text

namespace Path

variable {path : Path} {text : String}

/-- A path that is text. -/
def IsText (path : Path) : Prop :=
  ∃ text, path = mk text

@[simp] theorem text_mk (text : String) : (mk text).text = text :=
  Text.shown_bytes text

theorem raw_injective : Function.Injective raw := fun ⟨_⟩ ⟨_⟩ => congrArg ofRaw

theorem text?_eq_some_iff : path.text? = some text ↔ path = mk text := by
  rw [text?, Text.ofBytes?_eq_some_iff]
  exact ⟨congrArg ofRaw, congrArg raw⟩

theorem isText_iff : path.IsText ↔ path.text?.isSome = true := by
  rw [Option.isSome_iff_exists]
  exact exists_congr fun _ => text?_eq_some_iff.symm

/-- A path that is text is what is shown of it, and no other path is. -/
theorem isText_iff_mk_text : path.IsText ↔ mk path.text = path := by
  constructor
  · rintro ⟨text, rfl⟩
    rw [text_mk]
  · exact fun same => ⟨_, same.symm⟩

instance : Decidable path.IsText :=
  decidable_of_iff _ isText_iff_mk_text.symm

end Path

end ResourceNames
