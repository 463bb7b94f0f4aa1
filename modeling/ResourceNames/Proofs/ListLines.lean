import ResourceNames.Proofs.EntryFrame
import ResourceNames.Proofs.ExtractionExact

namespace ResourceNames

namespace LiteralList

def newline : UInt8 := 0x0a

/-- The lines that a newline ends, and what is left behind the last of them. -/
def splitLines : List UInt8 → List (List UInt8) × List UInt8
  | [] => ([], [])
  | byte :: rest =>
    if byte = newline then ([] :: (splitLines rest).1, (splitLines rest).2)
    else
      match splitLines rest with
      | ([], tail) => ([], byte :: tail)
      | (line :: lines, tail) => ((byte :: line) :: lines, tail)

/-- A value on a line of its own, between quotes and with a comma. -/
def quoted (value : String) : List UInt8 :=
  Text.bytes "\"" ++ Text.bytes value ++ Text.bytes "\","

/-- What stands between the quotes of such a line. -/
def stripped (line : List UInt8) : List UInt8 :=
  (line.drop 1).take (line.length - 3)

theorem stripped_quoted (value : String) : stripped (quoted value) = Text.bytes value := by
  have opening : Text.bytes "\"" = [0x22] := by decide
  have closing : Text.bytes "\"," = [0x22, 0x2c] := by decide
  simp [stripped, quoted, opening, closing]

theorem splitLines_newline (rest : List UInt8) :
    splitLines (newline :: rest) = ([] :: (splitLines rest).1, (splitLines rest).2) := by
  rw [splitLines, if_pos rfl]

theorem splitLines_line {line : List UInt8} (whole : newline ∉ line) (rest : List UInt8) :
    splitLines (line ++ newline :: rest) = (line :: (splitLines rest).1, (splitLines rest).2) := by
  induction line with
  | nil => exact splitLines_newline rest
  | cons byte line ih =>
    obtain ⟨other, others⟩ : newline ≠ byte ∧ newline ∉ line := by simpa using whole
    rw [List.cons_append, splitLines, if_neg (Ne.symm other), ih others]

theorem length_splitLines (bytes : List UInt8) :
    (splitLines bytes).1.length = bytes.count newline := by
  induction bytes with
  | nil => rfl
  | cons byte rest ih =>
    by_cases ends : byte = newline
    · subst ends
      rw [splitLines_newline, List.length_cons, ih, List.count_cons_self]
    · rw [splitLines, if_neg ends, List.count_cons_of_ne ends]
      rcases split : splitLines rest with ⟨_ | ⟨line, lines⟩, tail⟩
      all_goals
        rw [split] at ih
        exact ih

/-- What is left behind the last line does not depend on what stands before a newline. -/
theorem splitLines_tail (front rest : List UInt8) :
    (splitLines (front ++ newline :: rest)).2 = (splitLines rest).2 := by
  induction front with
  | nil => rw [List.nil_append, splitLines_newline]
  | cons byte front ih =>
    have ended : 0 < (splitLines (front ++ newline :: rest)).1.length := by
      rw [length_splitLines]
      exact List.count_pos_iff.mpr (by simp)
    rw [List.cons_append, splitLines]
    split
    · exact ih
    · rcases split : splitLines (front ++ newline :: rest) with ⟨_ | ⟨line, lines⟩, tail⟩
      · rw [split] at ended
        exact absurd ended (Nat.lt_irrefl 0)
      · rw [split] at ih
        exact ih

theorem bytes_render_quoted (value : String) (values : List String) :
    Text.bytes (render (value :: values)) =
      quoted value ++ newline :: Text.bytes (render values) := by
  have closing : Text.bytes "\",\n" = Text.bytes "\"," ++ [newline] := by decide
  rw [bytes_render_cons, pieces, closing]
  simp [quoted]

/-- Nothing stands behind the last line of a list. -/
theorem splitLines_render_tail (values : List String) :
    (splitLines (Text.bytes (render values))).2 = [] := by
  induction values with
  | nil => rfl
  | cons value values ih => rw [bytes_render_quoted, splitLines_tail, ih]

theorem count_quoted (value : String) :
    (quoted value).count newline = (Text.bytes value).count newline := by
  have opening : (Text.bytes "\"").count newline = 0 := by decide
  have closing : (Text.bytes "\",").count newline = 0 := by decide
  rw [quoted, List.count_append, List.count_append, opening, closing, Nat.zero_add, Nat.add_zero]

/-- A list has one line for each value, and one more for each newline in a value. -/
theorem length_splitLines_render (values : List String) :
    (splitLines (Text.bytes (render values))).1.length =
      values.length + (values.map fun value => (Text.bytes value).count newline).sum := by
  rw [length_splitLines]
  induction values with
  | nil => rfl
  | cons value values ih =>
    rw [bytes_render_quoted, List.count_append, count_quoted, List.count_cons_self, ih,
      List.length_cons, List.map_cons, List.sum_cons]
    omega

/-- There are as many lines as values exactly if no value has a newline. -/
theorem length_splitLines_render_iff {values : List String} :
    (splitLines (Text.bytes (render values))).1.length = values.length ↔
      ∀ value ∈ values, newline ∉ Text.bytes value := by
  rw [length_splitLines_render, Nat.add_eq_left, List.sum_eq_zero_iff_forall_eq_nat,
    List.forall_mem_map]
  exact forall₂_congr fun value _ => List.count_eq_zero

/-- The values stand in a list line by line exactly if none of them has a newline. -/
theorem splitLines_render_iff {values : List String} :
    (splitLines (Text.bytes (render values))).1 = values.map quoted ↔
      ∀ value ∈ values, newline ∉ Text.bytes value := by
  constructor
  · intro same
    rw [← length_splitLines_render_iff, same, List.length_map]
  · intro whole
    induction values with
    | nil => rfl
    | cons value values ih =>
      obtain ⟨first, others⟩ := List.forall_mem_cons.mp whole
      have line : newline ∉ quoted value := by
        rw [← List.count_eq_zero, count_quoted]
        exact List.count_eq_zero.mpr first
      rw [bytes_render_quoted, splitLines_line line, ih others, List.map_cons]

theorem needsEscaping_eq_false_iff {value : String} :
    needsEscaping value = false ↔ '"' ∉ value.toList ∧ '\\' ∉ value.toList := by
  simp only [needsEscaping, String.contains_char_eq, Bool.or_eq_false_iff, decide_eq_false_iff_not]

end LiteralList

namespace Batch

open LiteralList

variable {rule : ScanRule} {entry : Entry} {fs after : FileSystem} {report : EntryReport}

/-- An entry that is done has the list of its input in its output. -/
theorem processEntry_listing (processed : processEntry rule entry fs = (.ok report, after))
    (writable : fs.Writable entry.output) :
    ∃ data, fs.read entry.input = .ok data ∧ report = reportOn rule entry data ∧
      after.read entry.output = .ok (rule.listing data) := by
  obtain ⟨data, -, -, read, rfl, -⟩ := processEntry_ok processed
  -- One entry is a batch with nothing before it and nothing behind it.
  have alone : processAll rule [entry] fs = (.ok ([] ++ [reportOn rule entry data]), after) := by
    simp only [processAll, processed, List.nil_append]
  obtain ⟨again, readAgain, -, listed⟩ := processAll_lists alone
    writable (fun _ member => absurd member List.not_mem_nil)
    (fun _ member => absurd member List.not_mem_nil)
  cases read.symm.trans readAgain
  exact ⟨data, read, rfl, listed⟩

theorem unescaped_eq_zero_iff {data : List UInt8} :
    (reportOn rule entry data).unescaped = 0 ↔
      ∀ name ∈ (rule.extract data).names, '"' ∉ name.toList ∧ '\\' ∉ name.toList := by
  rw [reportOn, List.countP_eq_zero]
  refine forall₂_congr fun name _ => ?_
  rw [Bool.not_eq_true, needsEscaping_eq_false_iff]

/-- A list that is written to a file is made of lines, one for each name and one more for each
newline in a name. Hence the names stand line by line, and read back by taking off the quotes,
exactly if no name has a newline. The names counted as unescaped are others, those that have a
quote or a backslash. -/
theorem list_line_by_line (processed : processEntry rule entry fs = (.ok report, after))
    (writable : fs.Writable entry.output) :
    ∃ data content, fs.read entry.input = .ok data ∧ after.read entry.output = .ok content ∧
      let names := (rule.extract data).names
      let lines := (splitLines content).1
      (splitLines content).2 = [] ∧ report.statistics.matched = names.length ∧
      lines.length =
        names.length + (names.map fun name => (Text.bytes name).count newline).sum ∧
      (lines = names.map quoted ↔ ∀ name ∈ names, newline ∉ Text.bytes name) ∧
      ((∀ name ∈ names, newline ∉ Text.bytes name) →
        lines.map stripped = names.map Text.bytes) ∧
      (report.unescaped = 0 ↔ ∀ name ∈ names, '"' ∉ name.toList ∧ '\\' ∉ name.toList) := by
  obtain ⟨data, read, rfl, listed⟩ := processEntry_listing processed writable
  refine ⟨data, rule.listing data, read, listed, splitLines_render_tail _, rfl,
    length_splitLines_render _, splitLines_render_iff, ?_, unescaped_eq_zero_iff⟩
  intro whole
  have standing : (splitLines (rule.listing data)).1 = (rule.extract data).names.map quoted :=
    splitLines_render_iff.mpr whole
  rw [standing, List.map_map]
  exact List.map_congr_left fun name _ => stripped_quoted name

def broken : FileSystem :=
  FileSystem.blank.set ["work", "a"] (.file (Text.bytes "A\nB.SEQ"))

theorem names_broken : (ScanRule.extract {} (Text.bytes "A\nB.SEQ")).names = ["A\nB.SEQ"] := by
  rw [ScanRule.names_of_printable (by decide +kernel) (by decide), if_pos (by decide)]
  decide

theorem read_broken : broken.read ⟨"a"⟩ = .ok (Text.bytes "A\nB.SEQ") := rfl

theorem create_broken :
    broken.create ⟨"a.t"⟩ = .ok (["work", "a.t"], broken.set ["work", "a.t"] (.file [])) := rfl

theorem processEntry_broken : ∃ after,
    processEntry {} ⟨⟨"a"⟩, ⟨"a.t"⟩⟩ broken =
      (.ok (reportOn {} ⟨⟨"a"⟩, ⟨"a.t"⟩⟩ (Text.bytes "A\nB.SEQ")), after) :=
  ⟨_, processEntry_of_create read_broken create_broken (List.cons_ne_nil _ _) rfl⟩

/-- One name makes two lines, and nothing is counted as unescaped. -/
theorem list_line_by_line_broken : ∃ report after content,
    processEntry {} ⟨⟨"a"⟩, ⟨"a.t"⟩⟩ broken = (.ok report, after) ∧
    broken.Writable ⟨"a.t"⟩ ∧ after.read ⟨"a.t"⟩ = .ok content ∧
    report.statistics.matched = 1 ∧ report.unescaped = 0 ∧ (splitLines content).1.length = 2 := by
  obtain ⟨after, processed⟩ := processEntry_broken
  have writable : broken.Writable ⟨"a.t"⟩ := ⟨_, create_broken⟩
  obtain ⟨data, content, read, listed, -, matched, counted, -, -, escapes⟩ :=
    list_line_by_line processed writable
  cases read_broken.symm.trans read
  rw [names_broken] at matched counted escapes
  refine ⟨_, after, content, processed, writable, listed, matched, escapes.mpr (by decide), ?_⟩
  rw [counted]
  decide

/-- With nothing counted as unescaped, the names stand in the list line by line. -/
def StandsLineByLine (rule : ScanRule) (entry : Entry) (fs : FileSystem) : Prop :=
  ∀ report after data content, processEntry rule entry fs = (.ok report, after) →
    fs.read entry.input = .ok data → after.read entry.output = .ok content →
    report.unescaped = 0 →
    splitLines content = ((rule.extract data).names.map quoted, [])

theorem not_standsLineByLine_broken : ¬ StandsLineByLine {} ⟨⟨"a"⟩, ⟨"a.t"⟩⟩ broken := by
  intro claimed
  obtain ⟨after, processed⟩ := processEntry_broken
  obtain ⟨data, read, -, listed⟩ := processEntry_listing processed ⟨_, create_broken⟩
  cases read_broken.symm.trans read
  have plain : (reportOn {} ⟨⟨"a"⟩, ⟨"a.t"⟩⟩ (Text.bytes "A\nB.SEQ")).unescaped = 0 := by
    rw [unescaped_eq_zero_iff, names_broken]
    decide
  have standing := claimed _ _ _ _ processed read listed plain
  rw [ScanRule.listing, names_broken] at standing
  exact absurd standing (by decide)

end Batch

end ResourceNames
