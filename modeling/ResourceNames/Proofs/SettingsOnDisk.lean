import ResourceNames.Proofs.FilePlaces
import ResourceNames.Proofs.SettingsDocument
import ResourceNames.Settings.Store

namespace ResourceNames

namespace Toml

theorem replicate_infix_replicate {c : Char} {count row : Nat} :
    List.replicate count c <:+: List.replicate row c ↔ count ≤ row := by
  constructor
  · intro within
    simpa using within.length_le
  · intro fits
    refine ⟨[], List.replicate (row - count) c, ?_⟩
    rw [List.nil_append, ← List.replicate_add, Nat.add_sub_cancel' fits]

/-- A row of one character lies before another character or behind it. -/
theorem replicate_infix_split {c d : Char} (other : d ≠ c) {count : Nat}
    {before behind : List Char} :
    List.replicate (count + 1) c <:+: before ++ d :: behind ↔
      List.replicate (count + 1) c <:+: before ∨ List.replicate (count + 1) c <:+: behind := by
  have apart (front : List Char) {back : List Char} :
      List.replicate (count + 1) c ≠ front ++ d :: back := by
    intro same
    have member : d ∈ List.replicate (count + 1) c := by simp [same]
    exact other (List.eq_of_mem_replicate member)
  constructor
  · rintro ⟨front, back, whole⟩
    rcases List.append_eq_append_iff.mp whole with ⟨middle, early, -⟩ | ⟨middle, late, rest⟩
    · exact .inl ⟨front, middle, early.symm⟩
    · cases middle with
      | nil => exact .inl ⟨front, [], by rw [List.append_nil, late, List.append_nil]⟩
      | cons e middle =>
        obtain ⟨rfl, split⟩ := List.cons.inj rest
        rcases List.append_eq_append_iff.mp late with ⟨start, -, inside⟩ | ⟨start, -, inside⟩
        · exact absurd inside (apart _)
        · cases start with
          | nil => exact absurd inside.symm (apart [])
          | cons e start =>
            have tail : middle = start ++ List.replicate (count + 1) c := (List.cons.inj inside).2
            refine .inr ⟨start, back, ?_⟩
            rw [split, tail]
            rfl
  · rintro (within | within)
    · exact within.trans (List.prefix_append _ _).isInfix
    · exact within.trans ((List.suffix_cons _ _).trans (List.suffix_append _ _)).isInfix

/-- The length of the longest row of a character tells which rows there are. -/
theorem longestRow_le_iff {c : Char} {limit row : Nat} {text : List Char} :
    longestRow c row text ≤ limit ↔
      ¬ List.replicate (limit + 1) c <:+: List.replicate row c ++ text := by
  induction text generalizing row with
  | nil =>
    rw [longestRow, List.append_nil, replicate_infix_replicate]
    omega
  | cons d text ih =>
    by_cases same : d = c
    · subst same
      have longer : List.replicate row d ++ d :: text = List.replicate (row + 1) d ++ text := by
        rw [List.replicate_succ', List.append_assoc, List.singleton_append]
      rw [longestRow, if_pos rfl, ih, longer]
    · have behind : longestRow c 0 text ≤ limit ↔ ¬ List.replicate (limit + 1) c <:+: text := ih
      rw [longestRow, if_neg same, Nat.max_le, behind, replicate_infix_split same,
        replicate_infix_replicate, not_or]
      exact and_congr_left fun _ => Nat.not_lt.symm

theorem countable_iff {text : List Char} :
    (features text).countable = true ↔
      ∀ quote ∈ ['"', '\''], ¬ List.replicate 256 quote <:+: text := by
  have rows (quote : Char) : longestRow quote 0 text ≤ maxRow ↔
      ¬ List.replicate 256 quote <:+: text := longestRow_le_iff
  simp only [Features.countable, features, Bool.and_eq_true, decide_eq_true_eq, rows,
    List.forall_mem_cons, List.not_mem_nil, false_imp_iff, implies_true, and_true]
  exact and_comm

end Toml

namespace FileSystem

theorem readText_of_read {fs : FileSystem} {path : Path} {text : String}
    (read : fs.read path = .ok (Text.bytes text)) : fs.readText path = .ok text := by
  rw [readText, read]
  dsimp only [bind, Except.bind]
  rw [Text.ofBytes?_bytes]

theorem has_of_read {fs : FileSystem} {path : Path} {content : List UInt8}
    (read : fs.read path = .ok content) : fs.has path = true := by
  obtain ⟨l, node, located, -⟩ := read_eq_ok_iff.mp read
  rw [has, located]
  rfl

end FileSystem

namespace Settings

open Toml

/-- No text of the settings has 256 equal quotes in a row. -/
def QuotesCountable (settings : Settings) : Prop :=
  ∀ text ∈ settings.texts, ∀ quote ∈ ['"', '\''],
    ¬ List.replicate 256 quote <:+: text.toList

theorem quotesCountable_iff {settings : Settings} :
    settings.QuotesCountable ↔
      (settings.texts.all fun text => (features text.toList).countable) = true := by
  simp only [QuotesCountable, List.all_eq_true, countable_iff]

variable {settings : Settings} {file : Path} {fs : FileSystem}

theorem pathsSpelled_iff {settings : Settings} :
    settings.PathsSpelled ↔ (settings.paths.all fun path => path.text?.isSome) = true := by
  simp only [PathsSpelled, List.all_eq_true, Path.isText_iff]

theorem toText_of_countable (inside : (settings.scan.minLength : Int) ≤ maxInteger)
    (spelled : settings.PathsSpelled) (countable : settings.QuotesCountable) :
    settings.toText = .ok (String.ofList (toText.document settings)) := by
  rw [toText, if_neg (Int.not_lt.mpr inside), pathsSpelled_iff.mp spelled,
    quotesCountable_iff.mp countable]
  rfl

theorem load_of_read
    (read : fs.read file = .ok (Text.bytes (String.ofList (toText.document settings))))
    (inside : (settings.scan.minLength : Int) ≤ maxInteger) (spelled : settings.PathsSpelled) :
    load file fs = .ok settings := by
  rw [load, FileSystem.has_of_read read, FileSystem.readText_of_read read]
  dsimp only
  rw [ofText_document inside spelled]
  rfl

/-- Saving goes well, and what is loaded then are the same settings. -/
def LoadAgain (settings : Settings) (file : Path) (fs : FileSystem) : Prop :=
  ∃ after, save? settings file fs = some (.ok (), after) ∧ load file after = .ok settings

theorem loadAgain_of_writable (inside : (settings.scan.minLength : Int) ≤ maxInteger)
    (spelled : settings.PathsSpelled) (countable : settings.QuotesCountable)
    (writable : fs.Writable file) :
    settings.LoadAgain file fs := by
  obtain ⟨l, opened, free⟩ := writable.free
  have inner := FileSystem.ne_nil_of_free free
  let content := Text.bytes (String.ofList (toText.document settings))
  have written := FileSystem.write_of_create opened inner content
  have shape := FileSystem.skeleton_set_file content free
  have read : (fs.set l (.file content)).read file = .ok content :=
    FileSystem.read_of_create opened (FileSystem.directoriesIn_of_skeleton shape)
      (FileSystem.node?_set_self fs _ inner)
  refine ⟨fs.set l (.file content), ?_, load_of_read read inside spelled⟩
  simp only [save?, toText_of_countable inside spelled countable]
  rw [written]
  rfl

theorem save?_unspelled (inside : (settings.scan.minLength : Int) ≤ maxInteger)
    (unspelled : ¬ settings.PathsSpelled) :
    save? settings file fs = some (.error .pathNotText, fs) := by
  have refused : settings.toText = .error .path := by
    rw [pathsSpelled_iff, Bool.not_eq_true] at unspelled
    rw [toText, if_neg (Int.not_lt.mpr inside), unspelled]
    rfl
  rw [save?, refused]

theorem save?_uncountable (inside : (settings.scan.minLength : Int) ≤ maxInteger)
    (spelled : settings.PathsSpelled) (uncountable : ¬ settings.QuotesCountable) :
    save? settings file fs = none := by
  have refused : settings.toText = .error .quotes := by
    rw [quotesCountable_iff, Bool.not_eq_true] at uncountable
    rw [toText, if_neg (Int.not_lt.mpr inside), pathsSpelled_iff.mp spelled, uncountable]
    rfl
  rw [save?, refused]

theorem save?_beyond (beyond : maxInteger < settings.scan.minLength) :
    save? settings file fs = some (.error .minLengthTooLarge, fs) := by
  have refused : settings.toText = .error .minLength := by rw [toText, if_pos beyond]
  rw [save?, refused]

/-- Settings that are saved are loaded again, whatever the file held before. Only three things are
in the way: a least length that is too large for a document and a path that is no text, which are
reported, and 256 equal quotes in a row, for which there is no answer at all. -/
theorem save_load (settings : Settings) (file : Path) (fs : FileSystem) :
    ((settings.scan.minLength : Int) ≤ maxInteger → settings.PathsSpelled →
      settings.QuotesCountable → fs.Writable file →
      ∃ after, save? settings file fs = some (.ok (), after) ∧ load file after = .ok settings) ∧
    ((settings.scan.minLength : Int) ≤ maxInteger → settings.PathsSpelled →
      ¬ settings.QuotesCountable → save? settings file fs = none) ∧
    ((settings.scan.minLength : Int) ≤ maxInteger → ¬ settings.PathsSpelled →
      save? settings file fs = some (.error .pathNotText, fs)) ∧
    (maxInteger < settings.scan.minLength →
      save? settings file fs = some (.error .minLengthTooLarge, fs)) :=
  ⟨loadAgain_of_writable, save?_uncountable, save?_unspelled, save?_beyond⟩

theorem writable_blank : FileSystem.blank.Writable ⟨"s.toml"⟩ := by
  refine ⟨["work", "s.toml"], ?_⟩
  decide +kernel

/-- Texts that are written in several forms. -/
def manifold : Settings :=
  ⟨⟨4, "\"\\'\x00"⟩, ⟨[⟨""⟩, ⟨"C:\\a"⟩, ⟨"say 'hi' \"\\\""⟩], "\n'''\"\"\"", some ⟨"ä\t"⟩⟩⟩

theorem save_load_manifold : manifold.PathsSpelled ∧ manifold.QuotesCountable ∧
    FileSystem.blank.Writable ⟨"s.toml"⟩ ∧
    ∃ after, save? manifold ⟨"s.toml"⟩ FileSystem.blank = some (.ok (), after) ∧
      load ⟨"s.toml"⟩ after = .ok manifold := by
  have countable : manifold.QuotesCountable := quotesCountable_iff.mpr (by decide +kernel)
  have spelled : manifold.PathsSpelled := by decide +kernel
  have inside : (manifold.scan.minLength : Int) ≤ maxInteger := by decide
  have loaded := (save_load manifold _ _).1 inside spelled countable writable_blank
  exact ⟨spelled, countable, writable_blank, loaded⟩

/-- Settings whose suffix is a row of quotes that cannot be counted. -/
def rowOfQuotes : Settings :=
  ⟨⟨4, String.ofList (List.replicate 256 '\'')⟩, ⟨[], "txt", none⟩⟩

theorem not_loadAgain_rowOfQuotes : (rowOfQuotes.scan.minLength : Int) ≤ maxInteger ∧
    FileSystem.blank.Writable ⟨"s.toml"⟩ ∧
    ¬ rowOfQuotes.LoadAgain ⟨"s.toml"⟩ FileSystem.blank := by
  have inside : (rowOfQuotes.scan.minLength : Int) ≤ maxInteger := by decide
  refine ⟨inside, writable_blank, ?_⟩
  rintro ⟨after, saved, -⟩
  have uncountable : ¬ rowOfQuotes.QuotesCountable := by
    intro countable
    have row : rowOfQuotes.scan.suffix.toList = List.replicate 256 '\'' := String.toList_ofList
    exact countable _ List.mem_cons_self '\'' (by decide) (row ▸ List.infix_rfl)
  have spelled : rowOfQuotes.PathsSpelled := fun _ member => absurd member List.not_mem_nil
  rw [save?_uncountable inside spelled uncountable] at saved
  cases saved

end Settings

end ResourceNames
