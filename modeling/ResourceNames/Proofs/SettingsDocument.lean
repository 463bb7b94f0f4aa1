import ResourceNames.Proofs.DocumentReading
import ResourceNames.Proofs.RawTexts
import ResourceNames.Settings.Document

namespace ResourceNames.Settings

open Toml

/-- The fields of the table that tells what is read and where the lists go. -/
def batchFields (batch : BatchRule) : Fields :=
  [("inputs", .array (batch.inputs.map fun input => .string input.text)),
    ("output_extension", .string batch.outputExtension)] ++
  (batch.outputDirectory.map fun dir => ("output_directory", .string dir.text)).toList

def scanFields (scan : ScanRule) : Fields :=
  [("min_length", .integer scan.minLength), ("suffix", .string scan.suffix)]

def fields (settings : Settings) : Fields :=
  [("scan", .table .headed (scanFields settings.scan)),
    ("batch", .table .headed (batchFields settings.batch))]

theorem readFields_cons {σ : Type} {read : String → Value → σ → Except Diagnosis σ}
    {state next : σ} {name : String} {value : Value} (field : read name value state = .ok next)
    (fields : Fields) : readFields read state ((name, value) :: fields) =
      readFields read next fields := by
  change (read name value state >>= fun next => readFields read next fields) = _
  rw [field]
  rfl

theorem path_string {path : Path} (spelled : path.IsText) :
    Value.path (.string path.text) = .ok path :=
  congrArg Except.ok (Path.isText_iff_mk_text.mp spelled)

theorem paths_array {paths : List Path} (spelled : ∀ path ∈ paths, path.IsText) :
    Value.paths (.array (paths.map fun path => .string path.text)) = .ok paths := by
  rw [Value.paths]
  induction paths with
  | nil => rfl
  | cons path paths ih =>
    obtain ⟨first, others⟩ := List.forall_mem_cons.mp spelled
    rw [List.map_cons, List.mapM_cons, path_string first, ih others]
    rfl

theorem ofValue_scanFields (scan : ScanRule) :
    ScanRule.ofValue (.table .headed (scanFields scan)) = .ok scan := by
  rfl

theorem ofValue_batchFields {batch : BatchRule} (inputs : ∀ path ∈ batch.inputs, path.IsText)
    (directory : ∀ dir ∈ batch.outputDirectory, dir.IsText) :
    BatchRule.ofValue (.table .headed (batchFields batch)) = .ok batch := by
  obtain ⟨paths, extension, directory?⟩ := batch
  have read (p : BatchRule.Gathered) :
      p.read "inputs" (.array (paths.map fun input => .string input.text)) =
        .ok { p with inputs := some paths } := by
    rw [BatchRule.Gathered.read, if_pos rfl, paths_array inputs]
    rfl
  have gathered : readFields BatchRule.Gathered.read {}
      (batchFields ⟨paths, extension, directory?⟩) =
        .ok ⟨some paths, some extension, directory?⟩ := by
    rw [batchFields, List.cons_append, readFields_cons (read {})]
    cases directory? with
    | none => rfl
    | some dir =>
      have last (p : BatchRule.Gathered) : p.read "output_directory" (.string dir.text) =
          .ok { p with outputDirectory := some dir } := by
        rw [BatchRule.Gathered.read, if_neg (by decide), if_neg (by decide), if_pos rfl,
          path_string (directory dir rfl)]
        rfl
      exact readFields_cons (last _) []
  simp only [BatchRule.ofValue, Value.record?, gathered]
  rfl

/-- All paths of the settings are text. -/
def PathsSpelled (settings : Settings) : Prop :=
  ∀ path ∈ settings.paths, path.IsText

instance (settings : Settings) : Decidable settings.PathsSpelled :=
  inferInstanceAs (Decidable (∀ path ∈ settings.paths, path.IsText))

/-- The fields give back the settings that they were made of. -/
theorem ofFields_fields {settings : Settings} (spelled : settings.PathsSpelled) :
    ofFields settings.fields = .ok settings := by
  obtain ⟨inputs, directory⟩ := List.forall_mem_append.mp spelled
  have gathered : readFields Gathered.read {} settings.fields =
      .ok ⟨some settings.scan, some settings.batch⟩ := by
    have scan : Gathered.read "scan" (.table .headed (scanFields settings.scan)) {} =
        .ok ⟨some settings.scan, none⟩ := by
      rw [Gathered.read, if_pos rfl, ofValue_scanFields]
      rfl
    have batch : Gathered.read "batch" (.table .headed (batchFields settings.batch))
        ⟨some settings.scan, none⟩ = .ok ⟨some settings.scan, some settings.batch⟩ := by
      rw [Gathered.read, if_neg (by decide), if_pos rfl, ofValue_batchFields inputs fun dir given =>
        directory dir (Option.mem_toList.mpr given)]
      rfl
    rw [fields, readFields_cons scan, readFields_cons batch]
    rfl
  rw [ofFields, gathered]
  rfl

theorem skipBlanks_writeText (text rest : List Char) :
    skipBlanks (writeText text ++ rest) = writeText text ++ rest := by
  obtain ⟨quote, body, head, rfl | rfl⟩ := head_writeText text
  · rw [head]
    rfl
  · rw [head]
    rfl

theorem skipBlanks_writeTexts (texts : List (List Char)) (rest : List Char) :
    skipBlanks (writeTexts texts ++ rest) = writeTexts texts ++ rest := by
  match texts with
  | [] => rfl
  | [_] => rfl
  | _ :: _ :: _ => rfl

theorem skipBlanks_number (n : Nat) (rest : List Char) :
    skipBlanks ((toString n).toList ++ '\n' :: rest) = (toString n).toList ++ '\n' :: rest := by
  rw [Nat.toString_eq_repr, Nat.toList_repr]
  rcases split : Nat.toDigits 10 n ++ '\n' :: rest with _ | ⟨d, ds⟩
  · rfl
  · have digit := (head_number split).1
    rw [skipBlanks, List.dropWhile_cons_of_neg]
    intro blank
    simp only [isBlank, Bool.or_eq_true, decide_eq_true_eq] at blank
    rcases blank with rfl | rfl <;> exact absurd digit (by decide)

/-- A line that gives a key a text. -/
def textLine (name : List Char) (text : String) (rest : List Char) : List Char :=
  name ++ ' ' :: '=' :: ' ' :: (writeText text.toList ++ '\n' :: rest)

/-- The line for the directory, which is left out if there is none. -/
def directoryLine (directory? : Option Path) : List Char :=
  directory?.elim [] fun dir => textLine "output_directory".toList dir.text []

theorem document_eq (settings : Settings) :
    toText.document settings =
      '[' :: ("scan".toList ++ ']' :: '\n' ::
      ("min_length".toList ++ ' ' :: '=' :: ' ' ::
        ((toString settings.scan.minLength).toList ++ '\n' ::
      textLine "suffix".toList settings.scan.suffix ('\n' ::
      '[' :: ("batch".toList ++ ']' :: '\n' ::
      ("inputs".toList ++ ' ' :: '=' :: ' ' ::
        (writeTexts (settings.batch.inputs.map fun input => input.text.toList) ++ '\n' ::
      textLine "output_extension".toList settings.batch.outputExtension
      (directoryLine settings.batch.outputDirectory)))))))) := by
  have scan : "[scan]\nmin_length = ".toList =
      '[' :: ("scan".toList ++ ']' :: '\n' :: ("min_length".toList ++ [' ', '=', ' '])) := rfl
  have suffix : "\nsuffix = ".toList = '\n' :: ("suffix".toList ++ [' ', '=', ' ']) := rfl
  have batch : "\n\n[batch]\ninputs = ".toList =
      '\n' :: '\n' :: '[' :: ("batch".toList ++ ']' :: '\n' ::
        ("inputs".toList ++ [' ', '=', ' '])) := rfl
  have extension : "\noutput_extension = ".toList =
      '\n' :: ("output_extension".toList ++ [' ', '=', ' ']) := rfl
  have directory : "\noutput_directory = ".toList =
      '\n' :: ("output_directory".toList ++ [' ', '=', ' ']) := rfl
  obtain ⟨⟨minLength, wanted⟩, ⟨inputs, outputExtension, directory?⟩⟩ := settings
  unfold toText.document
  rw [scan, suffix, batch, extension, directory]
  cases directory? with
  | none => simp only [textLine, directoryLine, Option.elim_none, List.cons_append,
      List.append_assoc, List.nil_append]
  | some dir => simp only [textLine, directoryLine, Option.elim_some, List.cons_append,
      List.append_assoc, List.nil_append]

variable {bound : Nat} {draft next : Draft} {name rest : List Char}

theorem unquoted_feed (rest : List Char) : Unquoted ('\n' :: rest) :=
  ⟨by simp, by simp⟩

theorem lines_textLine {text : String} (bare : Bare name)
    (defined : draft.define? [] (String.ofList name) (.string text) = some next) (fuel : Nat)
    (rest : List Char) :
    lines bound (fuel + 1) draft (textLine name text rest) = lines bound fuel next rest := by
  have read := value_writeText bound (depthLimit - 1) text.toList
    (unquoted_feed rest)
  rw [String.ofList_toList] at read
  exact lines_field bare (skipBlanks_writeText _ _) read defined fuel

theorem length_le_writeTexts (texts : List (List Char)) :
    texts.length ≤ (writeTexts texts).length := by
  have items (texts : List (List Char)) : texts.length ≤ (itemLines texts).length := by
    induction texts with
    | nil => exact Nat.le_refl 0
    | cons text texts ih =>
      have line := congrArg List.length (itemLines_cons text texts [])
      simp only [List.length_cons, List.length_append, List.length_nil] at line ⊢
      omega
  match texts with
  | [] => exact Nat.zero_le _
  | [text] => simp [writeTexts]
  | first :: second :: texts =>
    have written : writeTexts (first :: second :: texts) =
        ['[', '\n'] ++ itemLines (first :: second :: texts) ++ [']'] := rfl
    have enough := items (first :: second :: texts)
    rw [written, List.length_append, List.length_append]
    omega

/-- The line for the directory, and the end of the document. -/
theorem lines_directory (directory? : Option Path) (complete : Fields) (inputs : Value)
    (extension : String) (fuel : Nat) :
    lines bound (fuel + 2) ⟨complete, some ⟨["batch"], false⟩,
        [("inputs", inputs), ("output_extension", .string extension)]⟩
        (directoryLine directory?) =
      Draft.close? ⟨complete, some ⟨["batch"], false⟩,
        [("inputs", inputs), ("output_extension", .string extension)] ++
          (directory?.map fun dir => ("output_directory", .string dir.text)).toList⟩ := by
  cases directory? with
  | none => exact lines_end (fuel + 1)
  | some dir =>
    have bare : Bare "output_directory".toList := by decide
    exact (lines_textLine bare rfl (fuel + 1) []).trans (lines_end fuel)

theorem lines_document (bound : Nat) {settings : Settings}
    (inside : (settings.scan.minLength : Int) ≤ maxInteger)
    (enough : settings.batch.inputs.length ≤ bound) (fuel : Nat) :
    lines bound (fuel + 9) .start (toText.document settings) = some settings.fields := by
  have number := value_number bound (depthLimit - 1) inside
  have inputs (rest : List Char) :
      value bound (depthLimit - 1)
          (writeTexts (settings.batch.inputs.map fun input => input.text.toList) ++ rest) =
        some (.array (settings.batch.inputs.map fun input => .string input.text), rest) := by
    have read := value_writeTexts bound (depthLimit - 2)
      (settings.batch.inputs.map fun input => input.text.toList) (by rwa [List.length_map]) rest
    simp only [List.map_map, Function.comp_def, String.ofList_toList] at read
    exact read
  let scanned : Fields := [("scan", .table .headed (scanFields settings.scan))]
  rw [document_eq, lines_header ⟨[], some ⟨["scan"], false⟩, []⟩ (by decide) rfl,
    lines_field (by decide) (skipBlanks_number _ _) (number _) rfl,
    lines_textLine (by decide) rfl, lines_empty,
    lines_header ⟨scanned, some ⟨["batch"], false⟩, []⟩ (by decide) rfl,
    lines_field (by decide) (skipBlanks_writeTexts _ _) (inputs _) rfl,
    lines_textLine (by decide) rfl]
  exact lines_directory settings.batch.outputDirectory scanned _ _ fuel

/-- What is written is read as the same settings. -/
theorem ofText_document {settings : Settings}
    (inside : (settings.scan.minLength : Int) ≤ maxInteger) (spelled : settings.PathsSpelled) :
    ofText (String.ofList (toText.document settings)) = .ok settings := by
  have enough : settings.batch.inputs.length ≤ (toText.document settings).length := by
    have items := length_le_writeTexts (settings.batch.inputs.map fun input => input.text.toList)
    rw [List.length_map] at items
    rw [document_eq]
    simp only [textLine, List.length_append, List.length_cons]
    omega
  have nine : 9 ≤ (toText.document settings).length + 1 := by
    have name : "min_length".toList.length = 10 := rfl
    rw [document_eq]
    simp only [List.length_cons, List.length_append, name]
    omega
  obtain ⟨fuel, split⟩ := Nat.exists_eq_add_of_le' nine
  have read := lines_document (toText.document settings).length inside enough fuel
  have parsed : Toml.parse (String.ofList (toText.document settings)) = some settings.fields := by
    rw [Toml.parse, String.toList_ofList]
    rw [← split] at read
    rw [document_eq] at read ⊢
    exact read
  rw [ofText, parsed]
  exact ofFields_fields spelled

end ResourceNames.Settings
