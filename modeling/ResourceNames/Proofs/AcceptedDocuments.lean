import ResourceNames.Proofs.DistinctKeys
import ResourceNames.Proofs.ListPaths
import ResourceNames.Proofs.SettingsResolution

namespace ResourceNames.Toml

namespace Value

/-- The fields of a table, whichever way it is written. -/
def fields? : Value → Option Fields
  | .braced _ fields => some fields
  | .table _ fields => some fields
  | _ => none

/-- The items of an array, which may be a list of tables with headers of their own. -/
def items? : Value → Option (List Value)
  | .array items => some items
  | .tables latestFirst => some (latestFirst.reverse.map (.table .headed))
  | _ => none

end Value

/-- The table with a key, whichever way it is written. -/
def Fields.table? (fields : Fields) (key : String) : Option Fields :=
  (fields.get? key).bind Value.fields?

namespace Value

variable {value : Value}

theorem record?_of_fields {fields : Fields} (table : value.fields? = some fields) :
    value.record? = some (.named fields) := by
  unfold fields? at table
  split at table
  · cases table
    rfl
  · cases table
    rfl
  · cases table

theorem Orderly.fields {fields : Fields} (orderly : value.Orderly)
    (table : value.fields? = some fields) : fields.Orderly := by
  unfold fields? at table
  split at table
  · cases table
    exact orderly_braced.mp orderly
  · cases table
    exact orderly_table.mp orderly
  · cases table

theorem nat_eq_ok_iff {n : Nat} : value.nat = .ok n ↔ value = .integer n := by
  constructor
  · intro read
    unfold Value.nat at read
    split at read
    · cases read
      rfl
    · cases read
    · cases read
  · rintro rfl
    rfl

theorem text_eq_ok_iff {expected text : String} :
    value.text expected = .ok text ↔ value = .string text := by
  constructor
  · intro read
    unfold Value.text at read
    split at read
    · cases read
      rfl
    · cases read
  · rintro rfl
    rfl

/-- Only a path that is text is read from a value, which is the text. -/
theorem path_eq_ok_iff {path : Path} :
    value.path = .ok path ↔ value = .string path.text ∧ path.IsText := by
  unfold Value.path
  constructor
  · intro read
    cases given : value.text "path string" with
    | error diagnosis =>
      rw [given] at read
      cases read
    | ok text =>
      rw [given] at read
      cases read
      exact ⟨(Path.text_mk text).symm ▸ text_eq_ok_iff.mp given, text, rfl⟩
  · rintro ⟨rfl, spelled⟩
    exact congrArg Except.ok (Path.isText_iff_mk_text.mp spelled)

theorem mapM_path_eq_ok_iff {items : List Value} {paths : List Path} :
    items.mapM Value.path = .ok paths ↔
      items = paths.map (fun path => .string path.text) ∧ ∀ path ∈ paths, path.IsText := by
  constructor
  · intro read
    have each := (mapM_eq_ok_iff.mp read).imp fun _ _ => path_eq_ok_iff.mp
    have spelled := (List.forall₂_and_left paths items).mp (List.Forall₂.flip
      (each.imp fun _ _ both => And.symm both))
    refine ⟨?_, spelled.1⟩
    rw [← List.forall₂_eq_eq_eq, List.forall₂_map_right_iff]
    exact each.imp fun _ _ both => both.1
  · rintro ⟨rfl, spelled⟩
    refine mapM_eq_ok_iff.mpr (List.forall₂_map_left_iff.mpr (List.forall₂_same.mpr ?_))
    exact fun path member => path_eq_ok_iff.mpr ⟨rfl, spelled path member⟩

theorem paths_eq_ok_iff {paths : List Path} : value.paths = .ok paths ↔
    value.items? = some (paths.map fun path => .string path.text) ∧
      ∀ path ∈ paths, path.IsText := by
  unfold Value.paths items?
  split
  · simp only [mapM_path_eq_ok_iff, Option.some.injEq]
  · rename_i latestFirst
    have each : (latestFirst.reverse.mapM fun fields => Value.path (.table .headed fields)) =
        (latestFirst.reverse.map (.table .headed)).mapM Value.path := by
      rw [List.mapM_map]
      rfl
    rw [each, mapM_path_eq_ok_iff, Option.some.injEq]
  · simp

end Value

variable {σ α : Type} {read : String → Value → σ → Except Diagnosis σ} {key : String}
  {decode : Value → Except Diagnosis α} {slot : σ → Option α} {start next : σ} {fields : Fields}

/-- The fields with one name fill a slot with what is made of their values, and no others do. -/
structure Fills (read : String → Value → σ → Except Diagnosis σ) (key : String)
    (decode : Value → Except Diagnosis α) (slot : σ → Option α) : Prop where
  own : ∀ {value state next}, read key value state = .ok next →
    ∃ result, decode value = .ok result ∧ slot next = some result
  takes : ∀ {value result}, decode value = .ok result →
    ∀ state, ∃ next, read key value state = .ok next
  other : ∀ {name value state next}, name ≠ key → read name value state = .ok next →
    slot next = slot state

theorem readFields_cons_eq_ok_iff {name : String} {value : Value} :
    readFields read start ((name, value) :: fields) = .ok next ↔
      ∃ between, read name value start = .ok between ∧
        readFields read between fields = .ok next :=
  bind_eq_ok_iff

theorem Fills.of_absent (fills : Fills read key decode slot) (absent : key ∉ fields.map Prod.fst)
    (done : readFields read start fields = .ok next) : slot next = slot start := by
  induction fields generalizing start with
  | nil =>
    cases done
    rfl
  | cons field fields ih =>
    obtain ⟨name, value⟩ := field
    obtain ⟨other, absent⟩ := List.ne_and_not_mem_of_not_mem_cons absent
    obtain ⟨between, first, done⟩ := readFields_cons_eq_ok_iff.mp done
    rw [ih absent done, fills.other (Ne.symm other) first]

/-- Once all fields are read, a slot holds what the field with its name gives, and nothing if there
is none. -/
theorem Fills.rel (fills : Fills read key decode slot) (empty : slot start = none)
    (distinct : (fields.map Prod.fst).Nodup) (done : readFields read start fields = .ok next) :
    Option.Rel (fun value result => decode value = .ok result) (fields.get? key) (slot next) := by
  induction fields generalizing start with
  | nil =>
    cases done
    rw [empty]
    exact .none
  | cons field fields ih =>
    obtain ⟨name, value⟩ := field
    obtain ⟨apart, distinct⟩ := List.nodup_cons.mp distinct
    obtain ⟨between, first, done⟩ := readFields_cons_eq_ok_iff.mp done
    by_cases same : name = key
    · subst same
      obtain ⟨result, decoded, filled⟩ := fills.own first
      rw [Fields.get?_cons_self, fills.of_absent apart done, filled]
      exact .some decoded
    · rw [Fields.get?_cons_of_ne same]
      exact ih ((fills.other same first).trans empty) distinct done

section

variable (fills : Fills read key decode slot) (empty : slot start = none)
  (distinct : (fields.map Prod.fst).Nodup) (done : readFields read start fields = .ok next)
include fills empty distinct done

theorem Fills.eq_some_iff {result : α} : slot next = some result ↔
    ∃ value, fields.get? key = some value ∧ decode value = .ok result := by
  have rel := fills.rel empty distinct done
  generalize fields.get? key = found, slot next = held at rel
  cases rel with
  | some decoded => simp [decoded]
  | none => simp

theorem Fills.eq_none_iff : slot next = none ↔ fields.get? key = none := by
  have rel := fills.rel empty distinct done
  generalize fields.get? key = found, slot next = held at rel
  cases rel with
  | some decoded => simp
  | none => simp

/-- Where a value can be told from what it gives, a slot tells which field there is. -/
theorem Fills.eq_iff {encode : α → Value} {held : Option α}
    (exactly : ∀ {value result}, decode value = .ok result ↔ value = encode result) :
    slot next = held ↔ fields.get? key = held.map encode := by
  cases held with
  | none => exact fills.eq_none_iff empty distinct done
  | some result =>
    rw [fills.eq_some_iff empty distinct done]
    simp [exactly]

end

theorem Fills.readable (fills : Fills read key decode slot)
    (decodes : ∀ value, fields.get? key = some value → ∃ result, decode value = .ok result) :
    ∀ value, fields.get? key = some value → ∀ state, ∃ next, read key value state = .ok next :=
  fun value found state =>
    let ⟨_, decoded⟩ := decodes value found
    fills.takes decoded state

theorem exists_readFields_of_each
    (each : ∀ field ∈ fields, ∀ state, ∃ next, read field.1 field.2 state = .ok next)
    (start : σ) : ∃ next, readFields read start fields = .ok next := by
  induction fields generalizing start with
  | nil => exact ⟨start, rfl⟩
  | cons field fields ih =>
    obtain ⟨first, others⟩ := List.forall_mem_cons.mp each
    obtain ⟨between, read⟩ := first start
    obtain ⟨next, done⟩ := ih others between
    exact ⟨next, readFields_cons_eq_ok_iff.mpr ⟨between, read, done⟩⟩

/-- All fields are read if those with known names can be and the others are passed over. -/
theorem exists_readFields {known : List String} (distinct : (fields.map Prod.fst).Nodup)
    (passes : ∀ name ∉ known, ∀ value state, read name value state = .ok state)
    (readable : ∀ name ∈ known, ∀ value, fields.get? name = some value →
      ∀ state, ∃ next, read name value state = .ok next)
    (start : σ) : ∃ next, readFields read start fields = .ok next := by
  refine exists_readFields_of_each ?_ start
  rintro ⟨name, value⟩ member state
  by_cases isKnown : name ∈ known
  · exact readable name isKnown value (Fields.get?_of_mem distinct member) state
  · exact ⟨state, passes name isKnown value state⟩

theorem require_eq_ok_iff {name : String} {field : Option α} {result : α} :
    require name field = .ok result ↔ field = some result := by
  cases field <;> simp [require]

end ResourceNames.Toml

namespace ResourceNames

open Toml

namespace ScanRule

variable {name : String} {value : Value} {p next : Gathered} {fields : Fields} {rule : ScanRule}

namespace Gathered

/-- All that reading one field can do. -/
theorem read_eq_ok_iff : p.read name value = .ok next ↔
    (name = "min_length" ∧ ∃ n, value.nat = .ok n ∧ { p with minLength := some n } = next) ∨
    (name = "suffix" ∧ ∃ text, value.text "a string" = .ok text ∧
      { p with suffix := some text } = next) ∨
    (name ≠ "min_length" ∧ name ≠ "suffix" ∧ p = next) := by
  unfold read
  by_cases isLength : name = "min_length"
  · simp [isLength, bind_eq_ok_iff, pure, Except.pure]
  · by_cases isSuffix : name = "suffix"
    · simp [isSuffix, bind_eq_ok_iff, pure, Except.pure]
    · simp [isLength, isSuffix, pure, Except.pure]

theorem fills_minLength : Fills read "min_length" Value.nat minLength where
  own step := by grind [read_eq_ok_iff]
  takes decoded state := ⟨_, read_eq_ok_iff.mpr (.inl ⟨rfl, _, decoded, rfl⟩)⟩
  other apart step := by grind [read_eq_ok_iff]

theorem fills_suffix : Fills read "suffix" (Value.text "a string") suffix where
  own step := by grind [read_eq_ok_iff]
  takes decoded state := ⟨_, read_eq_ok_iff.mpr (.inr (.inl ⟨rfl, _, decoded, rfl⟩))⟩
  other apart step := by grind [read_eq_ok_iff]

theorem read_other (name : String) (other : name ∉ ["min_length", "suffix"]) (value : Value)
    (p : Gathered) : p.read name value = .ok p := by
  simp only [List.mem_cons, List.not_mem_nil, or_false, not_or] at other
  exact read_eq_ok_iff.mpr (.inr (.inr ⟨other.1, other.2, rfl⟩))

end Gathered

/-- A table gives the rule that its two fields tell. -/
theorem ofValue_eq_ok_iff (table : value.fields? = some fields)
    (distinct : (fields.map Prod.fst).Nodup) : ofValue value = .ok rule ↔
      fields.get? "min_length" = some (.integer rule.minLength) ∧
      fields.get? "suffix" = some (.string rule.suffix) := by
  have steps : ofValue value = .ok rule ↔ ∃ p, readFields Gathered.read {} fields = .ok p ∧
      p.minLength = some rule.minLength ∧ p.suffix = some rule.suffix := by
    obtain ⟨minLength, suffix⟩ := rule
    simp [ofValue, Value.record?_of_fields table, bind_eq_ok_iff, require_eq_ok_iff, pure,
      Except.pure]
  rw [steps]
  constructor
  · rintro ⟨p, done, minLength, suffix⟩
    exact ⟨(Gathered.fills_minLength.eq_iff rfl distinct done Value.nat_eq_ok_iff).mp minLength,
      (Gathered.fills_suffix.eq_iff rfl distinct done Value.text_eq_ok_iff).mp suffix⟩
  · rintro ⟨minLength, suffix⟩
    have lengths : ∀ value, fields.get? "min_length" = some value → ∃ n, value.nat = .ok n := by
      simp [minLength, Value.nat_eq_ok_iff]
    have texts : ∀ value, fields.get? "suffix" = some value →
        ∃ text, value.text "a string" = .ok text := by
      simp [suffix, Value.text_eq_ok_iff]
    obtain ⟨p, done⟩ := exists_readFields distinct Gathered.read_other
      (List.forall_mem_cons.mpr ⟨Gathered.fills_minLength.readable lengths,
        List.forall_mem_singleton.mpr (Gathered.fills_suffix.readable texts)⟩) {}
    exact ⟨p, done,
      (Gathered.fills_minLength.eq_iff rfl distinct done Value.nat_eq_ok_iff).mpr minLength,
      (Gathered.fills_suffix.eq_iff rfl distinct done Value.text_eq_ok_iff).mpr suffix⟩

/-- What is neither a table nor an array is refused. -/
theorem ofValue_ne_ok (noTable : value.fields? = none) (noArray : value.items? = none) :
    ofValue value ≠ .ok rule := by
  cases value with
  | braced closed fields => cases noTable
  | table kind fields => cases noTable
  | array items => cases noArray
  | tables latestFirst => cases noArray
  | _ => rintro ⟨⟩

end ScanRule

namespace BatchRule

variable {name : String} {value : Value} {p next : Gathered} {fields : Fields} {rule : BatchRule}

namespace Gathered

theorem read_eq_ok_iff : p.read name value = .ok next ↔
    (name = "inputs" ∧ ∃ inputs, value.paths = .ok inputs ∧
      { p with inputs := some inputs } = next) ∨
    (name = "output_extension" ∧ ∃ text, value.text "a string" = .ok text ∧
      { p with outputExtension := some text } = next) ∨
    (name = "output_directory" ∧ ∃ dir, value.path = .ok dir ∧
      { p with outputDirectory := some dir } = next) ∨
    (name ≠ "inputs" ∧ name ≠ "output_extension" ∧ name ≠ "output_directory" ∧ p = next) := by
  unfold read
  by_cases isInputs : name = "inputs"
  · simp [isInputs, bind_eq_ok_iff, pure, Except.pure]
  · by_cases isExtension : name = "output_extension"
    · simp [isExtension, bind_eq_ok_iff, pure, Except.pure]
    · by_cases isDirectory : name = "output_directory"
      · simp [isDirectory, bind_eq_ok_iff, pure, Except.pure]
      · simp [isInputs, isExtension, isDirectory, pure, Except.pure]

theorem fills_inputs : Fills read "inputs" Value.paths inputs where
  own step := by grind [read_eq_ok_iff]
  takes decoded state := ⟨_, read_eq_ok_iff.mpr (.inl ⟨rfl, _, decoded, rfl⟩)⟩
  other apart step := by grind [read_eq_ok_iff]

theorem fills_outputExtension :
    Fills read "output_extension" (Value.text "a string") outputExtension where
  own step := by grind [read_eq_ok_iff]
  takes decoded state := ⟨_, read_eq_ok_iff.mpr (.inr (.inl ⟨rfl, _, decoded, rfl⟩))⟩
  other apart step := by grind [read_eq_ok_iff]

theorem fills_outputDirectory : Fills read "output_directory" Value.path outputDirectory where
  own step := by grind [read_eq_ok_iff]
  takes decoded state := ⟨_, read_eq_ok_iff.mpr (.inr (.inr (.inl ⟨rfl, _, decoded, rfl⟩)))⟩
  other apart step := by grind [read_eq_ok_iff]

theorem read_other (name : String)
    (other : name ∉ ["inputs", "output_extension", "output_directory"]) (value : Value)
    (p : Gathered) : p.read name value = .ok p := by
  simp only [List.mem_cons, List.not_mem_nil, or_false, not_or] at other
  exact read_eq_ok_iff.mpr (.inr (.inr (.inr ⟨other.1, other.2.1, other.2.2, rfl⟩)))

theorem outputDirectory_eq_iff {dir? : Option Path} (distinct : (fields.map Prod.fst).Nodup)
    (done : readFields read {} fields = .ok p) : p.outputDirectory = dir? ↔
      fields.get? "output_directory" = dir?.map (fun dir => .string dir.text) ∧
        ∀ dir ∈ dir?, dir.IsText := by
  cases dir? with
  | none => simp [fills_outputDirectory.eq_none_iff rfl distinct done]
  | some dir =>
    rw [fills_outputDirectory.eq_some_iff rfl distinct done]
    simp [Value.path_eq_ok_iff, and_left_comm, and_comm]

end Gathered

/-- A table gives the rule that its two or three fields tell. -/
theorem ofValue_eq_ok_iff (table : value.fields? = some fields)
    (distinct : (fields.map Prod.fst).Nodup) : ofValue value = .ok rule ↔
      (∃ inputs, fields.get? "inputs" = some inputs ∧
        inputs.items? = some (rule.inputs.map fun input => .string input.text)) ∧
      fields.get? "output_extension" = some (.string rule.outputExtension) ∧
      fields.get? "output_directory" = rule.outputDirectory.map (fun dir => .string dir.text) ∧
      (∀ input ∈ rule.inputs, input.IsText) ∧ ∀ dir ∈ rule.outputDirectory, dir.IsText := by
  have steps : ofValue value = .ok rule ↔ ∃ p, readFields Gathered.read {} fields = .ok p ∧
      p.inputs = some rule.inputs ∧ p.outputExtension = some rule.outputExtension ∧
      p.outputDirectory = rule.outputDirectory := by
    obtain ⟨inputs, outputExtension, outputDirectory⟩ := rule
    simp [ofValue, Value.record?_of_fields table, bind_eq_ok_iff, require_eq_ok_iff, pure,
      Except.pure]
  rw [steps]
  constructor
  · rintro ⟨p, done, inputs, extension, directory⟩
    obtain ⟨items, found, decoded⟩ :=
      (Gathered.fills_inputs.eq_some_iff rfl distinct done).mp inputs
    obtain ⟨listed, spelled⟩ := Value.paths_eq_ok_iff.mp decoded
    obtain ⟨given, spelled'⟩ := (Gathered.outputDirectory_eq_iff distinct done).mp directory
    exact ⟨⟨items, found, listed⟩,
      (Gathered.fills_outputExtension.eq_iff rfl distinct done Value.text_eq_ok_iff).mp extension,
      given, spelled, spelled'⟩
  · rintro ⟨⟨items, inputs, texts⟩, extension, directory, spelled, spelled'⟩
    have listed := Value.paths_eq_ok_iff.mpr ⟨texts, spelled⟩
    have lists : ∀ value, fields.get? "inputs" = some value →
        ∃ inputs, value.paths = .ok inputs := by
      rw [inputs]
      rintro _ ⟨⟩
      exact ⟨_, listed⟩
    have extensions : ∀ value, fields.get? "output_extension" = some value →
        ∃ text, value.text "a string" = .ok text := by
      simp [extension, Value.text_eq_ok_iff]
    have directories : ∀ value, fields.get? "output_directory" = some value →
        ∃ dir, value.path = .ok dir := by
      intro value found
      rw [directory, Option.map_eq_some_iff] at found
      obtain ⟨dir, given, rfl⟩ := found
      exact ⟨dir, Value.path_eq_ok_iff.mpr ⟨rfl, spelled' dir given⟩⟩
    obtain ⟨p, done⟩ := exists_readFields distinct Gathered.read_other
      (List.forall_mem_cons.mpr ⟨Gathered.fills_inputs.readable lists,
        List.forall_mem_cons.mpr ⟨Gathered.fills_outputExtension.readable extensions,
          List.forall_mem_singleton.mpr (Gathered.fills_outputDirectory.readable directories)⟩⟩) {}
    exact ⟨p, done,
      (Gathered.fills_inputs.eq_some_iff rfl distinct done).mpr ⟨items, inputs, listed⟩,
      (Gathered.fills_outputExtension.eq_iff rfl distinct done Value.text_eq_ok_iff).mpr extension,
      (Gathered.outputDirectory_eq_iff distinct done).mpr ⟨directory, spelled'⟩⟩

theorem ofValue_ne_ok (noTable : value.fields? = none) (noArray : value.items? = none) :
    ofValue value ≠ .ok rule := by
  cases value with
  | braced closed fields => cases noTable
  | table kind fields => cases noTable
  | array items => cases noArray
  | tables latestFirst => cases noArray
  | _ => rintro ⟨⟩

end BatchRule

namespace Settings

variable {name : String} {value : Value} {p next : Gathered} {fields : Fields}
  {settings : Settings}

namespace Gathered

theorem read_eq_ok_iff : p.read name value = .ok next ↔
    (name = "scan" ∧ ∃ rule, ScanRule.ofValue value = .ok rule ∧
      { p with scan := some rule } = next) ∨
    (name = "batch" ∧ ∃ rule, BatchRule.ofValue value = .ok rule ∧
      { p with batch := some rule } = next) ∨
    (name ≠ "scan" ∧ name ≠ "batch" ∧ p = next) := by
  unfold read
  by_cases isScan : name = "scan"
  · simp [isScan, bind_eq_ok_iff, pure, Except.pure]
  · by_cases isBatch : name = "batch"
    · simp [isBatch, bind_eq_ok_iff, pure, Except.pure]
    · simp [isScan, isBatch, pure, Except.pure]

theorem fills_scan : Fills read "scan" ScanRule.ofValue scan where
  own step := by grind [read_eq_ok_iff]
  takes decoded state := ⟨_, read_eq_ok_iff.mpr (.inl ⟨rfl, _, decoded, rfl⟩)⟩
  other apart step := by grind [read_eq_ok_iff]

theorem fills_batch : Fills read "batch" BatchRule.ofValue batch where
  own step := by grind [read_eq_ok_iff]
  takes decoded state := ⟨_, read_eq_ok_iff.mpr (.inr (.inl ⟨rfl, _, decoded, rfl⟩))⟩
  other apart step := by grind [read_eq_ok_iff]

theorem read_other (name : String) (other : name ∉ ["scan", "batch"]) (value : Value)
    (p : Gathered) : p.read name value = .ok p := by
  simp only [List.mem_cons, List.not_mem_nil, or_false, not_or] at other
  exact read_eq_ok_iff.mpr (.inr (.inr ⟨other.1, other.2, rfl⟩))

end Gathered

/-- A document gives what its two parts give. -/
theorem ofFields_eq_ok_iff (distinct : (fields.map Prod.fst).Nodup) :
    ofFields fields = .ok settings ↔
      (∃ scan, fields.get? "scan" = some scan ∧ ScanRule.ofValue scan = .ok settings.scan) ∧
      ∃ batch, fields.get? "batch" = some batch ∧ BatchRule.ofValue batch = .ok settings.batch := by
  have steps : ofFields fields = .ok settings ↔ ∃ p, readFields Gathered.read {} fields = .ok p ∧
      p.scan = some settings.scan ∧ p.batch = some settings.batch := by
    obtain ⟨scan, batch⟩ := settings
    simp [ofFields, bind_eq_ok_iff, require_eq_ok_iff, pure, Except.pure]
  rw [steps]
  constructor
  · rintro ⟨p, done, scan, batch⟩
    exact ⟨(Gathered.fills_scan.eq_some_iff rfl distinct done).mp scan,
      (Gathered.fills_batch.eq_some_iff rfl distinct done).mp batch⟩
  · rintro ⟨⟨scan, found, scanned⟩, ⟨batch, found', listed⟩⟩
    have scans : ∀ value, fields.get? "scan" = some value →
        ∃ rule, ScanRule.ofValue value = .ok rule := by
      simp [found, scanned]
    have batches : ∀ value, fields.get? "batch" = some value →
        ∃ rule, BatchRule.ofValue value = .ok rule := by
      simp [found', listed]
    obtain ⟨p, done⟩ := exists_readFields distinct Gathered.read_other
      (List.forall_mem_cons.mpr ⟨Gathered.fills_scan.readable scans,
        List.forall_mem_singleton.mpr (Gathered.fills_batch.readable batches)⟩) {}
    exact ⟨p, done,
      (Gathered.fills_scan.eq_some_iff rfl distinct done).mpr ⟨scan, found, scanned⟩,
      (Gathered.fills_batch.eq_some_iff rfl distinct done).mpr ⟨batch, found', listed⟩⟩

/-- The settings that two tables tell of. -/
structure Described (settings : Settings) (scan batch : Fields) : Prop where
  minLength : scan.get? "min_length" = some (.integer settings.scan.minLength)
  suffix : scan.get? "suffix" = some (.string settings.scan.suffix)
  inputs : ∃ inputs, batch.get? "inputs" = some inputs ∧
    inputs.items? = some (settings.batch.inputs.map fun input => .string input.text)
  outputExtension :
    batch.get? "output_extension" = some (.string settings.batch.outputExtension)
  outputDirectory :
    batch.get? "output_directory" = settings.batch.outputDirectory.map fun dir => .string dir.text
  /-- A document is text, so the paths that it tells of are. -/
  spelled : settings.PathsSpelled

variable {file : Path} {fs : FileSystem} {text : String} {document scan batch : Fields}

theorem ofFields_eq_ok_iff_described (orderly : document.Orderly)
    (scans : document.table? "scan" = some scan) (batches : document.table? "batch" = some batch) :
    ofFields document = .ok settings ↔ settings.Described scan batch := by
  obtain ⟨scanValue, found, isTable⟩ := Option.bind_eq_some_iff.mp scans
  obtain ⟨batchValue, found', isTable'⟩ := Option.bind_eq_some_iff.mp batches
  have distinct := ((orderly.get? found).fields isTable).distinct
  have distinct' := ((orderly.get? found').fields isTable').distinct
  simp only [ofFields_eq_ok_iff orderly.distinct, found, found', Option.some.injEq,
    exists_eq_left', ScanRule.ofValue_eq_ok_iff isTable distinct,
    BatchRule.ofValue_eq_ok_iff isTable' distinct']
  have paths : settings.PathsSpelled ↔ (∀ input ∈ settings.batch.inputs, input.IsText) ∧
      ∀ dir ∈ settings.batch.outputDirectory, dir.IsText := by
    simp [PathsSpelled, Settings.paths, or_imp, forall_and]
  rw [← paths]
  constructor
  · rintro ⟨⟨minLength, suffix⟩, inputs, extension, directory, spelled⟩
    exact ⟨minLength, suffix, inputs, extension, directory, spelled⟩
  · rintro ⟨minLength, suffix, inputs, extension, directory, spelled⟩
    exact ⟨⟨minLength, suffix⟩, inputs, extension, directory, spelled⟩

/-- A document that lacks one of the two parts, or has something else in its place, gives no
settings. -/
theorem ofFields_ne_ok {key : String} (orderly : document.Orderly) (part : key ∈ ["scan", "batch"])
    (lacks : ∀ value, document.get? key = some value → value.fields? = none ∧ value.items? = none) :
    ofFields document ≠ .ok settings := by
  intro given
  obtain ⟨⟨scan, found, scanned⟩, batch, found', listed⟩ :=
    (ofFields_eq_ok_iff orderly.distinct).mp given
  rcases List.mem_pair.mp part with rfl | rfl
  · obtain ⟨noTable, noArray⟩ := lacks scan found
    exact ScanRule.ofValue_ne_ok noTable noArray scanned
  · obtain ⟨noTable, noArray⟩ := lacks batch found'
    exact BatchRule.ofValue_ne_ok noTable noArray listed

section

variable (there : fs.has file = true) (read : fs.readText file = .ok text)
include there read

theorem load_of_unparsed (refused : Toml.parse text = none) :
    load file fs = .error (.fileIllFormed file .illFormed) := by
  refine (Loads.illFormed there read ?_).load_eq
  rw [ofText, refused]

theorem load_eq_ok_iff_ofFields (parsed : Toml.parse text = some document) :
    load file fs = .ok settings ↔ ofFields document = .ok settings := by
  simp only [load, there, read, ofText, parsed]
  cases ofFields document <;> simp

theorem exists_fileIllFormed (parsed : Toml.parse text = some document)
    (refused : ∀ settings, ofFields document ≠ .ok settings) :
    ∃ diagnosis, load file fs = .error (.fileIllFormed file diagnosis) := by
  cases given : ofFields document with
  | ok settings => exact absurd given (refused settings)
  | error diagnosis =>
    refine ⟨diagnosis, (Loads.illFormed there read ?_).load_eq⟩
    rw [ofText, parsed]
    exact given

end

/-- A file gives exactly the settings that its two tables tell of, whatever else they and the
document hold; and as no key stands twice anywhere, the order does not matter. If they tell of none,
or one of them is missing, the file is reported to be at fault, as is one that is not there, cannot
be read, or holds no document. Only of arrays in the place of the two tables nothing is said. -/
theorem load_eq_ok_iff_described (file : Path) (fs : FileSystem) :
    (fs.has file = false → load file fs = .error (.fileMissing file)) ∧
    (∀ cause, fs.has file = true → fs.readText file = .error cause →
      load file fs = .error (.fileUnreadable file cause)) ∧
    ∀ text, fs.has file = true → fs.readText file = .ok text →
      (Toml.parse text = none → load file fs = .error (.fileIllFormed file .illFormed)) ∧
      ∀ document, Toml.parse text = some document → document.Orderly ∧
        (∀ scan batch, document.table? "scan" = some scan →
          document.table? "batch" = some batch →
          (∀ settings, load file fs = .ok settings ↔ settings.Described scan batch) ∧
          ((∀ settings : Settings, ¬ settings.Described scan batch) →
            ∃ diagnosis, load file fs = .error (.fileIllFormed file diagnosis))) ∧
        ∀ key ∈ ["scan", "batch"],
          (∀ value, document.get? key = some value →
            value.fields? = none ∧ value.items? = none) →
          ∃ diagnosis, load file fs = .error (.fileIllFormed file diagnosis) := by
  refine ⟨fun absent => (Loads.missing absent).load_eq,
    fun cause there failed => (Loads.unreadable there failed).load_eq, ?_⟩
  intro text there read
  refine ⟨load_of_unparsed there read, ?_⟩
  intro document parsed
  have orderly := orderly_parse parsed
  refine ⟨orderly, ?_, ?_⟩
  · intro scan batch scans batches
    constructor
    · intro settings
      rw [load_eq_ok_iff_ofFields there read parsed,
        ofFields_eq_ok_iff_described orderly scans batches]
    · intro nothing
      refine exists_fileIllFormed there read parsed fun settings given => nothing settings ?_
      exact (ofFields_eq_ok_iff_described orderly scans batches).mp given
  · intro key part lacks
    exact exists_fileIllFormed there read parsed fun settings => ofFields_ne_ok orderly part lacks

/-- A file system with one file. -/
def holding (text : String) : FileSystem :=
  FileSystem.blank.set ["work", "s.toml"] (.file (Text.bytes text))

theorem read_holding (text : String) :
    (holding text).read ⟨"s.toml"⟩ = .ok (Text.bytes text) := rfl

theorem readText_holding (text : String) : (holding text).readText ⟨"s.toml"⟩ = .ok text :=
  FileSystem.readText_of_read (read_holding text)

theorem has_holding (text : String) : (holding text).has ⟨"s.toml"⟩ = true :=
  FileSystem.has_of_read (read_holding text)

/-- The fields stand in no particular order and among others, and a name also where it means
nothing. -/
def strewn : String :=
  "scan.suffix = 's'\nscan.x = 0\nscan.min_length = 4\n" ++
  "[batch]\ninputs = ['b', 'a']\noutput_extension = 't'\n[[x.scan]]\n"

def strewnScan : Fields :=
  [("suffix", .string "s"), ("x", .integer 0), ("min_length", .integer 4)]

def strewnBatch : Fields :=
  [("inputs", .array [.string "b", .string "a"]), ("output_extension", .string "t")]

set_option maxRecDepth 4000 in
theorem parse_strewn : Toml.parse strewn = some [("scan", .table .dotted strewnScan),
    ("batch", .table .headed strewnBatch), ("x", .table .implied [("scan", .tables [[]])])] := by
  rfl

def belowZero : String :=
  "batch.x = 0\nscan.min_length = -1\n"

theorem parse_belowZero : Toml.parse belowZero = some
    [("batch", .table .dotted [("x", .integer 0)]),
      ("scan", .table .dotted [("min_length", .integer (-1))])] := by
  rfl

theorem load_eq_ok_iff_described_strewn :
    (holding strewn).has ⟨"s.toml"⟩ = true ∧
    (holding strewn).readText ⟨"s.toml"⟩ = .ok strewn ∧
    load ⟨"s.toml"⟩ (holding strewn) = .ok ⟨⟨4, "s"⟩, ⟨[⟨"b"⟩, ⟨"a"⟩], "t", none⟩⟩ ∧
    (∃ diagnosis, load ⟨"s.toml"⟩ (holding belowZero) =
      .error (.fileIllFormed ⟨"s.toml"⟩ diagnosis)) ∧
    load ⟨"t.toml"⟩ (holding strewn) = .error (.fileMissing ⟨"t.toml"⟩) := by
  refine ⟨has_holding strewn, readText_holding strewn, ?_, ?_, ?_⟩
  · have loads := ((load_eq_ok_iff_described _ _).2.2 _ (has_holding strewn)
      (readText_holding strewn)).2 _ parse_strewn
    refine ((loads.2.1 strewnScan strewnBatch rfl rfl).1 _).mpr ?_
    exact ⟨rfl, rfl, ⟨_, rfl, rfl⟩, rfl, rfl, by decide +kernel⟩
  · have loads := ((load_eq_ok_iff_described _ _).2.2 _ (has_holding belowZero)
      (readText_holding belowZero)).2 _ parse_belowZero
    refine (loads.2.1 _ _ rfl rfl).2 ?_
    rintro settings ⟨minLength, -⟩
    simp [Fields.get?] at minLength
  · refine (load_eq_ok_iff_described _ _).1 ?_
    rfl

end Settings

end ResourceNames
