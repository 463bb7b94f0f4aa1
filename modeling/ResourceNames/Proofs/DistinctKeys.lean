import Mathlib.Data.List.Nodup
import ResourceNames.Proofs.DocumentReading

namespace ResourceNames.Toml

/-- Neither the value nor one inside it is a table that has a key twice. -/
inductive Value.Orderly : Value → Prop
  | string (text : String) : Orderly (.string text)
  | integer (value : Int) : Orderly (.integer value)
  | float (value : Binary64) : Orderly (.float value)
  | boolean (value : Bool) : Orderly (.boolean value)
  | moment : Orderly .moment
  | array {items : List Value} (each : ∀ item ∈ items, Orderly item) : Orderly (.array items)
  | braced {closed : Bool} {fields : Fields} (distinct : (fields.map Prod.fst).Nodup)
      (each : ∀ field ∈ fields, Orderly field.2) : Orderly (.braced closed fields)
  | table {kind : TableKind} {fields : Fields} (distinct : (fields.map Prod.fst).Nodup)
      (each : ∀ field ∈ fields, Orderly field.2) : Orderly (.table kind fields)
  | tables {latestFirst : List Fields}
      (distinct : ∀ fields ∈ latestFirst, (fields.map Prod.fst).Nodup)
      (each : ∀ fields ∈ latestFirst, ∀ field ∈ fields, Orderly field.2) :
      Orderly (.tables latestFirst)

namespace Fields

/-- No key stands twice among the fields, nor in a table inside them. -/
structure Orderly (fields : Fields) : Prop where
  distinct : (fields.map Prod.fst).Nodup
  each : ∀ field ∈ fields, field.2.Orderly

end Fields

namespace Value

variable {fields : Fields} {kind : TableKind} {closed : Bool} {latestFirst : List Fields}

@[simp] theorem orderly_braced : (Value.braced closed fields).Orderly ↔ fields.Orderly := by
  constructor
  · intro orderly
    cases orderly with
    | braced distinct each => exact ⟨distinct, each⟩
  · rintro ⟨distinct, each⟩
    exact .braced distinct each

@[simp] theorem orderly_table : (Value.table kind fields).Orderly ↔ fields.Orderly := by
  constructor
  · intro orderly
    cases orderly with
    | table distinct each => exact ⟨distinct, each⟩
  · rintro ⟨distinct, each⟩
    exact .table distinct each

@[simp] theorem orderly_tables :
    (Value.tables latestFirst).Orderly ↔ ∀ fields ∈ latestFirst, fields.Orderly := by
  constructor
  · intro orderly fields member
    cases orderly with
    | tables distinct each => exact ⟨distinct fields member, each fields member⟩
  · intro all
    exact .tables (fun fields member => (all fields member).distinct)
      fun fields member => (all fields member).each

end Value

namespace Fields

variable {fields after : Fields} {key : String} {value : Value}

theorem mem_of_get? (found : fields.get? key = some value) : (key, value) ∈ fields := by
  obtain ⟨⟨name, value⟩, first, rfl⟩ := Option.map_eq_some_iff.mp found
  have named : name = key := by simpa using List.find?_some first
  exact named ▸ List.mem_of_find?_eq_some first

theorem get?_cons_self : Fields.get? ((key, value) :: fields) key = some value := by
  simp [get?]

theorem get?_cons_of_ne {name : String} (other : name ≠ key) :
    Fields.get? ((name, value) :: fields) key = fields.get? key := by
  simp [get?, other]

theorem get?_of_mem (distinct : (fields.map Prod.fst).Nodup) (member : (key, value) ∈ fields) :
    fields.get? key = some value := by
  induction fields with
  | nil => cases member
  | cons field fields ih =>
    obtain ⟨apart, distinct⟩ := List.nodup_cons.mp distinct
    rcases List.mem_cons.mp member with rfl | member
    · exact get?_cons_self
    · have other : field.1 ≠ key := fun same => apart (same ▸ List.mem_map_of_mem member)
      exact (get?_cons_of_ne other).trans (ih distinct member)

theorem Orderly.nil : Orderly [] :=
  ⟨List.nodup_nil, by simp⟩

theorem Orderly.get? (orderly : fields.Orderly) (found : fields.get? key = some value) :
    value.Orderly :=
  orderly.each _ (mem_of_get? found)

theorem Orderly.append (orderly : fields.Orderly) (fresh : ¬ fields.any fun field => field.1 == key)
    (inside : value.Orderly) : (fields ++ [(key, value)] : Fields).Orderly := by
  constructor
  · have absent : key ∉ fields.map Prod.fst := by simpa using fresh
    rw [List.map_append]
    exact List.Nodup.append orderly.distinct (List.nodup_singleton key)
      (List.disjoint_singleton.mpr absent)
  · intro field member
    rcases List.mem_append.mp member with member | member
    · exact orderly.each field member
    · rw [List.mem_singleton.mp member]
      exact inside

theorem Orderly.set (orderly : fields.Orderly) (inside : value.Orderly) :
    (fields.set key value).Orderly := by
  unfold Fields.set
  split
  · constructor
    · have keys : (fields.map fun field => if field.1 == key then (key, value) else field).map
          Prod.fst = fields.map Prod.fst := by
        rw [List.map_map]
        refine List.map_congr_left fun field _ => ?_
        by_cases same : field.1 = key <;> simp [same]
      rw [keys]
      exact orderly.distinct
    · intro field member
      obtain ⟨old, there, rfl⟩ := List.mem_map.mp member
      split
      · exact inside
      · exact orderly.each old there
  · exact orderly.append ‹_› inside

theorem Orderly.add? (orderly : fields.Orderly) (inside : value.Orderly)
    (added : fields.add? key value = some after) : after.Orderly := by
  unfold Fields.add? at added
  split at added
  · cases added
  · cases added
    exact orderly.append ‹_› inside

theorem Orderly.remove (orderly : fields.Orderly) : (fields.remove key).Orderly := by
  have part : (fields.remove key).Sublist fields := List.filter_sublist
  exact ⟨orderly.distinct.sublist (part.map _), fun field member =>
    orderly.each field (part.subset member)⟩

/-- A change leaves tables orderly and gives only what has the property. -/
def Keeps {α : Type} (P : α → Prop) (change : Fields → Option (α × Fields)) : Prop :=
  ∀ fields result after, fields.Orderly → change fields = some (result, after) →
    P result ∧ after.Orderly

variable {α : Type} {P : α → Prop}

/-- A change at the end of a path keeps what it keeps there: by induction on the path, of which each
step puts the changed table back into the one around it. -/
theorem Keeps.descend {dotted : Bool} {change : Bool → Fields → Option (α × Fields)}
    (keeps : ∀ isDotted, Keeps P (change isDotted)) (path : List String) (isDotted : Bool) :
    Keeps P (Fields.descend dotted change path isDotted) := by
  induction path generalizing isDotted with
  | nil => exact keeps isDotted
  | cons key path ih =>
    intro fields result after orderly changed
    rw [Fields.descend] at changed
    split at changed
    · obtain ⟨⟨result, inner⟩, deeper, ⟨⟩⟩ := Option.bind_eq_some_iff.mp changed
      obtain ⟨given, inside⟩ := ih _ _ _ _ .nil deeper
      exact ⟨given, orderly.set (Value.orderly_table.mpr inside)⟩
    · rename_i kind inner found
      split at changed
      · cases changed
      · obtain ⟨⟨result, inner'⟩, deeper, ⟨⟩⟩ := Option.bind_eq_some_iff.mp changed
        obtain ⟨given, inside⟩ := ih _ _ _ _ (Value.orderly_table.mp (orderly.get? found)) deeper
        exact ⟨given, orderly.set (Value.orderly_table.mpr inside)⟩
    · cases changed
    · rename_i latest earlier found
      obtain ⟨⟨result, inner⟩, deeper, ⟨⟩⟩ := Option.bind_eq_some_iff.mp changed
      have all := Value.orderly_tables.mp (orderly.get? found)
      obtain ⟨given, inside⟩ := ih _ _ _ _ (all latest List.mem_cons_self) deeper
      refine ⟨given, orderly.set (Value.orderly_tables.mpr ?_)⟩
      exact List.forall_mem_cons.mpr ⟨inside, (List.forall_mem_cons.mp all).2⟩
    · cases changed

theorem Orderly.descend {dotted isDotted : Bool} {change : Bool → Fields → Option (α × Fields)}
    {path : List String} {result : α} (orderly : fields.Orderly)
    (keeps : ∀ isDotted inner result after, Fields.Orderly inner →
      change isDotted inner = some (result, after) → Fields.Orderly after)
    (changed : Fields.descend dotted change path isDotted fields = some (result, after)) :
    after.Orderly := by
  refine (Keeps.descend (P := fun _ => True) ?_ path isDotted _ _ _ orderly changed).2
  intro isDotted inner result after orderly changed
  exact ⟨trivial, keeps isDotted inner result after orderly changed⟩

theorem Orderly.define? {path : List String} (orderly : fields.Orderly) (inside : value.Orderly)
    (defined : fields.define? path key value = some after) : after.Orderly := by
  obtain ⟨⟨result, inner⟩, changed, rfl⟩ := Option.map_eq_some_iff.mp defined
  refine orderly.descend (fun isDotted fields result after orderly changed => ?_) changed
  split at changed
  · cases changed
  · obtain ⟨inner, added, ⟨⟩⟩ := Option.map_eq_some_iff.mp changed
    exact orderly.add? inside added

theorem Orderly.defineBraced? {path : List String} (orderly : fields.Orderly)
    (inside : value.Orderly) (defined : defineBraced? path key value fields = some after) :
    after.Orderly := by
  induction path generalizing fields after with
  | nil => exact orderly.add? inside defined
  | cons step path ih =>
    rw [Fields.defineBraced?] at defined
    split at defined
    · obtain ⟨inner, deeper, ⟨⟩⟩ := Option.bind_eq_some_iff.mp defined
      exact orderly.set (Value.orderly_braced.mpr (ih .nil deeper))
    · rename_i inner found
      obtain ⟨inner', deeper, ⟨⟩⟩ := Option.bind_eq_some_iff.mp defined
      have before := Value.orderly_braced.mp (orderly.get? found)
      exact orderly.set (Value.orderly_braced.mpr (ih before deeper))
    · cases defined

end Fields

/-- All that the reader gives has the property. -/
def Gives {α : Type} (P : α → Prop) (reader : Reader α) : Prop :=
  ∀ text result rest, reader text = some (result, rest) → P result

variable {α : Type} {P : α → Prop} {reader : Reader α} {item : Reader Value} {bound : Nat}

theorem Gives.separated (gives : Gives P reader) (separator : Char) (fuel : Nat) :
    Gives (fun results => ∀ result ∈ results, P result) (separated reader separator fuel) := by
  induction fuel with
  | zero =>
    intro text results rest read
    cases read
  | succ fuel ih =>
    intro text results rest read
    rw [Toml.separated] at read
    split at read
    · cases read
    · rename_i first behind found
      have head := gives _ _ _ found
      split at read
      · cases read
        exact List.forall_mem_singleton.mpr head
      · split at read
        · cases read
          exact List.forall_mem_singleton.mpr head
        · rename_i others rest onward
          cases read
          exact List.forall_mem_cons.mpr ⟨head, ih _ _ _ onward⟩

theorem Gives.getD_separated (gives : Gives P reader) (separator : Char) (fuel : Nat)
    (text : List Char) :
    ∀ result ∈ ((Toml.separated reader separator fuel text).getD ([], text)).1, P result := by
  cases read : Toml.separated reader separator fuel text with
  | none => simp
  | some found => exact gives.separated separator fuel _ _ _ read

theorem gives_array (gives : Gives Value.Orderly item) :
    Gives Value.Orderly (array bound item) := by
  intro text result rest read
  obtain ⟨rest, closed, ⟨⟩⟩ := Option.map_eq_some_iff.mp read
  refine .array (Gives.getD_separated ?_ ',' bound text)
  intro text result rest read
  obtain ⟨⟨value, behind⟩, found, ⟨⟩⟩ := Option.map_eq_some_iff.mp read
  exact gives _ _ _ found

theorem gives_pair (gives : Gives Value.Orderly item) :
    Gives (fun found => found.2.2.Orderly) (pair item) := by
  intro text result rest read
  obtain ⟨⟨parts, _⟩, -, read⟩ := Option.bind_eq_some_iff.mp read
  obtain ⟨_, -, read⟩ := Option.bind_eq_some_iff.mp read
  obtain ⟨⟨value, _⟩, found, ⟨⟩⟩ := Option.bind_eq_some_iff.mp read
  exact gives _ _ _ found

/-- Pairs that are added one after the other leave a table orderly. -/
theorem orderly_foldlM {pairs : List (List String × String × Value)} {fields after : Fields}
    (orderly : fields.Orderly) (inside : ∀ found ∈ pairs, found.2.2.Orderly)
    (added : (pairs.foldlM (fun fields (path, last, value) =>
      Fields.defineBraced? path last value fields) fields) = some after) : after.Orderly := by
  induction pairs generalizing fields with
  | nil =>
    cases added
    exact orderly
  | cons found pairs ih =>
    obtain ⟨head, tail⟩ := List.forall_mem_cons.mp inside
    rw [List.foldlM_cons] at added
    obtain ⟨between, defined, added⟩ := Option.bind_eq_some_iff.mp added
    exact ih (orderly.defineBraced? head defined) tail added

theorem gives_braced (gives : Gives Value.Orderly item) :
    Gives Value.Orderly (braced bound item) := by
  intro text result rest read
  obtain ⟨rest, -, read⟩ := Option.bind_eq_some_iff.mp read
  obtain ⟨fields, added, ⟨⟩⟩ := Option.bind_eq_some_iff.mp read
  refine Value.orderly_braced.mpr (orderly_foldlM .nil ?_ added)
  refine Gives.getD_separated ?_ ',' bound text
  intro text result rest read
  obtain ⟨⟨value, behind⟩, found, ⟨⟩⟩ := Option.map_eq_some_iff.mp read
  exact gives_pair gives _ _ _ found

theorem gives_scalar : Gives Value.Orderly scalar := by
  intro text result rest read
  unfold scalar at read
  split at read
  · obtain ⟨found, -, ⟨⟩⟩ := Option.map_eq_some_iff.mp read
    exact .string _
  · obtain ⟨found, -, ⟨⟩⟩ := Option.map_eq_some_iff.mp read
    exact .string _
  · cases read
    exact .boolean _
  · cases read
    exact .boolean _
  · split at read
    · cases read
      exact .moment
    · split at read
      · cases read
        exact .float _
      · obtain ⟨found, -, ⟨⟩⟩ := Option.map_eq_some_iff.mp read
        exact .integer _

theorem gives_value (bound depth : Nat) : Gives Value.Orderly (value bound depth) := by
  induction depth with
  | zero => exact gives_scalar
  | succ depth ih =>
    intro text result rest read
    cases text with
    | nil => exact gives_scalar _ _ _ read
    | cons c text =>
      by_cases isArray : c = '['
      · subst isArray
        exact gives_array ih _ _ _ read
      · by_cases isBraced : c = '{'
        · subst isBraced
          exact gives_braced ih _ _ _ read
        · rw [value_of_head isArray isBraced] at read
          exact gives_scalar _ _ _ read

namespace Draft

variable {draft next : Draft} {path : List String}

/-- The tables that are complete are orderly, and so is the one that is open. -/
structure Orderly (draft : Draft) : Prop where
  complete : draft.complete.Orderly
  fields : draft.fields.Orderly

theorem Orderly.start : start.Orderly :=
  ⟨.nil, .nil⟩

theorem Orderly.close? {document : Fields} (orderly : draft.Orderly)
    (closed : draft.close? = some document) : document.Orderly := by
  unfold Draft.close? at closed
  split at closed
  · cases closed
    exact orderly.fields
  · rename_i header opened
    obtain ⟨⟨result, after⟩, changed, rfl⟩ := Option.map_eq_some_iff.mp closed
    refine orderly.complete.descend (fun isDotted parent result after before changed => ?_) changed
    split at changed
    · split at changed
      · rename_i earlier found
        cases changed
        refine before.set (Value.orderly_tables.mpr ?_)
        exact List.forall_mem_cons.mpr ⟨orderly.fields, Value.orderly_tables.mp (before.get? found)⟩
      · cases changed
    · obtain ⟨parent, added, ⟨⟩⟩ := Option.map_eq_some_iff.mp changed
      exact before.add? (Value.orderly_table.mpr orderly.fields) added

theorem Orderly.openTable? (orderly : draft.Orderly) (opened : draft.openTable? path = some next) :
    next.Orderly := by
  obtain ⟨complete, closed, opened⟩ := Option.bind_eq_some_iff.mp opened
  obtain ⟨⟨fields, complete⟩, changed, ⟨⟩⟩ := Option.bind_eq_some_iff.mp opened
  suffices kept : Fields.Orderly fields ∧ Fields.Orderly complete from ⟨kept.2, kept.1⟩
  refine Fields.Keeps.descend ?_ path.dropLast false _ _ _ (orderly.close? closed) changed
  intro isDotted parent result after before changed
  dsimp only at changed
  split at changed
  · cases changed
    exact ⟨.nil, before⟩
  · rename_i fields found
    cases changed
    exact ⟨Value.orderly_table.mp (before.get? found), before.remove⟩
  · cases changed

theorem Orderly.openRepeated? (orderly : draft.Orderly)
    (opened : draft.openRepeated? path = some next) : next.Orderly := by
  obtain ⟨complete, closed, opened⟩ := Option.bind_eq_some_iff.mp opened
  obtain ⟨⟨result, complete⟩, changed, ⟨⟩⟩ := Option.bind_eq_some_iff.mp opened
  refine ⟨(orderly.close? closed).descend ?_ changed, .nil⟩
  intro isDotted parent result after before changed
  split at changed
  · cases changed
    exact before.set (Value.orderly_tables.mpr (by simp))
  · cases changed
    exact before
  · cases changed

theorem Orderly.define? {last : String} {value : Value} (orderly : draft.Orderly)
    (inside : value.Orderly) (defined : draft.define? path last value = some next) :
    next.Orderly := by
  obtain ⟨fields, added, ⟨⟩⟩ := Option.bind_eq_some_iff.mp defined
  exact ⟨orderly.complete, orderly.fields.define? inside added⟩

end Draft

variable {draft next : Draft} {text rest : List Char}

theorem Draft.Orderly.header? (orderly : draft.Orderly)
    (read : Toml.header? draft text = some (next, rest)) : next.Orderly := by
  unfold Toml.header? at read
  split at read
  · obtain ⟨⟨path, _⟩, -, read⟩ := Option.bind_eq_some_iff.mp read
    obtain ⟨_, -, read⟩ := Option.bind_eq_some_iff.mp read
    obtain ⟨_, -, read⟩ := Option.bind_eq_some_iff.mp read
    obtain ⟨next, opened, ⟨⟩⟩ := Option.bind_eq_some_iff.mp read
    exact orderly.openRepeated? opened
  · obtain ⟨⟨path, _⟩, -, read⟩ := Option.bind_eq_some_iff.mp read
    obtain ⟨_, -, read⟩ := Option.bind_eq_some_iff.mp read
    obtain ⟨next, opened, ⟨⟩⟩ := Option.bind_eq_some_iff.mp read
    exact orderly.openTable? opened

theorem Draft.Orderly.expression? (orderly : draft.Orderly)
    (read : Toml.expression? bound draft text = some (next, rest)) : next.Orderly := by
  unfold Toml.expression? at read
  split at read
  · cases read
    exact orderly
  · cases read
    exact orderly
  · cases read
    exact orderly
  · exact orderly.header? read
  · obtain ⟨⟨⟨path, last, value⟩, _⟩, found, read⟩ := Option.bind_eq_some_iff.mp read
    obtain ⟨next, defined, ⟨⟩⟩ := Option.bind_eq_some_iff.mp read
    exact orderly.define? (gives_pair (gives_value _ _) _ _ _ found) defined

/-- Line after line the draft stays orderly. -/
theorem orderly_lines {fuel : Nat} {document : Fields} (orderly : draft.Orderly)
    (read : lines bound fuel draft text = some document) : document.Orderly := by
  induction fuel generalizing draft text with
  | zero => cases read
  | succ fuel ih =>
    rw [lines] at read
    split at read
    · exact orderly.close? read
    · obtain ⟨⟨next, _⟩, line, read⟩ := Option.bind_eq_some_iff.mp read
      obtain ⟨_, -, read⟩ := Option.bind_eq_some_iff.mp read
      exact ih (orderly.expression? line) read

/-- Whatever the text of a document is, none of its tables has a key twice. -/
theorem orderly_parse {text : String} {document : Fields} (read : parse text = some document) :
    document.Orderly :=
  orderly_lines .start read

end ResourceNames.Toml
