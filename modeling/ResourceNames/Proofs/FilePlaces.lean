import ResourceNames.Proofs.FileWriting

namespace ResourceNames

theorem Path.isAbsolute_of_names_eq_nil {path : Path} (named : path.raw ≠ [])
    (nameless : path.names = []) : path.isAbsolute = true := by
  cases bytes : path.raw with
  | nil => exact absurd bytes named
  | cons byte rest =>
    by_cases here : byte = slash
    · simp [isAbsolute, bytes, here]
    · -- A path that begins with another byte has a first segment that is a name.
      have segment : ∃ first others, segments (byte :: rest) = (byte :: first) :: others := by
        rw [segments, if_neg here]
        cases segments rest with
        | nil => exact ⟨[], [], rfl⟩
        | cons first others => exact ⟨first, others, rfl⟩
      obtain ⟨first, others, split⟩ := segment
      simp [names, bytes, split] at nameless

/-- What reading a node gives, if it can be read. -/
def Node.bytes? : Node → Option (List UInt8)
  | .file content => some content
  | .directory => none
  | .special none _ => some []
  | .special (some _) _ => none

namespace FileSystem

/-- Where a name leads from a directory, whether or not something stands there. -/
def towards (dir : Location) (name : RawText) : Location :=
  if name = [Path.dot] then dir
  else if name = [Path.dot, Path.dot] then dir.dropLast
  else dir ++ [name]

/-- The place to which a path leads. All names but the last have to lead through directories; at
the place itself there may be anything or nothing. -/
def place? (fs : FileSystem) (path : Path) : Option Location :=
  match path.names.getLast? with
  | none => none
  | some name =>
    match fs.walk (fs.origin path) path.names.dropLast with
    | .error _ => none
    | .ok dir => if fs.isDirectoryAt dir then some (towards dir name) else none

/-- Opening the path for writing leaves an empty file. Otherwise it fails or opens a special file,
which keeps nothing of what it is given. -/
def Writable (fs : FileSystem) (path : Path) : Prop :=
  ∃ l, fs.create path = .ok (l, fs.set l (.file []))

/-- What there is besides regular files, and where the program works. -/
def skeleton (fs : FileSystem) : Location × (Location → Option Node) :=
  (fs.current, fun l => (fs.node? l).filter fun node => !node matches .file _)

variable {fs other : FileSystem} {path : Path} {l : Location}

theorem node?_set_of_ne {at_ : Location} (node : Node) (different : at_ ≠ l) :
    (fs.set at_ node).node? l = fs.node? l := by
  unfold node? set
  rw [Catalog.find?_insert, if_neg different]

section Walking

theorem walk_append (first second : List RawText) (l : Location) :
    fs.walk l (first ++ second) =
      match fs.walk l first with
      | .error cause => .error cause
      | .ok between => fs.walk between second := by
  induction first generalizing l with
  | nil => rfl
  | cons name names ih =>
    simp only [List.cons_append, walk]
    cases fs.enter l name with
    | error cause => rfl
    | ok next => exact ih next

theorem enter_eq_ok_iff {name : RawText} {next : Location} :
    fs.enter l name = .ok next ↔ fs.isDirectoryAt l = true ∧ next = towards l name ∧
      (name ≠ [Path.dot] → name ≠ [Path.dot, Path.dot] →
        name.length ≤ maxName ∧ fs.node? next ≠ none) := by
  constructor
  · intro entered
    unfold enter at entered
    split at entered
    · cases entered
    · rename_i directory
      refine ⟨by simpa using directory, ?_⟩
      split at entered
      · rename_i here
        cases entered
        exact ⟨by rw [towards, if_pos here], fun notHere => absurd here notHere⟩
      · rename_i notHere
        split at entered
        · rename_i up
          cases entered
          exact ⟨by rw [towards, if_neg notHere, if_pos up], fun _ notUp => absurd up notUp⟩
        · rename_i notUp
          split at entered
          · cases entered
          · rename_i short
            split at entered
            · cases entered
            · rename_i present
              cases entered
              refine ⟨by rw [towards, if_neg notHere, if_neg notUp], fun _ _ => ⟨?_, ?_⟩⟩
              · exact Nat.le_of_not_lt short
              · simpa using present
  · rintro ⟨directory, rfl, named⟩
    unfold enter
    by_cases here : name = [Path.dot]
    · simp [directory, here, towards]
    · by_cases up : name = [Path.dot, Path.dot]
      · simp [directory, up, towards]
      · have beyond : towards l name = l ++ [name] := by rw [towards, if_neg here, if_neg up]
        obtain ⟨short, present⟩ := named here up
        rw [beyond] at present ⊢
        simp [directory, here, up, Nat.not_lt.mpr short, present]

/-- All directories of the one are directories of the other, and both work in the same place. -/
structure DirectoriesIn (fs other : FileSystem) : Prop where
  current : other.current = fs.current
  directory : ∀ l, fs.isDirectoryAt l = true → other.isDirectoryAt l = true

theorem node?_of_isDirectoryAt (directory : fs.isDirectoryAt l = true) :
    fs.node? l = some .directory :=
  of_decide_eq_true directory

/-- A walk needs the directories on its way, and something at its end. -/
theorem walk_mono {names : List RawText} {start : Location} (within : fs.DirectoriesIn other)
    (present : fs.node? l ≠ none → other.node? l ≠ none) (walked : fs.walk start names = .ok l) :
    other.walk start names = .ok l := by
  induction names generalizing start with
  | nil => exact walked
  | cons name names ih =>
    cases entered : fs.enter start name with
    | error cause => simp only [walk, entered] at walked; cases walked
    | ok next =>
      simp only [walk, entered] at walked
      obtain ⟨directory, reached, named⟩ := enter_eq_ok_iff.mp entered
      have there : fs.node? next ≠ none → other.node? next ≠ none := by
        cases names with
        | nil =>
          cases walked
          exact present
        | cons following names =>
          -- The walk goes on from here, so here is a directory.
          cases onward : fs.enter next following with
          | error cause => simp only [walk, onward] at walked; cases walked
          | ok further =>
            have between := within.directory next (enter_eq_ok_iff.mp onward).1
            intro _
            rw [node?_of_isDirectoryAt between]
            exact Option.some_ne_none _
      have again : other.enter start name = .ok next :=
        enter_eq_ok_iff.mpr ⟨within.directory start directory, reached, fun notHere notUp =>
          (named notHere notUp).imp_right there⟩
      simp only [walk, again]
      exact ih walked

theorem walk_to_directory {names : List RawText} {start : Location}
    (within : fs.DirectoriesIn other) (directory : fs.isDirectoryAt l = true)
    (walked : fs.walk start names = .ok l) : other.walk start names = .ok l := by
  refine walk_mono within (fun _ => ?_) walked
  rw [node?_of_isDirectoryAt (within.directory l directory)]
  exact Option.some_ne_none _

theorem DirectoriesIn.origin (within : fs.DirectoriesIn other) (path : Path) :
    other.origin path = fs.origin path := by
  simp only [FileSystem.origin, within.current]

end Walking

theorem locate_eq_ok_iff : fs.locate path = .ok l ↔
    accept path = .ok () ∧ fs.walk (fs.origin path) path.names = .ok l ∧
      (path.endsWithSlash = true → fs.isDirectoryAt l = true) := by
  unfold locate
  cases accept path with
  | error cause => simp [bind, Except.bind]
  | ok accepted =>
    cases fs.walk (fs.origin path) path.names with
    | error cause => simp [bind, Except.bind]
    | ok found =>
      cases path.endsWithSlash <;> cases directory : fs.isDirectoryAt found <;>
        simp [bind, Except.bind, directory]
      · rintro rfl
        exact directory
      · rintro rfl
        exact directory

theorem locate_mono (within : fs.DirectoriesIn other)
    (present : fs.node? l ≠ none → other.node? l ≠ none) (located : fs.locate path = .ok l) :
    other.locate path = .ok l := by
  obtain ⟨accepted, walked, slash⟩ := locate_eq_ok_iff.mp located
  refine locate_eq_ok_iff.mpr ⟨accepted, ?_, fun ends => within.directory l (slash ends)⟩
  rw [within.origin]
  exact walk_mono within present walked

theorem place?_eq_some_iff : fs.place? path = some l ↔
    ∃ front name dir, path.names = front ++ [name] ∧
      fs.walk (fs.origin path) front = .ok dir ∧ fs.isDirectoryAt dir = true ∧
      l = towards dir name := by
  rcases List.eq_nil_or_concat path.names with nameless | ⟨front, name, named⟩
  · simp [place?, nameless]
  · have last : path.names.getLast? = some name := by simp [named]
    have others : path.names.dropLast = front := by simp [named]
    simp only [place?, last, others]
    constructor
    · intro found
      cases walked : fs.walk (fs.origin path) front with
      | error cause => simp [walked] at found
      | ok dir =>
        simp only [walked, Option.ite_none_right_eq_some, Option.some.injEq] at found
        exact ⟨front, name, dir, by simp [named], walked, found.1, found.2.symm⟩
    · rintro ⟨front', name', dir, named', walked, directory, rfl⟩
      have same : front ++ [name] = front' ++ [name'] := by simpa [named] using named'
      obtain ⟨rfl, rest⟩ := List.append_inj' same rfl
      cases rest
      simp [walked, directory]

theorem place?_mono (within : fs.DirectoriesIn other) (found : fs.place? path = some l) :
    other.place? path = some l := by
  obtain ⟨front, name, dir, named, walked, directory, rfl⟩ := place?_eq_some_iff.mp found
  refine place?_eq_some_iff.mpr ⟨front, name, dir, named, ?_, within.directory dir directory, rfl⟩
  rw [within.origin]
  exact walk_to_directory within directory walked

theorem place?_congr (within : fs.DirectoriesIn other) (back : other.DirectoriesIn fs) :
    other.place? path = fs.place? path :=
  Option.ext fun _ => ⟨place?_mono back, place?_mono within⟩

/-- The location of a file is the place to which its path leads. -/
theorem place?_of_locate (file : fs.isDirectoryAt l = false) (located : fs.locate path = .ok l) :
    fs.place? path = some l := by
  obtain ⟨accepted, walked, slash⟩ := locate_eq_ok_iff.mp located
  rcases List.eq_nil_or_concat path.names with nameless | ⟨front, name, named⟩
  · -- A path without a name is the root.
    have named : path.raw ≠ [] := by
      intro empty
      simp [accept, empty] at accepted
    have absolute := path.isAbsolute_of_names_eq_nil named nameless
    rw [nameless, origin, if_pos absolute] at walked
    cases walked
    cases file
  · rw [List.concat_eq_append] at named
    rw [named, walk_append] at walked
    cases reached : fs.walk (fs.origin path) front with
    | error cause =>
      rw [reached] at walked
      cases walked
    | ok dir =>
      rw [reached] at walked
      dsimp only [walk] at walked
      cases entered : fs.enter dir name with
      | error cause =>
        rw [entered] at walked
        cases walked
      | ok next =>
        rw [entered] at walked
        cases walked
        obtain ⟨directory, towards, _⟩ := enter_eq_ok_iff.mp entered
        exact place?_eq_some_iff.mpr ⟨front, name, dir, named, reached, directory, towards⟩

theorem read_eq_ok_iff {content : List UInt8} : fs.read path = .ok content ↔
    ∃ l node, fs.locate path = .ok l ∧ fs.node? l = some node ∧ node.bytes? = some content := by
  unfold read
  cases fs.locate path with
  | error cause => simp [bind, Except.bind]
  | ok l =>
    simp only [bind, Except.bind, Except.ok.injEq, exists_and_left, exists_eq_left']
    cases fs.node? l with
    | none => simp
    | some node =>
      rcases node with content | _ | ⟨_ | cause, onWrite?⟩ <;> simp [Node.bytes?]

/-- Reading needs the directories and the file itself to be the same. -/
theorem read_mono {content : List UInt8} (within : fs.DirectoriesIn other)
    (same : ∀ l, fs.locate path = .ok l → fs.isDirectoryAt l = false → other.node? l = fs.node? l)
    (read : fs.read path = .ok content) : other.read path = .ok content := by
  obtain ⟨l, node, located, holds, gives⟩ := read_eq_ok_iff.mp read
  have file : fs.isDirectoryAt l = false := by
    simp only [isDirectoryAt, holds, Option.some.injEq, decide_eq_false_iff_not]
    rintro rfl
    cases gives
  have kept := same l located file
  refine read_eq_ok_iff.mpr ⟨l, node, locate_mono within ?_ located, kept.trans holds, gives⟩
  rw [kept]
  exact id

theorem slot_eq_ok_some_iff : fs.slot path = .ok (some l) ↔
    accept path = .ok () ∧ ∃ front name dir, path.names = front ++ [name] ∧
      fs.walk (fs.origin path) front = .ok dir ∧ fs.isDirectoryAt dir = true ∧
      name ≠ [Path.dot] ∧ name ≠ [Path.dot, Path.dot] ∧ l = dir ++ [name] := by
  unfold slot
  cases accept path with
  | error cause => simp [bind, Except.bind]
  | ok accepted =>
    rcases List.eq_nil_or_concat path.names with nameless | ⟨front, name, named⟩
    · simp [bind, Except.bind, nameless]
    · simp only [named, List.concat_eq_append, List.getLast?_concat, List.dropLast_concat, bind,
        Except.bind]
      constructor
      · intro found
        cases walked : fs.walk (fs.origin path) front with
        | error cause => simp [walked] at found
        | ok dir =>
          simp only [walked] at found
          split at found
          · cases found
          · rename_i directory
            split at found
            · cases found
            · rename_i proper
              cases found
              exact ⟨trivial, front, name, dir, rfl, walked, by simpa using directory,
                fun here => proper (.inl here), fun up => proper (.inr up), rfl⟩
      · rintro ⟨-, front', name', dir, same, walked, directory, notHere, notUp, rfl⟩
        obtain ⟨rfl, rest⟩ := List.append_inj' same rfl
        cases rest
        simp [walked, directory, notHere, notUp]

/-- What has been opened for writing has a proper name in a directory that is there. It is a special
file, opened as it is, or is now an empty file. -/
theorem create_eq_ok {after : FileSystem} (opened : fs.create path = .ok (l, after)) :
    fs.slot path = .ok (some l) ∧ path.endsWithSlash = false ∧ tooLong l = false ∧
      ((∃ onRead? onWrite?, fs.node? l = some (.special onRead? onWrite?) ∧ after = fs) ∨
        (fs.skeleton.2 l = none ∧ after = fs.set l (.file []))) := by
  unfold create at opened
  cases found : fs.slot path with
  | error cause =>
    rw [found] at opened
    cases opened
  | ok place? =>
    rw [found] at opened
    cases place? with
    | none => cases opened
    | some place =>
      dsimp only [Bind.bind, Except.bind] at opened
      split at opened
      · cases opened
      · rename_i unslashed
        split at opened
        · cases opened
        · rename_i short
          have ending : path.endsWithSlash = false := by simpa using unslashed
          have length : tooLong place = false := by simpa using short
          cases here : fs.node? place with
          | none =>
            rw [here] at opened
            cases opened
            exact ⟨rfl, ending, length, .inr ⟨by simp [skeleton, here], rfl⟩⟩
          | some node =>
            cases node with
            | file content =>
              rw [here] at opened
              cases opened
              exact ⟨rfl, ending, length, .inr ⟨by simp [skeleton, here], rfl⟩⟩
            | directory =>
              rw [here] at opened
              cases opened
            | special onRead? onWrite? =>
              rw [here] at opened
              cases opened
              exact ⟨rfl, ending, length, .inl ⟨onRead?, onWrite?, here, rfl⟩⟩

theorem place?_of_create {after : FileSystem} (opened : fs.create path = .ok (l, after)) :
    fs.place? path = some l := by
  obtain ⟨-, front, name, dir, named, walked, directory, notHere, notUp, rfl⟩ :=
    slot_eq_ok_some_iff.mp (create_eq_ok opened).1
  refine place?_eq_some_iff.mpr ⟨front, name, dir, named, walked, directory, ?_⟩
  rw [towards, if_neg notHere, if_neg notUp]

/-- What comes to stand in the slot of a path is found under it. -/
theorem locate_of_slot (slot : fs.slot path = .ok (some l)) (short : tooLong l = false)
    (within : fs.DirectoriesIn other) (present : other.node? l ≠ none)
    (slash : path.endsWithSlash = true → other.isDirectoryAt l = true) :
    other.locate path = .ok l := by
  obtain ⟨accepted, front, name, dir, named, walked, directory, notHere, notUp, rfl⟩ :=
    slot_eq_ok_some_iff.mp slot
  have entered : other.enter dir name = .ok (dir ++ [name]) := by
    refine enter_eq_ok_iff.mpr ⟨within.directory dir directory, ?_, fun _ _ => ⟨?_, present⟩⟩
    · rw [towards, if_neg notHere, if_neg notUp]
    · simpa [tooLong] using short
  refine locate_eq_ok_iff.mpr ⟨accepted, ?_, slash⟩
  rw [named, walk_append, within.origin, walk_to_directory within directory walked]
  simp only [walk, entered]

/-- What stands at a place that has been opened for writing is read under the same path. -/
theorem read_of_create {after : FileSystem} {content : List UInt8}
    (opened : fs.create path = .ok (l, after)) (within : fs.DirectoriesIn other)
    (holds : other.node? l = some (.file content)) : other.read path = .ok content := by
  obtain ⟨slot, unslashed, short, _⟩ := create_eq_ok opened
  have present : other.node? l ≠ none := by
    rw [holds]
    exact Option.some_ne_none _
  have located : other.locate path = .ok l :=
    locate_of_slot slot short within present fun ends => absurd ends (by simp [unslashed])
  exact read_eq_ok_iff.mpr ⟨_, _, located, holds, rfl⟩

theorem isDirectoryAt_skeleton (fs : FileSystem) (l : Location) :
    fs.isDirectoryAt l = true ↔ fs.skeleton.2 l = some .directory := by
  simp only [isDirectoryAt, decide_eq_true_eq, skeleton, Option.filter_eq_some_iff]
  simp

theorem directoriesIn_of_skeleton (same : other.skeleton = fs.skeleton) :
    fs.DirectoriesIn other where
  current := congrArg Prod.fst same
  directory l := by rw [isDirectoryAt_skeleton, isDirectoryAt_skeleton, same]; exact id

theorem place?_of_skeleton (same : other.skeleton = fs.skeleton) (path : Path) :
    other.place? path = fs.place? path :=
  place?_congr (directoriesIn_of_skeleton same) (directoriesIn_of_skeleton same.symm)

/-- The root is taken. -/
theorem ne_nil_of_free (free : fs.skeleton.2 l = none) : l ≠ [] := by
  rintro rfl
  simp [skeleton, node?] at free

theorem skeleton_set_file (content : List UInt8) (free : fs.skeleton.2 l = none) :
    (fs.set l (.file content)).skeleton = fs.skeleton := by
  refine Prod.ext rfl (funext fun m => ?_)
  by_cases here : l = m
  · subst here
    rw [free]
    simp [skeleton, node?_set_self fs _ (ne_nil_of_free free)]
  · simp only [skeleton, node?_set_of_ne _ here]

/-- Writing fails without a trace, or it leaves the content in a regular file at the place of the
path, or a special file takes it. -/
theorem write_cases (path : Path) (content : List UInt8) (fs : FileSystem) :
    (∃ cause, fs.write path content = (.error cause, fs)) ∨
      fs.write path content = (.ok (), fs) ∨
      ∃ l, fs.place? path = some l ∧ fs.skeleton.2 l = none ∧
        fs.write path content = (.ok (), fs.set l (.file content)) := by
  cases opened : fs.create path with
  | error cause => exact .inl ⟨cause, by rw [write, opened]⟩
  | ok place =>
    obtain ⟨l, after⟩ := place
    obtain ⟨-, -, -, ⟨onRead?, onWrite?, special, rfl⟩ | ⟨free, rfl⟩⟩ := create_eq_ok opened
    · simp only [write, opened, openFile, special]
      cases onWrite? with
      | none => exact .inr (.inl rfl)
      | some cause =>
        dsimp only
        split
        · exact .inr (.inl rfl)
        · exact .inl ⟨cause, rfl⟩
    · exact .inr (.inr ⟨l, place?_of_create opened, free,
        write_of_create opened (ne_nil_of_free free) content⟩)

theorem Writable.free (writable : fs.Writable path) :
    ∃ l, fs.create path = .ok (l, fs.set l (.file [])) ∧ fs.skeleton.2 l = none := by
  obtain ⟨l, opened⟩ := writable
  obtain ⟨-, -, -, ⟨onRead?, onWrite?, special, same⟩ | ⟨free, -⟩⟩ := create_eq_ok opened
  · have inner : l ≠ [] := by
      rintro rfl
      cases special
    have emptied := node?_set_self fs (.file []) inner
    rw [same, special] at emptied
    cases emptied
  · exact ⟨l, opened, free⟩

end FileSystem
end ResourceNames
