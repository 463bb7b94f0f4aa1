import ResourceNames.Proofs.FilePlaces
import ResourceNames.Session

namespace ResourceNames

namespace FileSystem

variable {fs between other : FileSystem} {path : Path} {l : Location}

/-- The other has all that is in the one, and besides at most directories where nothing was. -/
structure GainsDirectories (fs other : FileSystem) : Prop where
  current : other.current = fs.current
  node : ∀ l, other.node? l = fs.node? l ∨
    fs.node? l = none ∧ other.node? l = some .directory

theorem GainsDirectories.refl (fs : FileSystem) : fs.GainsDirectories fs :=
  ⟨rfl, fun _ => .inl rfl⟩

theorem GainsDirectories.trans (first : fs.GainsDirectories between)
    (second : between.GainsDirectories other) : fs.GainsDirectories other := by
  refine ⟨second.current.trans first.current, fun l => ?_⟩
  rcases second.node l with same | ⟨free, made⟩
  · rw [same]
    exact first.node l
  · rcases first.node l with same | ⟨-, made⟩
    · exact .inr ⟨same ▸ free, made⟩
    · rw [made] at free
      cases free

theorem GainsDirectories.node?_of_ne_none (gains : fs.GainsDirectories other)
    (present : fs.node? l ≠ none) : other.node? l = fs.node? l := by
  rcases gains.node l with same | ⟨absent, -⟩
  · exact same
  · exact absurd absent present

theorem GainsDirectories.directoriesIn (gains : fs.GainsDirectories other) :
    fs.DirectoriesIn other where
  current := gains.current
  directory l directory := by
    have here := node?_of_isDirectoryAt directory
    have kept := gains.node?_of_ne_none (l := l) (by rw [here]; exact Option.some_ne_none _)
    exact decide_eq_true (kept.trans here)

/-- What can be read later was there to be read, unless the path led nowhere. -/
theorem GainsDirectories.read_back {content : List UInt8} (gains : fs.GainsDirectories other)
    (there : fs.has path = true) (read : other.read path = .ok content) :
    fs.read path = .ok content := by
  obtain ⟨l, node, located, holds, gives⟩ := read_eq_ok_iff.mp read
  cases found : fs.locate path with
  | error cause =>
    simp only [has, found] at there
    cases there
  | ok place =>
    have present : fs.node? place ≠ none → other.node? place ≠ none := fun here => by
      rwa [gains.node?_of_ne_none here]
    have same : place = l :=
      Except.ok.inj ((locate_mono gains.directoriesIn present found).symm.trans located)
    subst same
    rcases gains.node place with kept | ⟨-, made⟩
    · exact read_eq_ok_iff.mpr ⟨place, node, found, kept.symm.trans holds, gives⟩
    · cases made.symm.trans holds
      cases gives

/-- A directory is made in the slot of its path, if nothing is there. -/
theorem slot_of_makeDirectory (made : fs.makeDirectory path = .ok other) :
    ∃ l, fs.slot path = .ok (some l) ∧ tooLong l = false ∧ fs.node? l = none ∧
      other = fs.set l .directory := by
  unfold makeDirectory at made
  cases found : fs.slot path with
  | error cause =>
    rw [found] at made
    cases made
  | ok place? =>
    rw [found] at made
    cases place? with
    | none => cases made
    | some place =>
      dsimp only [Bind.bind, Except.bind] at made
      split at made
      · cases made
      · rename_i short
        split at made
        · cases made
        · rename_i absent
          cases made
          exact ⟨place, rfl, by simpa using short, by simpa using absent, rfl⟩

/-- A directory is made in a place where nothing was. -/
theorem makeDirectory_eq_ok (made : fs.makeDirectory path = .ok other) :
    ∃ l, fs.place? path = some l ∧ fs.node? l = none ∧ other = fs.set l .directory := by
  obtain ⟨l, slot, -, absent, rfl⟩ := slot_of_makeDirectory made
  obtain ⟨-, front, name, dir, named, walked, directory, notHere, notUp, rfl⟩ :=
    slot_eq_ok_some_iff.mp slot
  refine ⟨dir ++ [name], ?_, absent, rfl⟩
  refine place?_eq_some_iff.mpr ⟨front, name, dir, named, walked, directory, ?_⟩
  rw [towards, if_neg notHere, if_neg notUp]

/-- The root is taken. -/
theorem ne_nil_of_absent (absent : fs.node? l = none) : l ≠ [] := by
  rintro rfl
  cases absent

theorem makeDirectory_gains (made : fs.makeDirectory path = .ok other) :
    fs.GainsDirectories other := by
  obtain ⟨place, -, free, rfl⟩ := makeDirectory_eq_ok made
  refine ⟨rfl, fun l => ?_⟩
  by_cases here : place = l
  · subst here
    exact .inr ⟨free, node?_set_self fs _ (ne_nil_of_absent free)⟩
  · exact .inl (node?_set_of_ne _ here)

theorem makeEach_gains (paths : List Path) (fs : FileSystem) :
    fs.GainsDirectories (makeEach paths fs).2 := by
  induction paths generalizing fs with
  | nil => exact .refl fs
  | cons path paths ih =>
    unfold makeEach
    split
    · rename_i made
      exact (makeDirectory_gains made).trans (ih _)
    · split
      · exact ih fs
      · exact .refl fs

theorem makeUpward_gains (paths missing : List Path) (fs : FileSystem) :
    fs.GainsDirectories (makeUpward paths missing fs).2 := by
  induction paths generalizing missing with
  | nil => exact makeEach_gains missing fs
  | cons path above ih =>
    unfold makeUpward
    split
    · exact makeEach_gains missing fs
    · split
      · rename_i made
        exact (makeDirectory_gains made).trans (makeEach_gains missing _)
      · split
        · exact ih (path :: missing)
        · split
          · exact makeEach_gains missing fs
          · exact .refl fs

theorem upward_eq_cons (bound : Nat) (path : Path) :
    ∃ above, Path.ancestors.upward bound path = path :: above := by
  cases bound with
  | zero => exact ⟨[], rfl⟩
  | succ bound =>
    unfold Path.ancestors.upward
    split
    · exact ⟨[], rfl⟩
    · exact ⟨_, rfl⟩

theorem ancestors_eq_cons (path : Path) : ∃ above, path.ancestors = path :: above :=
  upward_eq_cons path.raw.length path

theorem ancestors_of_parent {parent : Path} (above : path.parent? = some parent) :
    ∃ others, path.ancestors = path :: parent :: others := by
  cases length : path.raw.length with
  | zero =>
    obtain ⟨raw⟩ := path
    cases List.length_eq_zero_iff.mp length
    cases above
  | succ bound =>
    obtain ⟨others, rest⟩ := upward_eq_cons bound parent
    refine ⟨others, ?_⟩
    simp [Path.ancestors, length, Path.ancestors.upward, above, rest]

/-- A directory of which only the last name is missing is made by itself. -/
theorem makeDirectories_of_ok (parted : path.parent?.isNone = false)
    (made : fs.makeDirectory path = .ok other) : makeDirectories path fs = (.ok (), other) := by
  obtain ⟨above, upward⟩ := ancestors_eq_cons path
  simp [makeDirectories, upward, makeUpward, parted, made, makeEach]

theorem makeDirectories_of_there (parted : path.parent?.isNone = false)
    (made : fs.makeDirectory path = .error .alreadyExists) (there : fs.isDirectory path = true) :
    makeDirectories path fs = (.ok (), fs) := by
  obtain ⟨above, upward⟩ := ancestors_eq_cons path
  have other : Cause.alreadyExists ≠ Cause.notFound := by decide
  simp [makeDirectories, upward, makeUpward, parted, made, there, other, makeEach]

/-- What is there is the root, is reached by a dot name, or stands in the slot of its path. -/
theorem slot_of_locate (located : fs.locate path = .ok l) :
    fs.slot path = .ok none ∨
      fs.slot path = .ok (some l) ∧ tooLong l = false ∧ fs.node? l ≠ none := by
  obtain ⟨accepted, walked, -⟩ := locate_eq_ok_iff.mp located
  rcases List.eq_nil_or_concat path.names with nameless | ⟨front, name, named⟩
  · left
    simp [slot, accepted, nameless, bind, Except.bind]
  · rw [List.concat_eq_append] at named
    rw [named, walk_append] at walked
    cases reached : fs.walk (fs.origin path) front with
    | error cause =>
      rw [reached] at walked
      cases walked
    | ok dir =>
      rw [reached] at walked
      dsimp only [walk] at walked
      cases entered : fs.enter dir name with
      | error cause =>
        rw [entered] at walked
        cases walked
      | ok next =>
        rw [entered] at walked
        cases walked
        obtain ⟨directory, rfl, proper⟩ := enter_eq_ok_iff.mp entered
        by_cases dots : name = [Path.dot] ∨ name = [Path.dot, Path.dot]
        · left
          simp [slot, accepted, named, reached, directory, dots, bind, Except.bind]
        · right
          obtain ⟨notHere, notUp⟩ := not_or.mp dots
          obtain ⟨short, present⟩ := proper notHere notUp
          have ends : towards dir name = dir ++ [name] := by
            rw [towards, if_neg notHere, if_neg notUp]
          refine ⟨slot_eq_ok_some_iff.mpr ⟨accepted, front, name, dir, named, reached, directory,
            notHere, notUp, ends⟩, ?_, present⟩
          simpa [ends, tooLong] using short

/-- What is there cannot be made. -/
theorem makeDirectory_of_has (there : fs.has path = true) :
    fs.makeDirectory path = .error .alreadyExists := by
  unfold has at there
  cases located : fs.locate path with
  | error cause =>
    rw [located] at there
    cases there
  | ok l =>
    rcases slot_of_locate located with taken | ⟨found, short, present⟩
    · simp [makeDirectory, taken, bind, Except.bind]
    · simp [makeDirectory, found, short, Option.isSome_iff_ne_none.mpr present, bind, Except.bind]

/-- A directory that cannot be made for want of something above it stays unmade when its parent is
there. -/
theorem makeUpward_of_there {parent : Path} (above : List Path)
    (around : parent.raw ≠ [] → fs.has parent = true)
    (missing : fs.makeDirectory path = .error .notFound) :
    (makeUpward (parent :: above) [path] fs).2 = fs := by
  have again : (makeEach [path] fs).2 = fs := by
    have other : Cause.notFound ≠ Cause.alreadyExists := by decide
    simp [makeEach, missing, other]
  unfold makeUpward
  split
  · exact again
  · rename_i parted
    have named : parent.raw ≠ [] := by
      intro empty
      refine parted ?_
      obtain ⟨raw⟩ := parent
      cases empty
      rfl
    rw [makeDirectory_of_has (around named)]
    have other : Cause.alreadyExists ≠ Cause.notFound := by decide
    simp only [other, if_false]
    split
    · exact again
    · rfl

/-- No more than the directory itself is made if its parent is there. -/
theorem makeDirectories_of_parent
    (around : ∀ parent ∈ path.parent?, parent.raw ≠ [] → fs.has parent = true) :
    (makeDirectories path fs).2 = fs ∨
      ∃ l, fs.place? path = some l ∧ fs.node? l = none ∧
        makeDirectories path fs = (.ok (), fs.set l .directory) := by
  cases above : path.parent? with
  | none =>
    left
    obtain ⟨others, upward⟩ := ancestors_eq_cons path
    simp [makeDirectories, upward, makeUpward, above, makeEach]
  | some parent =>
    have parted : path.parent?.isNone = false := by rw [above]; rfl
    cases made : fs.makeDirectory path with
    | ok other =>
      right
      obtain ⟨l, placed, free, rfl⟩ := makeDirectory_eq_ok made
      exact ⟨l, placed, free, makeDirectories_of_ok parted made⟩
    | error cause =>
      left
      obtain ⟨others, upward⟩ := ancestors_of_parent above
      have first : makeDirectories path fs =
          if cause = .notFound then makeUpward (parent :: others) [path] fs
          else if cause = .alreadyExists ∧ fs.isDirectory path then makeEach [] fs
          else (.error cause, fs) := by
        rw [makeDirectories, upward, makeUpward, parted, made]
        rfl
      rw [first]
      split
      · rename_i missing
        rw [missing] at made
        exact makeUpward_of_there others (around parent above) made
      · split <;> rfl

theorem isDirectory_iff : fs.isDirectory path = true ↔
    ∃ l, fs.locate path = .ok l ∧ fs.isDirectoryAt l = true := by
  unfold isDirectory
  cases fs.locate path <;> simp

theorem has_of_isDirectory (there : fs.isDirectory path = true) : fs.has path = true := by
  obtain ⟨l, located, -⟩ := isDirectory_iff.mp there
  rw [has, located]
  rfl

theorem DirectoriesIn.isDirectory (within : fs.DirectoriesIn other)
    (there : fs.isDirectory path = true) : other.isDirectory path = true := by
  obtain ⟨l, located, directory⟩ := isDirectory_iff.mp there
  have kept := within.directory l directory
  have present : fs.node? l ≠ none → other.node? l ≠ none := by
    intro _
    rw [node?_of_isDirectoryAt kept]
    exact Option.some_ne_none _
  exact isDirectory_iff.mpr ⟨l, locate_mono within present located, kept⟩

theorem isDirectory_of_made (made : fs.makeDirectory path = .ok other) :
    other.isDirectory path = true := by
  have within := (makeDirectory_gains made).directoriesIn
  obtain ⟨l, slot, short, absent, rfl⟩ := slot_of_makeDirectory made
  have holds := node?_set_self fs .directory (ne_nil_of_absent absent)
  have directory : (fs.set l .directory).isDirectoryAt l = true := decide_eq_true holds
  have present : (fs.set l .directory).node? l ≠ none := by
    rw [holds]
    exact Option.some_ne_none _
  exact isDirectory_iff.mpr
    ⟨l, locate_of_slot slot short within present fun _ => directory, directory⟩

theorem isDirectory_of_makeEach {paths : List Path} (made : makeEach paths fs = (.ok (), other)) :
    ∀ path ∈ paths, other.isDirectory path = true := by
  induction paths generalizing fs with
  | nil => exact fun _ member => absurd member List.not_mem_nil
  | cons path paths ih =>
    -- What is a directory before the others are made is one afterwards.
    have stays (between : FileSystem) (there : between.isDirectory path = true)
        (rest : makeEach paths between = (.ok (), other)) :
        ∀ one ∈ path :: paths, other.isDirectory one = true := by
      have gains := makeEach_gains paths between
      rw [rest] at gains
      exact List.forall_mem_cons.mpr ⟨gains.directoriesIn.isDirectory there, ih rest⟩
    unfold makeEach at made
    split at made
    · rename_i between first
      exact stays between (isDirectory_of_made first) made
    · split at made
      · rename_i already
        exact stays fs already.2 made
      · cases made

theorem isDirectory_of_makeUpward {paths missing : List Path}
    (made : makeUpward paths missing fs = (.ok (), other)) :
    ∀ path ∈ missing, other.isDirectory path = true := by
  induction paths generalizing missing with
  | nil => exact isDirectory_of_makeEach made
  | cons path above ih =>
    unfold makeUpward at made
    split at made
    · exact isDirectory_of_makeEach made
    · split at made
      · exact isDirectory_of_makeEach made
      · split at made
        · exact (List.forall_mem_cons.mp (ih made)).2
        · split at made
          · exact isDirectory_of_makeEach made
          · cases made

theorem isDirectory_of_makeDirectories (parted : path.parent?.isNone = false)
    (made : makeDirectories path fs = (.ok (), other)) : other.isDirectory path = true := by
  obtain ⟨above, upward⟩ := ancestors_eq_cons path
  rw [makeDirectories, upward, makeUpward, if_neg (by simp [parted])] at made
  split at made
  · rename_i between first
    cases made
    exact isDirectory_of_made first
  · split at made
    · exact isDirectory_of_makeUpward made path List.mem_cons_self
    · split at made
      · rename_i already
        cases made
        exact already.2
      · cases made

/-- To make a directory again changes nothing. -/
theorem makeDirectories_again {later : FileSystem}
    (made : makeDirectories path fs = (.ok (), other)) (within : other.DirectoriesIn later) :
    makeDirectories path later = (.ok (), later) := by
  cases parted : path.parent?.isNone with
  | true =>
    obtain ⟨above, upward⟩ := ancestors_eq_cons path
    simp [makeDirectories, upward, makeUpward, parted, makeEach]
  | false =>
    have there := within.isDirectory (isDirectory_of_makeDirectories parted made)
    exact makeDirectories_of_there parted (makeDirectory_of_has (has_of_isDirectory there)) there

end FileSystem

open FileSystem

theorem Session.makeRoom_gains (settings : Settings) (files : FileSystem) :
    files.GainsDirectories (makeRoom settings files).2 := by
  unfold makeRoom
  split
  · exact .refl files
  · exact makeUpward_gains _ [] files

/-- There is no room for the lists only if their directory cannot be written to. -/
theorem Session.makeRoom_error {settings : Settings} {files room : FileSystem} {failure : Failure}
    (refused : makeRoom settings files = (.error failure, room)) : failure.exitCode = 5 := by
  unfold makeRoom at refused
  split at refused
  · cases refused
  · rename_i dir given
    rcases made : files.makeDirectories dir with ⟨cause | ⟨⟩, left⟩
    · rw [made] at refused
      cases refused
      rfl
    · rw [made] at refused
      cases refused

theorem Session.makeRoom_again {settings : Settings} {files room later : FileSystem}
    (made : makeRoom settings files = (.ok (), room)) (within : room.DirectoriesIn later) :
    makeRoom settings later = (.ok (), later) := by
  unfold makeRoom at made ⊢
  cases given : settings.batch.outputDirectory with
  | none => rfl
  | some dir =>
    rw [given] at made
    rcases first : files.makeDirectories dir with ⟨cause | ⟨⟩, left⟩
    · simp only [first] at made
      cases made
    · simp only [first] at made
      cases made
      simp only [makeDirectories_again first within]
      rfl

end ResourceNames
