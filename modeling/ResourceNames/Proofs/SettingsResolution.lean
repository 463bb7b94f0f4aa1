import ResourceNames.Command
import ResourceNames.Proofs.PathNames
import ResourceNames.Proofs.SettingsOnDisk

namespace ResourceNames

theorem bind_eq_ok_iff {α β ε : Type} {first : Except ε α} {next : α → Except ε β} {b : β} :
    (first >>= next) = .ok b ↔ ∃ a, first = .ok a ∧ next a = .ok b := by
  cases first <;> simp [bind, Except.bind]

namespace FileSystem

variable {fs other : FileSystem} {path : Path} {l place : Location}

/-- The two differ at most in one place, and there only in a regular file. -/
structure SameBut (place : Location) (fs other : FileSystem) : Prop where
  skeleton : other.skeleton = fs.skeleton
  node : ∀ l, l ≠ place → other.node? l = fs.node? l

theorem SameBut.symm (same : fs.SameBut place other) : other.SameBut place fs :=
  ⟨same.skeleton.symm, fun l elsewhere => (same.node l elsewhere).symm⟩

/-- A path that does not lead to the place finds what it found. -/
theorem SameBut.locate (same : fs.SameBut place other) (elsewhere : fs.place? path ≠ some place)
    (located : fs.locate path = .ok l) :
    other.locate path = .ok l ∧ other.node? l = fs.node? l := by
  have within := directoriesIn_of_skeleton same.skeleton
  have kept : other.node? l = fs.node? l := by
    cases file : fs.isDirectoryAt l with
    | true =>
      rw [node?_of_isDirectoryAt file, node?_of_isDirectoryAt (within.directory l file)]
    | false =>
      refine same.node l fun here => elsewhere ?_
      rw [place?_of_locate file located, here]
  refine ⟨locate_mono within (fun present => ?_) located, kept⟩
  rwa [kept]

theorem SameBut.has (same : fs.SameBut place other) (elsewhere : fs.place? path ≠ some place) :
    other.has path = fs.has path := by
  have elsewhere' : other.place? path ≠ some place := by
    rwa [place?_of_skeleton same.skeleton]
  unfold FileSystem.has
  cases found : fs.locate path with
  | ok l =>
    rw [(same.locate elsewhere found).1]
  | error cause =>
    cases found' : other.locate path with
    | ok l =>
      rw [(same.symm.locate elsewhere' found').1] at found
      cases found
    | error cause' => rfl

theorem SameBut.readText (same : fs.SameBut place other)
    (elsewhere : fs.place? path ≠ some place) (there : fs.has path = true) :
    other.readText path = fs.readText path := by
  unfold FileSystem.has at there
  cases found : fs.locate path with
  | error cause =>
    rw [found] at there
    cases there
  | ok l =>
    obtain ⟨again, kept⟩ := same.locate elsewhere found
    rw [FileSystem.readText, FileSystem.readText, FileSystem.read, FileSystem.read, found, again]
    dsimp only [bind, Except.bind]
    rw [kept]

end FileSystem

namespace Settings

variable {settings : Settings} {file : Path} {fs other : FileSystem} {file? : Option Path}
  {result : Except Problem Settings}

/-- What a file with settings gives: the settings, or what is wrong with it. -/
inductive Loads (file : Path) (fs : FileSystem) : Except Problem Settings → Prop
  | missing (absent : fs.has file = false) : Loads file fs (.error (.fileMissing file))
  | unreadable {cause : Cause} (there : fs.has file = true)
      (read : fs.readText file = .error cause) :
      Loads file fs (.error (.fileUnreadable file cause))
  | illFormed {text : String} {diagnosis : Toml.Diagnosis} (there : fs.has file = true)
      (read : fs.readText file = .ok text) (refused : ofText text = .error diagnosis) :
      Loads file fs (.error (.fileIllFormed file diagnosis))
  | loaded {text : String} {settings : Settings} (there : fs.has file = true)
      (read : fs.readText file = .ok text) (described : ofText text = .ok settings) :
      Loads file fs (.ok settings)

theorem Loads.load_eq (loads : Loads file fs result) : load file fs = result := by
  cases loads with
  | missing absent => rw [load, absent]; rfl
  | unreadable there read => rw [load, there, read]; rfl
  | illFormed there read refused =>
    rw [load, there, read]
    dsimp only
    rw [refused]
    rfl
  | loaded there read described =>
    rw [load, there, read]
    dsimp only
    rw [described]
    rfl

theorem exists_loads (file : Path) (fs : FileSystem) : ∃ result, Loads file fs result := by
  cases there : fs.has file with
  | false => exact ⟨_, .missing there⟩
  | true =>
    cases read : fs.readText file with
    | error cause => exact ⟨_, .unreadable there read⟩
    | ok text =>
      cases described : ofText text with
      | error diagnosis => exact ⟨_, .illFormed there read described⟩
      | ok settings => exact ⟨_, .loaded there read described⟩

theorem loads_iff : Loads file fs result ↔ load file fs = result := by
  refine ⟨Loads.load_eq, ?_⟩
  rintro rfl
  obtain ⟨result, loads⟩ := exists_loads file fs
  rwa [loads.load_eq]

theorem load_sameBut {place : Location} (same : fs.SameBut place other)
    (elsewhere : fs.place? file ≠ some place) : load file other = load file fs := by
  unfold load
  rw [same.has elsewhere]
  cases there : fs.has file with
  | false => rfl
  | true => rw [same.readText elsewhere there]

/-- What there is before the wishes of the command line: the file that is named decides, else the
first of the usual files that is there, else the standard settings stand. -/
inductive Base (file? : Option Path) (fs : FileSystem) : Except Problem Settings → Prop
  | named {file : Path} {result : Except Problem Settings} (given : file? = some file)
      (loads : Loads file fs result) : Base file? fs result
  | usual {before behind : List Path} {file : Path} {result : Except Problem Settings}
      (unnamed : file? = none) (split : usualFiles = before ++ file :: behind)
      (missing : ∀ earlier ∈ before, fs.has earlier = false) (there : fs.has file = true)
      (loads : Loads file fs result) : Base file? fs result
  | standard (unnamed : file? = none) (missing : ∀ file ∈ usualFiles, fs.has file = false) :
      Base file? fs (.ok standard)

theorem base_iff : Base file? fs result ↔ loadOrStandard file? fs = result := by
  constructor
  · rintro (⟨rfl, loads⟩ | ⟨rfl, split, missing, there, loads⟩ | ⟨rfl, missing⟩)
    · exact loads_iff.mp loads
    · have first : usualFiles.find? fs.has = some _ :=
        List.find?_eq_some_iff_append.mpr ⟨there, _, _, split, by simpa using missing⟩
      simp only [loadOrStandard, Option.none_or, first]
      exact loads_iff.mp loads
    · have none : usualFiles.find? fs.has = none :=
        List.find?_eq_none.mpr (by simpa using missing)
      simp only [loadOrStandard, Option.none_or, none]
  · rintro rfl
    unfold loadOrStandard
    cases file? with
    | some file => exact .named rfl (loads_iff.mpr rfl)
    | none =>
      cases first : usualFiles.find? fs.has with
      | some file =>
        obtain ⟨there, before, behind, split, missing⟩ := List.find?_eq_some_iff_append.mp first
        exact .usual rfl split (by simpa using missing) there (loads_iff.mpr rfl)
      | none => exact .standard rfl (by simpa using List.find?_eq_none.mp first)

theorem isName_usual {usual : Path} (member : usual ∈ usualFiles) : Path.IsName usual.raw := by
  rcases (by simpa [usualFiles] using member :
    usual = .mk "seqrip.toml" ∨ usual = .mk "seqrip.config.toml" ∨ usual = .mk ".seqrip.toml") with
    rfl | rfl | rfl
  all_goals exact ⟨by decide, by decide, by decide, by decide⟩

/-- The usual files are in the working directory. -/
theorem place?_usual {usual : Path} {place : Location} (member : usual ∈ usualFiles)
    (found : fs.place? usual = some place) : place = fs.current ++ [usual.raw] := by
  have joined : usual = (⟨[]⟩ : Path).join ⟨usual.raw⟩ := by simp [Path.join]
  rw [joined, FileSystem.place?_join (isName_usual member)] at found
  obtain ⟨dir, walked, -, rfl⟩ := found
  cases walked
  rfl

/-- Two usual files are never in one place. -/
theorem eq_of_place?_usual {first second : Path} {place : Location} (member : first ∈ usualFiles)
    (member' : second ∈ usualFiles) (found : fs.place? first = some place)
    (found' : fs.place? second = some place) : first = second := by
  have ends := (place?_usual member found).symm.trans (place?_usual member' found')
  have same : first.raw = second.raw := by simpa using ends
  exact congrArg Path.ofRaw same

/-- The search for settings does not come to a file: one elsewhere is named, or one of the usual
files before it is there. -/
inductive Overlooks (file? : Option Path) (fs : FileSystem) (path : Path) : Prop
  | named {file : Path} (given : file? = some file)
      (elsewhere : fs.place? file ≠ fs.place? path)
  | later {before behind : List Path} {file : Path} (unnamed : file? = none)
      (split : usualFiles = before ++ file :: behind)
      (missing : ∀ earlier ∈ before, fs.has earlier = false) (there : fs.has file = true)
      (after : path ∈ behind)

/-- A file that the search does not come to can be made, changed and removed. -/
theorem loadOrStandard_sameBut {path : Path} {place : Location}
    (overlooked : Overlooks file? fs path) (found : fs.place? path = some place)
    (same : fs.SameBut place other) : loadOrStandard file? other = loadOrStandard file? fs := by
  rcases overlooked with
    ⟨rfl, elsewhere⟩ | @⟨before, behind, file, rfl, split, missing, there, after⟩
  · exact load_sameBut same (found ▸ elsewhere)
  · have apart : (before ++ file :: behind).Nodup := split ▸ by decide
    have elsewhere (early : Path) (front : early ∈ before ++ [file]) :
        fs.place? early ≠ some place := by
      intro here
      rw [← List.singleton_append, ← List.append_assoc] at split apart
      have early' : early ∈ usualFiles := split ▸ List.mem_append_left _ front
      have equal := eq_of_place?_usual early' (split ▸ List.mem_append_right _ after) here found
      exact (List.nodup_append.mp apart).2.2 early front path after equal
    have kept (early : Path) (front : early ∈ before ++ [file]) :
        other.has early = fs.has early := same.has (elsewhere early front)
    have last : file ∈ before ++ [file] := List.mem_append_right _ (List.mem_singleton_self file)
    -- In both the search ends at this file.
    have ends {within : FileSystem} (missing : ∀ earlier ∈ before, within.has earlier = false)
        (there : within.has file = true) : loadOrStandard none within = load file within :=
      base_iff.mp (.usual rfl split missing there (loads_iff.mpr rfl))
    rw [ends missing there, ends _ (by rw [kept file last, there]),
      load_sameBut same (elsewhere file last)]
    intro earlier front
    rw [kept earlier (List.mem_append_left _ front), missing earlier front]

/-- A batch can be run with the settings. -/
structure Fit (settings : Settings) (fs : FileSystem) : Prop where
  minLength : 1 ≤ settings.scan.minLength
  suffix : settings.scan.suffix ≠ ""
  inputs : settings.batch.inputs ≠ []
  outputExtension : settings.batch.outputExtension ≠ ""
  /-- The directory for the lists may be missing, but not the one that it stands in. -/
  outputDirectory : ∀ dir ∈ settings.batch.outputDirectory, ∀ parent ∈ dir.parent?,
    parent.raw ≠ [] → fs.has parent = true

theorem refuse_eq_ok_iff {condition : Prop} [Decidable condition] {problem : Problem}
    {otherwise : Except Problem Unit} :
    (if condition then .error problem else otherwise) = .ok () ↔
      ¬ condition ∧ otherwise = .ok () := by
  by_cases holds : condition <;> simp [holds]

theorem check_eq_ok_iff : settings.check fs = .ok () ↔ settings.Fit fs := by
  unfold check
  simp only [refuse_eq_ok_iff]
  constructor
  · rintro ⟨minLength, suffix, inputs, outputExtension, around⟩
    refine ⟨Nat.one_le_iff_ne_zero.mpr minLength, suffix, inputs, outputExtension, ?_⟩
    intro dir given parent above nonempty
    rw [Option.bind_eq_some_iff.mpr ⟨dir, given, above⟩] at around
    simpa [nonempty] using (refuse_eq_ok_iff.mp around).1
  · rintro ⟨minLength, suffix, inputs, outputExtension, around⟩
    refine ⟨Nat.one_le_iff_ne_zero.mp minLength, suffix, inputs, outputExtension, ?_⟩
    split
    · rfl
    · rename_i parent found
      obtain ⟨dir, given, above⟩ := Option.bind_eq_some_iff.mp found
      refine refuse_eq_ok_iff.mpr ⟨?_, rfl⟩
      rintro ⟨nonempty, absent⟩
      simp [around dir given parent above nonempty] at absent

end Settings

namespace Arguments

variable {arguments : Arguments} {base settings : Settings} {fs : FileSystem}

/-- The settings are what there was, but for the wishes of the command line. -/
structure Amends (arguments : Arguments) (base settings : Settings) : Prop where
  minLength : settings.scan.minLength = arguments.minLength.getD base.scan.minLength
  suffix : settings.scan.suffix = arguments.suffix.getD base.scan.suffix
  inputs : settings.batch.inputs =
    if arguments.inputs = [] then base.batch.inputs else arguments.inputs
  outputExtension : settings.batch.outputExtension = base.batch.outputExtension
  outputDirectory : settings.batch.outputDirectory =
    arguments.outputDirectory.or base.batch.outputDirectory

theorem amends_iff : arguments.Amends base settings ↔
    settings = base.merge arguments.overrides := by
  have inputs : (base.merge arguments.overrides).batch.inputs =
      if arguments.inputs = [] then base.batch.inputs else arguments.inputs := by
    cases given : arguments.inputs <;> simp [Settings.merge, overrides, given]
  constructor
  · intro amends
    obtain ⟨⟨minLength, suffix⟩, ⟨paths, outputExtension, outputDirectory⟩⟩ := settings
    obtain ⟨rfl, rfl, rfl, rfl, rfl⟩ := amends
    rw [← inputs]
    rfl
  · rintro rfl
    exact ⟨rfl, rfl, inputs, rfl, rfl⟩

theorem settings_eq_ok_iff : arguments.settings fs = .ok settings ↔
    ∃ base, Settings.Base arguments.config fs (.ok base) ∧ arguments.Amends base settings ∧
      settings.Fit fs := by
  have steps : arguments.settings fs = .ok settings ↔
      ∃ base, Settings.loadOrStandard arguments.config fs = .ok base ∧
        ∃ done, (base.merge arguments.overrides).check fs = .ok done ∧
          base.merge arguments.overrides = settings := by
    simp only [Arguments.settings, bind_eq_ok_iff, pure, Except.pure, Except.ok.injEq]
  simp only [steps, Settings.base_iff, amends_iff, ← Settings.check_eq_ok_iff]
  constructor
  · rintro ⟨base, loaded, done, fit, rfl⟩
    exact ⟨base, loaded, rfl, fit⟩
  · rintro ⟨base, loaded, rfl, fit⟩
    exact ⟨base, loaded, (), fit, rfl⟩

/-- Where the settings of a command line come from. A file that is named, or else the first usual
file that is there, or else the standard settings are what the wishes amend; a file at fault is
reported and no other is looked for, and files that the search does not come to have no influence.
What must be fit for a batch is only what comes out. No file is changed, also not by the whole
command if there are no settings. -/
theorem settings_of_sources (arguments : Arguments) (fs : FileSystem) :
    (∃! base, Settings.Base arguments.config fs base) ∧
    (∀ problem, Settings.Base arguments.config fs (.error problem) →
      arguments.settings fs = .error problem) ∧
    (∀ settings, arguments.settings fs = .ok settings ↔
      ∃ base, Settings.Base arguments.config fs (.ok base) ∧ arguments.Amends base settings ∧
        settings.Fit fs) ∧
    (∀ path place other, Settings.Overlooks arguments.config fs path →
      fs.place? path = some place → fs.SameBut place other →
      ∀ base, Settings.Base arguments.config other base ↔
        Settings.Base arguments.config fs base) ∧
    (arguments.generateConfig = false → ∀ problem, arguments.settings fs = .error problem →
      (Command.execute arguments fs).files = fs ∧
        (Command.execute arguments fs).records = (Failure.config problem).records) := by
  refine ⟨?_, ?_, fun settings => settings_eq_ok_iff, ?_, ?_⟩
  · exact ⟨_, Settings.base_iff.mpr rfl, fun base given => (Settings.base_iff.mp given).symm⟩
  · intro problem fault
    rw [Arguments.settings, Settings.base_iff.mp fault]
    rfl
  · intro path place other overlooked found same base
    rw [Settings.base_iff, Settings.base_iff,
      Settings.loadOrStandard_sameBut overlooked found same]
  · intro works problem refused
    simp only [Command.execute, works, refused, Bool.false_eq_true, if_false]
    exact ⟨rfl, rfl⟩

/-- Settings that are not fit for a batch. -/
def unfit : Settings :=
  { Settings.standard with scan := ⟨0, ".SEQ"⟩ }

theorem settings_of_sources_mended : ∃ fs : FileSystem,
    Settings.Base none fs (.ok unfit) ∧ ¬ unfit.Fit fs ∧
    ({ minLength := some 4 } : Arguments).settings fs = .ok Settings.standard := by
  have writable : FileSystem.blank.Writable ⟨"seqrip.toml"⟩ := by
    refine ⟨["work", "seqrip.toml"], ?_⟩
    decide +kernel
  have countable : unfit.QuotesCountable := Settings.quotesCountable_iff.mpr (by decide +kernel)
  have spelled : unfit.PathsSpelled := by decide +kernel
  obtain ⟨fs, -, loaded⟩ :=
    Settings.loadAgain_of_writable (by decide) spelled countable writable
  have base : Settings.Base none fs (.ok unfit) := by
    have loads := Settings.loads_iff.mpr loaded
    cases loads with
    | loaded there read described =>
      exact .usual rfl rfl (List.forall_mem_nil _) there (.loaded there read described)
  have unusable : ¬ unfit.Fit fs := fun fit => absurd fit.minLength (by decide)
  refine ⟨fs, base, unusable, ?_⟩
  refine ((settings_of_sources _ fs).2.2.1 Settings.standard).mpr ⟨unfit, base, ?_, ?_⟩
  · exact ⟨rfl, rfl, rfl, rfl, rfl⟩
  · refine ⟨by decide, by decide, by decide, by decide, ?_⟩
    intro dir given
    cases given

end Arguments

end ResourceNames
