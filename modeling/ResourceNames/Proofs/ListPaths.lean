import Mathlib.Data.List.Forall2
import ResourceNames.Proofs.PathNames
import ResourceNames.Proofs.RawTexts
import ResourceNames.Session
import ResourceNames.Settings.Store

namespace ResourceNames

section Each

variable {α β ε : Type} {f : α → Except ε β} {xs : List α}

/-- Every item has its result, if all go well. -/
theorem mapM_eq_ok_iff {ys : List β} :
    xs.mapM f = .ok ys ↔ List.Forall₂ (fun x y => f x = .ok y) xs ys := by
  induction xs generalizing ys with
  | nil => cases ys <;> simp [pure, Except.pure]
  | cons x xs ih =>
    rw [List.mapM_cons]
    cases first : f x with
    | error cause => cases ys <;> simp [bind, Except.bind, first]
    | ok y =>
      cases rest : xs.mapM f with
      | error cause => cases ys <;> simp [bind, Except.bind, ← ih, first, rest]
      | ok others => cases ys <;> simp [bind, Except.bind, pure, Except.pure, ← ih, first, rest]

/-- The first item that fails decides. -/
theorem mapM_eq_error_iff {cause : ε} :
    xs.mapM f = .error cause ↔ ∃ before x behind, xs = before ++ x :: behind ∧
      (∀ earlier ∈ before, ∃ y, f earlier = .ok y) ∧ f x = .error cause := by
  constructor
  · intro failed
    induction xs with
    | nil => cases failed
    | cons x xs ih =>
      rw [List.mapM_cons] at failed
      cases first : f x with
      | error other =>
        rw [first] at failed
        cases failed
        exact ⟨[], x, xs, rfl, fun _ member => absurd member List.not_mem_nil, first⟩
      | ok y =>
        cases rest : xs.mapM f with
        | error other =>
          rw [first, rest] at failed
          cases failed
          obtain ⟨before, bad, behind, rfl, well, stuck⟩ := ih rest
          refine ⟨x :: before, bad, behind, rfl, ?_, stuck⟩
          exact List.forall_mem_cons.mpr ⟨⟨y, first⟩, well⟩
        | ok others =>
          rw [first, rest] at failed
          cases failed
  · rintro ⟨before, x, behind, rfl, well, stuck⟩
    induction before with
    | nil =>
      rw [List.nil_append, List.mapM_cons, stuck]
      rfl
    | cons earlier before ih =>
      obtain ⟨⟨y, first⟩, others⟩ := List.forall_mem_cons.mp well
      rw [List.cons_append, List.mapM_cons, first, ih others]
      rfl

end Each

namespace Path

/-- A name with an extension behind a dot. -/
def dotted (name extension : RawText) : RawText :=
  name ++ dot :: extension

variable {path : Path} {name extension : RawText}

theorem isName_dotted (proper : IsName name) (plain : slash ∉ extension) :
    IsName (dotted name extension) := by
  obtain ⟨nonempty, slashless, notHere, -⟩ := proper
  unfold dotted
  refine ⟨by simp, ?_, ?_, ?_⟩
  · rw [List.mem_append, List.mem_cons, not_or, not_or]
    exact ⟨slashless, by decide, plain⟩
  · intro same
    rcases List.append_eq_singleton_iff.mp same with ⟨empty, -⟩ | ⟨-, rest⟩
    · exact nonempty empty
    · cases rest
  · intro same
    cases name with
    | nil => exact nonempty rfl
    | cons first rest =>
      obtain ⟨rfl, behind⟩ := List.cons.inj same
      cases rest with
      | nil => exact notHere rfl
      | cons second more => simp at behind

/-- What is put behind a dot at the end of a path. -/
def extend (path : Path) (extension : RawText) : Path :=
  ⟨dotted path.raw extension⟩

theorem isAbsolute_extend (path : Path) (extension : RawText) :
    (path.extend extension).isAbsolute = path.isAbsolute := by
  rw [isAbsolute, isAbsolute, extend, dotted]
  cases path.raw with
  | nil => rfl
  | cons first rest => rfl

theorem segments_extend {front : List RawText} {last : RawText} (plain : slash ∉ extension)
    (ends : segments path.raw = front ++ [last]) :
    segments (path.extend extension).raw = front ++ [dotted last extension] := by
  have behind : slash ∉ dot :: extension := by
    rw [List.mem_cons, not_or]
    exact ⟨by decide, plain⟩
  exact segments_append ends (segments_plain behind)

theorem fileName?_extend (named : path.fileName? = some name) (plain : slash ∉ extension)
    (suffix : name <:+ path.raw) :
    (path.extend extension).fileName? = some (dotted name extension) := by
  have proper := isName_of_fileName? named
  obtain ⟨front, ends⟩ := last_segment_of_fileName? named suffix
  exact (fileName?_of_last (isName_dotted proper plain) (segments_extend plain ends)).2

/-- A path is called by its file name and the extension only if no slash comes with the extension
and nothing stands behind the file name. -/
theorem of_fileName?_extend (named : path.fileName? = some name)
    (extended : (path.extend extension).fileName? = some (dotted name extension)) :
    slash ∉ extension ∧ name <:+ path.raw := by
  have whole := (isName_of_fileName? extended).plain
  rw [dotted, List.mem_append, List.mem_cons, not_or, not_or] at whole
  obtain ⟨-, -, plain⟩ := whole
  refine ⟨plain, ?_⟩
  obtain ⟨front, last, ends, suffix⟩ := exists_last_segment path.raw
  have split := segments_extend plain ends
  have slashless : slash ∉ dotted last extension :=
    plain_of_mem_segments (by rw [split]; simp)
  have components := components_of_last split
  have last? := fileName?_eq_some_iff.mp extended
  rw [components] at last?
  cases found : Component.ofSegment? front.isEmpty (dotted last extension) with
  | some component =>
    rw [found, Option.toList_some, List.getLast?_concat] at last?
    cases last?
    obtain ⟨-, same⟩ := (Component.ofSegment?_eq_some_named slashless).mp found
    rwa [List.append_cancel_right same] at suffix
  | none =>
    -- The dot is a segment of its own and does not count, so that the file name is as before.
    rw [found, isAbsolute_extend] at last?
    have lone : dotted last extension = [dot] := by
      rcases Component.ofSegment?_eq_none_iff.mp found with empty | ⟨-, single⟩
      · simp [dotted] at empty
      · exact single
    obtain rfl : last = [] := by
      cases last with
      | nil => rfl
      | cons first last => simp [dotted] at lone
    have before := components_of_last ends
    rw [Component.ofSegment?_eq_none_iff.mpr (.inl rfl)] at before
    have again := fileName?_eq_some_iff.mpr (before ▸ last?)
    have same := Option.some.inj (named.symm.trans again)
    simp [dotted] at same

/-- What bears the name of a path with an extension stands beside it. -/
theorem parent?_extend (named : path.fileName? = some name) (plain : slash ∉ extension)
    (suffix : name <:+ path.raw) : (path.extend extension).parent? = path.parent? := by
  have proper := isName_of_fileName? named
  obtain ⟨front, ends⟩ := last_segment_of_fileName? named suffix
  have split := segments_extend plain ends
  obtain ⟨stop, first⟩ := placed_of_last ends
  obtain ⟨later, second⟩ := placed_of_last split
  rw [(Component.ofSegment?_eq_some_named proper.plain).mpr ⟨proper, rfl⟩] at first
  have extended := isName_dotted proper plain
  rw [(Component.ofSegment?_eq_some_named extended.plain).mpr ⟨extended, rfl⟩,
    isAbsolute_extend] at second
  rw [parent?_of_placed first, parent?_of_placed second]
  cases above? : (above path.isAbsolute front).getLast? with
  | none => rfl
  | some before =>
    have inside : before.2 ≤ path.raw.length := by
      have member : before ∈ path.placed := by
        rw [first]
        exact List.mem_append_left _ (List.mem_of_getLast? above?)
      exact le_length_of_mem_placed member
    rw [Option.map_some, Option.getD_some, extend, dotted, List.take_append_of_le_length inside]

/-- The bytes of a text hold a slash where the text does. -/
theorem slash_mem_bytes {text : String} : slash ∈ Text.bytes text ↔ '/' ∈ text.toList :=
  Text.mem_bytes_iff (show '/'.toNat ≤ 0x7F by decide)

end Path

namespace Settings

variable {settings : Settings} {dir input : Path} {entries : List Entry}

theorem entry?_beside (settings : Settings) (beside : settings.batch.outputDirectory = none)
    (input : Path) :
    settings.entry? input = .ok ⟨input, input.extend settings.batch.outputExtension⟩ := by
  unfold entry?
  rw [beside]
  rfl

theorem entry?_within (settings : Settings) (within : settings.batch.outputDirectory = some dir)
    (input : Path) :
    settings.entry? input =
      match (input.extend settings.batch.outputExtension).fileName? with
      | none => .error input
      | some name => .ok ⟨input, dir.join ⟨name⟩⟩ := by
  unfold entry?
  rw [within]
  rfl

/-- Only an input that has no name for its list is refused. -/
theorem entry?_eq_error_iff {refused : Path}
    (within : settings.batch.outputDirectory = some dir) :
    settings.entry? input = .error refused ↔
      (input.extend settings.batch.outputExtension).fileName? = none ∧ refused = input := by
  rw [settings.entry?_within within]
  cases (input.extend settings.batch.outputExtension).fileName? with
  | none => simp [eq_comm]
  | some name => simp

theorem entry?_eq_ok_iff {entry : Entry} (within : settings.batch.outputDirectory = some dir) :
    settings.entry? input = .ok entry ↔
      ∃ name, (input.extend settings.batch.outputExtension).fileName? = some name ∧
        entry = ⟨input, dir.join ⟨name⟩⟩ := by
  rw [settings.entry?_within within]
  cases (input.extend settings.batch.outputExtension).fileName? with
  | none => simp
  | some name => simp [eq_comm]

/-- With a directory for the lists, each list has a single name in that directory, whatever the
inputs and the extension are: nothing leads out of the directory or deeper into it. The first input
for whose list there is no name is refused, and then nothing is done at all. Without a directory no
input is refused. -/
theorem lists_in_directory (settings : Settings) :
    let extended := fun input : Path => input.extend settings.batch.outputExtension
    match settings.batch.outputDirectory with
    | none =>
      settings.entries = .ok (settings.batch.inputs.map fun input => ⟨input, extended input⟩)
    | some dir =>
      (∃ before input behind, settings.batch.inputs = before ++ input :: behind ∧
        (∀ earlier ∈ before, ∃ name, (extended earlier).fileName? = some name) ∧
        (extended input).fileName? = none ∧ settings.entries = .error input ∧
        ∀ files, Session.ripAll settings true files =
          (.error (.invalidPath input.text), [], files)) ∨
      ∃ entries, settings.entries = .ok entries ∧
        List.Forall₂ (fun input entry => entry.input = input ∧
          ∃ name, (extended input).fileName? = some name ∧ Path.IsName name ∧
            entry.output = dir.join ⟨name⟩ ∧
            entry.output.components = dir.components ++ [.named name] ∧
            ∀ (fs : FileSystem) (l : Location), fs.place? entry.output = some l →
              ∃ d, fs.walk (fs.origin dir) dir.names = .ok d ∧ l = d ++ [name])
          settings.batch.inputs entries := by
  intro extended
  cases within : settings.batch.outputDirectory with
  | none =>
    refine mapM_eq_ok_iff.mpr (List.forall₂_map_right_iff.mpr ?_)
    exact List.forall₂_same.mpr fun input _ => settings.entry?_beside within input
  | some dir =>
    cases described : settings.entries with
    | error refused =>
      obtain ⟨before, input, behind, split, well, failed⟩ := mapM_eq_error_iff.mp described
      obtain ⟨nameless, rfl⟩ := (entry?_eq_error_iff within).mp failed
      refine .inl ⟨before, refused, behind, split, ?_, nameless, rfl, fun files => ?_⟩
      · intro earlier member
        obtain ⟨entry, made⟩ := well earlier member
        obtain ⟨name, named, -⟩ := (entry?_eq_ok_iff within).mp made
        exact ⟨name, named⟩
      · simp only [Session.ripAll, described, Bool.not_true, Bool.false_eq_true, if_false]
    | ok entries =>
      refine .inr ⟨entries, rfl, (mapM_eq_ok_iff.mp described).imp fun input entry made => ?_⟩
      obtain ⟨name, named, rfl⟩ := (entry?_eq_ok_iff within).mp made
      have proper := Path.isName_of_fileName? named
      refine ⟨rfl, name, named, proper, rfl, dir.components_join proper, fun fs l found => ?_⟩
      obtain ⟨d, walked, -, same⟩ := (FileSystem.place?_join proper).mp found
      exact ⟨d, walked, same⟩

example : Settings.entries ⟨{}, ⟨[⟨"/etc/passwd"⟩, ⟨"../.."⟩], "txt", some ⟨"lists"⟩⟩⟩ =
    .ok [⟨⟨"/etc/passwd"⟩, ⟨"lists/passwd.txt"⟩⟩, ⟨⟨"../.."⟩, ⟨"lists/...txt"⟩⟩] := by
  decide

example : Settings.entries ⟨{}, ⟨[⟨"a"⟩, ⟨"b"⟩], "/..", some ⟨"lists"⟩⟩⟩ = .error ⟨"a"⟩ := by
  decide

/-- The list stands in the directory for the lists, or else beside its input. -/
def Places (settings : Settings) (entry : Entry) : Prop :=
  match settings.batch.outputDirectory with
  | none => entry.output.parent? = entry.input.parent?
  | some dir => entry.output.LiesIn dir

/-- The list of an input with a file name is called by that name and the extension, and stands where
it should, exactly if there is no slash in the extension and the input ends with its file name.
Behind a slash the extension is a name of its own. -/
theorem lists_named_after_inputs (described : settings.entries = .ok entries) :
    List.Forall₂ (fun input entry => entry.input = input ∧
      ∀ name, input.fileName? = some name →
        (entry.output.fileName? = some (Path.dotted name settings.batch.outputExtension) ∧
            settings.Places entry ↔
          '/' ∉ settings.batch.outputExtension.toList ∧ name <:+ input.raw))
      settings.batch.inputs entries := by
  rw [← Path.slash_mem_bytes]
  refine (mapM_eq_ok_iff.mp described).imp fun input entry made => ?_
  unfold Places
  cases within : settings.batch.outputDirectory with
  | none =>
    rw [settings.entry?_beside within] at made
    cases made
    refine ⟨rfl, fun name named => ⟨fun ⟨extended, _⟩ => ?_, fun ⟨plain, suffix⟩ => ?_⟩⟩
    · exact Path.of_fileName?_extend named extended
    · exact ⟨Path.fileName?_extend named plain suffix, Path.parent?_extend named plain suffix⟩
  | some dir =>
    obtain ⟨listName, found, rfl⟩ := (entry?_eq_ok_iff within).mp made
    have inside := dir.components_join (Path.isName_of_fileName? found)
    have last : (dir.join ⟨listName⟩).fileName? = some listName := by
      rw [Path.fileName?_eq_some_iff, inside, List.getLast?_concat]
    refine ⟨rfl, fun name named => ?_⟩
    rw [last, ← found]
    refine ⟨fun ⟨extended, _⟩ => ?_, fun ⟨plain, suffix⟩ => ?_⟩
    · exact Path.of_fileName?_extend named extended
    · exact ⟨Path.fileName?_extend named plain suffix, listName, inside⟩

/-- The second input ends with a slash. -/
def trailing : Settings :=
  ⟨{}, ⟨[⟨"bins/AoPc"⟩, ⟨"bins/AoPsx/"⟩], "txt", some ⟨"lists"⟩⟩⟩

theorem entries_trailing : trailing.entries = .ok [⟨⟨"bins/AoPc"⟩, ⟨"lists/AoPc.txt"⟩⟩,
    ⟨⟨"bins/AoPsx/"⟩, ⟨"lists/.txt"⟩⟩] := by
  decide

/-- The first list bears the name of its input, and the second does not. -/
theorem lists_named_after_inputs_trailing :
    trailing.entries = .ok [⟨⟨"bins/AoPc"⟩, ⟨"lists/AoPc.txt"⟩⟩,
      ⟨⟨"bins/AoPsx/"⟩, ⟨"lists/.txt"⟩⟩] ∧
    ((⟨"lists/AoPc.txt"⟩ : Path).fileName? = some "AoPc.txt" ∧
      (⟨"lists/AoPc.txt"⟩ : Path).LiesIn ⟨"lists"⟩) ∧
    ¬((⟨"lists/.txt"⟩ : Path).fileName? = some "AoPsx.txt" ∧
      (⟨"lists/.txt"⟩ : Path).LiesIn ⟨"lists"⟩) := by
  refine ⟨entries_trailing, ?_⟩
  obtain ⟨⟨-, first⟩, ⟨-, second⟩, -⟩ : _ ∧ _ ∧ List.Forall₂ _ [] [] := by
    simpa only [trailing, List.forall₂_cons] using lists_named_after_inputs entries_trailing
  refine ⟨(first "AoPc" (by decide)).mpr ⟨by decide, by decide⟩, fun placed => ?_⟩
  exact absurd ((second "AoPsx" (by decide)).mp placed).2 (by decide)

/-- With settings that are in order, every list bears the name of its input with the extension and
stands where it should. -/
def NamesAfterInputs (settings : Settings) (files : FileSystem) : Prop :=
  settings.check files = .ok () → ∀ entries, settings.entries = .ok entries →
    List.Forall₂ (fun input entry => ∀ name, input.fileName? = some name →
      entry.output.fileName? = some (Path.dotted name settings.batch.outputExtension) ∧
        settings.Places entry) settings.batch.inputs entries

/-- The extension leads into a directory, and is all that is left of the name in another. -/
def slashed : Settings :=
  ⟨{}, ⟨[⟨"AoPc"⟩, ⟨"AoPsx"⟩], "seq/txt", some ⟨"lists"⟩⟩⟩

/-- A name is lost to a slash at the end of an input, and two to one in the extension. -/
theorem not_namesAfterInputs_slashes : ¬ NamesAfterInputs trailing FileSystem.blank ∧
    ¬ NamesAfterInputs slashed FileSystem.blank := by
  constructor
  · intro names
    have all := names (by decide) _ entries_trailing
    obtain ⟨-, second, -⟩ : _ ∧ _ ∧ List.Forall₂ _ [] [] := by
      simpa only [trailing, List.forall₂_cons] using all
    exact absurd (second "AoPsx" (by decide)).1 (by decide)
  · intro names
    have described : slashed.entries = .ok [⟨⟨"AoPc"⟩, ⟨"lists/txt"⟩⟩,
        ⟨⟨"AoPsx"⟩, ⟨"lists/txt"⟩⟩] := by
      decide
    have all := names (by decide) _ described
    obtain ⟨first, -⟩ : _ ∧ _ := by
      simpa only [slashed, List.forall₂_cons] using all
    exact absurd (first "AoPc" (by decide)).1 (by decide)

end Settings
end ResourceNames
