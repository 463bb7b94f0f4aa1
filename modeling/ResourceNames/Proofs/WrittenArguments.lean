import ResourceNames.Proofs.TakenArguments

namespace ResourceNames.Arguments

/-- A reading is complete, says the occurrences beside its inputs, and names the inputs. -/
structure Tells (reading : Reading) (said : List Occurrence) (named : List RawText) : Prop where
  fault : reading.fault? = none
  said : reading.occurrences.filter Occurrence.isClosed = said
  named : reading.occurrences.flatMap Occurrence.paths = named
  known : ∀ occurrence ∈ reading.occurrences,
    occurrence.isClosed = true ∨ ∃ paths, occurrence = .inputs paths

variable {r : Reading} {said : List Occurrence} {named : List RawText} {occurrence : Occurrence}
  {words : List Word}

theorem tells_nothing : Tells (.ofWords []) [] [] :=
  ⟨rfl, rfl, rfl, fun _ member => nomatch member⟩

theorem tells_cons (closed : occurrence.isClosed = true)
    (tells : Tells r said named) :
    Tells (r.cons occurrence) (occurrence :: said) named := by
  have nameless : occurrence.paths = [] := by
    cases occurrence with
    | flag | attached | apart => rfl
    | inputs => cases closed
  refine ⟨tells.fault, ?_, ?_, List.forall_mem_cons.mpr ⟨.inl closed, tells.known⟩⟩
  · rw [← tells.said]
    exact List.filter_cons_of_pos closed
  · rw [← tells.named, Reading.cons, List.flatMap_cons, nameless, List.nil_append]

theorem tells_input (path : RawText) (tells : Tells r said named) :
    Tells (r.input path) said (path :: named) := by
  obtain ⟨fault, said, named, known⟩ := tells
  unfold Reading.input
  split
  · exact ⟨fault, said, congrArg (path :: ·) named,
      List.forall_mem_cons.mpr ⟨.inr ⟨_, rfl⟩, (List.forall_mem_cons.mp known).2⟩⟩
  · exact ⟨fault, said, congrArg (path :: ·) named,
      List.forall_mem_cons.mpr ⟨.inr ⟨_, rfl⟩, known⟩⟩

theorem tells_said {more : List Occurrence}
    (closed : ∀ occurrence ∈ more, occurrence.isClosed = true)
    (tells : Tells (.ofWords words) said named) :
    Tells (.ofWords (more.map .said ++ words)) (more ++ said) named := by
  induction more with
  | nil => exact tells
  | cons occurrence more ih =>
    obtain ⟨here, behind⟩ := List.forall_mem_cons.mp closed
    exact tells_cons here (ih behind)

theorem tells_positional (paths : List RawText) (tells : Tells (.ofWords words) said named) :
    Tells (.ofWords (paths.map .positional ++ words)) said (paths ++ named) := by
  induction paths with
  | nil => exact tells
  | cons path paths ih => exact tells_input path ih

/-- A word as it is written: an option with its value, a flag by its name, flags by their letters,
or an input. -/
inductive Written
  | option (option : Valued) (value : RawText)
  | long (flag : Flag)
  | letters (flags : List Flag)
  | input (path : Path)
deriving DecidableEq, Repr

namespace Written

def raw : Written → RawText
  | .option o value => dash :: dash :: (Text.bytes o.longName ++ equals :: value)
  | .long f => dash :: dash :: Text.bytes f.longName
  | .letters flags => dash :: Text.bytes (String.ofList (flags.filterMap Flag.letter?))
  | .input path => path.raw

/-- There are letters, each that of a flag, and an input does not look like an option. -/
def isSound : Written → Bool
  | .option _ _ => true
  | .long _ => true
  | .letters flags => !flags.isEmpty && flags.all fun f => f.letter?.isSome
  | .input path => path.raw.head? != some dash

def options : Written → List Occurrence
  | .option o value => [.attached o value]
  | .long f => [.flag f]
  | .letters flags => flags.map .flag
  | .input _ => []

def inputs : Written → List Path
  | .input path => [path]
  | _ => []

/-- What a written word is heard as. -/
def heard (word : Written) : List Word :=
  word.options.map .said ++ (word.inputs.map Path.raw).map .positional

theorem isClosed_of_mem_options (word : Written) :
    ∀ occurrence ∈ word.options, occurrence.isClosed = true := by
  cases word <;> simp [options, Occurrence.isClosed]

theorem ofLong_option (o : Valued) (value : RawText) :
    Word.ofLong (Text.bytes o.longName ++ equals :: value) = .said (.attached o value) := by
  have plain : ∀ byte ∈ Text.bytes o.longName, decide (byte ≠ equals) = true := by
    refine List.all_eq_true.mp ?_
    cases o <;> rfl
  have name : (Text.bytes o.longName ++ equals :: value).takeWhile (· ≠ equals) =
      Text.bytes o.longName := by
    rw [List.takeWhile_append_of_pos plain]
    exact List.append_nil _
  have behind : (Text.bytes o.longName ++ equals :: value).dropWhile (· ≠ equals) =
      equals :: value := List.dropWhile_append_of_pos plain
  have known : Subject.ofLongName? (Text.bytes o.longName) = some (.valued o) := by
    cases o <;> rfl
  unfold Word.ofLong
  rw [name, behind]
  simp only [known]

theorem ofLetters_flags {flags : List Flag} (lettered : ∀ f ∈ flags, f.letter?.isSome = true) :
    Word.ofLetters ((flags.filterMap Flag.letter?).map .char) =
      flags.map fun f => .said (.flag f) := by
  induction flags with
  | nil => rfl
  | cons f flags ih =>
    obtain ⟨here, behind⟩ := List.forall_mem_cons.mp lettered
    cases f with
    | verbose | quiet | help | version => exact congrArg (_ :: ·) (ih behind)
    | dryRun | generateConfig => cases here

theorem bytes_letters {flags : List Flag} (some : flags.isEmpty = false)
    (lettered : ∀ f ∈ flags, f.letter?.isSome = true) :
    ∃ first rest, first ≠ dash ∧
      Text.bytes (String.ofList (flags.filterMap Flag.letter?)) = first :: rest := by
  rw [Text.bytes_ofList]
  cases flags with
  | nil => cases some
  | cons f flags =>
    cases f with
    | verbose | quiet | help | version => exact ⟨_, _, by decide, rfl⟩
    | dryRun | generateConfig => cases lettered _ List.mem_cons_self

/-- A sound word is heard as what it was written for. -/
theorem ofRaw_raw {word : Written} (sound : word.isSound = true) :
    Word.ofRaw word.raw = word.heard := by
  cases word with
  | option o value => exact congrArg (fun word => [word]) (ofLong_option o value)
  | long f => cases f <;> decide
  | letters flags =>
    obtain ⟨some, lettered⟩ : flags.isEmpty = false ∧ ∀ f ∈ flags, f.letter?.isSome = true := by
      simpa [isSound] using sound
    have letters := ofLetters_flags lettered
    rw [← String.toList_ofList (l := flags.filterMap Flag.letter?), ← Text.pieces_bytes] at letters
    have whole : (Written.letters flags).heard = flags.map fun f => .said (.flag f) := by
      simp [Written.heard, options, inputs]
    obtain ⟨first, rest, undashed, begins⟩ := bytes_letters some lettered
    rw [begins] at letters
    rw [whole, ← letters, raw, begins]
    exact if_neg undashed
  | input path =>
    obtain ⟨raw⟩ := path
    cases raw with
    | nil => rfl
    | cons first rest =>
      have undashed : first ≠ dash := by simpa [isSound] using sound
      exact if_pos undashed

theorem raw_ne_dashes {word : Written} (sound : word.isSound = true) :
    word.raw ≠ [dash, dash] := by
  intro dashes
  have nothing : Word.fault (.unknown (.argument "--")) ∈ word.heard := by
    rw [← ofRaw_raw sound, dashes]
    decide
  simp [heard] at nothing

end Written

/-- A command line as it is written: words, and inputs behind two dashes if there are any. -/
structure Writing where
  words : List Written
  behind? : Option (List Path)
deriving DecidableEq, Repr

namespace Writing

def raws (w : Writing) : List RawText :=
  w.words.map Written.raw ++ w.behind?.elim [] fun behind => [dash, dash] :: behind.map Path.raw

def options (w : Writing) : List Occurrence :=
  w.words.flatMap Written.options

def inputs (w : Writing) : List Path :=
  w.words.flatMap Written.inputs ++ w.behind?.getD []

/-- A command line is written for arguments if it holds their options and flags in any order, and
their inputs in their own. -/
structure Writes (w : Writing) (arguments : Arguments) : Prop where
  sound : w.words.all Written.isSound = true
  options : w.options.Perm arguments.options
  inputs : w.inputs = arguments.inputs

theorem ofAll_words {words : List Written} (sound : words.all Written.isSound = true)
    (raws : List RawText) :
    Word.ofAll (words.map Written.raw ++ raws) =
      words.flatMap Written.heard ++ Word.ofAll raws := by
  induction words with
  | nil => rfl
  | cons word words ih =>
    obtain ⟨here, behind⟩ := Bool.and_eq_true_iff.mp (List.all_cons.symm.trans sound)
    rw [List.map_cons, List.cons_append, Word.ofAll, if_neg (Written.raw_ne_dashes here),
      Written.ofRaw_raw here, ih behind, List.flatMap_cons, List.append_assoc]

theorem tells_words {said : List Occurrence} {named : List RawText} {rest : List Word}
    (words : List Written) (tells : Tells (.ofWords rest) said named) :
    Tells (.ofWords (words.flatMap Written.heard ++ rest)) (words.flatMap Written.options ++ said)
      ((words.flatMap Written.inputs).map Path.raw ++ named) := by
  induction words with
  | nil => exact tells
  | cons word words ih =>
    have whole := tells_said (Written.isClosed_of_mem_options word)
      (tells_positional (word.inputs.map Path.raw) ih)
    simpa [Written.heard] using whole

/-- A written command line tells its options and its inputs, each in their order. -/
theorem tells_raws {w : Writing} (sound : w.words.all Written.isSound = true) :
    Tells (reading w.raws) w.options (w.inputs.map Path.raw) := by
  have last : Tells (.ofWords (Word.ofAll (w.behind?.elim [] fun behind =>
      [dash, dash] :: behind.map Path.raw))) [] ((w.behind?.getD []).map Path.raw) := by
    cases w.behind? with
    | none => exact tells_nothing
    | some behind =>
      have behind := tells_positional (behind.map Path.raw) tells_nothing
      rwa [List.append_nil, List.append_nil] at behind
  have whole := tells_words w.words last
  rwa [← ofAll_words sound, List.append_nil, ← List.map_append] at whole

/-- The command line for arguments with the options first, the flags by their names, and all inputs
behind two dashes. -/
def inTurn (arguments : Arguments) : Writing where
  words := Valued.all.flatMap (fun o => ((arguments.given o).map (.option o)).toList) ++
    Flag.all.flatMap fun f => List.replicate (arguments.raised f) (.long f)
  behind? := some arguments.inputs

/-- All arguments can be written. -/
theorem inTurn_writes (arguments : Arguments) : (inTurn arguments).Writes arguments := by
  have value (o : Valued) : ((arguments.given o).map (Written.option o)).toList.flatMap
      Written.options = ((arguments.given o).map (.attached o)).toList := by
    cases arguments.given o <;> rfl
  have flag (f : Flag) : (List.replicate (arguments.raised f) (Written.long f)).flatMap
      Written.options = List.replicate (arguments.raised f) (.flag f) := by
    simp [List.flatMap_replicate, Written.options]
  refine ⟨?_, List.Perm.of_eq ?_, ?_⟩
  · simp [inTurn, Written.isSound]
  · simp only [options, inTurn, List.flatMap_append, List.flatMap_assoc, value, flag]
    rfl
  · have before : (inTurn arguments).words.flatMap Written.inputs = [] := by
      refine List.flatMap_eq_nil_iff.mpr fun word member => ?_
      rcases List.mem_append.mp member with option | long
      · obtain ⟨o, -, option⟩ := List.mem_flatMap.mp option
        obtain ⟨value, -, rfl⟩ := Option.map_eq_some_iff.mp (Option.mem_toList.mp option)
        rfl
      · obtain ⟨f, -, long⟩ := List.mem_flatMap.mp long
        rw [List.eq_of_mem_replicate long]
        rfl
    rw [inputs, before]
    rfl

theorem attached_mem_options {w : Writing} {o : Valued} {value : RawText} :
    .attached o value ∈ w.options ↔ .option o value ∈ w.words := by
  unfold options
  constructor
  · intro member
    obtain ⟨word, written, here⟩ := List.mem_flatMap.mp member
    cases word with
    | option o' value' =>
      cases List.mem_singleton.mp here
      exact written
    | long | letters | input => simp [Written.options] at here
  · intro written
    exact List.mem_flatMap.mpr ⟨_, written, List.mem_singleton_self _⟩

end Writing

variable {arguments : Arguments} {w : Writing}

/-- Before anything is taken in, all that is written for arguments remains. -/
theorem remains_of_tells (writes : w.Writes arguments)
    (tells : Tells r w.options (w.inputs.map Path.raw)) :
    Remains arguments {} r.occurrences := by
  refine ⟨fun o => ?_, fun f => ?_, ?_, tells.known⟩
  · have fresh : given {} o = none := by cases o <;> rfl
    have values := writes.options.filterMap (Occurrence.value? o)
    rw [values_options] at values
    rw [tells.said, fresh]
    -- An option has one value at the most, so its order among the others does not matter.
    revert values
    cases arguments.given o with
    | none => exact List.perm_nil.mp
    | some value => exact List.perm_singleton.mp
  · rw [tells.said, writes.options.count_eq, count_options]
    cases f <;> exact Nat.zero_add _
  · rw [tells.named, List.map_map, ← writes.inputs]
    exact List.map_id _

theorem verboseLast_of_tells (tells : Tells r said named) :
    verboseLast r.occurrences = verboseLast said := by
  unfold verboseLast
  rw [← tells.said, List.filter_filter]
  refine congrArg (fun last => decide (List.getLast? last = _)) ?_
  refine List.filter_congr fun occurrence _ => ?_
  cases occurrence <;> simp [Occurrence.isClosed]

theorem given_iff_written (writes : w.Writes arguments) {o : Valued} {value : RawText} :
    arguments.given o = some value ↔ .option o value ∈ w.words := by
  rw [← Writing.attached_mem_options, writes.options.mem_iff, ← Option.mem_toList,
    ← values_options, List.mem_filterMap]
  constructor
  · rintro ⟨occurrence, member, attaches⟩
    cases occurrence with
    | attached o' value' =>
      obtain ⟨rfl, same⟩ := Option.ite_none_right_eq_some.mp attaches
      cases same
      exact member
    | flag | apart | inputs => cases attaches
  · exact fun member => ⟨_, member, Occurrence.value?_self⟩

/-- Arguments come back from a command line that is written for them, their options and flags in
any order and among the inputs; two flags that exclude each other are refused. The wishes for the
settings are those that are written, and there is none for the inputs without an input. -/
theorem parse_written (writable : arguments.Writable) (writes : w.Writes arguments) :
    parse w.raws =
        (if arguments.quiet = true ∧ 0 < arguments.verbose then
          .error (.misuse
            (if verboseLast w.options then .conflict (.flag .quiet) (.flag .verbose)
              else .conflict (.flag .verbose) (.flag .quiet)))
        else .ok arguments) ∧
      (∀ n, arguments.overrides.minLength = some n ↔
        .option .minLength (Text.bytes (toString n)) ∈ w.words) ∧
      (∀ suffix, arguments.overrides.suffix = some suffix ↔
        .option .suffix (Text.bytes suffix) ∈ w.words) ∧
      (∀ path, arguments.overrides.outputDirectory = some path ↔
        .option .outputDir path.raw ∈ w.words) ∧
      arguments.overrides.inputs = if w.inputs = [] then none else some w.inputs := by
  have tells := Writing.tells_raws writes.sound
  have folded := foldlM_of_remains writable (remains_of_tells writes tells)
  refine ⟨?_, fun n => ?_, fun suffix => ?_, fun path => ?_, ?_⟩
  · split
    · rename_i clash
      rw [parse_clash tells.fault folded clash, verboseLast_of_tells tells]
    · rename_i agree
      exact parse_eq_ok_iff.mpr ⟨tells.fault, folded, agree⟩
  · rw [← given_iff_written writes]
    exact (Option.map_injective (Text.bytes_injective.comp toString_injective)).eq_iff.symm
  · rw [← given_iff_written writes]
    exact (Option.map_injective Text.bytes_injective).eq_iff.symm
  · rw [← given_iff_written writes]
    exact (Option.map_injective Path.raw_injective).eq_iff.symm
  · rw [writes.inputs]
    rfl

/-- Arguments with values that look like something else. -/
def tricky : Arguments where
  inputs := [⟨"game.exe"⟩, ⟨"-v"⟩, ⟨"--"⟩]
  config := some ⟨"a=b c"⟩
  minLength := some 18446744073709551615
  suffix := some ""
  outputDirectory := some ⟨"--é"⟩
  mode := some .json
  verbose := 3
  dryRun := true

def trickyLine : Writing where
  words := [.letters [.verbose, .verbose], .option .suffix "", .input ⟨"game.exe"⟩,
    .option .outputFormat "json", .long .dryRun, .option .minLength "18446744073709551615",
    .letters [.verbose], .option .outputDir "--é", .option .config "a=b c"]
  behind? := some [⟨"-v"⟩, ⟨"--"⟩]

theorem parse_written_tricky : tricky.Writable ∧ trickyLine.Writes tricky ∧
    parse ["-vv", "--suffix=", "game.exe", "--output-format=json", "--dry-run",
      "--min-length=18446744073709551615", "-v", "--output-dir=--é", "--config=a=b c", "--",
      "-v", "--"] = .ok tricky := by
  have writable : tricky.Writable :=
    ⟨by decide, by decide, by decide, fun n given => by cases given; decide, by decide⟩
  have writes : trickyLine.Writes tricky := ⟨by decide, by decide, by decide⟩
  have raws : trickyLine.raws = ["-vv", "--suffix=", "game.exe", "--output-format=json",
      "--dry-run", "--min-length=18446744073709551615", "-v", "--output-dir=--é",
      "--config=a=b c", "--", "-v", "--"] := by decide
  have parsed := (parse_written writable writes).1
  rw [raws] at parsed
  exact ⟨writable, writes, parsed⟩

example : parse ["--quiet", "game.exe", "-v"] =
    .error (.misuse (.conflict (.flag .quiet) (.flag .verbose))) := by
  decide

end ResourceNames.Arguments
