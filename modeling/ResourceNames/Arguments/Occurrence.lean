import ResourceNames.Path

namespace ResourceNames.Arguments

/-- The options that take a value. -/
inductive Valued
  | config
  | minLength
  | suffix
  | outputDir
  | outputFormat
deriving DecidableEq, Repr

/-- The options that take none. -/
inductive Flag
  | verbose
  | quiet
  | dryRun
  | generateConfig
  | help
  | version
deriving DecidableEq, Repr

/-- What an argument on the command line can be about. -/
inductive Subject
  | valued (option : Valued)
  | flag (flag : Flag)
  | inputs
deriving DecidableEq, Repr

def Valued.longName : Valued → String
  | .config => "config"
  | .minLength => "min-length"
  | .suffix => "suffix"
  | .outputDir => "output-dir"
  | .outputFormat => "output-format"

/-- The name that stands for the value in messages. -/
def Valued.placeholder : Valued → String
  | .config => "CONFIG"
  | .minLength => "MIN_LENGTH"
  | .suffix => "SUFFIX"
  | .outputDir => "OUTPUT_DIR"
  | .outputFormat => "OUTPUT_FORMAT"

def Valued.letter? : Valued → Option Char
  | .config => some 'c'
  | .minLength => some 'n'
  | .suffix => some 's'
  | .outputDir => some 'o'
  | .outputFormat => none

def Flag.longName : Flag → String
  | .verbose => "verbose"
  | .quiet => "quiet"
  | .dryRun => "dry-run"
  | .generateConfig => "generate-config"
  | .help => "help"
  | .version => "version"

def Flag.letter? : Flag → Option Char
  | .verbose => some 'v'
  | .quiet => some 'q'
  | .help => some 'h'
  | .version => some 'V'
  | .dryRun => none
  | .generateConfig => none

def Valued.all : List Valued :=
  [.config, .minLength, .suffix, .outputDir, .outputFormat]

def Flag.all : List Flag :=
  [.verbose, .quiet, .dryRun, .generateConfig, .help, .version]

/-- The options with and without values. -/
def Subject.options : List Subject :=
  Valued.all.map .valued ++ Flag.all.map .flag

def Subject.longName? : Subject → Option String
  | .valued o => some o.longName
  | .flag f => some f.longName
  | .inputs => none

def Subject.letter? : Subject → Option Char
  | .valued o => o.letter?
  | .flag f => f.letter?
  | .inputs => none

/-- How a subject is named in messages. -/
def Subject.display : Subject → String
  | .valued o => "--" ++ o.longName ++ " <" ++ o.placeholder ++ ">"
  | .flag .verbose => "--verbose..."
  | .flag f => "--" ++ f.longName
  | .inputs => "[INPUTS]..."

def Subject.ofLongName? (name : RawText) : Option Subject :=
  options.find? fun subject => subject.longName?.map Text.bytes = some name

def Subject.ofLetter? (letter : Char) : Option Subject :=
  options.find? fun subject => subject.letter? = some letter

/-- Something that the words of a command line say. A value may be attached to the word of its
option or stand apart from it, where it may be missing. -/
inductive Occurrence
  | flag (flag : Flag)
  | attached (option : Valued) (value : RawText)
  | apart (option : Valued) (value? : Option RawText)
  | inputs (paths : List RawText)
deriving DecidableEq, Repr

/-- Whether an occurrence is over with its own word. All others last until the word behind them has
been made out. -/
def Occurrence.isClosed : Occurrence → Bool
  | .flag _ => true
  | .attached _ _ => true
  | .apart _ _ => false
  | .inputs _ => false

/-- What cannot be made out: an argument that no option has, or the encoding of a value that has to
be text. -/
inductive Unknown
  | argument (shown : String)
  | encoding
deriving DecidableEq, Repr

/-- A word that cannot be followed. -/
inductive Fault
  | unknown (what : Unknown)
  | unneededValue (flag : Flag) (value : String)
deriving DecidableEq, Repr

/-- What the words say up to their end or up to the first that cannot be made out. -/
structure Reading where
  occurrences : List Occurrence
  fault? : Option Fault
deriving DecidableEq, Repr

namespace Reading

def complete : Reading := ⟨[], none⟩

def faulty (fault : Fault) : Reading := ⟨[], some fault⟩

def cons (occurrence : Occurrence) (reading : Reading) : Reading :=
  { reading with occurrences := occurrence :: reading.occurrences }

/-- Puts an input in front, together with the inputs right after it. -/
def input (path : RawText) : Reading → Reading
  | ⟨.inputs paths :: occurrences, fault?⟩ => ⟨.inputs (path :: paths) :: occurrences, fault?⟩
  | reading => reading.cons (.inputs [path])

/-- The occurrences but for a last one that is still open. -/
def closed : List Occurrence → List Occurrence
  | [] => []
  | [occurrence] => if occurrence.isClosed then [occurrence] else []
  | occurrence :: occurrences => occurrence :: closed occurrences

/-- The occurrences that count: a fault hides what it leaves open. -/
def counted (reading : Reading) : List Occurrence :=
  if reading.fault?.isSome then closed reading.occurrences else reading.occurrences

end Reading

/-- What a word says by itself. -/
inductive Word
  | inputsOnly
  | said (occurrence : Occurrence)
  | wanting (option : Valued)
  | positional (path : RawText)
  | fault (fault : Fault)
deriving DecidableEq, Repr

def dash : UInt8 := 0x2d

def equals : UInt8 := 0x3d

/-- An option by its long name, without the dashes; the value is what follows the first `=`. -/
def Word.ofLong (word : RawText) : Word :=
  let name := word.takeWhile (· ≠ equals)
  let value? :=
    match word.dropWhile (· ≠ equals) with
    | [] => none
    | _ :: value => some value
  match Subject.ofLongName? name, value? with
  | some (.valued option), some value => .said (.attached option value)
  | some (.valued option), none => .wanting option
  | some (.flag flag), some value => .fault (.unneededValue flag (Text.shown value))
  | some (.flag flag), none => .said (.flag flag)
  | _, _ => .fault (.unknown (.argument s!"--{Text.shown name}"))

/-- Options by their letters, without the dash: flags, up to one that takes a value or cannot be
made out. What follows an option that takes a value is the value, behind a `=` or not. Bytes that
spell no letter cannot be made out, with all that follows. -/
def Word.ofLetters : List Text.Piece → List Word
  | [] => []
  | .broken bytes :: rest =>
    let shown := (.broken bytes :: rest).map Text.Piece.shown
    [.fault (.unknown (.argument s!"-{String.ofList shown}"))]
  | .char letter :: rest =>
    match Subject.ofLetter? letter with
    | some (.flag flag) => .said (.flag flag) :: ofLetters rest
    | some (.valued option) =>
      match rest with
      | [] => [.wanting option]
      | .char '=' :: value => [.said (.attached option (value.flatMap Text.Piece.bytes))]
      | value => [.said (.attached option (value.flatMap Text.Piece.bytes))]
    | _ => [.fault (.unknown (.argument s!"-{letter}"))]

/-- What a word says where an option may stand. A dash alone is no option. -/
def Word.ofRaw (word : RawText) : List Word :=
  match word with
  | [] => [.positional word]
  | first :: rest =>
    if first ≠ dash then [.positional word]
    else
      match rest with
      | [] => [.positional word]
      | second :: long =>
        if second = dash then [ofLong long] else ofLetters (Text.pieces rest)

/-- What all words say, each by itself. Behind two dashes alone there are inputs only. -/
def Word.ofAll : List RawText → List Word
  | [] => []
  | word :: words =>
    if word = [dash, dash] then .inputsOnly :: words.map .positional else ofRaw word ++ ofAll words

/-- What words say together: an option that wants a value takes it from the word behind it, unless
that is an option itself. -/
def Reading.ofWords : List Word → Reading
  | [] => .complete
  | .inputsOnly :: words => ofWords words
  | .said occurrence :: words => (ofWords words).cons occurrence
  | .positional path :: words => (ofWords words).input path
  | .fault fault :: _ => .faulty fault
  | .wanting o :: .positional value :: words =>
    (ofWords words).cons (.apart o (some value))
  | .wanting o :: words => (ofWords words).cons (.apart o none)

end ResourceNames.Arguments
