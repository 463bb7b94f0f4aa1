import ResourceNames.Arguments.Occurrence
import ResourceNames.Console
import ResourceNames.Settings.Store
import ResourceNames.Text.Printed

namespace ResourceNames

/-- What the command line asks for. -/
structure Arguments where
  inputs : List Path := []
  config : Option Path := none
  minLength : Option Nat := none
  suffix : Option String := none
  outputDirectory : Option Path := none
  mode : Option Mode := none
  verbose : Nat := 0
  quiet : Bool := false
  dryRun : Bool := false
  generateConfig : Bool := false
deriving DecidableEq, Repr

namespace Arguments

/-- Why a text is not a natural number in range. -/
inductive NumberFault
  | empty
  | notADigit
  | tooLarge
deriving DecidableEq, Repr

/-- Why a command line cannot be followed. -/
inductive Misuse
  | fault (fault : Fault)
  | missingValue (subject : Subject)
  | repeated (subject : Subject)
  | notAFormat (text : String)
  | notALength (text : String) (fault : NumberFault)
  | conflict (first second : Subject)
deriving DecidableEq, Repr

/-- Why there are no arguments to work with: the program is asked about itself, or misused. -/
inductive Halt
  | help
  | version
  | misuse (misuse : Misuse)
deriving DecidableEq, Repr

/-- Lengths are kept in sixty-four bits. -/
def lengthLimit : Nat := 0x10000000000000000

/-- Reads digits behind those that make up `value`. -/
def readDigits (value : Nat) : List Char → Except NumberFault Nat
  | [] => .ok value
  | c :: rest =>
    if !c.isDigit then .error .notADigit
    else
      let value := 10 * value + (c.toNat - '0'.toNat)
      if lengthLimit ≤ value then .error .tooLarge else readDigits value rest

/-- Reads a decimal number; a plus sign in front is allowed. -/
def readLength (text : String) : Except NumberFault Nat :=
  match text.toList with
  | [] => .error .empty
  | ['+'] => .error .notADigit
  | '+' :: digits => readDigits 0 digits
  | digits => readDigits 0 digits

def readFormat? : String → Option Mode
  | "human" => some .human
  | "json" => some .json
  | "plain" => some .plain
  | _ => none

def readPath (subject : Subject) (value : RawText) : Except Misuse Path :=
  if value = [] then .error (.missingValue subject) else .ok ⟨value⟩

/-- A value that has to be text. -/
def readText (value : RawText) : Except Misuse String :=
  match Text.ofBytes? value with
  | some text => .ok text
  | none => .error (.fault (.unknown .encoding))

/-- Whether an option that takes a value has been given one before. -/
def has (arguments : Arguments) : Valued → Bool
  | .config => arguments.config.isSome
  | .minLength => arguments.minLength.isSome
  | .suffix => arguments.suffix.isSome
  | .outputDir => arguments.outputDirectory.isSome
  | .outputFormat => arguments.mode.isSome

/-- A format that is no text is no other fault than one that is not known. -/
def takeValue (arguments : Arguments) (o : Valued) (value : RawText) :
    Except Misuse Arguments := do
  let subject := Subject.valued o
  match o with
  | .config => return { arguments with config := some (← readPath subject value) }
  | .outputDir => return { arguments with outputDirectory := some (← readPath subject value) }
  | .suffix => return { arguments with suffix := some (← readText value) }
  | .minLength =>
    let text ← readText value
    match readLength text with
    | .ok n => return { arguments with minLength := some n }
    | .error fault => throw (.notALength text fault)
  | .outputFormat =>
    if value = [] then throw (.missingValue subject)
    else
      match (Text.ofBytes? value).bind readFormat? with
      | some mode => return { arguments with mode := some mode }
      | none => throw (.notAFormat (Text.shown value))

/-- A flag can be given once, but for the verbose one, which is counted in eight bits. -/
def takeFlag (arguments : Arguments) : Flag → Except Halt Arguments
  | .help => .error .help
  | .version => .error .version
  | .verbose => .ok { arguments with verbose := min 255 (arguments.verbose + 1) }
  | .quiet =>
    if arguments.quiet then .error (.misuse (.repeated (.flag .quiet)))
    else .ok { arguments with quiet := true }
  | .dryRun =>
    if arguments.dryRun then .error (.misuse (.repeated (.flag .dryRun)))
    else .ok { arguments with dryRun := true }
  | .generateConfig =>
    if arguments.generateConfig then .error (.misuse (.repeated (.flag .generateConfig)))
    else .ok { arguments with generateConfig := true }

/-- An option can be given once, whatever its values are. -/
def takeOption (arguments : Arguments) (o : Valued) (value : RawText) : Except Halt Arguments :=
  if arguments.has o then .error (.misuse (.repeated (.valued o)))
  else (arguments.takeValue o value).mapError .misuse

def take (arguments : Arguments) : Occurrence → Except Halt Arguments
  | .flag f => arguments.takeFlag f
  | .attached o value => arguments.takeOption o value
  | .apart o none => .error (.misuse (.missingValue (.valued o)))
  | .apart o (some value) => arguments.takeOption o value
  | .inputs paths =>
    if paths.contains [] then .error (.misuse (.missingValue .inputs))
    else .ok { arguments with inputs := arguments.inputs ++ paths.map Path.ofRaw }

/-- Whether the last of the two flags that exclude each other is the verbose one. -/
def verboseLast (occurrences : List Occurrence) : Bool :=
  (occurrences.filter fun o => o = .flag .verbose ∨ o = .flag .quiet).getLast? =
    some (.flag .verbose)

/-- Reads the words of a command line behind the name of the program. The words are taken in their
order, so the first one that is wrong decides. -/
def parse (words : List RawText) : Except Halt Arguments := do
  let reading := Reading.ofWords (Word.ofAll words)
  let arguments ← reading.counted.foldlM take {}
  match reading.fault? with
  | some fault => throw (.misuse (.fault fault))
  | none =>
    if arguments.quiet ∧ 0 < arguments.verbose then
      let quiet := Subject.flag .quiet
      let verbose := Subject.flag .verbose
      if verboseLast reading.occurrences then throw (.misuse (.conflict quiet verbose))
      else throw (.misuse (.conflict verbose quiet))
    else return arguments

def outputMode (arguments : Arguments) : Mode :=
  arguments.mode.getD .human

def verbosity (arguments : Arguments) : Nat :=
  if arguments.quiet then 0 else arguments.verbose

def overrides (arguments : Arguments) : Overrides where
  inputs := if arguments.inputs = [] then none else some arguments.inputs
  minLength := arguments.minLength
  suffix := arguments.suffix
  outputDirectory := arguments.outputDirectory

/-- The settings from the file that is asked for, or a usual one, with the wishes of the command
line; they must be fit for a batch. -/
def settings (arguments : Arguments) (fs : FileSystem) : Except Problem Settings := do
  let settings := (← Settings.loadOrStandard arguments.config fs).merge arguments.overrides
  settings.check fs
  return settings

end Arguments

namespace Arguments

def NumberFault.message : NumberFault → String
  | .empty => "cannot parse integer from empty string"
  | .notADigit => "invalid digit found in string"
  | .tooLarge => "number too large to fit in target type"

/-- A part of a message that a terminal shows in a style of its own: control sequences begin and
end it. -/
def highlight (text : String) : String :=
  "\x1b[33m" ++ text ++ "\x1b[0m"

def Subject.highlighted (subject : Subject) : String :=
  highlight subject.display

def Fault.message : Fault → String
  | .unknown (.argument shown) => s!"unexpected argument '{highlight shown}' found"
  | .unknown .encoding => "invalid UTF-8 was detected in one or more arguments"
  | .unneededValue f value =>
    s!"unexpected value '{highlight value}' for '{(Subject.flag f).highlighted}' found; " ++
      "no more were expected"

def Misuse.message : Misuse → String
  | .fault f => f.message
  | .missingValue subject =>
    s!"a value is required for '{subject.highlighted}' but none was supplied"
  | .repeated subject => s!"the argument '{subject.highlighted}' cannot be used multiple times"
  | .notAFormat text =>
    s!"invalid value '{highlight text}' for '{(Subject.valued .outputFormat).highlighted}'"
  | .notALength text reason =>
    s!"invalid value '{highlight text}' for '{(Subject.valued .minLength).highlighted}': " ++
      reason.message
  | .conflict first second =>
    s!"the argument '{first.highlighted}' cannot be used with '{second.highlighted}'"

/-- The message without control sequences, those of the command line's own words among them. -/
def Misuse.text (misuse : Misuse) : String :=
  Text.printed ("error: " ++ misuse.message)

/-- The message as it reaches a stream that is no terminal. -/
def Misuse.streamed (misuse : Misuse) : String :=
  Text.streamed ("error: " ++ misuse.message)

end Arguments

end ResourceNames
