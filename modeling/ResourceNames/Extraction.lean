import ResourceNames.Run.Cursor
import ResourceNames.Suffix

namespace ResourceNames

/-- Which printable runs of a stream count as resource names. -/
structure ScanRule where
  minLength : Nat := 4
  suffix : String := ".SEQ"
deriving DecidableEq, Repr

/-- What one scan has counted. -/
structure Statistics where
  bytesScanned : Nat := 0
  printableRuns : Nat := 0
  candidates : Nat := 0
  matched : Nat := 0
  duplicates : Nat := 0
deriving DecidableEq, Repr

/-- The lines in which statistics are shown. -/
def Statistics.summary (s : Statistics) : String :=
  "Scan Results:\n" ++
  s!"  Bytes scanned: {s.bytesScanned}\n" ++
  s!"  Printable runs: {s.printableRuns}\n" ++
  s!"  Candidates: {s.candidates}\n" ++
  s!"  Matches: {s.matched} ({s.duplicates} duplicates)\n"

/-- The names found in a stream, in ascending order and with repetitions. -/
structure Extraction where
  names : List String
  statistics : Statistics
deriving DecidableEq, Repr

/-- The number of neighbours that are equal. -/
def adjacentRepeats (names : List String) : Nat :=
  (names.zip names.tail).countP fun (name, following) => name == following

/-- The texts of the reportable runs of a stream. -/
def extractStrings (minLength : Nat) (data : List UInt8) : List String :=
  (candidates minLength data).map Run.text

/-- Reads every run, keeps those with the suffix, and sorts their texts. -/
def ScanRule.extract (rule : ScanRule) (data : List UInt8) : Extraction :=
  let (reported, last) := (Cursor.start rule.minLength data).rest
  let kept := Suffix.keep ⟨rule.suffix⟩ reported
  let names := (kept.map Run.text).mergeSort fun a b => decide (a ≤ b)
  { names
    statistics :=
      { bytesScanned := data.length
        printableRuns := last.runsSeen
        candidates := reported.length
        matched := names.length
        duplicates := adjacentRepeats names } }

end ResourceNames
