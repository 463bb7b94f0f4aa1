import ResourceNames.Extraction
import ResourceNames.Json
import ResourceNames.Time.Clock

namespace ResourceNames

/-- What has been done for one entry of a batch. Its paths are kept as they are shown. -/
structure EntryReport where
  input : String
  output : String
  statistics : Statistics
  /-- The number of names that do not read back as the literals they are written as. -/
  unescaped : Nat
deriving DecidableEq, Repr

/-- What has been done in a batch. How long it took is for a clock to tell. -/
structure Report where
  entries : List EntryReport
  bytesScanned : Nat
  matched : Nat
  rule : ScanRule
deriving DecidableEq, Repr

def EntryReport.summary (entry : EntryReport) : String :=
  s!"    {entry.input} -> {entry.output}: {entry.statistics.matched} matches\n"

def Report.summary (report : Report) : String :=
  "Batch Results:\n" ++
  s!"  Inputs processed: {report.entries.length}\n" ++
  s!"  Bytes scanned: {report.bytesScanned}\n" ++
  s!"  Matches written: {report.matched}\n" ++
  String.join (report.entries.map EntryReport.summary)

def ScanRule.json (rule : ScanRule) : Json :=
  .object [("min_length", .number rule.minLength), ("suffix", .text rule.suffix)]

def Statistics.json (statistics : Statistics) : Json :=
  .object
    [("bytes_scanned", .number statistics.bytesScanned),
      ("printable_runs", .number statistics.printableRuns),
      ("candidates", .number statistics.candidates),
      ("matches", .number statistics.matched),
      ("duplicate_matches", .number statistics.duplicates)]

def Span.json (span : Span) : Json :=
  .object [("secs", .number span.seconds), ("nanos", .number span.nanoseconds)]

def EntryReport.json (entry : EntryReport) (taken : Span) : Json :=
  .object
    [("input", .text entry.input),
      ("output", .text entry.output),
      ("statistics", entry.statistics.json),
      ("unescaped_literals", .number entry.unescaped),
      ("duration", taken.json)]

def Report.json (report : Report) (clock : Clock) : Json :=
  .object
    [("entries", .array (report.entries.mapIdx fun i entry => entry.json (clock.entry i))),
      ("total_bytes_scanned", .number report.bytesScanned),
      ("total_matches", .number report.matched),
      ("duration", clock.batch.json),
      ("generated_at", .text clock.finished.text),
      ("config_used", report.rule.json)]

end ResourceNames
