import ResourceNames.Report
import ResourceNames.Settings

namespace ResourceNames

/-- An entry that a batch would process, and whether its input is there. -/
structure PlannedEntry where
  entry : Entry
  present : Bool
deriving DecidableEq, Repr

/-- What a batch would do. -/
structure Plan where
  rule : ScanRule
  outputDirectory : Option Path
  entries : List PlannedEntry
deriving DecidableEq, Repr

/-- The batch that settings describe, or the first input that has no entry. -/
def Plan.ofSettings (settings : Settings) (fs : FileSystem) : Except Path Plan := do
  let entries ← settings.entries
  return {
    rule := settings.scan
    outputDirectory := settings.batch.outputDirectory
    entries := entries.map fun entry => ⟨entry, fs.has entry.input⟩ }

/-- An entry as a document. There is none if one of its paths is no text. -/
def Entry.json? (entry : Entry) : Option Json := do
  let input ← entry.input.text?
  let output ← entry.output.text?
  return .object [("input", .text input), ("output", .text output)]

/-- A plan as a document, if each of its entries is one. -/
def Plan.json? (plan : Plan) : Option Json := do
  let entries ← plan.entries.mapM fun planned => planned.entry.json?
  return .object
    [("entries", .array entries), ("scan", plan.rule.json), ("type", .text "plan")]

end ResourceNames
