import ResourceNames.Run
import ResourceNames.Text

namespace ResourceNames

/-- The ending that a resource name must have, compared byte by byte. -/
structure Suffix where
  text : String
deriving DecidableEq, Repr

namespace Suffix

def bytes (suffix : Suffix) : List UInt8 :=
  Text.bytes suffix.text

def accepts (suffix : Suffix) (data : List UInt8) : Bool :=
  suffix.bytes.isSuffixOf data

/-- The runs with the suffix, in the order given. -/
def keep (suffix : Suffix) (runs : List Run) : List Run :=
  runs.filter fun run => suffix.accepts run.bytes

end Suffix

end ResourceNames
