import ResourceNames.Printable

namespace ResourceNames

/-- Consecutive bytes of a stream, and where the first of them stands. -/
structure Run where
  offset : Nat
  bytes : List UInt8
deriving DecidableEq, Repr

namespace Run

/-- The bytes as text, one character a byte. -/
def text (run : Run) : String :=
  String.ofList (run.bytes.map fun byte => Char.ofNat byte.toNat)

def endsWith (run : Run) (ending : List UInt8) : Bool :=
  ending.isSuffixOf run.bytes

/-- `run` stands in `data`, holds printable bytes only, and cannot be extended on either side. -/
def Maximal (data : List UInt8) (run : Run) : Prop :=
  ∃ front back, data = front ++ run.bytes ++ back ∧ front.length = run.offset ∧ run.bytes ≠ [] ∧
    (∀ byte ∈ run.bytes, isPrintable byte) ∧
    (∀ byte ∈ front.getLast?, isPrintable byte = false) ∧
    (∀ byte ∈ back.head?, isPrintable byte = false)

end Run

end ResourceNames
