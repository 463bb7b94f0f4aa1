import ResourceNames.Decimal.Binary64

namespace ResourceNames

/-- A number of bytes, to be shown in a unit of fitting size. -/
structure ByteSize where
  bytes : Nat
deriving DecidableEq, Repr

namespace ByteSize

/-- The units, each 1024 times the one before. -/
inductive Scale
  | bytes
  | kilobytes
  | megabytes
  | gigabytes
deriving DecidableEq, Repr

def Scale.power : Scale → Nat
  | .bytes => 0
  | .kilobytes => 1
  | .megabytes => 2
  | .gigabytes => 3

/-- The number of bytes in a unit. -/
def Scale.unit (scale : Scale) : Nat :=
  Nat.pow 1024 scale.power

def Scale.symbol : Scale → String
  | .bytes => "B"
  | .kilobytes => "KB"
  | .megabytes => "MB"
  | .gigabytes => "GB"

/-- The number of bytes in fifty-three significant bits. -/
def measured (size : ByteSize) : Nat :=
  let excess := Nat.pow 2 (size.bytes.log2 - 52)
  Binary64.roundDiv size.bytes excess * excess

/-- The largest unit of which there is one, but nothing above gigabytes. -/
def scale (size : ByteSize) : Scale :=
  if size.measured < Scale.kilobytes.unit then .bytes
  else if size.measured < Scale.megabytes.unit then .kilobytes
  else if size.measured < Scale.gigabytes.unit then .megabytes
  else .gigabytes

/-- The tenths of its unit in a size, to the nearest; a half goes to the even neighbour. -/
def tenths (size : ByteSize) : Nat :=
  Binary64.roundDiv (10 * size.measured) size.scale.unit

/-- Bytes are counted, and larger units shown to one decimal. -/
def text (size : ByteSize) : String :=
  match size.scale with
  | .bytes => s!"{size.bytes} B"
  | scale => s!"{size.tenths / 10}.{size.tenths % 10} {scale.symbol}"

end ByteSize

end ResourceNames
