import ResourceNames.Text

namespace ResourceNames

/-- Text as the operating system has it, in paths and in the words of a command line: bytes, which
need not spell characters. -/
abbrev RawText := List UInt8

/-- A text stands for its bytes where raw text is asked for. -/
instance : Coe String RawText := ⟨Text.bytes⟩

instance : Coe (List String) (List RawText) := ⟨List.map Text.bytes⟩

namespace Text

/-- What raw text consists of: characters, and rows of bytes that spell none. -/
inductive Piece
  | char (c : Char)
  | broken (bytes : RawText)
deriving DecidableEq, Repr

namespace Piece

def bytes : Piece → RawText
  | .char c => String.utf8EncodeChar c
  | .broken bytes => bytes

/-- A mark stands for bytes that cannot be shown. -/
def shown : Piece → Char
  | .char c => c
  | .broken _ => '\uFFFD'

end Piece

/-- The character that raw text begins with; no character takes more than four bytes. -/
def first? (raw : RawText) : Option Char :=
  (raw.take 4).toByteArray.utf8DecodeChar? 0

/-- Whether a byte can stand in a character behind its second byte. -/
def continues (byte : UInt8) : Bool :=
  0x80 ≤ byte && byte ≤ 0xbf

/-- Whether some character of three or four bytes begins with these two. -/
def opens (first second : UInt8) : Bool :=
  if first = 0xe0 then 0xa0 ≤ second && second ≤ 0xbf
  else if first = 0xed then 0x80 ≤ second && second ≤ 0x9f
  else if first = 0xf0 then 0x90 ≤ second && second ≤ 0xbf
  else if first = 0xf4 then 0x80 ≤ second && second ≤ 0x8f
  else 0xe1 ≤ first && first ≤ 0xf3 && continues second

/-- How many bytes are given up together where no character begins: as many as a character could
have begun with, but at least one. -/
def brokenLength : RawText → Nat
  | first :: second :: rest =>
    if opens first second then
      match rest with
      | [] => 2
      | third :: _ => if 0xf0 ≤ first && continues third then 3 else 2
    else 1
  | _ => 1

/-- The pieces behind the first `passed` bytes. -/
def piecesBehind : Nat → RawText → List Piece
  | _, [] => []
  | passed + 1, _ :: rest => piecesBehind passed rest
  | 0, first :: rest =>
    match first? (first :: rest) with
    | some c => .char c :: piecesBehind (c.utf8Size - 1) rest
    | none =>
      let length := brokenLength (first :: rest)
      .broken ((first :: rest).take length) :: piecesBehind (length - 1) rest

def pieces (raw : RawText) : List Piece :=
  piecesBehind 0 raw

/-- Raw text as it is shown, whether or not it is text. -/
def shown (raw : RawText) : String :=
  String.ofList ((pieces raw).map Piece.shown)

end Text

end ResourceNames
