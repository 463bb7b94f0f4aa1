namespace ResourceNames

/-- Digits, letters, punctuation, the space, and the five blanks from tab to carriage return.
No byte from `0x80` on is printable. -/
def isPrintable (byte : UInt8) : Bool :=
  (0x20 ≤ byte && byte ≤ 0x7E) || (0x09 ≤ byte && byte ≤ 0x0D)

end ResourceNames
