import TezosSigner.Bytes

/-!
# Hexadecimal text

Every byte is written as two lower-case hexadecimal digits, and only such text is
read back.
-/

namespace TezosSigner.Text

def hexDigit (value : Nat) : Char :=
  if value < 10 then Char.ofNat ('0'.toNat + value) else Char.ofNat ('a'.toNat + (value - 10))

def hexByte (byte : UInt8) : List Char :=
  [hexDigit (byte.toNat / 16), hexDigit (byte.toNat % 16)]

/-- Two lower-case hexadecimal digits for every byte. -/
def hex (bytes : Bytes) : String :=
  String.ofList (bytes.flatMap hexByte)

def hexValue? (digit : Char) : Option Nat :=
  (List.range 16).find? fun value => hexDigit value == digit

/-- The bytes written by pairs of hexadecimal digits. -/
def ofHexChars? : List Char → Option Bytes
  | [] => some []
  | high :: low :: rest => do
      return UInt8.ofNat (16 * (← hexValue? high) + (← hexValue? low)) :: (← ofHexChars? rest)
  | [_] => none

def ofHex? (text : String) : Option Bytes :=
  ofHexChars? text.toList

end TezosSigner.Text
