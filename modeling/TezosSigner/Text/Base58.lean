import TezosSigner.Hash.Sha2
import TezosSigner.Text.Numeral

/-!
# Base-58 text

A byte string is written as the base-58 numeral of the number it holds, behind
one `1` for every leading zero byte. The checked form adds four bytes of a
double SHA-256 digest before writing.
-/

namespace TezosSigner.Text

/-- The digits of base 58 in order: letters and figures that are hard to confuse. -/
def base58Alphabet : List Char :=
  ['1', '2', '3', '4', '5', '6', '7', '8', '9',
    'A', 'B', 'C', 'D', 'E', 'F', 'G', 'H', 'J', 'K', 'L', 'M', 'N',
    'P', 'Q', 'R', 'S', 'T', 'U', 'V', 'W', 'X', 'Y', 'Z',
    'a', 'b', 'c', 'd', 'e', 'f', 'g', 'h', 'i', 'j', 'k',
    'm', 'n', 'o', 'p', 'q', 'r', 's', 't', 'u', 'v', 'w', 'x', 'y', 'z']

def base58Digit (value : Nat) : Char :=
  base58Alphabet.getD value '1'

/-- The base-58 characters of a byte string, leading zero bytes kept as digits zero. -/
def base58Chars (bytes : Bytes) : List Char :=
  List.replicate (bytes.takeWhile (· == 0)).length (base58Digit 0)
    ++ (digits 58 bytes.toNat).map base58Digit

def base58 (bytes : Bytes) : String :=
  String.ofList (base58Chars bytes)

def checksum (bytes : Bytes) : Bytes :=
  (Hash.sha256 (Hash.sha256 bytes)).take 4

/-- A payload behind the bytes that name its kind, in base 58 with its checksum. -/
def base58Check (kind payload : Bytes) : String :=
  base58 (kind ++ payload ++ checksum (kind ++ payload))

end TezosSigner.Text
