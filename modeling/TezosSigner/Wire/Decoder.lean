import TezosSigner.Bytes
import TezosSigner.Status

/-!
# Decoding byte strings

A decoder turns unread bytes into a value and the bytes behind it. Reads of a
fixed size that run past the end fail without consuming anything; a number
without an end consumes everything before it fails.
-/

namespace TezosSigner

inductive DecodeError where
  /-- The bytes do not follow the format. -/
  | malformed
  /-- The bytes are well formed but hold nothing that could be signed. -/
  | nothingToSign
deriving DecidableEq, Repr

/-- Both causes end a command with the same status. -/
def DecodeError.status : DecodeError → Status
  | .malformed | .nothingToSign => .parseError

/-- A computation on the bytes that are still unread. -/
abbrev Decoder := EStateM DecodeError Bytes

namespace Decoder

variable {α : Type}

/-- Applies a decoder to a byte string, giving the value and the unread bytes. -/
def decode (decoder : Decoder α) (bytes : Bytes) : Except DecodeError (α × Bytes) :=
  match decoder bytes with
  | .ok value rest => .ok (value, rest)
  | .error cause _ => .error cause

def malformed : Decoder α :=
  fun bytes => .error .malformed bytes

/-- Refuses the bytes unless a condition holds. -/
def require (condition : Bool) : Decoder Unit :=
  if condition then pure () else malformed

def atEnd : Decoder Bool :=
  fun bytes => .ok bytes.isEmpty bytes

/-- Refuses the bytes unless every one of them has been read. -/
def finish : Decoder Unit := do
  require (← atEnd)

def byte : Decoder UInt8
  | [] => .error .malformed []
  | first :: rest => .ok first rest

def take (count : Nat) : Decoder Bytes := fun bytes =>
  if count ≤ bytes.length then .ok (bytes.take count) (bytes.drop count)
  else .error .malformed bytes

def sized (size : Nat) : Decoder (Bytes.Sized size) := fun bytes =>
  if h : size ≤ bytes.length then .ok ⟨bytes.take size, by simp [h]⟩ (bytes.drop size)
  else .error .malformed bytes

def uint16 : Decoder UInt16 := do
  return UInt16.ofNat (← take 2).toNat

def uint32 : Decoder UInt32 := do
  return (← take 4).toUInt32

def int32 : Decoder Int32 := do
  return (← uint32).toInt32

/-- Puts the low seven bits of a byte into a word, from the place `shift` on. Bits that are
past the end of the word are dropped. -/
def putSeptet (word : UInt64) (shift : UInt32) (byte : UInt8) : UInt64 :=
  if shift < 64 then word ||| (byte &&& 0x7F).toUInt64 <<< shift.toUInt64 else word

/-- The place seven bits further on, or the last one that can be counted. -/
def nextShift (shift : UInt32) : UInt32 :=
  if shift ≤ 0xFFFFFFF8 then shift + 7 else 0xFFFFFFFF

/-- Goes on with a number whose bits below the place `shift` are in a word. -/
def varintOnto (word : UInt64) (shift : UInt32) : Decoder UInt64
  | [] => .error .malformed []
  | byte :: rest =>
      let word := putSeptet word shift byte
      if byte &&& 0x80 = 0 then .ok word rest else varintOnto word (nextShift shift) rest

/-- Reads a number of base-128 digits, least significant first, up to the first byte
whose top bit is clear. Only the low 64 bits of the number are kept. -/
def varint : Decoder UInt64 :=
  varintOnto 0 0

/-- Reads exactly the given bytes. -/
def literal (expected : Bytes) : Decoder Unit := do
  require ((← take expected.length) == expected)

/-- Applies a decoder to the next `size` bytes, all of which it has to read. -/
def within (size : Nat) (decoder : Decoder α) : Decoder α := do
  match decoder.decode (← take size) with
  | .ok (value, []) => return value
  | _ => malformed

/-- Reads a 32-bit length and applies a decoder to that many bytes. -/
def framed (decoder : Decoder α) : Decoder α := do
  let size ← uint32
  within size.toNat decoder

end Decoder

end TezosSigner
