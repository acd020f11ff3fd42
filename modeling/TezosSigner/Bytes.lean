/-!
# Byte strings

Messages, keys, digests and replies are byte strings. This module fixes how
they are cut into equal pieces and how numbers stand in them: big-endian
everywhere on the wire, little-endian inside one hash function, and base 128
with the least significant group first for amounts.
-/

namespace TezosSigner

/-- A byte string, first byte first. -/
abbrev Bytes := List UInt8

namespace Bytes

abbrev Sized (size : Nat) := { bytes : Bytes // bytes.length = size }

def Sized.fill (size : Nat) (byte : UInt8) : Sized size :=
  ⟨List.replicate size byte, List.length_replicate⟩

/-- The number written by a byte string, most significant byte first. -/
def toNat (bytes : Bytes) : Nat :=
  bytes.foldl (fun value byte => 256 * value + byte.toNat) 0

/-- The `width` low bytes of a number, most significant byte first. -/
def bigEndian : Nat → Nat → Bytes
  | 0, _ => []
  | width + 1, value => UInt8.ofNat (value / Nat.pow 256 width) :: bigEndian width value

@[simp] theorem length_bigEndian (width value : Nat) :
    (bigEndian width value).length = width := by
  induction width with
  | zero => rfl
  | succ width ih => simp [bigEndian, ih]

/-- The `width` low bytes of a number, least significant byte first. -/
def littleEndian (width value : Nat) : Bytes :=
  (bigEndian width value).reverse

@[simp] theorem length_littleEndian (width value : Nat) :
    (littleEndian width value).length = width := by
  simp [littleEndian]

def flag (value : Bool) : UInt8 :=
  if value then 1 else 0

def ofUInt16 (word : UInt16) : Bytes :=
  bigEndian 2 word.toNat

def ofUInt32 (word : UInt32) : Bytes :=
  bigEndian 4 word.toNat

/-- A signed 32-bit word in big-endian two's complement. -/
def ofInt32 (word : Int32) : Bytes :=
  ofUInt32 word.toUInt32

/-- The 32-bit word written by a big-endian byte string. -/
def toUInt32 (bytes : Bytes) : UInt32 :=
  UInt32.ofNat bytes.toNat

/-- Puts bytes over those of a memory from an offset on. -/
def overwrite (memory : Bytes) (offset : Nat) (bytes : Bytes) : Bytes :=
  memory.take offset ++ bytes ++ memory.drop (offset + bytes.length)

theorem length_overwrite {memory bytes : Bytes} {offset : Nat}
    (hroom : offset + bytes.length ≤ memory.length) :
    (memory.overwrite offset bytes).length = memory.length := by
  simp only [overwrite, List.length_append, List.length_take, List.length_drop]
  omega

/-- The 32-bit word at `offset`, if all four of its bytes are there. -/
def uint32At? (bytes : Bytes) (offset : Nat) : Option UInt32 :=
  if offset + 4 ≤ bytes.length then some (toUInt32 ((bytes.drop offset).take 4)) else none

def pieces (size : Nat) : Nat → Bytes → List Bytes
  | 0, _ => []
  | count + 1, bytes => bytes.take size :: pieces size count (bytes.drop size)

@[simp] theorem length_pieces (size count : Nat) (bytes : Bytes) :
    (pieces size count bytes).length = count := by
  induction count generalizing bytes with
  | zero => rfl
  | succ count ih => simp [pieces, ih]

/-- Cuts behind the first byte whose top bit is clear, if there is one. -/
def splitTerminated? : Bytes → Option (Bytes × Bytes)
  | [] => none
  | byte :: rest =>
      if byte < 0x80 then some ([byte], rest)
      else (splitTerminated? rest).map fun (group, behind) => (byte :: group, behind)

/-- The number whose base-128 digits are the low seven bits of each byte,
least significant digit first. -/
def septets : Bytes → Nat
  | [] => 0
  | byte :: rest => byte.toNat % 128 + 128 * septets rest

end Bytes

end TezosSigner
