import TezosSigner.Bytes

/-!
# Consensus messages

Blocks and endorsements are recognised by a fixed header that holds their chain
and level. Everything else is a generic message.
-/

namespace TezosSigner

/-- What a block or an endorsement claims about itself. -/
structure ConsensusData where
  chainId : UInt32
  level : UInt32
  isEndorsement : Bool
deriving DecidableEq, Repr

inductive MessageClass where
  | block (data : ConsensusData)
  | endorsement (data : ConsensusData)
  | generic
deriving DecidableEq, Repr

namespace MessageClass

def consensus? : MessageClass → Option ConsensusData
  | .block data | .endorsement data => some data
  | .generic => none

/-- The words for chain and level at given offsets. -/
def consensusAt (bytes : Bytes) (levelAt : Nat) (isEndorsement : Bool) : ConsensusData where
  chainId := Bytes.toUInt32 ((bytes.drop 1).take 4)
  level := Bytes.toUInt32 ((bytes.drop levelAt).take 4)
  isEndorsement := isEndorsement

/-- Recognises a message. A block begins with a one and has at least the ten bytes of its
header; an endorsement begins with a two, has exactly forty-two bytes, and a zero
in front of its level. -/
def ofBytes (bytes : Bytes) : MessageClass :=
  let first := bytes.head?
  if first = some 0x01 ∧ 10 ≤ bytes.length then .block (consensusAt bytes 5 false)
  else if first = some 0x02 ∧ bytes.length = 42 ∧ bytes[37]? = some 0x00 then
    .endorsement (consensusAt bytes 38 true)
  else .generic

end MessageClass

/-- A level that uses either of the two top bits is negative or overflowed. -/
def isValidLevel (level : UInt32) : Bool :=
  level &&& 0xC0000000 == 0

def blockBytes (chainId level : UInt32) : Bytes :=
  0x01 :: (Bytes.ofUInt32 chainId ++ Bytes.ofUInt32 level ++ (0x05 :: List.replicate 40 0xCC))

def endorsementBytes (chainId level : UInt32) : Bytes :=
  0x02 :: (Bytes.ofUInt32 chainId ++ List.replicate 32 0xBB ++ (0x00 :: Bytes.ofUInt32 level))

end TezosSigner
