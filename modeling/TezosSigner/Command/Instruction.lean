import TezosSigner.Config
import TezosSigner.Signing.Plan
import TezosSigner.Status

/-!
# Instructions

What a command asks for. Both modes know some instructions; others belong to the
baking signer, and signing without hashing belongs to the wallet.
-/

namespace TezosSigner

inductive Instruction where
  | version
  | authorizeBaking
  /-- Hands out a public key, after showing it if so wished. -/
  | publicKey (display : Bool)
  | sign (kind : SigningKind)
  | reset
  | queryKey
  | queryMainMark
  | commit
  | setup
  | queryAllMarks
  | deauthorize
  | queryKeyWithCurve
  | hmac
deriving DecidableEq, Repr

namespace Instruction

/-- Whether an instruction is a chunk of a message to be signed. -/
def isSigning : Instruction → Bool
  | .sign _ => true
  | _ => false

/-- The instructions that both modes know. -/
def common? (code : UInt8) : Option Instruction :=
  if code = 0x00 then some .version
  else if code = 0x02 then some (.publicKey false)
  else if code = 0x03 then some (.publicKey true)
  else if code = 0x04 then some (.sign .standard)
  else if code = 0x09 then some .commit
  else if code = 0x0F then some (.sign .withHash)
  else none

/-- The instructions that one mode knows by itself. -/
def ofMode? (mode : Mode) (code : UInt8) : Option Instruction :=
  match mode with
  | .wallet => if code = 0x05 then some (.sign .unhashed) else none
  | .baking =>
      if code = 0x01 then some .authorizeBaking
      else if code = 0x06 then some .reset
      else if code = 0x07 then some .queryKey
      else if code = 0x08 then some .queryMainMark
      else if code = 0x0A then some .setup
      else if code = 0x0B then some .queryAllMarks
      else if code = 0x0C then some .deauthorize
      else if code = 0x0D then some .queryKeyWithCurve
      else if code = 0x0E then some .hmac
      else none

def ofCode (mode : Mode) (code : UInt8) : Except Status Instruction :=
  match common? code <|> ofMode? mode code with
  | some instruction => .ok instruction
  | none => .error .invalidInstruction

end Instruction

end TezosSigner
