import TezosSigner.Operation.Account
import TezosSigner.Operation.Basic

/-!
# Manager scripts

A transaction to a manager contract may carry a script for the contract to run.
Exactly four scripts are understood: set the delegate, clear it, transfer to an
implicit account, and transfer to the default entrypoint of an originated one.
Each is a literal byte string but for the account and the amount in it.
-/

namespace TezosSigner.Script

open Decoder

inductive Primitive where
  | drop
  | nil
  | operationType
  | push
  | keyHashType
  | some
  | none
  | setDelegate
  | implicitAccount
  | mutezType
  | unit
  | transferTokens
  | cons
  | addressType
  | contract
  | unitType
deriving DecidableEq, Repr

/-- The two bytes of a primitive, as one word: the number of its arguments comes before
its own code. -/
def Primitive.word : Primitive → UInt16
  | .drop => 0x0320
  | .nil => 0x053D
  | .operationType => 0x036D
  | .push => 0x0743
  | .keyHashType => 0x035D
  | .some => 0x0346
  | .none => 0x053E
  | .setDelegate => 0x034E
  | .implicitAccount => 0x031E
  | .mutezType => 0x036A
  | .unit => 0x034F
  | .transferTokens => 0x034D
  | .cons => 0x031B
  | .addressType => 0x036E
  | .contract => 0x0555
  | .unitType => 0x036C

/-- The code that fails when there is no contract at an address. -/
def failUnlessContract : Bytes :=
  [0x02, 0x00, 0x00, 0x00, 0x15, 0x07, 0x2F, 0x02, 0x00, 0x00, 0x00, 0x09, 0x02,
    0x00, 0x00, 0x00, 0x04, 0x03, 0x4F, 0x03, 0x27, 0x02, 0x00, 0x00, 0x00, 0x00]

def primitives : List Primitive → Decoder Unit
  | [] => pure ()
  | expected :: rest => do
      require ((← uint16) == expected.word)
      primitives rest

/-- Reads a literal of `size` bytes, which a decoder has to read completely. -/
def bytesLiteral {α : Type} (size : Nat) (decoder : Decoder α) : Decoder α := do
  literal [0x0A]
  require ((← uint32).toNat == size)
  within size decoder

def originatedAddress : Decoder Contract := do
  literal [0x01]
  let hash ← sized 20
  literal [0x00]
  return .originated hash

/-- Goes on with an integer whose bits below the place `shift` are in a word. A group of bits that
does not fit into the word any more is refused. -/
def amountOnto (word : UInt64) (shift : UInt32) : Decoder UInt64
  | [] => .error .malformed []
  | byte :: rest =>
      let group := (byte &&& 0x7F).toUInt64
      let placed := group <<< shift.toUInt64
      if shift ≥ 64 ∨ placed >>> shift.toUInt64 ≠ group then .error .malformed rest
      else if byte &&& 0x80 = 0 then .ok (word ||| placed) rest
      else amountOnto (word ||| placed) (shift + 7) rest

/-- Reads an integer literal that is not negative and fits into 64 bits. Its first byte holds
the sign and six bits, least significant first, and each further byte seven more. -/
def amount : Decoder UInt64 := do
  literal [0x00]
  let first ← byte
  require (first &&& 0x40 == 0)
  let word := (first &&& 0x3F).toUInt64
  if first &&& 0x80 = 0 then return word else amountOnto word 6

/-- Reads the end of a transfer, with its amount. -/
def transferTail : Decoder UInt64 := do
  primitives [.push, .mutezType]
  let amount ← amount
  primitives [.unit, .transferTokens]
  return amount

/-- Reads what follows a pushed implicit account. -/
def accountAction (account : Contract) : Decoder ManagerAction := do
  let primitive ← uint16
  if primitive = Primitive.some.word then
    primitives [.setDelegate]
    return .setDelegate (some account)
  else if primitive = Primitive.implicitAccount.word then
    return .transfer account (← transferTail)
  else malformed

/-- Reads what follows a pushed address. -/
def addressAction (destination : Contract) : Decoder ManagerAction := do
  primitives [.contract, .unitType]
  literal failUnlessContract
  return .transfer destination (← transferTail)

/-- Reads what the script does between its first and its last primitives. -/
def action : Decoder ManagerAction := do
  let primitive ← uint16
  if primitive = Primitive.push.word then
    let type ← uint16
    if type = Primitive.keyHashType.word then
      accountAction (← bytesLiteral 21 implicitAccount)
    else if type = Primitive.addressType.word then
      addressAction (← bytesLiteral 22 originatedAddress)
    else malformed
  else if primitive = Primitive.none.word then
    primitives [.keyHashType, .setDelegate]
    return .setDelegate none
  else malformed

def body : Decoder ManagerAction := do
  primitives [.drop, .nil, .operationType]
  let action ← action
  primitives [.cons]
  return action

/-- Reads a script: a sequence of primitives behind its length. -/
def script : Decoder ManagerAction := do
  literal [0x02]
  framed body

/-- Reads the parameters of a call: the entrypoint and a script behind its length. -/
def managerCall : Decoder ManagerAction := do
  literal [0x02]
  framed script

end TezosSigner.Script
