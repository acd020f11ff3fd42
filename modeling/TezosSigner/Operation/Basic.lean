import TezosSigner.Account

/-!
# Operations

The operations that the signer can review, as it understands them once decoded.
Two protocol eras give the same type of operation different tags.
-/

namespace TezosSigner

open Hash

/-- The types of operation that may stand in a group. -/
inductive OperationType where
  | reveal
  | transaction
  | origination
  | delegation
  | proposal
  | ballot
deriving DecidableEq, Repr

namespace OperationType

/-- The type of operation that a tag announces, in either era. -/
def ofTag? (tag : UInt8) : Option OperationType :=
  if tag = 5 then some .proposal
  else if tag = 6 then some .ballot
  else if tag = 7 ∨ tag = 107 then some .reveal
  else if tag = 8 ∨ tag = 108 then some .transaction
  else if tag = 9 ∨ tag = 109 then some .origination
  else if tag = 10 ∨ tag = 110 then some .delegation
  else none

/-- Votes carry neither a fee nor limits; every other operation does. -/
def hasManagerFields : OperationType → Bool
  | .proposal | .ballot => false
  | .reveal | .transaction | .origination | .delegation => true

end OperationType

abbrev AllowedOperations := OperationType → Bool

namespace AllowedOperations

def all : AllowedOperations := fun _ => true

def ofList (types : List OperationType) : AllowedOperations :=
  fun type => types.contains type

end AllowedOperations

inductive Vote where
  | yea
  | nay
  | pass
deriving DecidableEq, Repr

/-- What a call asks of the manager contract that it is sent to. -/
inductive ManagerAction where
  /-- Sets the contract's delegate, or clears it. -/
  | setDelegate (delegate : Option Contract)
  | transfer (destination : Contract) (amount : UInt64)
deriving DecidableEq

/-- What an operation does. Amounts are in millionths of a tez. -/
inductive OperationKind where
  | transaction (amount : UInt64) (destination : Contract) (manager : Option ManagerAction)
  | origination (manager : Contract) (balance : UInt64) (spendable delegatable : Bool)
      (delegate : Option Contract)
  /-- Sets the source's delegate, or withdraws it. -/
  | delegation (delegate : Option Contract)
  | proposal (period : Int32) (protocolHash : Digest)
  | ballot (period : Int32) (proposal : Digest) (vote : Vote)
deriving DecidableEq

/-- An operation other than a reveal. -/
structure Operation where
  tag : UInt8
  source : Contract
  kind : OperationKind
deriving DecidableEq

/-- A group of any number of reveals and one other operation. -/
structure OperationGroup where
  /-- The account of the key that the group is to be signed with. -/
  signing : Contract
  /-- The sum of all fees, modulo 2 to the 64. -/
  totalFee : UInt64
  /-- The sum of all storage limits, modulo 2 to the 64. -/
  totalStorageLimit : UInt64
  hasReveal : Bool
  operation : Operation
deriving DecidableEq

/-- Whether a group does nothing but register its signing account as its own delegate. -/
def OperationGroup.isSelfDelegation (group : OperationGroup) : Bool :=
  group.operation.source == group.signing
    && group.operation.kind == .delegation (some group.signing)

end TezosSigner
