import TezosSigner.Operation.Basic
import TezosSigner.Review.Prompt

/-!
# Prompts for signing

A decoded operation group is shown in detail: what it moves, on whose behalf, and
at what cost. What cannot be shown in detail is shown by its hash alone.
-/

namespace TezosSigner.Prompt

def tezText (amount : UInt64) : String :=
  Text.tez amount ++ " XTZ"

/-- A prompt for an operation that is approved under the usual label. -/
def signOperation (title : String) (fields : List Field) : Prompt where
  kind := .operation
  title := title
  fields := fields
  confirm := "Sign operation"

/-- What a group costs, whatever it does. -/
structure Cost where
  fee : UInt64
  storageLimit : UInt64

def Cost.feeField (cost : Cost) : Field := ⟨"Fee", tezText cost.fee⟩

def Cost.storageField (cost : Cost) : Field := ⟨"Storage", Text.decimal cost.storageLimit.toNat⟩

def transfer (source destination : Contract) (amount : UInt64) (cost : Cost) : Prompt :=
  signOperation "Confirm Transaction"
    [⟨"Amount", tezText amount⟩,
      cost.feeField,
      ⟨"Source", source.text⟩,
      ⟨"Destination", destination.text⟩,
      cost.storageField]

/-- Shows the delegate that an account gets, or that it loses its delegate. -/
def delegation (source : Contract) (delegate : Option Contract) (cost : Cost) : Prompt :=
  let title := if delegate.isSome then "Confirm Delegation" else "Withdraw Delegation"
  signOperation title
    [cost.feeField,
      ⟨"Source", source.text⟩,
      ⟨"Delegate", (delegate.map Contract.text).getD "None"⟩,
      cost.storageField]

/-- What a new account's delegate is and whether it may be changed. -/
def delegateField (delegatable : Bool) (delegate : Option Contract) : Field :=
  match delegatable, delegate with
  | true, some delegate => ⟨"Delegate", delegate.text⟩
  | true, none => ⟨"Delegate", "Any"⟩
  | false, some delegate => ⟨"Fixed Delegate", delegate.text⟩
  | false, none => ⟨"Delegation", "Disabled"⟩

/-- Shows a new account: its funds, its manager and its delegate. -/
def origination (source manager : Contract) (balance : UInt64) (delegatable : Bool)
    (delegate : Option Contract) (cost : Cost) : Prompt :=
  signOperation "Confirm Origination"
    [⟨"Amount", tezText balance⟩,
      cost.feeField,
      ⟨"Source", source.text⟩,
      ⟨"Manager", manager.text⟩,
      delegateField delegatable delegate,
      cost.storageField]

def proposal (source : Contract) (period : Int32) (protocolHash : Bytes) : Prompt :=
  signOperation "Confirm Proposal"
    [⟨"Source", source.text⟩,
      ⟨"Period", Text.signedDecimal period.toInt⟩,
      ⟨"Protocol", protocolText protocolHash⟩]

def voteText : Vote → String
  | .yea => "Yea"
  | .nay => "Nay"
  | .pass => "Pass"

def ballot (source : Contract) (period : Int32) (protocolHash : Bytes) (vote : Vote) : Prompt where
  kind := .operation
  title := "Confirm Vote"
  fields :=
    [⟨"Vote", voteText vote⟩,
      ⟨"Source", source.text⟩,
      ⟨"Protocol", protocolText protocolHash⟩,
      ⟨"Period", Text.signedDecimal period.toInt⟩]
  confirm := "Sign vote"

/-- Shows a group in detail. A call of a manager contract is shown as an act of that
contract. The origination of an account whose manager may not spend has no detailed
prompt. -/
def ofGroup? (group : OperationGroup) : Option Prompt :=
  let source := group.operation.source
  let cost : Cost := ⟨group.totalFee, group.totalStorageLimit⟩
  match group.operation.kind with
  | .transaction amount destination none => some (transfer source destination amount cost)
  | .transaction _ caller (some (.transfer destination amount)) =>
      some (transfer caller destination amount cost)
  | .transaction _ caller (some (.setDelegate delegate)) =>
      some (delegation caller delegate cost)
  | .delegation delegate => some (delegation source delegate cost)
  | .origination manager balance spendable delegatable delegate =>
      if spendable then some (origination source manager balance delegatable delegate cost)
      else none
  | .proposal period protocolHash => some (proposal source period protocolHash.val)
  | .ballot period protocolHash vote => some (ballot source period protocolHash.val vote)

/-- A prompt that shows a byte string in base 58 and nothing else. -/
def signHash (title : String) (bytes : Bytes) : Prompt where
  kind := .operation
  title := title
  fields := [⟨"Sign Hash", Text.base58 bytes⟩]
  confirm := "Sign hash"

/-- Shows the hash of a message that has no detailed prompt. -/
def unrecognized (hash : Bytes) : Prompt :=
  signHash "Unrecognized operation" hash

def prehashed (message : Bytes) : Prompt :=
  signHash "Pre-hashed operation" message

/-- Shows that a baker registers itself as its own delegate. -/
def registerDelegate (group : OperationGroup) : Prompt where
  kind := .operation
  title := "Register as delegate?"
  fields := [⟨"Address", group.signing.text⟩, ⟨"Fee", tezText group.totalFee⟩]
  confirm := "Register"

end TezosSigner.Prompt
