import Mathlib
import TezosSigner.Operation.Group
import TezosSigner.Proofs.ManagerScript

/-!
# What an operation group holds

The bytes of a group fall into parts: a mark, a branch, and for each operation its
tag, its source, the numbers of its fee and limits, and what is its own. Decoding
accepts exactly the bytes that fall into parts of the right forms. Since each
operation tells where it ends, no group begins with another one.
-/

namespace TezosSigner

open Decoder Hash

/-- The tags that announce a type of operation, that of the older era first. -/
def OperationType.tags : OperationType → List UInt8
  | .reveal => [7, 107]
  | .transaction => [8, 108]
  | .origination => [9, 109]
  | .delegation => [10, 110]
  | .proposal => [5]
  | .ballot => [6]

theorem OperationType.ofTag?_eq_some_iff {tag : UInt8} {type : OperationType} :
    ofTag? tag = some type ↔ tag ∈ type.tags := by
  constructor
  · intro htype
    unfold ofTag? at htype
    split_ifs at htype <;> cases htype <;> simp_all [tags]
  · intro htag
    cases type <;> simp only [tags, List.mem_cons, List.not_mem_nil, or_false] at htag
    case proposal | ballot =>
      subst htag
      rfl
    all_goals
      rcases htag with rfl | rfl
      · rfl
      · rfl

/-- The byte of a vote in a ballot. -/
def Vote.code : Vote → UInt8
  | .yea => 0
  | .nay => 1
  | .pass => 2

namespace OperationGroup

theorem voteOfByte?_eq_some_iff {byte : UInt8} {vote : Vote} :
    voteOfByte? byte = some vote ↔ byte = vote.code := by
  constructor
  · intro hvote
    unfold voteOfByte? at hvote
    split_ifs at hvote with hyea hnay hpass <;> cases hvote
    · exact hyea
    · exact hnay
    · exact hpass
  · rintro rfl
    cases vote <;> rfl

section Forms

/-- The source of an operation: an account of either kind in the older era, an implicit one
in the newer era and in votes. -/
def SourceForm (tag : UInt8) : Contract → Bytes → Prop :=
  if tag ∈ [7, 8, 9, 10] then ContractForm else AccountForm

/-- What an operation other than a reveal has for itself. -/
inductive KindForm (tag : UInt8) : OperationType → OperationKind → Bytes → Prop
  | transaction (amount : Bytes.Numeral) {destination : Contract} {account : Bytes}
      (haccount : ContractForm destination account) :
      KindForm tag .transaction (.transaction amount.word destination none)
        (amount.val ++ account ++ [0x00])
  /-- A manager script is handed over by the newer era only, without an amount and to an
  originated account. -/
  | call (htag : tag = 108) {amount : Bytes.Numeral} (hamount : amount.word = 0) {hash : KeyHash}
      {account : Bytes} (haccount : ContractForm (.originated hash) account)
      {action : ManagerAction} {call : Bytes} (hcall : Script.CallForm action call) :
      KindForm tag .transaction (.transaction 0 (.originated hash) (some action))
        (amount.val ++ account ++ [0xFF] ++ call)
  | origination {manager : Contract} {account : Bytes} (hmanager : AccountForm manager account)
      (balance : Bytes.Numeral) (spendable delegatable : UInt8) {delegate : Option Contract}
      {optional : Bytes} (hdelegate : OptionalForm delegate optional) :
      KindForm tag .origination
        (.origination manager balance.word (spendable != 0) (delegatable != 0) delegate)
        (account ++ balance.val ++ [spendable, delegatable] ++ optional ++ [0x00])
  | delegation {delegate : Option Contract} {optional : Bytes}
      (hdelegate : OptionalForm delegate optional) :
      KindForm tag .delegation (.delegation delegate) optional
  | proposal (period : Int32) (protocolHash : Digest) :
      KindForm tag .proposal (.proposal period protocolHash)
        (Bytes.ofInt32 period ++ [0x00, 0x00, 0x00, 0x20] ++ protocolHash.val)
  | ballot (period : Int32) (proposal : Digest) (vote : Vote) :
      KindForm tag .ballot (.ballot period proposal vote)
        (Bytes.ofInt32 period ++ proposal.val ++ [vote.code])

/-- The numbers that every operation but a vote has. -/
structure ManagerParts where
  fee : Bytes.Numeral
  counter : Bytes.Numeral
  gasLimit : Bytes.Numeral
  storageLimit : Bytes.Numeral

def ManagerParts.toBytes (parts : ManagerParts) : Bytes :=
  parts.fee.val ++ parts.counter.val ++ parts.gasLimit.val ++ parts.storageLimit.val

/-- The parts of an operation, in their order. -/
structure OperationParts where
  tag : UInt8
  source : Bytes
  manager : Option ManagerParts
  body : Bytes

namespace OperationParts

def toBytes (parts : OperationParts) : Bytes :=
  parts.tag :: (parts.source ++ (parts.manager.map ManagerParts.toBytes).getD [] ++ parts.body)

/-- The fee, modulo 2 to the 64; a vote has none. -/
def fee (parts : OperationParts) : UInt64 :=
  (parts.manager.map (·.fee.word)).getD 0

/-- The storage limit, modulo 2 to the 64; a vote has none. -/
def storageLimit (parts : OperationParts) : UInt64 :=
  (parts.manager.map (·.storageLimit.word)).getD 0

/-- What an operation of an allowed type begins with. -/
structure Opens (allowed : AllowedOperations) (type : OperationType) (source : Contract)
    (parts : OperationParts) : Prop where
  tag : parts.tag ∈ type.tags
  allowed : allowed type = true
  source : SourceForm parts.tag source parts.source
  manager : parts.manager.isSome = type.hasManagerFields

end OperationParts

/-- The parts of a reveal of the key that signs, and of an operation that this key may sign. -/
inductive EntryForm (key : PublicKey) (allowed : AllowedOperations) :
    Option Operation → OperationParts → Prop
  | reveal {source : Contract} {parts : OperationParts}
      (hopens : parts.Opens allowed .reveal source)
      (hbody : parts.body = key.curve.code :: key.compressed) : EntryForm key allowed none parts
  | last {type : OperationType} {operation : Operation} {parts : OperationParts}
      (hopens : parts.Opens allowed type operation.source) (htag : parts.tag = operation.tag)
      (hsource : sourceMaySign operation.source (.ofKey key) = true)
      (hbody : KindForm operation.tag type operation.kind parts.body) :
      EntryForm key allowed (some operation) parts

end Forms

section Reading

variable {bytes rest : Bytes}

theorem reads_source (tag : UInt8) : Reads (source tag) (SourceForm tag) := by
  have hera : (tag ∈ [7, 8, 9, 10]) ↔ hasContractSource tag = true := by
    simp [hasContractSource, or_assoc]
  unfold source SourceForm
  by_cases htag : hasContractSource tag = true
  · rw [if_pos htag, if_pos (hera.mpr htag)]
    exact reads_contract
  · rw [if_neg htag, if_neg (hera.not.mpr htag)]
    exact reads_implicitAccount

theorem accepts_managerFields {read : UInt64 × UInt64} :
    Accepts managerFields bytes read rest ↔
      ∃ parts : ManagerParts, read = (parts.fee.word, parts.storageLimit.word) ∧
        bytes = parts.toBytes ++ rest := by
  simp only [managerFields, accepts_bind, reads_varint.accepts_iff, accepts_pure]
  constructor
  · rintro ⟨_, _, ⟨_, ⟨fee, rfl, rfl⟩, rfl⟩, _, _, ⟨_, ⟨counter, rfl, rfl⟩, rfl⟩, _, _,
      ⟨_, ⟨gasLimit, rfl, rfl⟩, rfl⟩, _, _, ⟨_, ⟨storageLimit, rfl, rfl⟩, rfl⟩, rfl, rfl⟩
    exact ⟨⟨fee, counter, gasLimit, storageLimit⟩, rfl, by simp [ManagerParts.toBytes]⟩
  · rintro ⟨⟨fee, counter, gasLimit, storageLimit⟩, rfl, rfl⟩
    refine ⟨_, _, ⟨_, ⟨fee, rfl, rfl⟩, ?_⟩, _, _, ⟨_, ⟨counter, rfl, rfl⟩, rfl⟩, _, _,
      ⟨_, ⟨gasLimit, rfl, rfl⟩, rfl⟩, _, _, ⟨_, ⟨storageLimit, rfl, rfl⟩, rfl⟩, rfl, rfl⟩
    simp [ManagerParts.toBytes]

theorem accepts_parameters {tag : UInt8} {amount : UInt64} {destination : Contract}
    {manager : Option ManagerAction} :
    Accepts (parameters tag amount destination) bytes manager rest ↔
      manager = none ∧ bytes = 0x00 :: rest ∨
        (tag = 108 ∧ amount = 0 ∧ destination.isOriginated = true) ∧
          ∃ action call, manager = some action ∧ Script.CallForm action call ∧
            bytes = 0xFF :: (call ++ rest) := by
  simp only [parameters, accepts_bind, accepts_byte, accepts_ite, accepts_pure, accepts_malformed,
    accepts_require, Script.reads_managerCall.accepts_iff, Bool.and_eq_true, beq_iff_eq, and_assoc]
  constructor
  · rintro ⟨_, _, rfl, ⟨rfl, rfl, rfl⟩ |
      ⟨_, ⟨rfl, _, _, htag, hamount, horiginated, rfl, action, _, ⟨call, hcall, rfl⟩, rfl, rfl⟩ |
        ⟨_, ⟨⟩⟩⟩⟩
    · exact .inl ⟨rfl, rfl⟩
    · exact .inr ⟨htag, hamount, horiginated, action, call, rfl, hcall, rfl⟩
  · rintro (⟨rfl, rfl⟩ | ⟨htag, hamount, horiginated, action, call, rfl, hcall, rfl⟩)
    · exact ⟨0x00, rest, rfl, .inl ⟨rfl, rfl, rfl⟩⟩
    · exact ⟨0xFF, call ++ rest, rfl, .inr ⟨by decide, .inl ⟨rfl, (), _, htag, hamount, horiginated,
        rfl, action, rest, ⟨call, hcall, rfl⟩, rfl, rfl⟩⟩⟩

theorem reads_transaction (tag : UInt8) : Reads (transaction tag) (KindForm tag .transaction) := by
  intro bytes rest value
  simp only [transaction, accepts_bind, reads_varint.accepts_iff, reads_contract.accepts_iff,
    accepts_parameters, accepts_pure]
  constructor
  · rintro ⟨_, _, ⟨_, ⟨amount, rfl, rfl⟩, rfl⟩, destination, _, ⟨account, haccount, rfl⟩, _, _,
      ⟨rfl, rfl⟩ | ⟨⟨htag, hamount, horiginated⟩, action, call, rfl, hcall, rfl⟩, rfl, rfl⟩
    · exact ⟨_, .transaction amount haccount, by simp⟩
    · cases destination with
      | implicit curve hash => cases horiginated
      | originated hash =>
          rw [hamount]
          exact ⟨_, .call htag hamount haccount hcall, by simp⟩
  · rintro ⟨_, hform, rfl⟩
    cases hform with
    | transaction amount haccount =>
        exact ⟨_, _, ⟨_, ⟨amount, rfl, rfl⟩, by simp⟩, _, _, ⟨_, haccount, rfl⟩, _, _,
          .inl ⟨rfl, rfl⟩, rfl, rfl⟩
    | @call htag amount hamount hash account haccount action call hcall =>
        refine ⟨_, account ++ 0xFF :: (call ++ rest), ⟨_, ⟨amount, rfl, rfl⟩, by simp⟩, _, _,
          ⟨_, haccount, rfl⟩, _, _, .inr ⟨⟨htag, hamount, rfl⟩, action, call, rfl, hcall, rfl⟩, ?_,
          rfl⟩
        rw [hamount]

theorem reads_origination (tag : UInt8) : Reads origination (KindForm tag .origination) := by
  intro bytes rest value
  simp only [origination, accepts_bind, reads_implicitAccount.accepts_iff, reads_varint.accepts_iff,
    accepts_byte, reads_optionalAccount.accepts_iff, accepts_literal, accepts_pure]
  constructor
  · rintro ⟨manager, _, ⟨account, hmanager, rfl⟩, _, _, ⟨_, ⟨balance, rfl, rfl⟩, rfl⟩, spendable, _,
      rfl, delegatable, _, rfl, delegate, _, ⟨optional, hdelegate, rfl⟩, _, _, rfl, rfl, rfl⟩
    exact ⟨_, .origination hmanager balance spendable delegatable hdelegate, by simp⟩
  · rintro ⟨_, hform, rfl⟩
    cases hform with
    | origination hmanager balance spendable delegatable hdelegate =>
        exact ⟨_, _, ⟨_, hmanager, by simp⟩, _, _, ⟨_, ⟨balance, rfl, rfl⟩, rfl⟩, spendable, _, rfl,
          delegatable, _, rfl, _, _, ⟨_, hdelegate, rfl⟩, (), rest, rfl, rfl, rfl⟩

theorem reads_proposal (tag : UInt8) : Reads proposal (KindForm tag .proposal) := by
  intro bytes rest value
  simp only [proposal, accepts_bind, accepts_int32, accepts_uint32, accepts_require, accepts_sized,
    accepts_pure, beq_iff_eq]
  constructor
  · rintro ⟨period, _, rfl, _, _, rfl, _, _, ⟨rfl, rfl⟩, hash, _, rfl, rfl, rfl⟩
    exact ⟨_, .proposal period hash, by simp only [List.append_assoc]; rfl⟩
  · rintro ⟨_, hform, rfl⟩
    cases hform with
    | proposal period hash =>
        refine ⟨period, Bytes.ofUInt32 32 ++ (hash.val ++ rest), ?_, 32, _, rfl, (), _, ⟨rfl, rfl⟩,
          hash, rest, rfl, rfl, rfl⟩
        simp only [List.append_assoc]
        rfl

theorem reads_ballot (tag : UInt8) : Reads ballot (KindForm tag .ballot) := by
  intro bytes rest value
  simp only [ballot, accepts_bind, accepts_int32, accepts_sized, accepts_byte]
  constructor
  · rintro ⟨period, _, rfl, hash, _, rfl, byte, _, rfl, hread⟩
    split at hread
    next vote hvote =>
      obtain ⟨rfl, rfl⟩ := (accepts_pure _).mp hread
      rw [voteOfByte?_eq_some_iff.mp hvote]
      exact ⟨_, .ballot period hash vote, by simp⟩
    next => cases hread
  · rintro ⟨_, hform, rfl⟩
    cases hform with
    | ballot period hash vote =>
        refine ⟨period, _, List.append_assoc _ _ _ |>.trans (List.append_assoc _ _ _), hash, _, rfl,
          vote.code, rest, rfl, ?_⟩
        rw [voteOfByte?_eq_some_iff.mpr rfl]
        exact (accepts_pure _).mpr ⟨rfl, rfl⟩

theorem reads_kind (tag : UInt8) (type : OperationType) :
    Reads (kind tag type) (KindForm tag type) := by
  cases type with
  | transaction => exact reads_transaction tag
  | origination => exact reads_origination tag
  | delegation =>
      intro bytes rest value
      simp only [kind, accepts_bind, reads_optionalAccount.accepts_iff, accepts_pure]
      constructor
      · rintro ⟨delegate, _, ⟨optional, hdelegate, rfl⟩, rfl, rfl⟩
        exact ⟨_, .delegation hdelegate, rfl⟩
      · rintro ⟨_, hform, rfl⟩
        cases hform with
        | delegation hdelegate => exact ⟨_, _, ⟨_, hdelegate, rfl⟩, rfl, rfl⟩
  | proposal => exact reads_proposal tag
  | ballot => exact reads_ballot tag
  | reveal =>
      intro bytes rest value
      constructor
      · rintro ⟨⟩
      · rintro ⟨_, ⟨⟩, _⟩

theorem accepts_revealedKey {key : PublicKey} {value : Unit} :
    Accepts (revealedKey key) bytes value rest ↔
      bytes = key.curve.code :: (key.compressed ++ rest) := by
  simp only [revealedKey, accepts_bind, accepts_curve, accepts_require, accepts_literal, beq_iff_eq]
  constructor
  · rintro ⟨_, _, rfl, _, _, ⟨rfl, rfl⟩, rfl⟩
    rfl
  · rintro rfl
    exact ⟨key.curve, _, rfl, (), _, ⟨rfl, rfl⟩, rfl⟩

theorem accepts_allowedTag {allowed : AllowedOperations} {read : UInt8 × OperationType} :
    Accepts (allowedTag allowed) bytes read rest ↔
      read.1 ∈ read.2.tags ∧ allowed read.2 = true ∧ bytes = read.1 :: rest := by
  simp only [allowedTag, accepts_bind, accepts_byte]
  constructor
  · rintro ⟨tag, _, rfl, hread⟩
    split at hread
    next type htype =>
      obtain ⟨rfl, rfl⟩ := (accepts_pure _).mp hread
      obtain ⟨hfound, hallowed⟩ := Option.filter_eq_some_iff.mp htype
      exact ⟨OperationType.ofTag?_eq_some_iff.mp hfound, hallowed, rfl⟩
    next => cases hread
  · obtain ⟨tag, type⟩ := read
    rintro ⟨htag, hallowed, rfl⟩
    refine ⟨tag, rest, rfl, ?_⟩
    rw [Option.filter_eq_some_iff.mpr ⟨OperationType.ofTag?_eq_some_iff.mpr htag, hallowed⟩]
    exact (accepts_pure _).mpr ⟨rfl, rfl⟩

end Reading

section Entries

/-- What one operation adds to a group. A reveal adds no operation. -/
structure Entry where
  fee : UInt64
  storageLimit : UInt64
  operation : Option Operation

/-- Fee and storage limit of an operation; a vote has none. -/
def charges (type : OperationType) : Decoder (UInt64 × UInt64) :=
  if type.hasManagerFields then managerFields else pure (0, 0)

/-- Reads one operation, whichever it is. -/
def entry (key : PublicKey) (allowed : AllowedOperations) : Decoder Entry := do
  let (tag, type) ← allowedTag allowed
  let source ← source tag
  let (fee, storageLimit) ← charges type
  if type = .reveal then
    revealedKey key
    return ⟨fee, storageLimit, none⟩
  else
    require (sourceMaySign source (.ofKey key))
    let kind ← kind tag type
    return ⟨fee, storageLimit, some { tag, source, kind }⟩

variable {key : PublicKey} {allowed : AllowedOperations} {bytes rest : Bytes}

theorem accepts_charges {type : OperationType} {read : UInt64 × UInt64} :
    Accepts (charges type) bytes read rest ↔
      ∃ manager : Option ManagerParts, manager.isSome = type.hasManagerFields ∧
        read = ((manager.map (·.fee.word)).getD 0, (manager.map (·.storageLimit.word)).getD 0) ∧
        bytes = (manager.map ManagerParts.toBytes).getD [] ++ rest := by
  unfold charges
  cases type.hasManagerFields with
  | true =>
      rw [if_pos rfl, accepts_managerFields]
      constructor
      · rintro ⟨parts, hread, hbytes⟩
        exact ⟨some parts, rfl, hread, hbytes⟩
      · rintro ⟨manager, hsome, hread, hbytes⟩
        obtain ⟨parts, rfl⟩ := Option.isSome_iff_exists.mp hsome
        exact ⟨parts, hread, hbytes⟩
  | false =>
      rw [if_neg Bool.false_ne_true, accepts_pure]
      constructor
      · rintro ⟨hread, hbytes⟩
        exact ⟨none, rfl, hread, hbytes⟩
      · rintro ⟨manager, hnone, hread, hbytes⟩
        rw [Option.isSome_eq_false_iff, Option.isNone_iff_eq_none] at hnone
        subst hnone
        exact ⟨hread, hbytes⟩

theorem reads_entry : Reads (entry key allowed) fun read piece =>
    ∃ parts, EntryForm key allowed read.operation parts ∧ read.fee = parts.fee ∧
      read.storageLimit = parts.storageLimit ∧ piece = parts.toBytes := by
  intro bytes rest value
  simp only [entry, accepts_bind, accepts_ite, accepts_allowedTag, (reads_source _).accepts_iff,
    accepts_charges, accepts_revealedKey, accepts_require, (reads_kind _ _).accepts_iff,
    accepts_pure, Prod.exists]
  constructor
  · rintro ⟨tag, type, _, ⟨htag, hallowed, rfl⟩, source, _, ⟨sourceBytes, hsource, rfl⟩, _, _, _,
      ⟨manager, hmanager, hread, rfl⟩, hbody⟩
    cases hread
    rcases hbody with ⟨rfl, _, _, rfl, rfl, rfl⟩ |
      ⟨-, _, _, ⟨hsigns, rfl⟩, kind, _, ⟨body, hkind, rfl⟩, rfl, rfl⟩
    · let parts : OperationParts := ⟨tag, sourceBytes, manager, key.curve.code :: key.compressed⟩
      have hopens : parts.Opens allowed .reveal source := ⟨htag, hallowed, hsource, hmanager⟩
      exact ⟨_, ⟨parts, .reveal hopens rfl, rfl, rfl, rfl⟩, by simp [parts, OperationParts.toBytes]⟩
    · let parts : OperationParts := ⟨tag, sourceBytes, manager, body⟩
      have hopens : parts.Opens allowed type source := ⟨htag, hallowed, hsource, hmanager⟩
      exact ⟨_, ⟨parts, .last hopens rfl hsigns hkind, rfl, rfl, rfl⟩,
        by simp [parts, OperationParts.toBytes]⟩
  · obtain ⟨fee, storageLimit, operation⟩ := value
    rintro ⟨_, ⟨⟨tag, source, manager, body⟩, hform, rfl, rfl, rfl⟩, rfl⟩
    cases hform with
    | reveal hopens hbody =>
        cases hbody
        refine ⟨tag, .reveal, _, ⟨hopens.tag, hopens.allowed, rfl⟩, _,
          (manager.map ManagerParts.toBytes).getD [] ++ (key.curve.code :: key.compressed ++ rest),
          ⟨source, hopens.source, ?_⟩, _, _, _, ⟨manager, hopens.manager, rfl, rfl⟩,
          .inl ⟨rfl, (), rest, rfl, rfl, rfl⟩⟩
        exact (List.append_assoc _ _ _).trans (List.append_assoc _ _ _)
    | @last type operation _ hopens htag hsigns hbody =>
        obtain ⟨_, account, kind⟩ := operation
        cases htag
        have htype : type ≠ .reveal := by
          rintro rfl
          cases hbody
        refine ⟨tag, type, _, ⟨hopens.tag, hopens.allowed, rfl⟩, account,
          (manager.map ManagerParts.toBytes).getD [] ++ (body ++ rest),
          ⟨source, hopens.source, ?_⟩, _, _, _, ⟨manager, hopens.manager, rfl, rfl⟩,
          .inr ⟨htype, (), _, ⟨hsigns, rfl⟩, kind, rest, ⟨body, hbody, rfl⟩, rfl, rfl⟩⟩
        exact (List.append_assoc _ _ _).trans (List.append_assoc _ _ _)

end Entries

section Operations

variable {key : PublicKey} {allowed : AllowedOperations} {bytes rest : Bytes}
  {group : OperationGroup}

/-- Adds to the totals what one operation adds to a group. -/
def Totals.enter (totals : Totals) (fee storageLimit : UInt64) (isReveal : Bool) : Totals :=
  { totals.add fee storageLimit with hasReveal := isReveal || totals.hasReveal }

/-- The group that the last operation completes. -/
def Totals.close (totals : Totals) (key : PublicKey) (operation : Operation) : OperationGroup where
  signing := .ofKey key
  totalFee := totals.fee
  totalStorageLimit := totals.storageLimit
  hasReveal := totals.hasReveal
  operation := operation

theorem accepts_addManagerFields {type : OperationType} {totals after : Totals} :
    Accepts (addManagerFields type totals) bytes after rest ↔
      ∃ charge, Accepts (charges type) bytes charge rest ∧
        after = totals.add charge.1 charge.2 := by
  unfold addManagerFields charges
  cases type.hasManagerFields with
  | true =>
      rw [if_pos rfl, if_pos rfl]
      simp only [accepts_bind, accepts_pure]
      constructor
      · rintro ⟨charge, _, hfields, rfl, rfl⟩
        exact ⟨charge, hfields, rfl⟩
      · rintro ⟨charge, hfields, rfl⟩
        exact ⟨charge, _, hfields, rfl, rfl⟩
  | false =>
      have hnothing : totals.add 0 0 = totals := by simp [Totals.add]
      simp [hnothing, and_comm]

/-- Decoding goes on behind a reveal and ends with any other operation, which has to be the
end of the bytes. -/
theorem accepts_operations_succ {count : Nat} {totals : Totals} :
    Accepts (operations key allowed (count + 1) totals) bytes group rest ↔
      ∃ read behind, Accepts (entry key allowed) bytes read behind ∧
        match read.operation with
        | none => Accepts (operations key allowed count
            (totals.enter read.fee read.storageLimit true)) behind group rest
        | some operation => behind = [] ∧ rest = [] ∧
            group = (totals.enter read.fee read.storageLimit false).close key operation := by
  simp only [operations, entry, accepts_bind, accepts_ite, accepts_atEnd, accepts_throw,
    accepts_pure, Prod.exists, accepts_addManagerFields, lastOperation, accepts_finish,
    accepts_require, accepts_allowedTag]
  constructor
  · rintro ⟨_, _, ⟨rfl, rfl⟩, ⟨_, ⟨⟩⟩ | ⟨_, tag, type, _, htag, source, _, hsource, _, _,
      ⟨fee, storageLimit, hcharges, rfl⟩, hthen⟩⟩
    rcases hthen with ⟨rfl, _, _, hkey, hthen⟩ |
      ⟨htype, _, _, ⟨hsigns, rfl⟩, kind, _, hkind, _, _, ⟨rfl, rfl⟩, rfl, rfl⟩
    · exact ⟨_, _, ⟨tag, .reveal, _, htag, source, _, hsource, fee, storageLimit, _, hcharges,
        .inl ⟨rfl, _, _, hkey, rfl, rfl⟩⟩, hthen⟩
    · exact ⟨_, _, ⟨tag, type, _, htag, source, _, hsource, fee, storageLimit, _, hcharges,
        .inr ⟨htype, (), _, ⟨hsigns, rfl⟩, kind, _, hkind, rfl, rfl⟩⟩, rfl, rfl, rfl⟩
  · rintro ⟨_, _, ⟨tag, type, _, htag, source, _, hsource, fee, storageLimit, _, hcharges, hbody⟩,
      hthen⟩
    refine ⟨_, _, ⟨rfl, rfl⟩, .inr ⟨?_, tag, type, _, htag, source, _, hsource, _, _,
      ⟨fee, storageLimit, hcharges, rfl⟩, ?_⟩⟩
    · rw [htag.2.2]
      exact Bool.false_ne_true
    · rcases hbody with ⟨rfl, _, _, hkey, rfl, rfl⟩ |
        ⟨htype, _, _, ⟨hsigns, rfl⟩, kind, _, hkind, rfl, rfl⟩
      · exact .inl ⟨rfl, _, _, hkey, hthen⟩
      · obtain ⟨rfl, rfl, rfl⟩ := hthen
        exact .inr ⟨htype, (), _, ⟨hsigns, rfl⟩, kind, _, hkind, (), _, ⟨rfl, rfl⟩, rfl, rfl⟩

/-- The totals at the end of a run over reveals and the operation behind them. -/
def Totals.after (totals : Totals) (reveals : List OperationParts) (last : OperationParts) :
    Totals where
  fee := totals.fee + ((reveals ++ [last]).map OperationParts.fee).sum
  storageLimit := totals.storageLimit + ((reveals ++ [last]).map OperationParts.storageLimit).sum
  hasReveal := !reveals.isEmpty || totals.hasReveal

theorem Totals.after_nil (totals : Totals) (last : OperationParts) :
    totals.after [] last = totals.enter last.fee last.storageLimit false := by
  simp [after, enter, add]

theorem Totals.after_cons (totals : Totals) (reveal : OperationParts)
    (reveals : List OperationParts) (last : OperationParts) :
    totals.after (reveal :: reveals) last =
      (totals.enter reveal.fee reveal.storageLimit true).after reveals last := by
  simp [after, enter, add, UInt64.add_assoc]

/-- Any number of reveals is read, then one other operation, and nothing is left. -/
theorem accepts_operations_iff {count : Nat} {totals : Totals} :
    Accepts (operations key allowed count totals) bytes group rest ↔
      rest = [] ∧ ∃ (reveals : List OperationParts) (last : OperationParts) (operation : Operation),
        reveals.length < count ∧ (∀ reveal ∈ reveals, EntryForm key allowed none reveal) ∧
        EntryForm key allowed (some operation) last ∧
        bytes = (reveals ++ [last]).flatMap OperationParts.toBytes ∧
        group = (totals.after reveals last).close key operation := by
  -- What the reveals before the present operation add is in the totals, so these vary.
  induction count generalizing totals bytes with
  | zero =>
      constructor
      · rintro ⟨⟩
      · rintro ⟨-, reveals, _, _, hcount, -⟩
        exact absurd hcount (Nat.not_lt_zero _)
  | succ count ih =>
      rw [accepts_operations_succ]
      constructor
      · rintro ⟨read, behind, hentry, hthen⟩
        obtain ⟨_, ⟨parts, hform, hfee, hstorageLimit, rfl⟩, rfl⟩ :=
          reads_entry.accepts_iff.mp hentry
        rw [hfee, hstorageLimit] at hthen
        cases hoperation : read.operation with
        | none =>
            rw [hoperation] at hform hthen
            obtain ⟨rfl, reveals, last, operation, hcount, hreveals, hlast, rfl, rfl⟩ := ih.mp hthen
            refine ⟨rfl, parts :: reveals, last, operation, Nat.succ_lt_succ hcount,
              List.forall_mem_cons.mpr ⟨hform, hreveals⟩, hlast, rfl, ?_⟩
            rw [Totals.after_cons]
        | some operation =>
            rw [hoperation] at hform hthen
            obtain ⟨rfl, rfl, rfl⟩ := hthen
            refine ⟨rfl, [], parts, operation, Nat.succ_pos count, nofun, hform, ?_, ?_⟩
            · simp
            · rw [Totals.after_nil]
      · rintro ⟨rfl, reveals, last, operation, hcount, hreveals, hlast, rfl, rfl⟩
        cases reveals with
        | nil =>
            refine ⟨⟨last.fee, last.storageLimit, some operation⟩, [], ?_, rfl, rfl, ?_⟩
            · exact reads_entry.accepts ⟨last, hlast, rfl, rfl, rfl⟩ []
            · rw [Totals.after_nil]
        | cons reveal reveals =>
            obtain ⟨hreveal, hreveals⟩ := List.forall_mem_cons.mp hreveals
            refine ⟨⟨reveal.fee, reveal.storageLimit, none⟩, _,
              reads_entry.accepts ⟨reveal, hreveal, rfl, rfl, rfl⟩ _, ?_⟩
            exact ih.mpr ⟨rfl, reveals, last, operation, Nat.lt_of_succ_lt_succ hcount, hreveals,
              hlast, rfl, by rw [Totals.after_cons]⟩

/-- Where one run through the operations ends, no longer one ends later. -/
theorem eq_nil_of_accepts_append {count count' : Nat} {totals totals' : Totals}
    {group' : OperationGroup} {more rest' : Bytes}
    (haccepts : Accepts (operations key allowed count totals) bytes group rest)
    (hlonger : Accepts (operations key allowed count' totals') (bytes ++ more) group' rest') :
    more = [] := by
  -- Both runs read the same operation, since what is behind it has no part in reading it.
  induction count generalizing count' totals totals' bytes with
  | zero => cases haccepts
  | succ count ih =>
      cases count' with
      | zero => cases hlonger
      | succ count' =>
          obtain ⟨read, behind, hentry, hthen⟩ := accepts_operations_succ.mp haccepts
          obtain ⟨read', behind', hentry', hthen'⟩ := accepts_operations_succ.mp hlonger
          obtain ⟨rfl, rfl⟩ := hentry'.unique (reads_entry.append hentry more)
          cases hoperation : read'.operation with
          | none =>
              rw [hoperation] at hthen hthen'
              exact ih hthen hthen'
          | some operation =>
              rw [hoperation] at hthen hthen'
              exact (List.append_eq_nil_iff.mp hthen'.1).2

end Operations

section Groups

variable {key : PublicKey} {allowed : AllowedOperations} {bytes rest : Bytes}
  {value : OperationGroup}

/-- The parts of a group, in their order. -/
structure GroupParts where
  branch : Bytes.Sized 32
  reveals : List OperationParts
  last : OperationParts

namespace GroupParts

def operations (parts : GroupParts) : List OperationParts :=
  parts.reveals ++ [parts.last]

def toBytes (parts : GroupParts) : Bytes :=
  0x03 :: (parts.branch.val ++ parts.operations.flatMap OperationParts.toBytes)

end GroupParts

/-- A group and its parts. -/
structure GroupForm (key : PublicKey) (allowed : AllowedOperations) (group : OperationGroup)
    (parts : GroupParts) : Prop where
  reveals : ∀ reveal ∈ parts.reveals, EntryForm key allowed none reveal
  last : EntryForm key allowed (some group.operation) parts.last
  signing : group.signing = .ofKey key
  totalFee : group.totalFee = (parts.operations.map OperationParts.fee).sum
  totalStorageLimit :
    group.totalStorageLimit = (parts.operations.map OperationParts.storageLimit).sum
  hasReveal : group.hasReveal = !parts.reveals.isEmpty

theorem accepts_group {size : Nat} :
    Accepts (group key allowed size) bytes value rest ↔
      ∃ (branch : Bytes.Sized 32) (behind : Bytes), bytes = 0x03 :: (branch.val ++ behind) ∧
        Accepts (operations key allowed size .zero) behind value rest := by
  simp only [group, accepts_bind, accepts_literal, accepts_take]
  constructor
  · rintro ⟨_, _, rfl, branch, behind, ⟨hlength, rfl⟩, haccepts⟩
    exact ⟨⟨branch, hlength⟩, behind, rfl, haccepts⟩
  · rintro ⟨branch, behind, rfl, haccepts⟩
    exact ⟨(), _, rfl, branch.val, behind, ⟨branch.property, rfl⟩, haccepts⟩

theorem ofBytes_eq_ok_iff_accepts :
    ofBytes key allowed bytes = .ok value ↔
      ∃ rest, Accepts (group key allowed bytes.length) bytes value rest := by
  unfold ofBytes
  constructor
  · intro hvalue
    split at hvalue
    next read rest hdecode =>
      cases hvalue
      exact ⟨rest, decode_eq_ok_iff.mp hdecode⟩
    next => cases hvalue
  · rintro ⟨rest, haccepts⟩
    rw [decode_eq_ok_iff.mpr haccepts]

theorem OperationParts.length_le_length_flatMap (operations : List OperationParts) :
    operations.length ≤ (operations.flatMap OperationParts.toBytes).length := by
  induction operations with
  | nil => exact Nat.le_refl _
  | cons parts operations ih =>
      rw [List.flatMap_cons, List.length_append, List.length_cons, OperationParts.toBytes,
        List.length_cons]
      omega

/-- A byte string holds a group exactly if it falls into the parts of one. -/
theorem ofBytes_eq_ok_iff :
    ofBytes key allowed bytes = .ok value ↔
      ∃ parts, GroupForm key allowed value parts ∧ bytes = parts.toBytes := by
  simp only [ofBytes_eq_ok_iff_accepts, accepts_group, accepts_operations_iff]
  constructor
  · rintro ⟨_, branch, _, rfl, rfl, reveals, last, operation, -, hreveals, hlast, rfl, rfl⟩
    refine ⟨⟨branch, reveals, last⟩, ⟨hreveals, hlast, rfl, ?_, ?_, ?_⟩, rfl⟩
    · exact UInt64.zero_add _
    · exact UInt64.zero_add _
    · exact Bool.or_false _
  · rintro ⟨⟨branch, reveals, last⟩, hform, rfl⟩
    refine ⟨[], branch, _, rfl, rfl, reveals, last, value.operation, ?_, hform.reveals, hform.last,
      rfl, ?_⟩
    -- No operation is empty, so the bound on the number of reveals is never reached.
    · have hbound := OperationParts.length_le_length_flatMap (reveals ++ [last])
      rw [List.length_append, List.length_singleton] at hbound
      simp only [GroupParts.toBytes, GroupParts.operations, List.length_cons, List.length_append]
        at hbound ⊢
      omega
    · obtain ⟨signing, totalFee, totalStorageLimit, hasReveal, operation⟩ := value
      obtain ⟨-, -, rfl, rfl, rfl, rfl⟩ := hform
      simp [Totals.after, Totals.close, Totals.zero, GroupParts.operations]

theorem OperationParts.Opens.manager_eq_none_iff {type : OperationType} {source : Contract}
    {parts : OperationParts} (hopens : parts.Opens allowed type source) :
    parts.manager = none ↔ parts.tag = 5 ∨ parts.tag = 6 := by
  have htag := hopens.tag
  rw [← Option.not_isSome_iff_eq_none, hopens.manager]
  cases type <;> simp only [OperationType.tags, List.mem_cons, List.not_mem_nil, or_false] at htag
  case proposal | ballot => simp [OperationType.hasManagerFields, htag]
  all_goals
    rcases htag with htag | htag
    · rw [htag]
      decide
    · rw [htag]
      decide

/-- Only the older era names an originated account as a source. -/
theorem SourceForm.mem_of_isOriginated {tag : UInt8} {source : Contract} {piece : Bytes}
    (hsource : SourceForm tag source piece) (horiginated : source.isOriginated = true) :
    tag ∈ [7, 8, 9, 10] := by
  unfold SourceForm at hsource
  split at hsource
  next htag => exact htag
  next =>
    cases hsource
    cases horiginated

theorem toNat_sum (words : List UInt64) :
    words.sum.toNat = (words.map UInt64.toNat).sum % 2 ^ 64 := by
  induction words with
  | nil => rfl
  | cons word words ih =>
      rw [List.sum_cons, List.map_cons, List.sum_cons, UInt64.toNat_add, ih, Nat.add_mod_mod]

/-- What a byte string holds that is taken for a group: a branch, reveals of the key that signs,
and one other operation, all of allowed types and in the forms of their tags. The group says what
that operation is, and sums up the fees and the storage limits of all. -/
theorem parts_of_ofBytes (hvalue : ofBytes key allowed bytes = .ok value) :
    ∃ (branch : Bytes.Sized 32) (reveals : List OperationParts) (last : OperationParts)
      (type : OperationType),
      bytes = 0x03 :: (branch.val ++ (reveals ++ [last]).flatMap OperationParts.toBytes) ∧
      (∀ reveal ∈ reveals, reveal.tag ∈ [7, 107] ∧ allowed .reveal = true ∧
        (∃ source, SourceForm reveal.tag source reveal.source) ∧ reveal.manager.isSome = true ∧
        reveal.body = key.curve.code :: key.compressed) ∧
      type ≠ .reveal ∧ last.tag ∈ type.tags ∧ allowed type = true ∧
      last.tag = value.operation.tag ∧ SourceForm last.tag value.operation.source last.source ∧
      (last.manager = none ↔ last.tag = 5 ∨ last.tag = 6) ∧
      KindForm last.tag type value.operation.kind last.body ∧
      value.signing = .implicit key.curve (blake2b160 key.compressed) ∧
      (value.operation.source = value.signing ∨
        value.operation.source.isOriginated = true ∧ value.operation.tag ∈ [8, 9, 10]) ∧
      value.totalFee.toNat = ((reveals ++ [last]).map (·.fee.toNat)).sum % 2 ^ 64 ∧
      value.totalStorageLimit.toNat =
        ((reveals ++ [last]).map (·.storageLimit.toNat)).sum % 2 ^ 64 ∧
      (value.hasReveal = true ↔ reveals ≠ []) := by
  obtain ⟨⟨branch, reveals, last⟩, hform, rfl⟩ := ofBytes_eq_ok_iff.mp hvalue
  obtain ⟨hreveals, hlast, hsigning, hfee, hstorageLimit, hreveal⟩ := hform
  cases hlast with
  | @last type operation _ hopens htag hsigns hbody =>
  have htype : type ≠ .reveal := by
    rintro rfl
    cases hbody
  refine ⟨branch, reveals, last, type, rfl, ?_, htype, hopens.tag, hopens.allowed, htag,
    hopens.source, hopens.manager_eq_none_iff, htag ▸ hbody, hsigning, ?_, ?_, ?_, ?_⟩
  · intro reveal hmem
    cases hreveals reveal hmem with
    | @reveal source _ hopens hbody =>
    exact ⟨hopens.tag, hopens.allowed, ⟨source, hopens.source⟩, hopens.manager, hbody⟩
  · rcases Bool.or_eq_true_iff.mp hsigns with horiginated | hsame
    -- The remaining tag of the older era is that of a reveal.
    · refine .inr ⟨horiginated, ?_⟩
      have hreveal : last.tag ≠ 7 := by
        intro htag
        have htype' := OperationType.ofTag?_eq_some_iff.mpr (htag ▸ hopens.tag)
        exact htype (Option.some.inj htype').symm
      have holder := hopens.source.mem_of_isOriginated horiginated
      rw [← htag]
      exact (List.mem_cons.mp holder).resolve_left hreveal
    · exact .inl ((eq_of_beq hsame).trans hsigning.symm)
  · rw [hfee, toNat_sum, List.map_map]
    rfl
  · rw [hstorageLimit, toNat_sum, List.map_map]
    rfl
  · rw [hreveal]
    simp

/-- A reveal whose fee is written with a superfluous group of zeros, and a transfer from an
originated account. -/
theorem parts_of_ofBytes_reveal_transfer :
    let key : PublicKey := .ed25519 (.fill 32 0x11)
    let reveal : Bytes := 107 :: (0x00 :: List.replicate 20 0x33 ++ [0x83, 0x00, 0x01, 0x02, 0x04]
      ++ 0x00 :: List.replicate 32 0x11)
    let transfer : Bytes := 8 :: (0x01 :: List.replicate 20 0x22 ++ [0x00, 0x05, 0x01, 0x02, 0x06]
      ++ [0x2A] ++ (0x00 :: 0x01 :: List.replicate 20 0x44) ++ [0x00])
    let bytes : Bytes := 0x03 :: (List.replicate 32 0xBB ++ reveal ++ transfer)
    let group : OperationGroup := ⟨.ofKey key, 8, 10, true,
      ⟨8, .originated (.fill 20 0x22), .transaction 42 (.implicit .secp256k1 (.fill 20 0x44)) none⟩⟩
    ofBytes key .all bytes = .ok group ∧
      ∃ (branch : Bytes.Sized 32) (reveals : List OperationParts) (last : OperationParts),
        bytes = 0x03 :: (branch.val ++ (reveals ++ [last]).flatMap OperationParts.toBytes) ∧
        reveals ≠ [] ∧ last.tag = 8 ∧ ContractForm (.originated (.fill 20 0x22)) last.source ∧
        8 = ((reveals ++ [last]).map (·.fee.toNat)).sum % 2 ^ 64 ∧
        10 = ((reveals ++ [last]).map (·.storageLimit.toNat)).sum % 2 ^ 64 := by
  intro key reveal transfer bytes group
  have hvalue : ofBytes key .all bytes = .ok group := rfl
  obtain ⟨branch, reveals, last, type, hbytes, -, -, -, -, htag, hsource, -, -, -, -, hfee,
    hstorageLimit, hreveal⟩ := parts_of_ofBytes hvalue
  rw [htag] at hsource
  exact ⟨hvalue, branch, reveals, last, hbytes, hreveal.mp rfl, htag, hsource, hfee, hstorageLimit⟩

theorem eq_nil_of_ofBytes_append {more : Bytes} {value' : OperationGroup}
    (hvalue : ofBytes key allowed bytes = .ok value)
    (hlonger : ofBytes key allowed (bytes ++ more) = .ok value') : more = [] := by
  obtain ⟨_, haccepts⟩ := ofBytes_eq_ok_iff_accepts.mp hvalue
  obtain ⟨_, haccepts'⟩ := ofBytes_eq_ok_iff_accepts.mp hlonger
  obtain ⟨branch, behind, rfl, hoperations⟩ := accepts_group.mp haccepts
  obtain ⟨branch', behind', hbytes, hoperations'⟩ := accepts_group.mp haccepts'
  have hbehind : branch.val ++ (behind ++ more) = branch'.val ++ behind' := by
    rw [← List.append_assoc]
    exact List.tail_eq_of_cons_eq hbytes
  obtain ⟨-, rfl⟩ := List.append_inj hbehind (branch.property.trans branch'.property.symm)
  exact eq_nil_of_accepts_append hoperations hoperations'

/-- Of two byte strings of which one begins with the other, at most one holds a group. -/
theorem refused_of_comparable (hvalue : ofBytes key allowed bytes = .ok value) {other : Bytes}
    (hcomparable : other <+: bytes ∨ bytes <+: other) (hne : other ≠ bytes) :
    (ofBytes key allowed other).mapError DecodeError.status = .error .parseError := by
  cases hother : ofBytes key allowed other with
  | error cause => exact congrArg Except.error cause.status_eq
  | ok value' =>
      refine absurd ?_ hne
      rcases hcomparable with ⟨more, rfl⟩ | ⟨more, rfl⟩
      · rw [eq_nil_of_ofBytes_append hother hvalue, List.append_nil]
      · rw [eq_nil_of_ofBytes_append hvalue hother, List.append_nil]

/-- A withdrawn delegation, less its last byte and with one more byte. -/
theorem refused_of_comparable_withdrawal :
    let key : PublicKey := .ed25519 (.fill 32 0x11)
    let bytes : Bytes := 0x03 :: (List.replicate 32 0xBB ++
      10 :: (0x01 :: List.replicate 20 0x22 ++ [0x00] ++ [0x05, 0x01, 0x02, 0x06] ++ [0x00]))
    let group : OperationGroup := ⟨.ofKey key, 5, 6, false,
      ⟨10, .originated (.fill 20 0x22), .delegation none⟩⟩
    ofBytes key .all bytes = .ok group ∧
      (ofBytes key .all bytes.dropLast).mapError DecodeError.status = .error .parseError ∧
      (ofBytes key .all (bytes ++ [0x00])).mapError DecodeError.status = .error .parseError := by
  intro key bytes group
  have hvalue : ofBytes key .all bytes = .ok group := rfl
  exact ⟨hvalue, refused_of_comparable hvalue (.inl (List.dropLast_prefix bytes)) (by decide),
    refused_of_comparable hvalue (.inr (List.prefix_append bytes _)) (by decide)⟩

end Groups

end OperationGroup

end TezosSigner
