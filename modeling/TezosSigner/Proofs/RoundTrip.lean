import Mathlib
import TezosSigner.Proofs.Grammar

/-!
# Reading written operations back

What the writers of numbers, scripts and operations put down has the forms that are
read, with the values that were written. So a written group is decoded to just the
operations that it was drafted from.
-/

namespace TezosSigner

open Decoder Hash

namespace Wire

section Numbers

/-- Bytes with a clear top bit. -/
theorem byte_clear : ∀ low < 128, UInt8.ofNat low < 0x80 ∧ (UInt8.ofNat low).toNat = low := by
  decide

/-- Bytes with their top bit set. -/
theorem byte_set : ∀ low < 128, ¬ UInt8.ofNat (low + 128) < 0x80 ∧
    (UInt8.ofNat (low + 128)).toNat = low + 128 := by
  decide

/-- Groups of seven bits write a number that they have room for. -/
theorem septetGroups_reads {groups value : Nat} (hvalue : value < 128 ^ (groups + 1)) :
    (septetGroups (groups + 1) value).Terminated ∧
      (septetGroups (groups + 1) value).septets = value ∧
      (septetGroups (groups + 1) value).length ≤ groups + 1 := by
  -- The last group is written in any case, so its top bit is clear for lack of a further one.
  induction groups generalizing value with
  | zero =>
      have hless : value < 128 := hvalue
      obtain ⟨hclear, hbyte⟩ := byte_clear value hless
      rw [septetGroups, if_pos hless]
      refine ⟨.last hclear, ?_, Nat.le_refl _⟩
      rw [Bytes.septets, Bytes.septets, hbyte]
      omega
  | succ groups ih =>
      rw [septetGroups]
      split
      next hless =>
        obtain ⟨hclear, hbyte⟩ := byte_clear value hless
        refine ⟨.last hclear, ?_, Nat.succ_le_succ (Nat.zero_le _)⟩
        rw [Bytes.septets, Bytes.septets, hbyte]
        omega
      next hlarge =>
        obtain ⟨hset, hbyte⟩ := byte_set (value % 128) (Nat.mod_lt _ (by decide))
        have hquotient : value / 128 < 128 ^ (groups + 1) := by
          rw [Nat.pow_succ] at hvalue
          exact Nat.div_lt_of_lt_mul (by omega)
        obtain ⟨hterminated, hseptets, hlength⟩ := ih hquotient
        refine ⟨.more hset hterminated, ?_, Nat.succ_le_succ hlength⟩
        rw [Bytes.septets, hseptets, hbyte]
        omega

theorem varint_reads (value : UInt64) :
    (varint value).Terminated ∧ (varint value).septets = value.toNat := by
  have hroom : value.toNat < 128 ^ (9 + 1) := value.toNat_lt.trans (by decide)
  obtain ⟨hterminated, hseptets, -⟩ := septetGroups_reads hroom
  exact ⟨hterminated, hseptets⟩

/-- A 64-bit number as it is written. -/
def numeral (value : UInt64) : Bytes.Numeral :=
  ⟨varint value, (varint_reads value).1⟩

@[simp] theorem word_numeral (value : UInt64) : (numeral value).word = value := by
  rw [Bytes.Numeral.word, numeral, ← Bytes.septets_eq_ofDigits, (varint_reads value).2,
    UInt64.ofNat_toNat]

/-- The first byte of a script's integer leaves the bit of the sign clear. -/
theorem sign_clear : ∀ low < 64, UInt8.ofNat low &&& 0x40 = 0 ∧
    UInt8.ofNat (low + 128) &&& 0x40 = 0 := by
  decide

theorem amountForm_scriptNat (value : UInt64) : Script.AmountForm value (scriptNat value) := by
  unfold scriptNat
  split
  next hless =>
    obtain ⟨hclear, hbyte⟩ := byte_clear value.toNat (by omega)
    refine ⟨.last hclear, Nat.succ_le_succ (Nat.zero_le _), (sign_clear _ hless).1, ?_⟩
    rw [← Script.integerValue_eq, Script.integerValue, Bytes.septets, hbyte]
    omega
  next hlarge =>
    have hlow : value.toNat % 64 < 64 := Nat.mod_lt _ (by decide)
    obtain ⟨hset, hbyte⟩ := byte_set (value.toNat % 64) (by omega)
    have hquotient : value.toNat / 64 < 128 ^ (8 + 1) := by
      have hvalue := value.toNat_lt
      omega
    obtain ⟨hterminated, hseptets, hlength⟩ := septetGroups_reads hquotient
    refine ⟨.more hset hterminated, Nat.succ_le_succ hlength, (sign_clear _ hlow).2, ?_⟩
    rw [← Script.integerValue_eq, Script.integerValue, hseptets, hbyte]
    omega

end Numbers

section Accounts

/-- An implicit account, as a draft names it. -/
structure ImplicitAccount where
  curve : Curve
  hash : KeyHash

namespace ImplicitAccount

def contract (account : ImplicitAccount) : Contract :=
  .implicit account.curve account.hash

def bytes (account : ImplicitAccount) : AccountBytes :=
  accountBytes account.curve account.hash

theorem form (account : ImplicitAccount) : AccountForm account.contract account.bytes.val :=
  .implicit account.curve account.hash

end ImplicitAccount

/-- An originated account, as a draft names it. Before its hash stands any byte that announces
no implicit account, and behind it any byte at all. -/
structure OriginatedAccount where
  kind : UInt8
  kind_ne_zero : kind ≠ 0x00
  hash : KeyHash
  padding : UInt8

namespace OriginatedAccount

def contract (account : OriginatedAccount) : Contract :=
  .originated account.hash

def bytes (account : OriginatedAccount) : ContractBytes :=
  ⟨account.kind :: (account.hash.val ++ [account.padding]), by simp [account.hash.property]⟩

theorem form (account : OriginatedAccount) : ContractForm account.contract account.bytes.val :=
  .originated account.kind_ne_zero account.hash account.padding

end OriginatedAccount

/-- An account where either kind may stand, as a draft names it. -/
inductive AnyAccount where
  | implicit (account : ImplicitAccount)
  | originated (account : OriginatedAccount)

namespace AnyAccount

def contract : AnyAccount → Contract
  | implicit account => account.contract
  | originated account => account.contract

def bytes : AnyAccount → ContractBytes
  | implicit account => implicitBytes account.bytes
  | originated account => account.bytes

theorem form (account : AnyAccount) : ContractForm account.contract account.bytes.val := by
  cases account with
  | implicit account => exact .implicit account.form
  | originated account => exact account.form

end AnyAccount

theorem optionalForm (delegate : Option ImplicitAccount) :
    OptionalForm (delegate.map ImplicitAccount.contract)
      (optional ((delegate.map ImplicitAccount.bytes).map (·.val))) := by
  cases delegate with
  | none => exact .none
  | some account => exact .some (by decide) account.form

end Accounts

section Scripts

/-- A script for a manager contract, as it is drafted. -/
inductive ScriptDraft where
  | setDelegate (delegate : ImplicitAccount)
  | withdrawDelegate
  | transferToImplicit (destination : ImplicitAccount) (amount : UInt64)
  | transferToOriginated (destination : KeyHash) (amount : UInt64)

namespace ScriptDraft

/-- The script as the writer takes it. -/
def script : ScriptDraft → ManagerScript
  | setDelegate delegate => .setDelegate delegate.bytes
  | withdrawDelegate => .withdrawDelegate
  | transferToImplicit destination amount => .transferToImplicit destination.bytes amount
  | transferToOriginated destination amount => .transferToOriginated destination amount

/-- What the script asks of the contract. -/
def action : ScriptDraft → ManagerAction
  | setDelegate delegate => .setDelegate (some delegate.contract)
  | withdrawDelegate => .setDelegate none
  | transferToImplicit destination amount => .transfer destination.contract amount
  | transferToOriginated destination amount => .transfer (.originated destination) amount

theorem actionForm (draft : ScriptDraft) :
    Script.ActionForm draft.action draft.script.actionBytes := by
  have htransfer (amount : UInt64) : Script.TransferForm amount (transferBytes amount) :=
    .mk (amountForm_scriptNat amount)
  have haccount (account : ImplicitAccount) : bytesLiteral account.bytes.val =
      [0x0A, 0x00, 0x00, 0x00, 0x15, account.curve.code] ++ account.hash.val := by
    rw [bytesLiteral, framed, account.bytes.property]
    rfl
  cases draft with
  | setDelegate delegate =>
      rw [script, ManagerScript.actionBytes, haccount]
      exact .setDelegate delegate.curve delegate.hash
  | withdrawDelegate => exact .withdrawDelegate
  | transferToImplicit destination amount =>
      rw [script, ManagerScript.actionBytes, haccount]
      exact .transferToImplicit destination.curve destination.hash (htransfer amount)
  | transferToOriginated destination amount =>
      have haddress : bytesLiteral (originatedBytes destination).val =
          [0x0A, 0x00, 0x00, 0x00, 0x16, 0x01] ++ (destination.val ++ [0x00]) := by
        rw [bytesLiteral, framed, (originatedBytes destination).property]
        rfl
      have hform := Script.ActionForm.transferToOriginated destination (htransfer amount)
      rw [script, ManagerScript.actionBytes, haddress]
      simpa [contractLookup, action] using hform

theorem callForm (draft : ScriptDraft) :
    Script.CallForm draft.action (managerCall draft.script.toBytes) :=
  .mk (.mk draft.actionForm)

end ScriptDraft

end Scripts

section Operations

/-- A reveal, as it is drafted for a key. -/
structure RevealDraft where
  source : ImplicitAccount
  fee : UInt64
  storageLimit : UInt64

/-- An operation other than a reveal, as it is drafted for the account of a key. -/
inductive OperationDraft where
  | transaction (fee storageLimit amount : UInt64) (destination : AnyAccount)
  | call (fee storageLimit : UInt64) (destination : OriginatedAccount) (script : ScriptDraft)
  /-- A transaction of the older era, from an originated account if one is named. -/
  | contractTransaction (source : Option OriginatedAccount) (fee storageLimit amount : UInt64)
      (destination : AnyAccount)
  | origination (fee storageLimit : UInt64) (manager : ImplicitAccount) (balance : UInt64)
      (spendable delegatable : Bool) (delegate : Option ImplicitAccount)
  | delegation (fee storageLimit : UInt64) (delegate : Option ImplicitAccount)
  | proposal (period : Int32) (protocolHash : Digest)
  | ballot (period : Int32) (proposal : Digest) (vote : Vote)

/-- The numbers of an operation that pays, as the writer puts them down. -/
def managerParts (fee storageLimit : UInt64) : OperationGroup.ManagerParts where
  fee := numeral fee
  counter := numeral counter
  gasLimit := numeral gasLimit
  storageLimit := numeral storageLimit

namespace RevealDraft

/-- The reveal as the writer takes it. -/
def wire (key : PublicKey) (draft : RevealDraft) : WireOperation :=
  .reveal draft.source.bytes draft.fee draft.storageLimit key

def parts (key : PublicKey) (draft : RevealDraft) : OperationGroup.OperationParts where
  tag := 107
  source := draft.source.bytes.val
  manager := some (managerParts draft.fee draft.storageLimit)
  body := key.curve.code :: key.compressed

variable (key : PublicKey) (draft : RevealDraft)

@[simp] theorem toBytes_parts : (draft.parts key).toBytes = (draft.wire key).toBytes := rfl

@[simp] theorem fee_parts : (draft.parts key).fee = draft.fee :=
  word_numeral draft.fee

@[simp] theorem storageLimit_parts : (draft.parts key).storageLimit = draft.storageLimit :=
  word_numeral draft.storageLimit

theorem entryForm : OperationGroup.EntryForm key .all none (draft.parts key) :=
  .reveal ⟨List.mem_cons_of_mem _ List.mem_cons_self, rfl, draft.source.form, rfl⟩ rfl

end RevealDraft

namespace OperationDraft

/-- The account that an operation of the older era is drafted for. -/
def contractSource (key : PublicKey) (source : Option OriginatedAccount) : AnyAccount :=
  source.elim (.implicit ⟨key.curve, key.hash⟩) .originated

/-- The operation as the writer takes it. -/
def wire (key : PublicKey) : OperationDraft → WireOperation
  | transaction fee storageLimit amount destination =>
      .transaction (keyAccountBytes key) fee storageLimit amount destination.bytes none
  | call fee storageLimit destination script =>
      .transaction (keyAccountBytes key) fee storageLimit 0 destination.bytes
        (some (managerCall script.script.toBytes))
  | contractTransaction source fee storageLimit amount destination =>
      .contractTransaction (contractSource key source).bytes fee storageLimit amount
        destination.bytes
  | origination fee storageLimit manager balance spendable delegatable delegate =>
      .origination (keyAccountBytes key) fee storageLimit manager.bytes balance spendable
        delegatable (delegate.map (·.bytes)) false
  | delegation fee storageLimit delegate =>
      .delegation (keyAccountBytes key) fee storageLimit (delegate.map (·.bytes))
  | proposal period protocolHash => .proposal (keyAccountBytes key) period protocolHash
  | ballot period proposed vote => .ballot (keyAccountBytes key) period proposed vote.code

/-- What the operation is to be understood as. -/
def operation (key : PublicKey) : OperationDraft → Operation
  | transaction _ _ amount destination =>
      ⟨108, .ofKey key, .transaction amount destination.contract none⟩
  | call _ _ destination script =>
      ⟨108, .ofKey key, .transaction 0 destination.contract (some script.action)⟩
  | contractTransaction source _ _ amount destination =>
      ⟨8, (contractSource key source).contract, .transaction amount destination.contract none⟩
  | origination _ _ manager balance spendable delegatable delegate =>
      ⟨109, .ofKey key, .origination manager.contract balance spendable delegatable
        (delegate.map (·.contract))⟩
  | delegation _ _ delegate => ⟨110, .ofKey key, .delegation (delegate.map (·.contract))⟩
  | proposal period protocolHash => ⟨5, .ofKey key, .proposal period protocolHash⟩
  | ballot period proposed vote => ⟨6, .ofKey key, .ballot period proposed vote⟩

/-- Fee and storage limit of an operation; a vote has none. -/
def charges : OperationDraft → Option (UInt64 × UInt64)
  | transaction fee storageLimit _ _ | call fee storageLimit _ _
  | contractTransaction _ fee storageLimit _ _ | origination fee storageLimit _ _ _ _ _
  | delegation fee storageLimit _ => some (fee, storageLimit)
  | proposal _ _ | ballot _ _ _ => none

def fee (draft : OperationDraft) : UInt64 :=
  (draft.charges.map (·.1)).getD 0

def storageLimit (draft : OperationDraft) : UInt64 :=
  (draft.charges.map (·.2)).getD 0

def type : OperationDraft → OperationType
  | transaction .. | call .. | contractTransaction .. => .transaction
  | origination .. => .origination
  | delegation .. => .delegation
  | proposal .. => .proposal
  | ballot .. => .ballot

section Parts

/-- What the writer puts down for the source. -/
def source (key : PublicKey) : OperationDraft → Bytes
  | contractTransaction source .. => (contractSource key source).bytes.val
  | _ => (keyAccountBytes key).val

/-- What the writer puts down behind the fields that operations share. -/
def body : OperationDraft → Bytes
  | transaction _ _ amount destination | contractTransaction _ _ _ amount destination =>
      varint amount ++ destination.bytes.val ++ [0x00]
  | call _ _ destination script =>
      varint 0 ++ destination.bytes.val ++ [0xFF] ++ managerCall script.script.toBytes
  | origination _ _ manager balance spendable delegatable delegate =>
      manager.bytes.val ++ varint balance ++ [Bytes.flag spendable, Bytes.flag delegatable]
        ++ optional ((delegate.map (·.bytes)).map (·.val)) ++ [0x00]
  | delegation _ _ delegate => optional ((delegate.map (·.bytes)).map (·.val))
  | proposal period protocolHash =>
      Bytes.ofInt32 period ++ [0x00, 0x00, 0x00, 0x20] ++ protocolHash.val
  | ballot period proposed vote => Bytes.ofInt32 period ++ proposed.val ++ [vote.code]

def parts (key : PublicKey) (draft : OperationDraft) : OperationGroup.OperationParts where
  tag := (draft.operation key).tag
  source := draft.source key
  manager := draft.charges.map fun (fee, storageLimit) => managerParts fee storageLimit
  body := draft.body

variable (key : PublicKey) (draft : OperationDraft)

@[simp] theorem toBytes_parts : (draft.parts key).toBytes = (draft.wire key).toBytes := by
  cases draft with
  | proposal period protocolHash =>
      have hframed : framed protocolHash.val = [0x00, 0x00, 0x00, 0x20] ++ protocolHash.val := by
        rw [framed, protocolHash.property]
        rfl
      simp [parts, OperationGroup.OperationParts.toBytes, wire, WireOperation.toBytes, operation,
        source, charges, body, hframed]
  | _ =>
      simp [parts, OperationGroup.OperationParts.toBytes, wire, WireOperation.toBytes, operation,
        source, charges, body, managerParts, OperationGroup.ManagerParts.toBytes, managerFields,
        numeral, optional, Bytes.flag]

@[simp] theorem fee_parts : (draft.parts key).fee = draft.fee := by
  cases draft with
  | proposal | ballot => rfl
  | _ => exact word_numeral _

@[simp] theorem storageLimit_parts : (draft.parts key).storageLimit = draft.storageLimit := by
  cases draft with
  | proposal | ballot => rfl
  | _ => exact word_numeral _

theorem sourceForm : OperationGroup.SourceForm (draft.operation key).tag
    (draft.operation key).source (draft.source key) := by
  cases draft with
  | contractTransaction source => exact (contractSource key source).form
  | _ => exact AccountForm.implicit key.curve key.hash

theorem flag_ne_zero (value : Bool) : (Bytes.flag value != 0) = value := by
  cases value <;> rfl

theorem kindForm : OperationGroup.KindForm (draft.operation key).tag draft.type
    (draft.operation key).kind draft.body := by
  have htransaction (tag : UInt8) (amount : UInt64) (destination : AnyAccount) :
      OperationGroup.KindForm tag .transaction (.transaction amount destination.contract none)
        (varint amount ++ destination.bytes.val ++ [0x00]) := by
    have hform : OperationGroup.KindForm tag _ _ _ :=
      .transaction (numeral amount) destination.form
    rwa [word_numeral] at hform
  cases draft with
  | transaction fee storageLimit amount destination => exact htransaction 108 amount destination
  | contractTransaction source fee storageLimit amount destination =>
      exact htransaction 8 amount destination
  | call fee storageLimit destination script =>
      exact .call rfl (word_numeral 0) destination.form script.callForm
  | origination fee storageLimit manager balance spendable delegatable delegate =>
      have hform : OperationGroup.KindForm 109 _ _ _ := .origination manager.form (numeral balance)
        (Bytes.flag spendable) (Bytes.flag delegatable) (optionalForm delegate)
      rwa [word_numeral, flag_ne_zero, flag_ne_zero] at hform
  | delegation fee storageLimit delegate => exact .delegation (optionalForm delegate)
  | proposal period protocolHash => exact .proposal period protocolHash
  | ballot period proposed vote => exact .ballot period proposed vote

theorem sourceMaySign :
    OperationGroup.sourceMaySign (draft.operation key).source (.ofKey key) = true := by
  have hown : OperationGroup.sourceMaySign (.ofKey key) (.ofKey key) = true := by
    simp [OperationGroup.sourceMaySign]
  cases draft with
  | contractTransaction source =>
      cases source with
      | none => exact hown
      | some account => rfl
  | _ => exact hown

theorem entryForm :
    OperationGroup.EntryForm key .all (some (draft.operation key)) (draft.parts key) := by
  have htag : (draft.operation key).tag ∈ draft.type.tags := by
    cases draft <;> simp [operation, type, OperationType.tags]
  have hmanager : (draft.parts key).manager.isSome = draft.type.hasManagerFields := by
    cases draft <;> rfl
  exact .last ⟨htag, rfl, draft.sourceForm key, hmanager⟩ rfl (draft.sourceMaySign key)
    (draft.kindForm key)

end Parts

end OperationDraft

end Operations

end Wire

namespace OperationGroup

open Wire

theorem sum_eq_ofNat (words : List UInt64) :
    words.sum = UInt64.ofNat (words.map UInt64.toNat).sum := by
  rw [← UInt64.toNat_inj, toNat_sum, UInt64.toNat_ofNat']

/-- A group that is written for the reveals and the operation of a draft is decoded to that
operation, and to the fees and the storage limits of all of them, summed up modulo 2 to the 64. -/
theorem ofBytes_groupBytes (key : PublicKey) (reveals : List RevealDraft) (last : OperationDraft) :
    ofBytes key .all
        (groupBytes ((reveals.map (·.wire key) ++ [last.wire key]).map WireOperation.toBytes)) =
      .ok {
        signing := .ofKey key
        totalFee := UInt64.ofNat ((reveals.map (·.fee.toNat)).sum + last.fee.toNat)
        totalStorageLimit :=
          UInt64.ofNat ((reveals.map (·.storageLimit.toNat)).sum + last.storageLimit.toNat)
        hasReveal := !reveals.isEmpty
        operation := last.operation key } := by
  let parts : GroupParts := ⟨branch, reveals.map (·.parts key), last.parts key⟩
  have hfees : parts.operations.map OperationParts.fee =
      reveals.map RevealDraft.fee ++ [last.fee] := by
    simp [parts, GroupParts.operations, Function.comp_def]
  have hstorageLimits : parts.operations.map OperationParts.storageLimit =
      reveals.map RevealDraft.storageLimit ++ [last.storageLimit] := by
    simp [parts, GroupParts.operations, Function.comp_def]
  have hbytes : groupBytes ((reveals.map (·.wire key) ++ [last.wire key]).map
      WireOperation.toBytes) = parts.toBytes := by
    simp [groupBytes, parts, GroupParts.toBytes, GroupParts.operations, List.flatMap_def,
      Function.comp_def]
  rw [hbytes]
  refine ofBytes_eq_ok_iff.mpr ⟨parts, ⟨?_, last.entryForm key, rfl, ?_, ?_, ?_⟩, rfl⟩
  · intro piece hpiece
    obtain ⟨reveal, -, rfl⟩ := List.mem_map.mp hpiece
    exact reveal.entryForm key
  · simp [hfees, sum_eq_ofNat, Function.comp_def]
  · simp [hstorageLimits, sum_eq_ofNat, Function.comp_def]
  · exact congrArg not List.isEmpty_map.symm

end OperationGroup

end TezosSigner
