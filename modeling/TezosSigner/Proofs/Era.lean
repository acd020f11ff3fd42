import TezosSigner.Proofs.Spelling

/-!
# The two eras

Every type of operation that is not a vote has a tag in either era, that of the newer one
greater by a hundred. The older era puts a zero in front of an implicit source. An operation
that is recast from one era to the other in these two places is decoded to the same, except for
a transaction with parameters, which the older era does not have.
-/

namespace TezosSigner

open Decoder

/-- Whether an operation is a transaction with parameters. -/
def OperationKind.hasParameters : OperationKind → Bool
  | .transaction _ _ manager => manager.isSome
  | .origination .. | .delegation _ | .proposal .. | .ballot .. => false

theorem Decoder.contractForm_zero_iff {contract : Contract} {piece : Bytes} :
    ContractForm contract (0x00 :: piece) ↔ AccountForm contract piece := by
  constructor
  · rintro (haccount | ⟨hkind, _, _⟩)
    · exact haccount
    · exact absurd rfl hkind
  · exact .implicit

namespace OperationGroup

variable {key : PublicKey} {allowed : AllowedOperations} {bytes rest : Bytes}

/-! ## Recasting -/

/-- An operation is the same as another one, or that one in the form of the older or the newer
era. An operation of the older era from an originated account has no newer form. -/
inductive OperationParts.Recast : OperationParts → OperationParts → Prop
  | kept (parts : OperationParts) : Recast parts parts
  | older {tag : UInt8} (htag : tag ∈ [7, 8, 9, 10]) (source : Bytes)
      (manager : Option ManagerParts) (body : Bytes) :
      Recast ⟨tag + 100, source, manager, body⟩ ⟨tag, 0x00 :: source, manager, body⟩
  | newer {tag : UInt8} (htag : tag ∈ [7, 8, 9, 10]) (source : Bytes)
      (manager : Option ManagerParts) (body : Bytes) :
      Recast ⟨tag, 0x00 :: source, manager, body⟩ ⟨tag + 100, source, manager, body⟩

/-- Any of the operations of a group are recast. -/
structure GroupParts.Recast (parts parts' : GroupParts) : Prop where
  branch : parts'.branch = parts.branch
  reveals : List.Forall₂ OperationParts.Recast parts.reveals parts'.reveals
  last : parts.last.Recast parts'.last

section Tags

variable {tag : UInt8}

theorem ofTag?_newer (htag : tag ∈ [7, 8, 9, 10]) :
    OperationType.ofTag? (tag + 100) = OperationType.ofTag? tag := by
  simp only [List.mem_cons, List.not_mem_nil, or_false] at htag
  rcases htag with rfl | rfl | rfl | rfl <;> rfl

theorem sourceForm_newer_iff {source : Contract} {piece : Bytes} (htag : tag ∈ [7, 8, 9, 10]) :
    SourceForm (tag + 100) source piece ↔ SourceForm tag source (0x00 :: piece) := by
  have hnewer : tag + 100 ∉ [7, 8, 9, 10] := by
    simp only [List.mem_cons, List.not_mem_nil, or_false] at htag
    rcases htag with rfl | rfl | rfl | rfl <;> decide
  rw [SourceForm, if_neg hnewer, SourceForm, if_pos htag]
  exact contractForm_zero_iff.symm

end Tags

section Operations

variable {parts parts' : OperationParts}

theorem OperationParts.Recast.manager_eq (hrecast : parts.Recast parts') :
    parts'.manager = parts.manager := by
  cases hrecast <;> rfl

theorem OperationParts.Recast.body_eq (hrecast : parts.Recast parts') :
    parts'.body = parts.body := by
  cases hrecast <;> rfl

theorem OperationParts.Recast.fee_eq (hrecast : parts.Recast parts') : parts'.fee = parts.fee := by
  rw [fee, fee, hrecast.manager_eq]

theorem OperationParts.Recast.storageLimit_eq (hrecast : parts.Recast parts') :
    parts'.storageLimit = parts.storageLimit := by
  rw [storageLimit, storageLimit, hrecast.manager_eq]

theorem OperationParts.Recast.ofTag?_eq (hrecast : parts.Recast parts') :
    OperationType.ofTag? parts'.tag = OperationType.ofTag? parts.tag := by
  cases hrecast with
  | kept => rfl
  | older htag => exact (ofTag?_newer htag).symm
  | newer htag => exact ofTag?_newer htag

theorem OperationParts.Recast.sourceForm_iff {source : Contract} (hrecast : parts.Recast parts') :
    SourceForm parts'.tag source parts'.source ↔ SourceForm parts.tag source parts.source := by
  cases hrecast with
  | kept => rfl
  | older htag => exact (sourceForm_newer_iff htag).symm
  | newer htag => exact sourceForm_newer_iff htag

theorem OperationParts.Opens.recast {type : OperationType} {source : Contract}
    (hopens : parts.Opens allowed type source) (hrecast : parts.Recast parts') :
    parts'.Opens allowed type source where
  tag := by
    rw [← OperationType.ofTag?_eq_some_iff, hrecast.ofTag?_eq, OperationType.ofTag?_eq_some_iff]
    exact hopens.tag
  allowed := hopens.allowed
  source := hrecast.sourceForm_iff.mpr hopens.source
  manager := by
    rw [hrecast.manager_eq]
    exact hopens.manager

/-- The tag decides nothing about what an operation has for itself but whether there may be
parameters. -/
theorem KindForm.retagged {tag tag' : UInt8} {type : OperationType} {kind : OperationKind}
    {body : Bytes} (hkind : KindForm tag type kind body)
    (htag : kind.hasParameters = true → tag' = 108) : KindForm tag' type kind body := by
  cases hkind with
  | transaction amount haccount => exact .transaction amount haccount
  | call _ hamount haccount hcall => exact .call (htag rfl) hamount haccount hcall
  | origination hmanager balance spendable delegatable hdelegate =>
      exact .origination hmanager balance spendable delegatable hdelegate
  | delegation hdelegate => exact .delegation hdelegate
  | proposal period protocolHash => exact .proposal period protocolHash
  | ballot period proposal vote => exact .ballot period proposal vote

theorem KindForm.tag_eq {tag : UInt8} {type : OperationType} {kind : OperationKind}
    {body : Bytes} (hkind : KindForm tag type kind body)
    (hparameters : kind.hasParameters = true) : tag = 108 := by
  cases hkind with
  | call htag => exact htag
  | transaction | origination | delegation | proposal | ballot => cases hparameters

/-- A recast operation is the same but for its tag. -/
theorem EntryForm.recast {entry : Option Operation} (hentry : EntryForm key allowed entry parts)
    (hrecast : parts.Recast parts')
    (htag : ∀ operation ∈ entry, operation.kind.hasParameters = true → parts'.tag = 108) :
    EntryForm key allowed (entry.map fun operation => { operation with tag := parts'.tag })
      parts' := by
  cases hentry with
  | reveal hopens hbody => exact .reveal (hopens.recast hrecast) (hrecast.body_eq.trans hbody)
  | @last type operation _ hopens hsame hsigns hbody =>
      refine .last (hopens.recast hrecast) rfl hsigns ?_
      rw [hrecast.body_eq]
      exact hbody.retagged (htag operation rfl)

theorem reveals_recast {reveals reveals' : List OperationParts}
    (hreveals : ∀ reveal ∈ reveals, EntryForm key allowed none reveal)
    (hrecast : List.Forall₂ OperationParts.Recast reveals reveals') :
    ∀ reveal ∈ reveals', EntryForm key allowed none reveal := by
  induction hrecast with
  | nil => exact hreveals
  | cons hhead _ ih =>
      obtain ⟨hreveal, hreveals⟩ := List.forall_mem_cons.mp hreveals
      exact List.forall_mem_cons.mpr ⟨hreveal.recast hhead nofun, ih hreveals⟩

end Operations

section Groups

variable {group : OperationGroup} {parts parts' : GroupParts}

theorem GroupParts.Recast.operations (hrecast : parts.Recast parts') :
    List.Forall₂ OperationParts.Recast parts.operations parts'.operations :=
  List.rel_append hrecast.reveals (.cons hrecast.last .nil)

theorem GroupParts.Recast.isEmpty_reveals (hrecast : parts.Recast parts') :
    parts'.reveals.isEmpty = parts.reveals.isEmpty := by
  rw [Bool.eq_iff_iff, List.isEmpty_iff_length_eq_zero, List.isEmpty_iff_length_eq_zero,
    hrecast.reveals.length_eq]

/-- What no recasting of an operation changes is the same all over the group. -/
theorem GroupParts.Recast.map_eq {charge : OperationParts → UInt64}
    (hrecast : parts.Recast parts')
    (hcharge : ∀ {operation operation' : OperationParts}, operation.Recast operation' →
      charge operation' = charge operation) :
    parts'.operations.map charge = parts.operations.map charge := by
  rw [eq_comm, ← List.forall₂_eq_eq_eq, List.forall₂_map_left_iff, List.forall₂_map_right_iff]
  exact hrecast.operations.imp fun _ _ hoperation => (hcharge hoperation).symm

/-- A recast group is the same but for the tag of its last operation. -/
theorem GroupForm.recast (hform : GroupForm key allowed group parts)
    (hrecast : parts.Recast parts')
    (htag : group.operation.kind.hasParameters = true → parts'.last.tag = 108) :
    GroupForm key allowed
      { group with operation := { group.operation with tag := parts'.last.tag } } parts' where
  reveals := reveals_recast hform.reveals hrecast.reveals
  last := by
    refine hform.last.recast hrecast.last ?_
    rintro _ ⟨⟩
    exact htag
  signing := hform.signing
  totalFee := by
    rw [hrecast.map_eq (·.fee_eq)]
    exact hform.totalFee
  totalStorageLimit := by
    rw [hrecast.map_eq (·.storageLimit_eq)]
    exact hform.totalStorageLimit
  hasReveal := by
    rw [hrecast.isEmpty_reveals]
    exact hform.hasReveal

theorem GroupForm.tag_eq (hform : GroupForm key allowed group parts)
    (hparameters : group.operation.kind.hasParameters = true) : group.operation.tag = 108 := by
  cases hform.last with
  | last _ _ _ hbody => exact hbody.tag_eq hparameters

end Groups

/-! ## Parameters in the older era -/

/-- Behind its opening, an operation other than a reveal is read as its type asks for. -/
theorem OperationParts.Opens.accepts_kind {type : OperationType} {source : Contract}
    {parts : OperationParts} {read : Entry} (hopens : parts.Opens allowed type source)
    (htype : type ≠ .reveal) (haccepts : Accepts (entry key allowed)
      (parts.tag :: (parts.source ++ parts.numbers ++ bytes)) read rest) :
    ∃ value, Accepts (kind parts.tag type) bytes value rest := by
  rw [List.append_assoc] at haccepts
  have hopening : Accepts (allowedTag allowed)
      (parts.tag :: (parts.source ++ (parts.numbers ++ bytes))) (parts.tag, type)
      (parts.source ++ (parts.numbers ++ bytes)) :=
    accepts_allowedTag.mpr ⟨hopens.tag, hopens.allowed, rfl⟩
  have hnumbers : Accepts (charges type) (parts.numbers ++ bytes) (parts.fee, parts.storageLimit)
      bytes := accepts_charges.mpr ⟨parts.manager, hopens.manager, rfl, rfl⟩
  -- Each piece of the opening can be read in one way only.
  simp only [entry, accepts_bind] at haccepts
  obtain ⟨_, _, htag, _, _, hsource, _, _, hcharges, hbody⟩ := haccepts
  obtain ⟨rfl, rfl⟩ := htag.unique hopening
  obtain ⟨rfl, rfl⟩ := (reads_source parts.tag).unique hopens.source hsource
  obtain ⟨rfl, rfl⟩ := hcharges.unique hnumbers
  rw [if_neg htype] at hbody
  simp only [accepts_bind, accepts_require, accepts_pure] at hbody
  obtain ⟨_, _, ⟨-, rfl⟩, value, _, hkind, -, rfl⟩ := hbody
  exact ⟨value, hkind⟩

/-- Nothing else is read where the parameters are refused. -/
theorem KindForm.not_accepts_retagged {tag tag' : UInt8} {type : OperationType}
    {kind value : OperationKind} {body : Bytes} (hkind : KindForm tag type kind body)
    (hparameters : kind.hasParameters = true) (htag : tag' ≠ 108) :
    ¬ Accepts (OperationGroup.kind tag' type) body value rest := by
  intro haccepts
  cases hkind with
  | call _ _ haccount =>
      rw [List.append_assoc] at haccepts
      obtain ⟨_, hrefused, -⟩ := (accepts_transaction_iff haccount).mp haccepts
      rcases accepts_parameters.mp hrefused with ⟨-, hflag⟩ | ⟨⟨hnewer, -⟩, -⟩
      · cases hflag
      · exact htag hnewer
  | transaction | origination | delegation | proposal | ballot => cases hparameters

theorem EntryForm.not_accepts_recast {operation : Operation} {parts parts' : OperationParts}
    {read : Entry} (hentry : EntryForm key allowed (some operation) parts)
    (hparameters : operation.kind.hasParameters = true) (hrecast : parts.Recast parts')
    (htag : parts'.tag ≠ 108) : ¬ Accepts (entry key allowed) parts'.toBytes read rest := by
  intro haccepts
  cases hentry with
  | @last type _ _ hopens _ _ hbody =>
  have htype : type ≠ .reveal := by
    rintro rfl
    cases hbody
  obtain ⟨_, hkind⟩ := (hopens.recast hrecast).accepts_kind htype haccepts
  rw [hrecast.body_eq] at hkind
  exact hbody.not_accepts_retagged hparameters htag hkind

/-- Whatever stands behind reveals begins with an operation. -/
theorem accepts_entry_of_operations {count : Nat} {totals : Totals} {group : OperationGroup}
    {reveals : List OperationParts}
    (hreveals : ∀ reveal ∈ reveals, EntryForm key allowed none reveal)
    (haccepts : Accepts (operations key allowed count totals)
      (reveals.flatMap OperationParts.toBytes ++ bytes) group rest) :
    ∃ read behind, Accepts (entry key allowed) bytes read behind := by
  induction reveals generalizing count totals with
  | nil =>
      cases count with
      | zero => cases haccepts
      | succ count =>
          obtain ⟨read, behind, hentry, -⟩ := accepts_operations_succ.mp haccepts
          exact ⟨read, behind, hentry⟩
  | cons reveal reveals ih =>
      obtain ⟨hreveal, hreveals⟩ := List.forall_mem_cons.mp hreveals
      cases count with
      | zero => cases haccepts
      | succ count =>
          obtain ⟨read, behind, hentry, hthen⟩ := accepts_operations_succ.mp haccepts
          rw [List.flatMap_cons, List.append_assoc] at hentry
          have hread : Accepts (entry key allowed)
              (reveal.toBytes ++ (reveals.flatMap OperationParts.toBytes ++ bytes))
              ⟨reveal.fee, reveal.storageLimit, none⟩ _ :=
            reads_entry.accepts ⟨reveal, hreveal, rfl, rfl, rfl⟩ _
          obtain ⟨rfl, rfl⟩ := hentry.unique hread
          exact ih hreveals hthen

/-- A transaction with parameters is not taken in the older form. -/
theorem GroupForm.refused_of_parameters {group : OperationGroup} {parts parts' : GroupParts}
    (hform : GroupForm key allowed group parts)
    (hparameters : group.operation.kind.hasParameters = true) (hrecast : parts.Recast parts')
    (htag : parts'.last.tag ≠ 108) :
    (ofBytes key allowed parts'.toBytes).mapError DecodeError.status = .error .parseError := by
  cases hread : ofBytes key allowed parts'.toBytes with
  | error cause => exact congrArg Except.error cause.status_eq
  | ok value =>
      obtain ⟨_, haccepts⟩ := ofBytes_eq_ok_iff_accepts.mp hread
      obtain ⟨branch, behind, hbytes, hoperations⟩ := accepts_group.mp haccepts
      obtain ⟨-, rfl⟩ := List.append_inj (List.tail_eq_of_cons_eq hbytes)
        (parts'.branch.property.trans branch.property.symm)
      rw [GroupParts.operations, List.flatMap_append] at hoperations
      obtain ⟨_, _, hentry⟩ := accepts_entry_of_operations
        (reveals_recast hform.reveals hrecast.reveals) hoperations
      rw [List.flatMap_singleton] at hentry
      exact absurd hentry (hform.last.not_accepts_recast hparameters hrecast.last htag)

/-- What is decoded falls into operations. When any of them are recast to the other era, the same
is decoded again, with the tag that the last operation has then. Only a transaction with
parameters, which is one of the newer era, is refused in the older form. -/
theorem eras_decode_alike {value : OperationGroup}
    (hvalue : ofBytes key allowed bytes = .ok value) :
    (value.operation.kind.hasParameters = true → value.operation.tag = 108) ∧
    (∃ parts, GroupForm key allowed value parts ∧ bytes = parts.toBytes) ∧
    ∀ parts parts', GroupForm key allowed value parts → bytes = parts.toBytes →
      parts.Recast parts' → (ofBytes key allowed parts'.toBytes).mapError DecodeError.status =
        if value.operation.kind.hasParameters = true ∧ parts'.last.tag ≠ 108 then
          .error .parseError
        else .ok { value with operation := { value.operation with tag := parts'.last.tag } } := by
  have hparts := ofBytes_eq_ok_iff.mp hvalue
  refine ⟨fun hparameters => ?_, hparts, fun parts parts' hform _ hrecast => ?_⟩
  · obtain ⟨parts, hform, -⟩ := hparts
    exact hform.tag_eq hparameters
  · split_ifs with holder
    · exact hform.refused_of_parameters holder.1 hrecast holder.2
    · have htag : value.operation.kind.hasParameters = true → parts'.last.tag = 108 :=
        fun hparameters => by_contra fun hne => holder ⟨hparameters, hne⟩
      rw [ofBytes_eq_ok_iff.mpr ⟨parts', hform.recast hrecast htag, rfl⟩]
      rfl

/-- Two reveals of different eras and a transfer, and the same with all the eras exchanged. -/
theorem eras_decode_alike_exchanged :
    let key : PublicKey := .ed25519 (.fill 32 0x11)
    let account : Bytes := 0x00 :: key.hash.val
    let number (byte : UInt8) (hclear : byte < 0x80) : Bytes.Numeral := ⟨[byte], .last hclear⟩
    let manager : ManagerParts := ⟨number 5 (by decide), number 1 (by decide),
      number 2 (by decide), number 6 (by decide)⟩
    let reveal (tag : UInt8) (source : Bytes) : OperationParts :=
      ⟨tag, source, some manager, 0x00 :: key.compressed⟩
    let transfer (tag : UInt8) (source : Bytes) : OperationParts :=
      ⟨tag, source, some manager, [0x2A] ++ (0x00 :: 0x01 :: List.replicate 20 0x44) ++ [0x00]⟩
    let parts : GroupParts :=
      ⟨.fill 32 0xBB, [reveal 107 account, reveal 7 (0x00 :: account)], transfer 108 account⟩
    let parts' : GroupParts := ⟨.fill 32 0xBB, [reveal 7 (0x00 :: account), reveal 107 account],
      transfer 8 (0x00 :: account)⟩
    let group (tag : UInt8) : OperationGroup := ⟨.ofKey key, 15, 18, true,
      ⟨tag, .ofKey key, .transaction 42 (.implicit .secp256k1 (.fill 20 0x44)) none⟩⟩
    ofBytes key .all parts.toBytes = .ok (group 108) ∧
      (ofBytes key .all parts'.toBytes).mapError DecodeError.status = .ok (group 8) := by
  intro key account number manager reveal transfer parts parts' group
  have haccount : AccountForm (.ofKey key) account := .implicit .ed25519 key.hash
  have hopens (type : OperationType) (operation : OperationParts)
      (htag : operation.tag ∈ type.tags)
      (hmanager : operation.manager.isSome = type.hasManagerFields)
      (hsource : SourceForm operation.tag (.ofKey key) operation.source) :
      operation.Opens .all type (.ofKey key) := ⟨htag, rfl, hsource, hmanager⟩
  have hform : GroupForm key .all (group 108) parts := by
    refine ⟨?_, ?_, rfl, rfl, rfl, rfl⟩
    · intro operation hmem
      simp only [parts, List.mem_cons, List.not_mem_nil, or_false] at hmem
      rcases hmem with rfl | rfl
      · exact .reveal (hopens .reveal _ (by decide) rfl haccount) rfl
      · exact .reveal (hopens .reveal _ (by decide) rfl (.implicit haccount)) rfl
    · refine .last (hopens .transaction _ (by decide) rfl haccount) rfl ?_ ?_
      · exact (Bool.or_eq_true _ _).mpr (.inr (beq_self_eq_true _))
      · have hdestination := ContractForm.implicit (.implicit .secp256k1 (.fill 20 0x44))
        exact .transaction (number 0x2A (by decide)) hdestination
  have hreveal : (7 : UInt8) ∈ [7, 8, 9, 10] := by decide
  have htransfer : (8 : UInt8) ∈ [7, 8, 9, 10] := by decide
  have hrecast : parts.Recast parts' :=
    ⟨rfl, .cons (.older hreveal _ _ _) (.cons (.newer hreveal _ _ _) .nil),
      .older htransfer _ _ _⟩
  have hvalue := ofBytes_eq_ok_iff.mpr ⟨parts, hform, rfl⟩
  obtain ⟨-, -, hrecasts⟩ := eras_decode_alike hvalue
  exact ⟨hvalue, hrecasts parts parts' hform rfl hrecast⟩

end OperationGroup

end TezosSigner
