import TezosSigner.Proofs.Grammar

/-!
# How accounts are spelled

An account of either kind is named in two places: as the source of an operation of the
older era, and as the destination of a transaction. An implicit account has one spelling
there. An originated one has many, since neither the byte in front of its hash, as long as
it is not zero, nor the padding behind it is looked at. A group is decoded to the same
whichever of them its bytes choose.
-/

namespace TezosSigner

open Decoder Hash

namespace Decoder

/-- A piece of a form is cut off a byte string in one way only. -/
theorem Reads.unique {α : Type} {decoder : Decoder α} {form : α → Bytes → Prop}
    (hreads : Reads decoder form) {value value' : α} {piece rest rest' : Bytes}
    (hpiece : form value piece) (haccepts : Accepts decoder (piece ++ rest) value' rest') :
    value' = value ∧ rest' = rest :=
  haccepts.unique (hreads.accepts hpiece rest)

/-- The bytes in front of the hash and behind it are free, but the first one is not zero. -/
theorem contractForm_iff {contract : Contract} {piece : Bytes} :
    ContractForm contract piece ↔
      match contract with
      | .implicit curve hash => piece = 0x00 :: curve.code :: hash.val
      | .originated hash =>
          ∃ kind padding, kind ≠ 0x00 ∧ piece = kind :: (hash.val ++ [padding]) := by
  constructor
  · rintro (⟨⟨curve, hash⟩⟩ | ⟨hkind, hash, padding⟩)
    · rfl
    · exact ⟨_, padding, hkind, rfl⟩
  · cases contract with
    | implicit curve hash =>
        rintro rfl
        exact .implicit (.implicit curve hash)
    | originated hash =>
        rintro ⟨kind, padding, hkind, rfl⟩
        exact .originated hkind hash padding

end Decoder

namespace OperationGroup

variable {key : PublicKey} {allowed : AllowedOperations} {contract : Contract}
  {before field field' behind : Bytes}

/-! ## Where accounts of either kind are named -/

/-- The bytes of the fee and the other numbers, if there are any. -/
def OperationParts.numbers (parts : OperationParts) : Bytes :=
  (parts.manager.map ManagerParts.toBytes).getD []

/-- The bytes of an operation are those before an account of either kind, its spelling, and those
behind it. -/
inductive OperationParts.Names (parts : OperationParts) : Contract → Bytes → Bytes → Bytes → Prop
  | source {contract : Contract} (htag : parts.tag ∈ [7, 8, 9, 10])
      (hsource : ContractForm contract parts.source) :
      parts.Names contract [parts.tag] parts.source (parts.numbers ++ parts.body)
  | destination {contract : Contract} {account behind : Bytes} (htag : parts.tag ∈ [8, 108])
      (amount : Bytes.Numeral) (haccount : ContractForm contract account)
      (hbody : parts.body = amount.val ++ account ++ behind) :
      parts.Names contract (parts.tag :: (parts.source ++ parts.numbers ++ amount.val)) account
        behind

/-- A group names what one of its operations names. -/
inductive GroupParts.Names (parts : GroupParts) : Contract → Bytes → Bytes → Bytes → Prop
  | intro {first rest : List OperationParts} {operation : OperationParts} {contract : Contract}
      {before field behind : Bytes} (hoperations : parts.operations = first ++ operation :: rest)
      (hnames : operation.Names contract before field behind) :
      parts.Names contract
        (0x03 :: (parts.branch.val ++ first.flatMap OperationParts.toBytes ++ before)) field
        (behind ++ rest.flatMap OperationParts.toBytes)

theorem OperationParts.Names.toBytes_eq {parts : OperationParts}
    (hnames : parts.Names contract before field behind) :
    parts.toBytes = before ++ field ++ behind := by
  cases hnames with
  | source => simp [OperationParts.toBytes, OperationParts.numbers]
  | destination _ _ _ hbody => simp [OperationParts.toBytes, OperationParts.numbers, hbody]

theorem OperationParts.Names.form {parts : OperationParts}
    (hnames : parts.Names contract before field behind) : ContractForm contract field := by
  cases hnames with
  | source _ hsource => exact hsource
  | destination _ _ haccount => exact haccount

theorem GroupParts.Names.form {parts : GroupParts}
    (hnames : parts.Names contract before field behind) : ContractForm contract field := by
  cases hnames with
  | intro _ hnames => exact hnames.form

theorem GroupParts.Names.toBytes_eq {parts : GroupParts}
    (hnames : parts.Names contract before field behind) :
    parts.toBytes = before ++ field ++ behind := by
  cases hnames with
  | intro hoperations hnames =>
  simp [GroupParts.toBytes, hoperations, hnames.toBytes_eq]

/-! ## Another spelling of the same account -/

/-- A transaction is read on behind its destination in the same way, however that is spelled. -/
theorem accepts_transaction_iff {tag : UInt8} {amount : Bytes.Numeral} {value : OperationKind}
    {rest : Bytes} (hfield : ContractForm contract field) :
    Accepts (transaction tag) (amount.val ++ field ++ behind) value rest ↔
      ∃ manager, Accepts (parameters tag amount.word contract) behind manager rest ∧
        value = .transaction amount.word contract manager := by
  simp only [transaction, accepts_bind, accepts_pure]
  constructor
  · rintro ⟨_, _, hamount, _, _, hdestination, manager, _, hparameters, rfl, rfl⟩
    rw [List.append_assoc] at hamount
    obtain ⟨rfl, rfl⟩ := reads_varint.unique ⟨amount, rfl, rfl⟩ hamount
    obtain ⟨rfl, rfl⟩ := reads_contract.unique hfield hdestination
    exact ⟨manager, hparameters, rfl⟩
  · rintro ⟨manager, hparameters, rfl⟩
    rw [List.append_assoc]
    exact ⟨_, _, reads_varint.accepts ⟨amount, rfl, rfl⟩ _, _, _, reads_contract.accepts hfield _,
      manager, _, hparameters, rfl, rfl⟩

theorem OperationParts.Opens.respelled {type : OperationType} {source : Contract}
    {parts : OperationParts} (hopens : parts.Opens allowed type source)
    (htag : parts.tag ∈ [7, 8, 9, 10]) (hsource : ContractForm contract parts.source)
    (hfield : ContractForm contract field) :
    ({ parts with source := field } : OperationParts).Opens allowed type source := by
  obtain ⟨htype, hallowed, hform, hmanager⟩ := hopens
  rw [SourceForm, if_pos htag] at hform
  have haccepts := reads_contract.accepts hform []
  obtain ⟨rfl, _⟩ := reads_contract.unique hsource haccepts
  refine ⟨htype, hallowed, ?_, hmanager⟩
  rw [SourceForm, if_pos htag]
  exact hfield

theorem KindForm.respelled {tag : UInt8} {type : OperationType} {kind : OperationKind}
    {amount : Bytes.Numeral} (hkind : KindForm tag type kind (amount.val ++ field ++ behind))
    (htype : type = .transaction) (hfield : ContractForm contract field)
    (hfield' : ContractForm contract field') :
    KindForm tag type kind (amount.val ++ field' ++ behind) := by
  subst htype
  rw [← (reads_transaction tag).accepts_nil_iff, accepts_transaction_iff hfield] at hkind
  rw [← (reads_transaction tag).accepts_nil_iff, accepts_transaction_iff hfield']
  exact hkind

/-- An operation may spell what it names in another way. -/
theorem EntryForm.respelled {entry : Option Operation} {parts : OperationParts}
    (hentry : EntryForm key allowed entry parts)
    (hnames : parts.Names contract before field behind) (hfield : ContractForm contract field') :
    ∃ parts' : OperationParts, EntryForm key allowed entry parts' ∧
      parts'.toBytes = before ++ field' ++ behind ∧ parts'.manager = parts.manager := by
  cases hnames with
  | source htag hsource =>
      refine ⟨{ parts with source := field' }, ?_,
        by simp [OperationParts.toBytes, OperationParts.numbers], rfl⟩
      cases hentry with
      | reveal hopens hbody => exact .reveal (hopens.respelled htag hsource hfield) hbody
      | last hopens hsame hsigns hbody =>
          exact .last (hopens.respelled htag hsource hfield) hsame hsigns hbody
  | destination htag amount haccount hbody =>
      -- A reveal has no tag of a transaction.
      have htransaction : OperationType.ofTag? parts.tag = some .transaction :=
        OperationType.ofTag?_eq_some_iff.mpr htag
      refine ⟨{ parts with body := amount.val ++ field' ++ behind }, ?_,
        by simp [OperationParts.toBytes, OperationParts.numbers], rfl⟩
      cases hentry with
      | reveal hopens =>
          cases htransaction.symm.trans (OperationType.ofTag?_eq_some_iff.mpr hopens.tag)
      | @last type operation _ hopens hsame hsigns hkind =>
          have htype : type = .transaction := Option.some.inj
            ((OperationType.ofTag?_eq_some_iff.mpr hopens.tag).symm.trans htransaction)
          rw [hbody] at hkind
          exact .last ⟨hopens.tag, hopens.allowed, hopens.source, hopens.manager⟩ hsame hsigns
            (hkind.respelled htype haccount hfield)

/-- A group may spell what it names in another way. -/
theorem GroupForm.respelled {group : OperationGroup} {parts : GroupParts}
    (hform : GroupForm key allowed group parts)
    (hnames : parts.Names contract before field behind) (hfield : ContractForm contract field') :
    ∃ parts', GroupForm key allowed group parts' ∧ parts'.toBytes = before ++ field' ++ behind := by
  obtain ⟨branch, reveals, last⟩ := parts
  obtain ⟨hreveals, hlast, hsigning, hfee, hstorageLimit, hreveal⟩ := hform
  cases hnames with
  | @intro first rest operation _ before _ behind hoperations hnames =>
  have htotals {parts : OperationParts} (hmanager : parts.manager = operation.manager) :
      (first ++ parts :: rest).map OperationParts.fee =
          (first ++ operation :: rest).map OperationParts.fee ∧
        (first ++ parts :: rest).map OperationParts.storageLimit =
          (first ++ operation :: rest).map OperationParts.storageLimit := by
    simp [OperationParts.fee, OperationParts.storageLimit, hmanager]
  rw [hoperations] at hfee hstorageLimit
  -- The operation is the last one, or else one of the reveals.
  rcases List.eq_nil_or_concat rest with rfl | ⟨others, final, rfl⟩
  · obtain ⟨rfl, hfinal⟩ := List.append_inj' hoperations rfl
    cases hfinal
    obtain ⟨parts, hentry, hbytes, hmanager⟩ := hlast.respelled hnames hfield
    obtain ⟨hfees, hlimits⟩ := htotals hmanager
    refine ⟨⟨branch, reveals, parts⟩, ⟨hreveals, hentry, hsigning, ?_, ?_, hreveal⟩, ?_⟩
    · rw [hfee, ← hfees]
      rfl
    · rw [hstorageLimit, ← hlimits]
      rfl
    · simp [GroupParts.toBytes, GroupParts.operations, hbytes]
  · rw [List.concat_eq_append, ← List.cons_append, ← List.append_assoc] at hoperations
    obtain ⟨rfl, hfinal⟩ := List.append_inj' hoperations rfl
    cases hfinal
    obtain ⟨parts, hentry, hbytes, hmanager⟩ :=
      (hreveals operation (by simp)).respelled hnames hfield
    obtain ⟨hfees, hlimits⟩ := htotals hmanager
    refine ⟨⟨branch, first ++ parts :: others, last⟩, ⟨?_, hlast, hsigning, ?_, ?_, ?_⟩, ?_⟩
    · intro reveal hmem
      rcases List.mem_append.mp hmem with hfirst | hrest
      · exact hreveals reveal (List.mem_append_left _ hfirst)
      · rcases List.mem_cons.mp hrest with rfl | hothers
        · exact hentry
        · exact hreveals reveal (List.mem_append_right _ (List.mem_cons_of_mem _ hothers))
    · rw [hfee, ← hfees]
      simp [GroupParts.operations]
    · rw [hstorageLimit, ← hlimits]
      simp [GroupParts.operations]
    · rw [hreveal]
      cases first <;> rfl
    · simp [GroupParts.toBytes, GroupParts.operations, hbytes]

theorem EntryForm.exists_opens {entry : Option Operation} {parts : OperationParts}
    (hentry : EntryForm key allowed entry parts) :
    ∃ type source, parts.Opens allowed type source := by
  cases hentry with
  | reveal hopens => exact ⟨_, _, hopens⟩
  | last hopens => exact ⟨_, _, hopens⟩

/-- An operation of the older era names its source, and a transaction its destination. -/
theorem EntryForm.exists_names {entry : Option Operation} {parts : OperationParts}
    (hentry : EntryForm key allowed entry parts) :
    (parts.tag ∈ [7, 8, 9, 10] → ∃ contract behind,
      parts.Names contract [parts.tag] parts.source behind) ∧
    (parts.tag ∈ [8, 108] → ∃ contract amount account behind,
      parts.Names contract (parts.tag :: (parts.source ++ parts.numbers ++ amount)) account
        behind) := by
  constructor
  · intro htag
    obtain ⟨_, source, hopens⟩ := hentry.exists_opens
    have hsource := hopens.source
    rw [SourceForm, if_pos htag] at hsource
    exact ⟨source, _, .source htag hsource⟩
  · intro htag
    have htransaction : OperationType.ofTag? parts.tag = some .transaction :=
      OperationType.ofTag?_eq_some_iff.mpr htag
    cases hentry with
    | reveal hopens =>
        cases htransaction.symm.trans (OperationType.ofTag?_eq_some_iff.mpr hopens.tag)
    | @last _ operation _ hopens _ _ hkind =>
        cases htransaction.symm.trans (OperationType.ofTag?_eq_some_iff.mpr hopens.tag)
        generalize hbody : parts.body = body at hkind
        generalize operation.kind = kind at hkind
        cases hkind with
        | transaction amount haccount =>
            exact ⟨_, _, _, _, .destination htag amount haccount hbody⟩
        | call _ hamount haccount =>
            exact ⟨_, _, _, _, .destination htag _ haccount (hbody.trans (List.append_assoc _ _ _))⟩

/-- A group that is decoded names the source of every operation of the older era, and the
destination of a transaction. An implicit account is spelled as a zero, the code of its curve and
its hash; an originated one as any byte but a zero, its hash and any byte. Every other such
spelling of an originated account in the same place is decoded to the same group, so what tells
the account is all but those two bytes. -/
theorem contract_spellings {bytes : Bytes} {value : OperationGroup}
    (hvalue : ofBytes key allowed bytes = .ok value) :
    ∃ parts, GroupForm key allowed value parts ∧ bytes = parts.toBytes ∧
      (∀ operation ∈ parts.operations,
        (operation.tag ∈ [7, 8, 9, 10] → ∃ contract behind,
          operation.Names contract [operation.tag] operation.source behind) ∧
        (operation.tag ∈ [8, 108] → ∃ contract amount account behind, operation.Names contract
          (operation.tag :: (operation.source ++ operation.numbers ++ amount)) account behind)) ∧
      ∀ contract before field behind, parts.Names contract before field behind →
        bytes = before ++ field ++ behind ∧
        match contract with
        | .implicit curve hash => field = 0x00 :: curve.code :: hash.val
        | .originated hash =>
            (∃ kind padding, kind ≠ 0x00 ∧ field = kind :: (hash.val ++ [padding])) ∧
            ∀ kind padding, kind ≠ 0x00 →
              ofBytes key allowed (before ++ kind :: (hash.val ++ [padding]) ++ behind) =
                .ok value := by
  obtain ⟨parts, hform, rfl⟩ := ofBytes_eq_ok_iff.mp hvalue
  refine ⟨parts, hform, rfl, fun operation hmem => ?_, fun contract before field behind hnames =>
    ⟨hnames.toBytes_eq, ?_⟩⟩
  · rcases List.mem_append.mp hmem with hreveal | hlast
    · exact (hform.reveals operation hreveal).exists_names
    · cases List.mem_singleton.mp hlast
      exact hform.last.exists_names
  · have hfield := contractForm_iff.mp hnames.form
    cases contract with
    | implicit curve hash => exact hfield
    | originated hash =>
        refine ⟨hfield, fun kind padding hkind => ?_⟩
        obtain ⟨parts', hform', hbytes⟩ := hform.respelled hnames (.originated hkind hash padding)
        exact ofBytes_eq_ok_iff.mpr ⟨parts', hform', hbytes.symm⟩

/-- A transfer from an originated account of the older era. Its source stands behind the mark, the
branch and the tag, and may be spelled in other ways. -/
theorem contract_spellings_source :
    let key : PublicKey := .ed25519 (.fill 32 0x11)
    let hash : KeyHash := .fill 20 0x22
    let bytes : Bytes := 0x03 :: (List.replicate 32 0xBB ++ 8 :: (0x01 :: (hash.val ++ [0x00])
      ++ [0x05, 0x01, 0x02, 0x06] ++ [0x2A] ++ (0x00 :: 0x01 :: List.replicate 20 0x44) ++ [0x00]))
    let group : OperationGroup := ⟨.ofKey key, 5, 6, false,
      ⟨8, .originated hash, .transaction 42 (.implicit .secp256k1 (.fill 20 0x44)) none⟩⟩
    ofBytes key .all bytes = .ok group ∧ ∃ before field behind,
      before.length = 34 ∧ bytes = before ++ field ++ behind ∧
      ∀ kind padding, kind ≠ 0x00 →
        ofBytes key .all (before ++ kind :: (hash.val ++ [padding]) ++ behind) = .ok group := by
  intro key hash bytes group
  have hvalue : ofBytes key .all bytes = .ok group := rfl
  obtain ⟨parts, hform, _, _, hspelled⟩ := contract_spellings hvalue
  have hreveals : parts.reveals = [] := by
    have hnone := hform.hasReveal
    rwa [eq_comm, Bool.not_eq_false', List.isEmpty_iff] at hnone
  cases hform.last with
  | last hopens htag =>
  have holder : parts.last.tag ∈ [7, 8, 9, 10] := by
    rw [htag]
    decide
  have hsource := hopens.source
  rw [SourceForm, if_pos holder] at hsource
  have hoperations : parts.operations = [] ++ parts.last :: [] := by
    rw [GroupParts.operations, hreveals]
  have hnames := GroupParts.Names.intro hoperations (.source holder hsource)
  obtain ⟨hbytes, _, hothers⟩ := hspelled _ _ _ _ hnames
  refine ⟨hvalue, _, _, _, ?_, hbytes, hothers⟩
  simp [parts.branch.property]

/-- Neither another byte in front of the hash nor another padding behind it is refused, although
the format has one spelling only, and so one group has several encodings. -/
theorem contract_spelled_twice :
    let key : PublicKey := .ed25519 (.fill 32 0x11)
    let transfer (kind padding : UInt8) : Bytes :=
      0x03 :: (List.replicate 32 0xBB ++ 8 :: (kind :: (List.replicate 20 0x22 ++ [padding])
        ++ [0x05, 0x01, 0x02, 0x06] ++ [0x2A] ++ (0x00 :: 0x01 :: List.replicate 20 0x44)
        ++ [0x00]))
    ofBytes key .all (transfer 0x02 0x00) = ofBytes key .all (transfer 0x01 0x00) ∧
      ofBytes key .all (transfer 0x01 0x2A) = ofBytes key .all (transfer 0x01 0x00) ∧
      ¬ ∀ kind padding, (∃ group, ofBytes key .all (transfer kind padding) = .ok group) →
        kind = 0x00 ∨ kind = 0x01 ∧ padding = 0x00 := by
  intro key transfer
  refine ⟨rfl, rfl, fun hstrict => ?_⟩
  have hkind := hstrict 0x02 0x00 ⟨_, rfl⟩
  revert hkind
  decide

end OperationGroup

end TezosSigner
