import TezosSigner.Key.Provider
import TezosSigner.Operation.Group
import TezosSigner.Proofs.Amount
import TezosSigner.Proofs.Base58
import TezosSigner.Review.Operation
import TezosSigner.Signing.Plan

/-!
# What a signing prompt is about

A wallet asks to sign an operation whose effect it shows, a digest, or a message as
it is. Each value that a prompt shows can be read back, and prompts of different
sorts differ in their titles or in the number of their values, so what a prompt is
about can be told from what it shows.
-/

namespace TezosSigner

open Hash

/-- What a group does, as far as it is reviewed. -/
inductive ReviewedEffect where
  | transfer (amount fee : UInt64) (source destination : Contract) (storageLimit : UInt64)
  | delegation (source : Contract) (delegate : Option Contract) (fee storageLimit : UInt64)
  | origination (balance fee : UInt64) (source manager : Contract) (delegatable : Bool)
      (delegate : Option Contract) (storageLimit : UInt64)
  | proposal (source : Contract) (period : Int32) (protocolHash : Digest)
  | ballot (vote : Vote) (source : Contract) (protocolHash : Digest) (period : Int32)

/-- The effect of a group. What a manager contract is called for is an act of that contract. -/
def OperationGroup.effect (group : OperationGroup) : ReviewedEffect :=
  let source := group.operation.source
  let fee := group.totalFee
  let storageLimit := group.totalStorageLimit
  match group.operation.kind with
  | .transaction amount destination none => .transfer amount fee source destination storageLimit
  | .transaction _ caller (some (.transfer destination amount)) =>
      .transfer amount fee caller destination storageLimit
  | .transaction _ caller (some (.setDelegate delegate)) =>
      .delegation caller delegate fee storageLimit
  | .delegation delegate => .delegation source delegate fee storageLimit
  | .origination manager balance _ delegatable delegate =>
      .origination balance fee source manager delegatable delegate storageLimit
  | .proposal period protocolHash => .proposal source period protocolHash
  | .ballot period protocolHash vote => .ballot vote source protocolHash period

namespace Prompt

theorem tezText_injective : Function.Injective tezText := by
  intro first second heq
  exact Text.tez_injective ((String.append_left_inj _).mp heq)

theorem Cost.eq_of_fields {first second : Cost} (hfee : first.feeField = second.feeField)
    (hstorage : first.storageField = second.storageField) : first = second := by
  obtain ⟨fee, storageLimit⟩ := first
  obtain ⟨fee', storageLimit'⟩ := second
  have hfees : fee = fee' := tezText_injective (Field.mk.inj hfee).2
  have hlimits : storageLimit = storageLimit' :=
    UInt64.toNat_inj.mp (Text.decimal_injective (Field.mk.inj hstorage).2)
  rw [hfees, hlimits]

/-- A delegate is shown under a name that tells whether it is fixed, and whoever may become
one is no account. -/
theorem delegateField_inj {delegatable delegatable' : Bool} {delegate delegate' : Option Contract}
    (heq : delegateField delegatable delegate = delegateField delegatable' delegate') :
    delegatable = delegatable' ∧ delegate = delegate' := by
  have hany (account : Contract) : "Any" ≠ account.text := account.text_ne_any.symm
  cases delegatable <;> cases delegatable' <;> cases delegate <;> cases delegate' <;>
    simp_all [delegateField, Contract.text_injective.eq_iff, Contract.text_ne_any]

theorem voteText_injective : Function.Injective voteText := by
  intro first second heq
  cases first <;> cases second <;> first | rfl | exact absurd heq (by decide)

theorem period_eq {first second : Int32}
    (heq : Text.signedDecimal first.toInt = Text.signedDecimal second.toInt) : first = second :=
  Int32.toInt_inj.mp (Text.signedDecimal_injective heq)

section Inversion

variable {source source' other other' : Contract} {amount amount' : UInt64} {cost cost' : Cost}
  {delegatable delegatable' : Bool} {delegate delegate' : Option Contract}
  {period period' : Int32} {hash hash' : Digest} {vote vote' : Vote}

theorem transfer_inj
    (heq : transfer source other amount cost = transfer source' other' amount' cost') :
    amount = amount' ∧ cost = cost' ∧ source = source' ∧ other = other' := by
  have hfields := congrArg Prompt.fields heq
  simp only [transfer, signOperation, List.cons.injEq, Field.mk.injEq, true_and, and_true]
    at hfields
  obtain ⟨hamount, hfee, hsource, hdestination, hstorage⟩ := hfields
  exact ⟨tezText_injective hamount, Cost.eq_of_fields hfee hstorage,
    Contract.text_injective hsource, Contract.text_injective hdestination⟩

theorem delegation_inj
    (heq : delegation source delegate cost = delegation source' delegate' cost') :
    source = source' ∧ delegate = delegate' ∧ cost = cost' := by
  have htitle := congrArg Prompt.title heq
  have hfields := congrArg Prompt.fields heq
  simp only [delegation, signOperation, List.cons.injEq, Field.mk.injEq, true_and, and_true]
    at htitle hfields
  obtain ⟨hfee, hsource, hdelegate, hstorage⟩ := hfields
  refine ⟨Contract.text_injective hsource, ?_, Cost.eq_of_fields hfee hstorage⟩
  -- The title, not the word for no delegate, tells a withdrawal.
  cases delegate with
  | none =>
      cases delegate' with
      | none => rfl
      | some account' => simp at htitle
  | some account =>
      cases delegate' with
      | none => simp at htitle
      | some account' => rw [Contract.text_injective hdelegate]

theorem origination_inj
    (heq : origination source other amount delegatable delegate cost =
      origination source' other' amount' delegatable' delegate' cost') :
    amount = amount' ∧ cost = cost' ∧ source = source' ∧ other = other' ∧
      delegatable = delegatable' ∧ delegate = delegate' := by
  have hfields := congrArg Prompt.fields heq
  simp only [origination, signOperation, List.cons.injEq, Field.mk.injEq, true_and, and_true]
    at hfields
  obtain ⟨hamount, hfee, hsource, hmanager, hdelegate, hstorage⟩ := hfields
  exact ⟨tezText_injective hamount, Cost.eq_of_fields hfee hstorage,
    Contract.text_injective hsource, Contract.text_injective hmanager, delegateField_inj hdelegate⟩

theorem proposal_inj
    (heq : proposal source period hash.val = proposal source' period' hash'.val) :
    source = source' ∧ period = period' ∧ hash = hash' := by
  have hfields := congrArg Prompt.fields heq
  simp only [proposal, signOperation, List.cons.injEq, Field.mk.injEq, true_and, and_true]
    at hfields
  obtain ⟨hsource, hperiod, hprotocol⟩ := hfields
  exact ⟨Contract.text_injective hsource, period_eq hperiod, protocolText_injective hprotocol⟩

theorem ballot_inj
    (heq : ballot source period hash.val vote = ballot source' period' hash'.val vote') :
    vote = vote' ∧ source = source' ∧ hash = hash' ∧ period = period' := by
  have hfields := congrArg Prompt.fields heq
  simp only [ballot, List.cons.injEq, Field.mk.injEq, true_and, and_true] at hfields
  obtain ⟨hvote, hsource, hprotocol, hperiod⟩ := hfields
  exact ⟨voteText_injective hvote, Contract.text_injective hsource,
    protocolText_injective hprotocol, period_eq hperiod⟩

theorem signHash_inj {title title' : String} {bytes bytes' : Bytes}
    (heq : signHash title bytes = signHash title' bytes') : title = title' ∧ bytes = bytes' := by
  obtain ⟨_, htitle, hfields, _⟩ := Prompt.mk.inj heq
  obtain ⟨hfield, _⟩ := List.cons.inj hfields
  exact ⟨htitle, Text.base58_injective (Field.mk.inj hfield).2⟩

end Inversion

end Prompt

namespace ReviewedEffect

/-- The prompt that shows an effect. -/
def prompt : ReviewedEffect → Prompt
  | .transfer amount fee source destination storageLimit =>
      .transfer source destination amount ⟨fee, storageLimit⟩
  | .delegation source delegate fee storageLimit =>
      .delegation source delegate ⟨fee, storageLimit⟩
  | .origination balance fee source manager delegatable delegate storageLimit =>
      .origination source manager balance delegatable delegate ⟨fee, storageLimit⟩
  | .proposal source period protocolHash => .proposal source period protocolHash.val
  | .ballot vote source protocolHash period => .ballot source period protocolHash.val vote

/-- Each sort of effect has its own button and number of values. -/
theorem prompt_shape (effect : ReviewedEffect) :
    (effect.prompt.confirm, effect.prompt.fields.length) =
      match effect with
      | .transfer .. => ("Sign operation", 5)
      | .delegation .. => ("Sign operation", 4)
      | .origination .. => ("Sign operation", 6)
      | .proposal .. => ("Sign operation", 3)
      | .ballot .. => ("Sign vote", 4) := by
  cases effect <;> rfl

theorem prompt_injective : Function.Injective prompt := by
  intro first second heq
  -- Effects of different sorts differ in shape; within a sort the values are read back.
  have hshape := first.prompt_shape
  rw [heq, second.prompt_shape] at hshape
  cases first with
  | transfer =>
      cases second with
      | transfer =>
          obtain ⟨rfl, hcost, rfl, rfl⟩ := Prompt.transfer_inj heq
          cases hcost
          rfl
      | _ => simp at hshape
  | delegation =>
      cases second with
      | delegation =>
          obtain ⟨rfl, rfl, hcost⟩ := Prompt.delegation_inj heq
          cases hcost
          rfl
      | _ => simp at hshape
  | origination =>
      cases second with
      | origination =>
          obtain ⟨rfl, hcost, rfl, rfl, rfl, rfl⟩ := Prompt.origination_inj heq
          cases hcost
          rfl
      | _ => simp at hshape
  | proposal =>
      cases second with
      | proposal =>
          obtain ⟨rfl, rfl, rfl⟩ := Prompt.proposal_inj heq
          rfl
      | _ => simp at hshape
  | ballot =>
      cases second with
      | ballot =>
          obtain ⟨rfl, rfl, rfl, rfl⟩ := Prompt.ballot_inj heq
          rfl
      | _ => simp at hshape

end ReviewedEffect

/-- A group that is shown in detail is shown by its effect. -/
theorem Prompt.eq_of_ofGroup? {group : OperationGroup} {prompt : Prompt}
    (hprompt : ofGroup? group = some prompt) : prompt = group.effect.prompt := by
  apply (Option.some.inj _).symm
  unfold ofGroup? at hprompt
  rw [← hprompt]
  unfold OperationGroup.effect
  generalize group.operation.kind = kind at hprompt ⊢
  cases kind with
  | transaction amount destination manager =>
      cases manager with
      | none => rfl
      | some action => cases action <;> rfl
  | origination manager balance spendable delegatable delegate =>
      cases spendable with
      | true => rfl
      | false => cases hprompt
  | delegation => rfl
  | proposal => rfl
  | ballot => rfl

theorem Prompt.ne_signHash_of_ofGroup? {group : OperationGroup} {prompt : Prompt}
    (hprompt : ofGroup? group = some prompt) (title : String) (bytes : Bytes) :
    prompt ≠ signHash title bytes := by
  intro heq
  -- A detailed prompt has at least three values.
  have hlength := congrArg (·.fields.length) ((eq_of_ofGroup? hprompt).symm.trans heq)
  generalize group.effect = effect at hlength
  cases effect <;> cases hlength

/-- What a wallet is asked to sign, as far as its prompt tells. -/
inductive Subject where
  | operation (effect : ReviewedEffect)
  | digest (value : Digest)
  | raw (message : Bytes)

namespace Subject

/-- A prompt shows the effect of some group in detail, or a byte string. -/
inductive ShownBy (prompt : Prompt) : Subject → Prop where
  | detailed {group : OperationGroup} (shown : Prompt.ofGroup? group = some prompt) :
      ShownBy prompt (.operation group.effect)
  | blind {value : Digest} (shown : prompt = .unrecognized value.val) :
      ShownBy prompt (.digest value)
  | prehashed {message : Bytes} (shown : prompt = .prehashed message) :
      ShownBy prompt (.raw message)

/-- A prompt is about one subject only. -/
theorem ShownBy.unique {prompt : Prompt} {first second : Subject} (hfirst : first.ShownBy prompt)
    (hsecond : second.ShownBy prompt) : first = second := by
  cases hfirst with
  | detailed hfirst =>
      cases hsecond with
      | detailed hsecond =>
          have heffect := Prompt.eq_of_ofGroup? hfirst
          rw [Prompt.eq_of_ofGroup? hsecond] at heffect
          rw [ReviewedEffect.prompt_injective heffect]
      | blind hsecond => exact absurd hsecond (Prompt.ne_signHash_of_ofGroup? hfirst _ _)
      | prehashed hsecond => exact absurd hsecond (Prompt.ne_signHash_of_ofGroup? hfirst _ _)
  | blind hfirst =>
      cases hsecond with
      | detailed hsecond => exact absurd hfirst (Prompt.ne_signHash_of_ofGroup? hsecond _ _)
      | blind hsecond => rw [Subtype.ext (Prompt.signHash_inj (hfirst.symm.trans hsecond)).2]
      | prehashed hsecond =>
          exact absurd (Prompt.signHash_inj (hfirst.symm.trans hsecond)).1 (by decide)
  | prehashed hfirst =>
      cases hsecond with
      | detailed hsecond => exact absurd hfirst (Prompt.ne_signHash_of_ofGroup? hsecond _ _)
      | blind hsecond =>
          exact absurd (Prompt.signHash_inj (hfirst.symm.trans hsecond)).1 (by decide)
      | prehashed hsecond => rw [(Prompt.signHash_inj (hfirst.symm.trans hsecond)).2]

/-- A plan signs a subject: the digest of a message that decodes to a group with the effect,
the digest itself, or the message itself. -/
def SignedBy (subject : Subject) (plan : SigningPlan) (keys : KeyProvider) (message : Bytes) :
    Prop :=
  match subject with
  | .operation effect =>
      plan.payload = .digest (blake2b256 message) ∧
        ∃ publicKey group, keys.publicKey plan.key = .ok publicKey ∧
          OperationGroup.ofBytes publicKey .all message = .ok group ∧ group.effect = effect
  | .digest value => plan.payload = .digest value ∧ value = blake2b256 message
  | .raw shown => plan.payload = .raw shown ∧ shown = message

end Subject

end TezosSigner
