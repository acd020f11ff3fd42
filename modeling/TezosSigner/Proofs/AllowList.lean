import TezosSigner.Proofs.Delegation
import TezosSigner.Proofs.Grammar

/-!
# What an allow-list keeps out

Every operation of a group has to be of an allowed type, and nothing else depends on the
types that are allowed. So a narrower list refuses just the groups in which some operation
is of a type that it lacks, and all others are decoded to the same. A baker allows less than
a wallet, so a wallet shows the same group for what a baker asks to approve.
-/

namespace TezosSigner

open Command Hash

namespace OperationGroup

variable {key : PublicKey} {narrow wide : AllowedOperations} {group : OperationGroup}

theorem OperationParts.Opens.narrow_iff (hsub : ∀ type, narrow type = true → wide type = true)
    {type : OperationType} {source : Contract} {parts : OperationParts} :
    parts.Opens narrow type source ↔ parts.Opens wide type source ∧ narrow type = true := by
  constructor
  · rintro ⟨htag, hnarrow, hsource, hmanager⟩
    exact ⟨⟨htag, hsub type hnarrow, hsource, hmanager⟩, hnarrow⟩
  · rintro ⟨⟨htag, -, hsource, hmanager⟩, hnarrow⟩
    exact ⟨htag, hnarrow, hsource, hmanager⟩

/-- An operation is in a narrower list just if the type that its tag announces is. -/
theorem EntryForm.narrow_iff (hsub : ∀ type, narrow type = true → wide type = true)
    {entry : Option Operation} {parts : OperationParts} :
    EntryForm key narrow entry parts ↔ EntryForm key wide entry parts ∧
      ∃ type, OperationType.ofTag? parts.tag = some type ∧ narrow type = true := by
  constructor
  · intro hentry
    cases hentry with
    | reveal hopens hbody =>
        obtain ⟨hwide, hnarrow⟩ := (OperationParts.Opens.narrow_iff hsub).mp hopens
        exact ⟨.reveal hwide hbody, _, OperationType.ofTag?_eq_some_iff.mpr hopens.tag, hnarrow⟩
    | last hopens htag hsigns hbody =>
        obtain ⟨hwide, hnarrow⟩ := (OperationParts.Opens.narrow_iff hsub).mp hopens
        exact ⟨.last hwide htag hsigns hbody, _, OperationType.ofTag?_eq_some_iff.mpr hopens.tag,
          hnarrow⟩
  · rintro ⟨hentry, type, htype, hnarrow⟩
    cases hentry with
    | reveal hopens hbody =>
        cases (OperationType.ofTag?_eq_some_iff.mpr hopens.tag).symm.trans htype
        exact .reveal ((OperationParts.Opens.narrow_iff hsub).mpr ⟨hopens, hnarrow⟩) hbody
    | last hopens htag hsigns hbody =>
        cases (OperationType.ofTag?_eq_some_iff.mpr hopens.tag).symm.trans htype
        exact .last ((OperationParts.Opens.narrow_iff hsub).mpr ⟨hopens, hnarrow⟩) htag hsigns hbody

theorem EntryForm.tag_eq {operation : Operation} {parts : OperationParts}
    (hentry : EntryForm key wide (some operation) parts) : parts.tag = operation.tag := by
  cases hentry with
  | last _ htag => exact htag

theorem EntryForm.ofTag?_of_reveal {parts : OperationParts}
    (hentry : EntryForm key wide none parts) :
    OperationType.ofTag? parts.tag = some .reveal := by
  cases hentry with
  | reveal hopens => exact OperationType.ofTag?_eq_some_iff.mpr hopens.tag

theorem GroupForm.hasReveal_iff {parts : GroupParts} (hform : GroupForm key wide group parts) :
    group.hasReveal = true ↔ ∃ reveal, reveal ∈ parts.reveals := by
  rw [hform.hasReveal, Bool.not_eq_true', List.isEmpty_eq_false_iff_exists_mem]

/-- A group is in a narrower list just if its last operation is, and its reveals, if it has any. -/
theorem GroupForm.narrow_iff (hsub : ∀ type, narrow type = true → wide type = true)
    {parts : GroupParts} :
    GroupForm key narrow group parts ↔ GroupForm key wide group parts ∧
      (∃ type, OperationType.ofTag? group.operation.tag = some type ∧ narrow type = true) ∧
      (group.hasReveal = true → narrow .reveal = true) := by
  constructor
  · intro hform
    obtain ⟨hlast, hlastNarrow⟩ := (EntryForm.narrow_iff hsub).mp hform.last
    rw [hlast.tag_eq] at hlastNarrow
    have hreveals (reveal : OperationParts) (hmem : reveal ∈ parts.reveals) :=
      (EntryForm.narrow_iff hsub).mp (hform.reveals reveal hmem)
    refine ⟨{ hform with reveals := fun reveal hmem => (hreveals reveal hmem).1, last := hlast },
      hlastNarrow, fun hsome => ?_⟩
    obtain ⟨reveal, hmem⟩ := hform.hasReveal_iff.mp hsome
    obtain ⟨hentry, type, htype, hnarrow⟩ := hreveals reveal hmem
    cases hentry.ofTag?_of_reveal.symm.trans htype
    exact hnarrow
  · rintro ⟨hform, hlastNarrow, hsome⟩
    rw [← hform.last.tag_eq] at hlastNarrow
    refine { hform with reveals := fun reveal hmem => ?_, last := ?_ }
    · have htype := (hform.reveals reveal hmem).ofTag?_of_reveal
      have hnarrow := hsome (hform.hasReveal_iff.mpr ⟨reveal, hmem⟩)
      exact (EntryForm.narrow_iff hsub).mpr ⟨hform.reveals reveal hmem, .reveal, htype, hnarrow⟩
    · exact (EntryForm.narrow_iff hsub).mpr ⟨hform.last, hlastNarrow⟩

theorem ofBytes_narrow_iff (hsub : ∀ type, narrow type = true → wide type = true) {bytes : Bytes} :
    ofBytes key narrow bytes = .ok group ↔ ofBytes key wide bytes = .ok group ∧
      (∃ type, OperationType.ofTag? group.operation.tag = some type ∧ narrow type = true) ∧
      (group.hasReveal = true → narrow .reveal = true) := by
  rw [ofBytes_eq_ok_iff, ofBytes_eq_ok_iff]
  constructor
  · rintro ⟨parts, hform, rfl⟩
    obtain ⟨hwide, hnarrow⟩ := (GroupForm.narrow_iff hsub).mp hform
    exact ⟨⟨parts, hwide, rfl⟩, hnarrow⟩
  · rintro ⟨⟨parts, hwide, rfl⟩, hnarrow⟩
    exact ⟨parts, (GroupForm.narrow_iff hsub).mpr ⟨hwide, hnarrow⟩, rfl⟩

theorem head?_of_ofBytes {allowed : AllowedOperations} {bytes : Bytes}
    (hvalue : ofBytes key allowed bytes = .ok group) : bytes.head? = some mark := by
  obtain ⟨parts, -, rfl⟩ := ofBytes_eq_ok_iff.mp hvalue
  rfl

end OperationGroup

/-- What a baker asks to register is reviewed by a wallet in detail, as the delegation that it
is. -/
theorem walletReview_of_registers {keys : KeyProvider} {plan : SigningPlan} {state : BakingState}
    {message : Bytes} {prompt : Prompt} (hregisters : plan.Registers keys state message prompt)
    (hpayload : plan.payload = .digest (blake2b256 message)) (hlength : message.length ≤ 512) :
    ∃ publicKey group shown, keys.publicKey plan.key = .ok publicKey ∧
      prompt = .registerDelegate group ∧
      OperationGroup.ofBytes publicKey .baking message = .ok group ∧
      OperationGroup.ofBytes publicKey .all message = .ok group ∧
      Prompt.ofGroup? group = some shown ∧
      walletReview keys plan.key plan.reply message = .ok (shown, plan) := by
  obtain ⟨key, payload, form⟩ := plan
  cases hpayload
  cases hregisters with
  | @intro publicKey group hderived hdecoded hown =>
  have hsub (type : OperationType) (_ : AllowedOperations.baking type = true) :
      AllowedOperations.all type = true := rfl
  obtain ⟨hall, -⟩ := (OperationGroup.ofBytes_narrow_iff hsub).mp hdecoded
  obtain ⟨-, hkind⟩ := (OperationGroup.isSelfDelegation_iff group).mp hown
  have hshown : Prompt.ofGroup? group = some (.delegation group.operation.source
      (some group.signing) ⟨group.totalFee, group.totalStorageLimit⟩) := by
    unfold Prompt.ofGroup?
    rw [hkind]
  refine ⟨publicKey, group, _, hderived, rfl, hdecoded, hall, hshown, ?_⟩
  have hmessage : Prompt.ofMessage? publicKey message = Prompt.ofGroup? group := by
    rw [Prompt.ofMessage?, hall]
    rfl
  rw [hshown] at hmessage
  have hmark : message.head? = some 0x03 := OperationGroup.head?_of_ofBytes hall
  unfold walletReview
  dsimp only
  rw [if_pos hmark, if_pos hlength, hderived]
  dsimp only
  rw [hmessage]
  rfl

/-- An allow-list is an exact filter. With a list that is part of another one, a byte string is
decoded to a group just if it is with the other list, the list has the type of the last operation,
and also reveals if the group has any. In particular, whatever group a baker asks to register, a
wallet with the same keys decodes the message to that group, and asks to carry out the same plan
behind a detailed review of it. -/
theorem allow_list_filters (key : PublicKey) {narrow wide : AllowedOperations}
    (hsub : ∀ type, narrow type = true → wide type = true) (bytes : Bytes)
    (group : OperationGroup) :
    (OperationGroup.ofBytes key narrow bytes = .ok group ↔
      OperationGroup.ofBytes key wide bytes = .ok group ∧
      (∃ type, OperationType.ofTag? group.operation.tag = some type ∧ narrow type = true) ∧
      (group.hasReveal = true → narrow .reveal = true)) ∧
    (OperationGroup.ofBytes key .baking bytes = .ok group →
      OperationGroup.ofBytes key .all bytes = .ok group) ∧
    ∀ {σ τ : Type} [Store σ] (keys : KeyProvider) (signer : KeyId) (kind : SigningKind)
      (session : Session) (message : Bytes) (baker : Workspace σ) (wallet : Workspace τ),
      session.buffer.Collects message →
      Ends (completeBaking keys signer kind session) baker fun result _ =>
        ∀ prompt action, result = .ok (.confirm prompt action) →
          ∃ publicKey group shown, keys.publicKey signer = .ok publicKey ∧
            prompt = .registerDelegate group ∧
            OperationGroup.ofBytes publicKey .baking message = .ok group ∧
            OperationGroup.ofBytes publicKey .all message = .ok group ∧
            Prompt.ofGroup? group = some shown ∧
            Ends (reviewOperation keys signer kind session) wallet fun reviewed _ =>
              reviewed = .ok (.confirm shown action) := by
  refine ⟨OperationGroup.ofBytes_narrow_iff hsub,
    fun hbaking => ((OperationGroup.ofBytes_narrow_iff fun _ _ => rfl).mp hbaking).1,
    fun {σ τ} _ keys signer kind session message baker wallet hcollects => ?_⟩
  refine (completeBaking_registers hcollects).imp fun result _ hconfirms prompt action hresult => ?_
  subst hresult
  obtain ⟨_, rfl, -, rfl, hlength, hregisters⟩ := hconfirms
  obtain ⟨publicKey, group, shown, hderived, rfl, hdecoded, hall, hshown, hreview⟩ :=
    walletReview_of_registers hregisters rfl hlength
  refine ⟨publicKey, group, shown, hderived, rfl, hdecoded, hall, hshown, ?_⟩
  refine (reviewOperation_ends hcollects).imp fun reviewed _ hreviewed => ?_
  rw [hreviewed, hreview]
  rfl

/-- A reveal in front of the registration of the baking key. A list without reveals refuses it; a
baker asks to approve it, and a wallet shows it as a delegation. -/
theorem allow_list_filters_registration :
    let publicKey : PublicKey := .ed25519 (.fill 32 0x11)
    let keys : KeyProvider := ⟨fun _ => .ok publicKey, fun _ _ => .error .security⟩
    let signer : KeyId := ⟨.ed25519, .standard⟩
    -- The account of the public key: its curve and the hash of its bytes.
    let account : Bytes := [0x00, 0x7D, 0x1C, 0x05, 0x72, 0x8F, 0xA0, 0x17, 0x91, 0x9C, 0xBA, 0x7C,
      0xCF, 0x7F, 0xF0, 0x07, 0xEA, 0xCF, 0xEE, 0x7D, 0x55]
    let reveal : Bytes := 107 :: (account ++ [0x03, 0x01, 0x02, 0x04]
      ++ 0x00 :: List.replicate 32 0x11)
    let message : Bytes := 0x03 :: (List.replicate 32 0xBB ++ reveal
      ++ 110 :: (account ++ [0x01, 0x01, 0x01, 0x00, 0xFF] ++ account))
    let own : Contract := .ofKey publicKey
    let group : OperationGroup := ⟨own, 4, 4, true, ⟨110, own, .delegation (some own)⟩⟩
    let session : Session := ⟨some signer, .whole message, false⟩
    let plan : SigningPlan := ⟨signer, .digest (blake2b256 message), .signature⟩
    let baker : Workspace MemoryStore :=
      .ofStore (.ofState { BakingState.fresh with key := some signer })
    (∀ type, AllowedOperations.baking type = true → AllowedOperations.all type = true) ∧
    OperationGroup.ofBytes publicKey .baking message = .ok group ∧
    OperationGroup.ofBytes publicKey (.ofList [.delegation]) message ≠ .ok group ∧
    session.buffer.Collects message ∧
    ((completeBaking keys signer .standard session).outcome baker).1 =
      .ok (.confirm (.registerDelegate group) (.sign plan)) ∧
    ((reviewOperation keys signer .standard session).outcome baker).1 =
      .ok (.confirm (.delegation own (some own) ⟨4, 4⟩) (.sign plan)) := by
  intro publicKey keys signer account reveal message own group session plan baker
  have hall : OperationGroup.ofBytes publicKey .all message = .ok group := by decide +kernel
  have hcollects : session.buffer.Collects message :=
    MessageBuffer.collects_whole (by decide +kernel)
  have hsub (narrow : AllowedOperations) (type : OperationType) (_ : narrow type = true) :
      AllowedOperations.all type = true := rfl
  obtain ⟨hbakingIff, _, hreviewed⟩ := allow_list_filters publicKey (hsub .baking) message group
  obtain ⟨hnarrowIff, _⟩ :=
    allow_list_filters publicKey (hsub (.ofList [.delegation])) message group
  have hbaking : OperationGroup.ofBytes publicKey .baking message = .ok group :=
    hbakingIff.mpr ⟨hall, ⟨.delegation, rfl, rfl⟩, fun _ => rfl⟩
  have hconfirm : ((completeBaking keys signer .standard session).outcome baker).1 =
      .ok (.confirm (.registerDelegate group) (.sign plan)) := by decide +kernel
  refine ⟨hsub .baking, hbaking, fun hnarrow => ?_, hcollects, hconfirm, ?_⟩
  · obtain ⟨_, _, hreveals⟩ := hnarrowIff.mp hnarrow
    cases hreveals rfl
  · have hends := hreviewed keys signer .standard session message baker baker hcollects
    obtain ⟨_, decoded, shown, hderived, _, hdecoded, _, hshown, hwallet⟩ :=
      hends.outcome _ _ hconfirm
    cases hderived
    obtain rfl : group = decoded := Except.ok.inj (hbaking.symm.trans hdecoded)
    obtain rfl : _ = shown := Option.some.inj hshown
    exact hwallet.outcome

end TezosSigner
