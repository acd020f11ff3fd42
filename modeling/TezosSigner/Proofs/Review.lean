import TezosSigner.Proofs.Buffer
import TezosSigner.Proofs.Quiet
import TezosSigner.Proofs.Subject

/-!
# What is asked to be approved

A complete message leads to a prompt with a plan behind it, or to a failure. The
plan signs just that message, and in a wallet the prompt shows what it signs. For an
operation in a wallet the whole verdict is told by the message, the key and the form
of the reply; how the message was transmitted plays no part.
-/

namespace TezosSigner

open Hash

/-- If approval is asked for, prompt and action have a property. -/
def Confirms (property : Prompt → PendingAction → Prop) : Except Status Reaction → Prop
  | .ok (.confirm prompt action) => property prompt action
  | .ok (.reply _) => True
  | .error _ => True

theorem Confirms.imp {property other : Prompt → PendingAction → Prop}
    {result : Except Status Reaction} (hconfirms : Confirms property result)
    (himp : ∀ prompt action, property prompt action → other prompt action) :
    Confirms other result := by
  cases result with
  | error status => trivial
  | ok reaction =>
      cases reaction with
      | reply payload => trivial
      | confirm prompt action => exact himp prompt action hconfirms

/-- A plan signs a message: the digest of an operation, or for a wallet the message as it
is. -/
def SigningPlan.Covers (plan : SigningPlan) (mode : Mode) (message : Bytes) : Prop :=
  plan.payload = .digest (blake2b256 message) ∧ message.head? = some OperationGroup.mark ∨
    mode = .wallet ∧ plan.payload = .raw message

/-- A prompt asks for what a plan does: the plan signs a message, and in a wallet the prompt
shows just what is signed. -/
structure SigningPlan.Reviewed (plan : SigningPlan) (prompt : Prompt) (keys : KeyProvider)
    (mode : Mode) (message : Bytes) : Prop where
  covers : plan.Covers mode message
  shown : mode = .wallet →
    ∃ subject : Subject, subject.ShownBy prompt ∧ subject.SignedBy plan keys message

/-- A prompt asks to sign a message with a key. -/
def AsksToSign (keys : KeyProvider) (key : KeyId) (mode : Mode) (message : Bytes)
    (prompt : Prompt) (action : PendingAction) : Prop :=
  ∃ plan, action = .sign plan ∧ plan.key = key ∧ plan.Reviewed prompt keys mode message

/-- A plan signs the registration of the baking key as its own delegate: the message says just
that in operations that a baker may sign, and the prompt is about it. -/
inductive SigningPlan.Registers (plan : SigningPlan) (keys : KeyProvider) (state : BakingState)
    (message : Bytes) : Prompt → Prop where
  | intro {publicKey : PublicKey} {group : OperationGroup}
      (derived : keys.publicKey plan.key = .ok publicKey)
      (decoded : OperationGroup.ofBytes publicKey .baking message = .ok group)
      (own : group.isSelfDelegation = true) (authorized : state.authorizes plan.key = true) :
      plan.Registers keys state message (.registerDelegate group)

/-- The detailed prompt of a message, if it can be decoded and has one. -/
def Prompt.ofMessage? (publicKey : PublicKey) (message : Bytes) : Option Prompt :=
  (OperationGroup.ofBytes publicKey .all message).toOption.bind ofGroup?

/-- What a wallet makes of an operation: the prompt and the plan behind it. A message that
is short enough is shown in detail if it can be, any other by its digest. -/
def walletReview (keys : KeyProvider) (key : KeyId) (form : ReplyForm) (message : Bytes) :
    Except Status (Prompt × SigningPlan) :=
  let digest := blake2b256 message
  let plan : SigningPlan := ⟨key, .digest digest, form⟩
  if message.head? = some 0x03 then
    if message.length ≤ 512 then
      match keys.publicKey key with
      | .ok publicKey =>
          .ok ((Prompt.ofMessage? publicKey message).getD (.unrecognized digest.val), plan)
      | .error status => .error status
    else .ok (.unrecognized digest.val, plan)
  else .error .parseError

/-- A verdict as a command ends with it. -/
def Reaction.ofReview (review : Prompt × SigningPlan) : Reaction :=
  .confirm review.1 (.sign review.2)

theorem Prompt.group_of_ofMessage? {publicKey : PublicKey} {message : Bytes} {prompt : Prompt}
    (hprompt : ofMessage? publicKey message = some prompt) :
    ∃ group, OperationGroup.ofBytes publicKey .all message = .ok group ∧
      ofGroup? group = some prompt := by
  unfold ofMessage? at hprompt
  cases hgroup : OperationGroup.ofBytes publicKey .all message with
  | error cause =>
      rw [hgroup] at hprompt
      cases hprompt
  | ok group =>
      rw [hgroup] at hprompt
      exact ⟨group, rfl, hprompt⟩

theorem walletReview_asks (keys : KeyProvider) (key : KeyId) (form : ReplyForm)
    (message : Bytes) :
    Confirms (AsksToSign keys key .wallet message)
      ((walletReview keys key form message).map Reaction.ofReview) := by
  unfold walletReview
  dsimp only
  split
  next hmark =>
    have hcovers : SigningPlan.Covers ⟨key, .digest (blake2b256 message), form⟩ .wallet message :=
      Or.inl ⟨rfl, hmark⟩
    split
    · split
      next publicKey hkey =>
        refine ⟨_, rfl, rfl, hcovers, fun _ => ?_⟩
        dsimp only
        cases hprompt : Prompt.ofMessage? publicKey message with
        | none => exact ⟨.digest _, .blind rfl, rfl, rfl⟩
        | some prompt =>
            obtain ⟨group, hgroup, hshown⟩ := Prompt.group_of_ofMessage? hprompt
            exact ⟨.operation group.effect, .detailed hshown, rfl, publicKey, group, hkey, hgroup,
              rfl⟩
      next => trivial
    · exact ⟨_, rfl, rfl, hcovers, fun _ => ⟨.digest _, .blind rfl, rfl, rfl⟩⟩
  next => trivial

namespace Command

variable {σ : Type} {before : Workspace σ} {keys : KeyProvider} {key : KeyId}
  {kind : SigningKind} {session : Session} {message : Bytes}

theorem reviewUnhashed_asks (hbuffer : session.buffer.Collects message) :
    Ends (reviewUnhashed key session) before fun result _ =>
      Confirms (AsksToSign keys key .wallet message) result := by
  unfold reviewUnhashed
  rw [hbuffer.message?_eq]
  by_cases hlength : message.length ≤ MessageBuffer.capacity
  · simp only [hlength, if_true, ends_bind, ends_require, ends_pure]
    refine ⟨fun _ => ⟨_, rfl, rfl, Or.inr ⟨rfl, rfl⟩, fun _ => ?_⟩, fun _ => trivial⟩
    exact ⟨.raw message, .prehashed rfl, rfl, rfl⟩
  · simp only [hlength, if_false]
    trivial

/-- A message is decoded in full or not at all. -/
theorem decodeGroup_ends (publicKey : PublicKey) (allowed : AllowedOperations) :
    Ends (decodeGroup publicKey allowed message) before fun result _ =>
      result = .ok (OperationGroup.ofBytes publicKey allowed message).toOption := by
  unfold decodeGroup
  cases OperationGroup.ofBytes publicKey allowed message with
  | ok group => rfl
  | error cause =>
      simp only [ends_ite, ends_bind, ends_log, ends_pure]
      exact ⟨fun _ => rfl, fun _ => rfl⟩

theorem detailedPrompt_ends (hbuffer : session.buffer.Collects message) :
    Ends (detailedPrompt keys key session) before fun result _ =>
      result = if message.length ≤ 512 then
        (keys.publicKey key).map (Prompt.ofMessage? · message) else .ok none := by
  unfold detailedPrompt
  by_cases hlength : message.length ≤ 512
  · have hmessage : session.buffer.message? = some message :=
      hbuffer.message?_eq.trans (if_pos hlength)
    rw [hmessage, if_pos hlength]
    simp only [ends_bind, ends_ofExcept]
    cases keys.publicKey key with
    | error status => rfl
    | ok publicKey =>
        apply (decodeGroup_ends publicKey .all).imp
        intro result _ hresult
        subst hresult
        rfl
  -- What is too long to be kept whole is not decoded at all.
  · have hmessage : session.buffer.message? = none := hbuffer.message?_eq.trans (if_neg hlength)
    rw [hmessage, if_neg hlength]
    rfl

/-- The review of an operation is told by the message, whatever the buffer has dropped. -/
theorem reviewOperation_ends (hbuffer : session.buffer.Collects message) :
    Ends (reviewOperation keys key kind session) before fun result _ =>
      result = (walletReview keys key (session.replyForm kind) message).map Reaction.ofReview := by
  unfold reviewOperation walletReview
  simp only [ends_bind, ends_require, hbuffer.first, hbuffer.digest_eq]
  refine ⟨fun hfirst => ?_, fun hfirst => ?_⟩
  · have hmark : message.head? = some 0x03 := beq_iff_eq.mp hfirst
    rw [if_pos hmark]
    apply (detailedPrompt_ends hbuffer).imp
    intro result middle hresult
    subst hresult
    by_cases hlength : message.length ≤ 512
    · rw [if_pos hlength, if_pos hlength]
      cases keys.publicKey key with
      | error status => rfl
      | ok publicKey =>
          dsimp only [Except.map]
          cases Prompt.ofMessage? publicKey message with
          | none => rfl
          | some prompt => rfl
    · rw [if_neg hlength, if_neg hlength]
      rfl
  · have hmark : message.head? ≠ some 0x03 := by
      intro hmark
      rw [hmark] at hfirst
      cases hfirst
    rw [if_neg hmark]
    rfl

variable [Store σ]

/-- A baker is asked for nothing but the registration of its baking key. -/
theorem reviewSelfDelegation_confirms {plan : SigningPlan} :
    Ends (reviewSelfDelegation keys plan message) before fun result _ =>
      Confirms (fun prompt action => action = .sign plan ∧
        plan.Registers keys (Store.load before.store).checked message prompt) result := by
  unfold reviewSelfDelegation
  simp only [ends_bind, ends_ofExcept]
  cases hkey : keys.publicKey plan.key with
  | error status => trivial
  | ok publicKey =>
      apply ((quiet_decodeGroup publicKey _ message before).and (decodeGroup_ends publicKey _)).imp
      rintro _ middle ⟨hlogged, rfl⟩
      simp only [ends_loadState, hlogged.store_eq]
      split
      next group hfilter =>
        obtain ⟨hgroup, hown⟩ := Option.filter_eq_some_iff.mp hfilter
        rw [Bool.and_eq_true] at hown
        cases hdecoded : OperationGroup.ofBytes publicKey .baking message with
        | error cause =>
            rw [hdecoded] at hgroup
            cases hgroup
        | ok decoded =>
            rw [hdecoded] at hgroup
            cases hgroup
            exact ⟨rfl, .intro hkey hdecoded hown.2 hown.1⟩
      next => trivial

end Command

end TezosSigner
