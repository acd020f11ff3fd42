import TezosSigner.Proofs.Quiet

/-!
# Carrying out a plan

A plan asks the keys for one signature, on the bytes of its payload, or it is
answered without them: the digest alone can be told by itself.
-/

namespace TezosSigner

open Hash

/-- The bytes to be signed. -/
def SigningPayload.bytes : SigningPayload → Bytes
  | .digest value => value.val
  | .raw message => message

namespace SigningPlan

/-- Whether a plan needs a signature. A digest alone does not, and a message that is
signed as it is has no digest to be told. -/
def asks (plan : SigningPlan) : Bool :=
  match plan.payload, plan.reply with
  | .digest _, .hashOnly => false
  | .digest _, _ => true
  | .raw _, .signature => true
  | .raw _, _ => false

/-- The reply of a plan that needs no signature. -/
def unsigned (plan : SigningPlan) : Except Status Bytes :=
  match plan.payload with
  | .digest digest => .ok digest.val
  | .raw _ => .error .wrongValues

/-- The reply of a plan with its signature. -/
def signed (plan : SigningPlan) (signature : Signature) : Bytes :=
  match plan.payload, plan.reply with
  | .digest digest, .hashAndSignature => digest.val ++ signature.bytes
  | _, _ => signature.bytes

/-- What is logged ahead of a signature. -/
def logs (plan : SigningPlan) : List LogEvent :=
  match plan.payload with
  | .digest digest => [.signingDigest digest]
  | .raw _ => []

/-- A signature changes nothing that is stored. -/
theorem isNotice_of_mem_logs {plan : SigningPlan} :
    ∀ event ∈ plan.logs, event.isNotice = false := by
  intro event hevent
  unfold logs at hevent
  split at hevent
  · cases List.mem_singleton.mp hevent
    rfl
  · cases hevent

theorem asks_of_hashOnly {plan : SigningPlan} (hreply : plan.reply = .hashOnly) :
    plan.asks = false := by
  unfold asks
  rw [hreply]
  cases plan.payload <;> rfl

/-- A session that was never asked for the digest alone ends in a signature. -/
theorem asks_replyForm {session : Session} (hform : session.hashOnly = false) (key : KeyId)
    (digest : Digest) (kind : SigningKind) :
    SigningPlan.asks ⟨key, .digest digest, session.replyForm kind⟩ = true := by
  unfold Session.replyForm
  rw [hform]
  cases kind <;> rfl

end SigningPlan

namespace Command

variable {σ : Type}

/-- Carrying out a plan asks the keys for the signature that it needs, if any. -/
theorem execute_ends {keys : KeyProvider} {plan : SigningPlan} {before : Workspace σ}
    {post : Except Status Bytes → Workspace σ → Prop} :
    Ends (execute keys plan) before post ↔
      (plan.asks = false → post plan.unsigned before) ∧
      (plan.asks = true → post ((keys.sign plan.key plan.payload.bytes).map plan.signed)
        { before with journal :=
            before.journal ++ plan.logs.map .log ++ [.signing plan.key plan.payload.bytes] }) := by
  obtain ⟨key, payload, reply⟩ := plan
  have happend (first second : Event) :
      before.journal ++ [first] ++ [second] = before.journal ++ [first, second] := by
    rw [List.append_assoc]
    rfl
  cases payload with
  | digest digest =>
      cases reply <;> cases hsign : keys.sign key digest.val <;>
        simp [execute, signDigest, SigningPlan.asks, SigningPlan.unsigned, SigningPlan.signed,
          SigningPlan.logs, SigningPayload.bytes, hsign, happend, Except.map]
  | raw message =>
      cases reply <;> cases hsign : keys.sign key message <;>
        simp [execute, SigningPlan.asks, SigningPlan.unsigned, SigningPlan.signed,
          SigningPlan.logs, SigningPayload.bytes, hsign, Except.map]

end Command

end TezosSigner
