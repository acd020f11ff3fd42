import TezosSigner.Proofs.Proposal

/-!
# What a command offers

Every way to a signature that has to be approved leads through a prompt about an
operation, in a session that has collected anything at all. A command about a key
offers it under the curve and the path that it was read from.
-/

namespace TezosSigner

theorem Prompt.kind_of_ofGroup? {group : OperationGroup} {prompt : Prompt}
    (hprompt : ofGroup? group = some prompt) : prompt.kind = .operation := by
  rw [eq_of_ofGroup? hprompt]
  cases group.effect <;> rfl

namespace Command

variable {σ : Type} {offer : Prompt → PendingAction → Prop}

/-- What follows the derivation of a public key offers what it offers for a key that was read. -/
theorem offers_derive_bind {keys : KeyProvider} {p1 p2 : UInt8} {data : Bytes}
    {next : KeyId × PublicKey → Command σ Reaction}
    (hnext : ∀ key publicKey rest, p1 = 0 → KeyId.read p2 data = .ok (key, rest) →
      keys.publicKey key = .ok publicKey → Offers offer (next (key, publicKey))) :
    Offers offer (derive keys p1 p2 data >>= next) := by
  have hderive (before : Workspace σ) :
      Ends (derive keys p1 p2 data) before fun result _ => ∀ named, result = .ok named →
        p1 = 0 ∧ (∃ rest, KeyId.read p2 data = .ok (named.1, rest)) ∧
          keys.publicKey named.1 = .ok named.2 :=
    derive_ends.imp fun _ _ hends named hresult => hends.2 named.1 named.2 hresult
  refine .bind_of hderive ?_
  rintro ⟨key, publicKey⟩ ⟨hparameter, ⟨rest, hread⟩, hderived⟩
  exact hnext key publicKey rest hparameter hread hderived

variable (hsign : ∀ prompt plan, prompt.kind = .operation → offer prompt (.sign plan))
  (keys : KeyProvider)

/-- A detailed prompt is one about an operation. -/
theorem detailedPrompt_kind (key : KeyId) (session : Session) (before : Workspace σ) :
    Ends (detailedPrompt keys key session) before fun result _ =>
      ∀ found, result = .ok found → ∀ prompt, found = some prompt → prompt.kind = .operation := by
  unfold detailedPrompt
  split
  next message _ =>
    rw [ends_bind, ends_ofExcept]
    cases keys.publicKey key with
    | error status => exact nofun
    | ok publicKey =>
        dsimp only
        rw [ends_bind]
        apply (quiet_decodeGroup publicKey .all message before).imp
        intro result middle _
        cases result with
        | error status => exact nofun
        | ok group =>
            intro found hfound prompt hprompt
            cases hfound
            obtain ⟨group, _, hshown⟩ := Option.bind_eq_some_iff.mp hprompt
            exact Prompt.kind_of_ofGroup? hshown
  next =>
    intro found hfound prompt hprompt
    cases hfound
    cases hprompt

include hsign

theorem offers_reviewSelfDelegation [Store σ] (plan : SigningPlan) (message : Bytes) :
    Offers offer (reviewSelfDelegation keys plan message : Command σ Reaction) := by
  refine .bind fun _ => .bind fun _ => .bind fun _ => ?_
  dsimp only
  split
  next => exact offers_confirm (hsign _ plan rfl)
  next => exact .bind fun _ => offers_throw _

theorem offers_reviewUnhashed (key : KeyId) (session : Session) :
    Offers offer (reviewUnhashed key session : Command σ Reaction) := by
  unfold reviewUnhashed
  split
  next => exact offers_throw _
  next => exact .bind fun _ => offers_confirm (hsign _ _ rfl)

theorem offers_reviewOperation (key : KeyId) (signing : SigningKind) (session : Session) :
    Offers offer (reviewOperation keys key signing session : Command σ Reaction) := by
  refine .bind fun _ => .bind_of (detailedPrompt_kind keys key session) fun found hkind => ?_
  cases found with
  | some prompt => exact offers_confirm (hsign _ _ (hkind prompt rfl))
  | none => exact .bind fun _ => offers_confirm (hsign _ _ rfl)

/-- A message that is complete leads to a signature at most. -/
theorem offers_complete [Store σ] (mode : Mode) (key : KeyId) (signing : SigningKind)
    (session : Session) :
    Offers offer (complete mode keys key signing session : Command σ Reaction) := by
  cases mode with
  | wallet =>
      exact (offers_reviewUnhashed hsign key session).ite
        (offers_reviewOperation hsign keys key signing session)
  | baking =>
      unfold complete completeBaking
      dsimp only
      split
      next => exact offers_throw _
      next message _ =>
        split
        next => exact .bind fun _ => .bind fun _ => offers_reply _
        next =>
          exact (offers_reviewSelfDelegation hsign keys _ message).ite (offers_throw _)

theorem offers_takeChunk [Store σ] (mode : Mode) (request : SigningRequest) :
    Offers offer (takeChunk mode keys request : Command σ Reaction) := by
  refine .bind fun _ => .ite (.bind fun _ => offers_reply _) ?_
  refine .bind fun _ => .bind fun session => ?_
  cases session.key with
  | none => exact offers_throw _
  | some key =>
      refine .bind fun _ => .ite ?_ (offers_reply _)
      exact .bind fun session => .bind fun _ => offers_complete hsign keys mode key _ session

end Command

end TezosSigner
