import TezosSigner.Proofs.Lockstep

/-!
# A wallet and its store

A wallet does not look at its store. What waits in it is a signature or a public key to
be handed out, so an approval does not look at it either. Wallets that are given the
same keys, frames and answers behave the same whatever their stores hold, and whatever
kinds of store they are.
-/

namespace TezosSigner

open Command

/-- Whatever a wallet proposes, the stored record is no part of it. -/
theorem Proposal.change?_of_wallet {keys : KeyProvider} {raw heard : Bytes} {session : Session}
    {state : BakingState} {prompt : Prompt} {action : PendingAction}
    (hproposal : Proposal keys .wallet raw session state heard prompt action) :
    action.change? = none := by
  cases hproposal with
  | publicKey => rfl
  | operation => rfl
  | registration => rfl
  | authorization hbaking => cases hbaking
  | setup _ hbaking => cases hbaking
  | reset hbaking => cases hbaking

namespace Command

variable {σ τ : Type} [Store σ] [Store τ] {stores : σ → τ → Prop}

/-- Whatever bytes reach a wallet, they are served without the store. -/
theorem matches_dispatch_wallet {config : Config} (hwallet : config.mode = .wallet)
    (keys : KeyProvider) (raw : Bytes) :
    Matches stores (dispatch config keys raw) (dispatch config keys raw) := by
  refine (matches_ofExcept _).bind fun frame => matches_ofExcept_bind fun instruction hcode =>
    (matches_log _).bind fun _ => (matches_abandonSession instruction).bind fun _ => ?_
  rw [hwallet] at hcode
  rcases Instruction.known_of_wallet hcode with rfl | rfl | ⟨display, rfl⟩ | ⟨kind, rfl⟩
  · exact matches_pure _
  · exact matches_pure _
  · exact matches_providePublicKey keys display _ _ _
  · refine matches_takeChunk keys _ fun key session => ?_
    rw [hwallet]
    exact matches_complete_wallet keys key kind session

/-- What changes no record is performed without the store. -/
theorem matches_perform (keys : KeyProvider) {action : PendingAction}
    (haction : action.change? = none) :
    Matches stores (perform keys action) (perform keys action) := by
  cases action with
  | sign plan => exact matches_execute keys plan
  | providePublicKey publicKey => exact matches_pure _
  | authorizeBaking => cases haction
  | setup => cases haction
  | reset => cases haction

end Command

namespace Scene

variable {σ τ : Type} [BreakableStore σ] [BreakableStore τ]

/-- What waits at some time of a wallet's run changes no record. -/
theorem change?_of_wallet {config : Config} {store : σ} {earlier : List Turn}
    {action : PendingAction} (hwallet : config.mode = .wallet)
    (hpending : ((start config store).follow earlier).signer.pending = some action) :
    action.change? = none := by
  obtain ⟨asked, raw, prompt, _, hasks, _, hconfig⟩ := asked_of_pending hpending
  have hproposal := hasks.proposal
  rw [hconfig, hwallet] at hproposal
  exact hproposal.change?_of_wallet

/-- A turn of a wallet comes to the same whatever its store is. -/
theorem play_alike {one : Scene σ} {other : Scene τ} {stores : σ → τ → Prop}
    (hstores : ∀ first second, stores first second)
    (halike : Signer.Alike stores one.signer other.signer)
    (hwallet : one.signer.config.mode = .wallet)
    (hpending : ∀ action, one.signer.pending = some action → action.change? = none)
    (turn : Turn) :
    (other.play turn).outcome = (one.play turn).outcome ∧
      Signer.Alike stores (one.play turn).after (other.play turn).after := by
  have hmeet : Signer.Alike stores (one.meet turn) (other.meet turn) :=
    ⟨halike.config, halike.session, halike.pending, hstores _ _⟩
  obtain ⟨houtcome, _, hafter⟩ := play_matches hmeet
    (fun raw => matches_dispatch_wallet hwallet turn.keys raw)
    (fun action hwaits => matches_perform turn.keys (hpending action hwaits))
  exact ⟨houtcome, hafter⟩

/-- Wallets run in lockstep whatever their stores are. -/
theorem lockstep_of_wallet {config : Config} (hwallet : config.mode = .wallet)
    {stores : σ → τ → Prop} (hstores : ∀ first second, stores first second) (store : σ)
    (other : τ) : Lockstep stores config store other where
  start := hstores _ _
  broken _ _ := hstores _ _
  dispatch keys raw := matches_dispatch_wallet hwallet keys raw
  perform _ _ hpending keys := matches_perform keys (change?_of_wallet hwallet hpending)

/-- At any time of a run, wallets on different stores differ in their stores only. -/
theorem follow_alike {config : Config} (hwallet : config.mode = .wallet) {stores : σ → τ → Prop}
    (hstores : ∀ first second, stores first second) (store : σ) (other : τ) (turns : List Turn) :
    Signer.Alike stores ((start config store).follow turns).signer
      ((start config other).follow turns).signer :=
  (lockstep_of_wallet hwallet hstores store other).follow turns

end Scene

end TezosSigner
