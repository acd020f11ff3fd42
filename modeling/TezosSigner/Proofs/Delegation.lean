import TezosSigner.Key.Simulated
import TezosSigner.Proofs.Epoch
import TezosSigner.Proofs.Proposal

/-!
# What a baker signs with approval

Besides consensus messages and keyed hashes, a baker signs one thing: that the
baking key becomes its own delegate. The right to do so is looked up when the
prompt is made. Until it is approved nothing else can happen, so the key is still
the baking key when it signs.
-/

namespace TezosSigner

open Hash

namespace Transition

variable {σ : Type}

/-- The user has approved the registration of the baking key as its own delegate. The step
before completed the message for that key and showed what it says, and the key is the
baking key still. -/
structure Registration [Store σ] (step : Transition σ) (run : List (Transition σ)) (key : KeyId)
    (message : Bytes) where
  asked : Transition σ
  request : SigningRequest
  publicKey : PublicKey
  group : OperationGroup
  previous : run.getLast? = some asked
  chunk : asked.request? = some request
  last : request.isLast = true
  opened : asked.before.session.key = some key
  derived : asked.turn.keys.publicKey key = .ok publicKey
  decoded : OperationGroup.ofBytes publicKey (.ofList [.reveal, .delegation]) asked.heard =
    .ok group
  source : group.operation.source = group.signing
  kind : group.operation.kind = .delegation (some group.signing)
  shown : asked.outcome = some (.prompt (.registerDelegate group))
  approved : step.turn.stimulus = .answer true
  message_eq : message = (blake2b256 asked.heard).val
  baker : step.record.key = some key
  named : key.path.isEmpty = false

end Transition

theorem OperationGroup.isSelfDelegation_iff (group : OperationGroup) :
    group.isSelfDelegation = true ↔ group.operation.source = group.signing ∧
      group.operation.kind = .delegation (some group.signing) := by
  rw [isSelfDelegation, Bool.and_eq_true, beq_iff_eq, beq_iff_eq]

theorem BakingState.authorizes_iff (state : BakingState) (key : KeyId) :
    state.authorizes key = true ↔ key.path.isEmpty = false ∧ state.key = some key := by
  rw [authorizes, Bool.and_eq_true, Bool.not_eq_true', beq_iff_eq]

namespace Scene

variable {σ : Type} [BreakableStore σ] [SteadyStore σ]

/-- A plan that waits in a baker registers the key that is the baking key now. -/
theorem registration_of_pending {config : Config} {store : σ} {earlier : List Turn} {turn : Turn}
    {plan : SigningPlan} (hbaking : config.mode = .baking)
    (hpending : ((start config store).follow earlier).signer.pending = some (.sign plan))
    (happroved : turn.stimulus = .answer true) :
    Nonempty ((((start config store).follow earlier).play turn).Registration
      ((start config store).trace earlier) plan.key plan.payload.bytes) := by
  obtain ⟨asked, raw, prompt, hprevious, hasks, hscene, hconfig⟩ := asked_of_pending hpending
  -- Only the asking step lies between the look-up and the approval, and it stored nothing.
  have hrecord : (((start config store).follow earlier).play turn).record = asked.record := by
    rw [record_play, ← hscene]
    exact congrArg (fun store => (Store.load store).checked) hasks.unstored
  cases hasks.proposal with
  | operation hwallet =>
      rw [hconfig, hbaking] at hwallet
      cases hwallet
  | @registration _ _ request _ hchunk hlast hopened hpayload hregisters =>
      obtain ⟨hderived, hdecoded, hown, hauthorized⟩ := hregisters
      obtain ⟨hsource, hkind⟩ := (OperationGroup.isSelfDelegation_iff _).mp hown
      obtain ⟨hnamed, hbaker⟩ := (BakingState.authorizes_iff _ _).mp hauthorized
      refine ⟨⟨asked, request, _, _, hprevious, ?_, hlast, hopened, hderived, hdecoded, hsource,
        hkind, hasks.shown, ?_, ?_, ?_, hnamed⟩⟩
      · rw [Transition.request?_eq hasks.framed]
        exact hchunk
      · rw [play_turn]
        exact happroved
      · rw [hpayload]
        rfl
      · rw [hrecord]
        exact hbaker

end Scene

/-- In every run of a baker, a signature that the user has approved is over the digest of a
message which the frames before have transmitted for the baking key, and which does nothing
but make that key its own delegate; the prompt was about just that. Without approval only
consensus messages and keyed hashes are signed. -/
theorem signings_of_baker {σ : Type} [BreakableStore σ] [SteadyStore σ] (config : Config)
    (store : σ) (earlier : List Turn) (turn : Turn) (hbaking : config.mode = .baking) :
    let run := (Scene.start config store).trace earlier
    let step := ((Scene.start config store).follow earlier).play turn
    ∀ key message, (key, message) ∈ step.signings →
      (turn.stimulus = .answer true ∧ Nonempty (step.Registration run key message)) ∨
      (∃ raw, turn.stimulus = .frame raw) ∧
        (Nonempty (step.Guarded key message) ∨ Nonempty (step.KeyedHash key message)) := by
  intro run step key message hasked
  have hsound := (Scene.sound_start config store).follow earlier
  have hturn : step.turn = turn := Scene.play_turn _ turn
  have hoccasion : step.Occasion key message := by
    rcases (hsound.play turn).2.2.signings with hnone | ⟨_, _, hone, hoccasion⟩
    · rw [show step.signings = [] from hnone] at hasked
      cases hasked
    · rw [show step.signings = _ from hone] at hasked
      cases List.mem_singleton.mp hasked
      exact hoccasion
  rcases hoccasion with ⟨plan, happroved, hpending, _, rfl, rfl⟩ | ⟨⟨hguard⟩⟩ | ⟨⟨hhash⟩⟩
  · rw [hturn] at happroved
    rw [show step.before = _ from Scene.play_before _ turn] at hpending
    exact Or.inl ⟨happroved, Scene.registration_of_pending hbaking hpending happroved⟩
  · refine Or.inr ⟨?_, Or.inl ⟨hguard⟩⟩
    rw [← hturn]
    exact Transition.frame_of_request? hguard.chunk
  · refine Or.inr ⟨?_, Or.inr ⟨hhash⟩⟩
    rw [← hturn]
    exact Transition.frame_of_command? hhash.command

/-- A baker has sent the registration of its key behind an empty chunk, and approves. -/
theorem signings_of_baker_registration :
    let publicKey : PublicKey := .ed25519 (.fill 32 0x11)
    let turn (stimulus : Stimulus) : Turn :=
      ⟨⟨fun _ => .ok publicKey, Simulated.sign⟩, false, stimulus⟩
    let key : KeyId := ⟨.ed25519, ⟨[0x80000000], by decide⟩⟩
    -- The account of the public key: its curve and the hash of its bytes.
    let account : Bytes := [0x00, 0x7D, 0x1C, 0x05, 0x72, 0x8F, 0xA0, 0x17, 0x91, 0x9C, 0xBA, 0x7C,
      0xCF, 0x7F, 0xF0, 0x07, 0xEA, 0xCF, 0xEE, 0x7D, 0x55]
    let message : Bytes :=
      0x03 :: (List.replicate 32 0xBB ++ 0x6E :: (account ++ [1, 1, 1, 0, 0xFF] ++ account))
    let store : MemoryStore := .ofState { BakingState.fresh with key := some key }
    let earlier : List Turn := [turn (.frame [0x80, 0x04, 0x00, 0x00, 5, 1, 0x80, 0, 0, 0]),
      turn (.frame [0x80, 0x04, 0x01, 0x00, 0]),
      turn (.frame ([0x80, 0x0F, 0x81, 0x00, 81] ++ message))]
    let run := (Scene.start .standard store).trace earlier
    let step := ((Scene.start .standard store).follow earlier).play (turn (.answer true))
    Config.standard.mode = .baking ∧ (key, (blake2b256 message).val) ∈ step.signings ∧
      Nonempty (step.Registration run key (blake2b256 message).val) := by
  intro publicKey turn key account message store earlier run step
  have hasked : (key, (blake2b256 message).val) ∈ step.signings := by decide +kernel
  refine ⟨rfl, hasked, ?_⟩
  rcases signings_of_baker .standard store earlier (turn (.answer true)) rfl key _ hasked with
    ⟨_, hregistration⟩ | ⟨⟨raw, hframe⟩, _⟩
  · exact hregistration
  · cases hframe

end TezosSigner
