import TezosSigner.Key.Simulated
import TezosSigner.Proofs.Step

/-!
# What is shown determines what is signed

A prompt is about one subject only, and what waits behind a prompt of a wallet signs
that subject.
-/

namespace TezosSigner

open Hash

namespace Scene

variable {σ : Type} [BreakableStore σ] {scene : Scene σ}

/-- What waits in a wallet to be approved signs what has just been shown. -/
theorem Sound.shown (hsound : scene.Sound) (hwallet : scene.signer.config.mode = .wallet)
    {turn : Turn} {plan : SigningPlan}
    (hpending : (scene.play turn).after.pending = some (.sign plan)) :
    ∃ prompt subject, (scene.play turn).outcome = some (.prompt prompt) ∧
      Subject.ShownBy prompt subject ∧ subject.SignedBy plan turn.keys (scene.play turn).heard := by
  obtain ⟨_, prompt, _, _, _, hprompt, hreviewed⟩ := hsound.prompted hpending
  obtain ⟨subject, hshown, hsigned⟩ := (hreviewed plan rfl).shown hwallet
  exact ⟨prompt, subject, hprompt, hshown, hsigned⟩

end Scene

/-- Groups with the same detailed prompt have the same effect, and prompts are the same only
if they are of one sort and about one effect, one digest or one message. In every run of a
wallet, a plan that waits to be approved signs just what the prompt before it shows. -/
theorem shown_determines_signed :
    (∀ (first second : OperationGroup) (prompt : Prompt),
      Prompt.ofGroup? first = some prompt → Prompt.ofGroup? second = some prompt →
        first.effect = second.effect) ∧
    (∀ (prompt : Prompt) (first second : Subject),
      first.ShownBy prompt → second.ShownBy prompt → first = second) ∧
    ∀ {σ : Type} [BreakableStore σ] (config : Config) (store : σ) (earlier : List Turn)
      (turn : Turn) (plan : SigningPlan),
      let step := ((Scene.start config store).follow earlier).play turn
      config.mode = .wallet → step.after.pending = some (.sign plan) →
        ∃ prompt subject, step.outcome = some (.prompt prompt) ∧
          Subject.ShownBy prompt subject ∧ subject.SignedBy plan turn.keys step.heard := by
  refine ⟨?_, ?_, ?_⟩
  · intro first second prompt hfirst hsecond
    have hsubjects := Subject.ShownBy.unique (.detailed hfirst) (.detailed hsecond)
    exact Subject.operation.inj hsubjects
  · intro prompt first second hfirst hsecond
    exact hfirst.unique hsecond
  · intro σ _ config store earlier turn plan step hwallet hpending
    have hmode : ((Scene.start config store).follow earlier).signer.config.mode = .wallet := by
      rw [Scene.follow_config, hwallet]
    exact ((Scene.sound_start config store).follow earlier).shown hmode hpending

/-- A transfer and a call that has a manager contract make the same transfer look alike, and
have the same effect. A raw message of one byte is signed as it is shown. -/
theorem shown_determines_signed_examples :
    let account : Contract := .originated (.fill 20 0)
    let owner : Contract := .implicit .ed25519 (.fill 20 1)
    let group (source : Contract) (kind : OperationKind) : OperationGroup :=
      ⟨owner, 1420, 277, false, ⟨108, source, kind⟩⟩
    let direct := group account (.transaction 42 owner none)
    let managed := group owner (.transaction 0 account (some (.transfer owner 42)))
    let frame (bytes : Bytes) : Turn := ⟨Simulated.provider, false, .frame bytes⟩
    let start : Scene MemoryStore := .start (.ofMode .wallet) (.ofState .fresh)
    let step := (start.follow [frame [0x80, 0x05, 0x00, 0x00, 5, 1, 0x80, 0, 0, 0]]).play
      (frame [0x80, 0x05, 0x81, 0x00, 1, 0x2A])
    (Prompt.ofGroup? direct).isSome = true ∧ Prompt.ofGroup? managed = Prompt.ofGroup? direct ∧
      direct.effect = managed.effect ∧
    step.outcome = some (.prompt (.prehashed [0x2A])) ∧
      ∃ plan, step.after.pending = some (.sign plan) ∧ plan.payload = .raw [0x2A] := by
  intro account owner group direct managed frame start step
  obtain ⟨hgroups, hsubjects, hwallet⟩ := shown_determines_signed
  refine ⟨rfl, rfl, hgroups direct managed _ rfl rfl, rfl, _, rfl, ?_⟩
  obtain ⟨prompt, subject, hprompt, hshown, hsigned⟩ := hwallet (.ofMode .wallet)
    (MemoryStore.ofState .fresh) [frame [0x80, 0x05, 0x00, 0x00, 5, 1, 0x80, 0, 0, 0]]
    (frame [0x80, 0x05, 0x81, 0x00, 1, 0x2A]) _ rfl rfl
  cases hprompt
  cases hsubjects _ _ _ hshown (.prehashed rfl)
  exact hsigned.1

end TezosSigner
