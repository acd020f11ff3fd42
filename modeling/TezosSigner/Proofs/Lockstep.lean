import TezosSigner.Proofs.Approval

/-!
# Runs in lockstep

Two signers on related stores are given the same keys, frames and answers. As long as
every frame is served alike and whatever waits is performed alike, they answer, note
and ask the same at every step, and their stores stay related. On stores that concur
every frame is served alike, and so is what waits if it keeps to the kind of records
that the stores concur on.
-/

namespace TezosSigner

open Command

/-- Once performed, an action turns records of a kind into records of that kind. -/
def PendingAction.Keeps (kept : BakingState → Prop) (action : PendingAction) : Prop :=
  ∀ change, action.change? = some change → ∀ state, kept state → kept (change state)

namespace Command

variable {σ τ : Type} [Store σ] [Store τ] {stores : σ → τ → Prop} {kept : BakingState → Prop}

theorem matches_commit (hconcur : Store.Concur stores kept) {change : BakingState → BakingState}
    (hchange : ∀ state, kept state → kept (change state)) (event : LogEvent) :
    Matches stores (do saveState (change (← loadState)) event : Command σ Unit)
      (do saveState (change (← loadState)) event : Command τ Unit) :=
  matches_loadState_bind hconcur fun state hstate =>
    matches_saveState hconcur (hchange state hstate) event

/-- What keeps to the kind of records is performed alike on stores that concur. -/
theorem matches_perform_of_keeps (hconcur : Store.Concur stores kept) (keys : KeyProvider)
    {action : PendingAction} (haction : action.Keeps kept) :
    Matches stores (perform keys action) (perform keys action) := by
  cases action with
  | sign plan => exact matches_execute keys plan
  | providePublicKey publicKey => exact matches_pure _
  | authorizeBaking key publicKey =>
      exact (matches_commit hconcur (haction _ rfl) _).bind fun _ => matches_pure _
  | setup setup publicKey =>
      exact (matches_commit hconcur (haction _ rfl) _).bind fun _ => matches_pure _
  | reset level => exact (matches_commit hconcur (haction _ rfl) _).bind fun _ => matches_pure _

end Command

/-- An answer to what is performed alike comes to the same in alike signers. -/
theorem Signer.answer_alike {σ τ : Type} [Store σ] [Store τ] {stores : σ → τ → Prop}
    {one : Signer σ} {other : Signer τ} (halike : Alike stores one other) (keys : KeyProvider)
    (approved : Bool) (hperform : ∀ action, one.pending = some action →
      Matches stores (perform keys action) (perform keys action)) :
    (other.answer keys approved).2 = (one.answer keys approved).2 ∧
      Alike stores (one.answer keys approved).1 (other.answer keys approved).1 := by
  cases hone : one.pending with
  | none =>
      have hother : other.pending = none := halike.pending.trans hone
      unfold answer
      rw [hone, hother]
      exact ⟨rfl, halike⟩
  | some action =>
      have hother : other.pending = some action := halike.pending.trans hone
      cases approved with
      | false =>
          rw [answer_rejected keys hone, answer_rejected keys hother]
          exact ⟨rfl, halike.config, congrArg Session.reset halike.session, rfl, halike.store⟩
      | true =>
          have hwork : Workspace.Alike stores [] [] one.workspace other.workspace :=
            ⟨halike.session, halike.store, [], rfl, rfl⟩
          obtain ⟨result, after, hanswer, hends⟩ := ((answer_approved keys hone).and
            (hperform action hone hwork)).exists
          obtain ⟨_, after', hanswer', rfl, hsession, hstore, since, hnotes, hnotes'⟩ :=
            ((answer_approved keys hother).and hends).exists
          rw [hanswer, hanswer', hnotes, hnotes']
          exact ⟨rfl, halike.config, congrArg Session.reset hsession, rfl, hstore⟩

namespace Scene

variable {σ τ : Type} [BreakableStore σ] [BreakableStore τ] {stores : σ → τ → Prop}

/-- A turn that is served and performed alike comes to the same in alike signers. -/
theorem play_matches {one : Scene σ} {other : Scene τ} {turn : Turn}
    (hmeet : Signer.Alike stores (one.meet turn) (other.meet turn))
    (hdispatch : ∀ raw, Matches stores (dispatch one.signer.config turn.keys raw)
      (dispatch one.signer.config turn.keys raw))
    (hperform : ∀ action, one.signer.pending = some action →
      Matches stores (perform turn.keys action) (perform turn.keys action)) :
    (other.play turn).outcome = (one.play turn).outcome ∧
      (other.play turn).journal = (one.play turn).journal ∧
      Signer.Alike stores (one.play turn).after (other.play turn).after := by
  cases hstimulus : turn.stimulus with
  | frame raw =>
      obtain ⟨notes, hwork⟩ := hmeet.cancelPending
      obtain ⟨houtcome, hafter, since, hnotes, hnotes'⟩ :=
        Signer.receive_alike hmeet.config (hdispatch raw) hwork
      obtain ⟨hone, hreply⟩ := one.play_frame hstimulus
      obtain ⟨hother, hreply'⟩ := other.play_frame hstimulus
      rw [hone, hother, hreply, hreply', houtcome, one.journal_play_frame hstimulus,
        other.journal_play_frame hstimulus, hnotes, hnotes']
      exact ⟨rfl, rfl, hafter⟩
  | answer approved =>
      obtain ⟨hanswer, hafter⟩ := Signer.answer_alike hmeet turn.keys approved hperform
      obtain ⟨hone, hreply, hjournal⟩ := one.play_answer hstimulus
      obtain ⟨hother, hreply', hjournal'⟩ := other.play_answer hstimulus
      rw [hone, hother, hreply, hreply', hjournal, hjournal', hanswer]
      exact ⟨rfl, rfl, hafter⟩

/-- Runs of one configuration that start from related stores, and in which frames are served
and what waits is performed alike. -/
structure Lockstep (stores : σ → τ → Prop) (config : Config) (store : σ) (other : τ) : Prop where
  start : stores store other
  broken : ∀ {first second} (broken : Bool), stores first second →
    stores (BreakableStore.setBroken broken first) (BreakableStore.setBroken broken second)
  dispatch : ∀ keys raw, Matches stores (dispatch config keys raw) (dispatch config keys raw)
  perform : ∀ earlier action,
    ((Scene.start config store).follow earlier).signer.pending = some action →
    ∀ keys, Matches stores (perform keys action) (perform keys action)

namespace Lockstep

variable {config : Config} {store : σ} {other : τ}

theorem meet (hlockstep : Lockstep stores config store other) {one : Scene σ} {scene : Scene τ}
    (halike : Signer.Alike stores one.signer scene.signer) (turn : Turn) :
    Signer.Alike stores (one.meet turn) (scene.meet turn) :=
  ⟨halike.config, halike.session, halike.pending, hlockstep.broken turn.broken halike.store⟩

theorem play (hlockstep : Lockstep stores config store other) (earlier : List Turn)
    {scene : Scene τ}
    (halike : Signer.Alike stores ((Scene.start config store).follow earlier).signer scene.signer)
    (turn : Turn) :
    let step := ((Scene.start config store).follow earlier).play turn
    (scene.play turn).outcome = step.outcome ∧ (scene.play turn).journal = step.journal ∧
      Signer.Alike stores step.after (scene.play turn).after := by
  refine play_matches (hlockstep.meet halike turn) (fun raw => ?_) fun action hpending =>
    hlockstep.perform earlier action hpending turn.keys
  rw [follow_config]
  exact hlockstep.dispatch turn.keys raw

/-- At any time of the two runs the signers differ in their stores only. -/
theorem follow (hlockstep : Lockstep stores config store other) (turns : List Turn) :
    Signer.Alike stores ((Scene.start config store).follow turns).signer
      ((Scene.start config other).follow turns).signer := by
  -- The last turn is taken off, so that what waits before it is what waits in a run.
  induction turns using List.reverseRecOn with
  | nil => exact ⟨rfl, rfl, rfl, hlockstep.start⟩
  | append_singleton turns turn ih =>
      rw [follow_append, follow_append]
      exact (hlockstep.play turns ih turn).2.2

end Lockstep

end Scene

end TezosSigner
