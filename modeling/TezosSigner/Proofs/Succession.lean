import TezosSigner.Proofs.Announcement

/-!
# What a run stores

A signer makes each record out of the one that it found. The layout is always its own, and
the key is the one that was there or one that has just been read from a frame, with a path.
So a store has to give back no other records for a run to find what it has stored.
-/

namespace TezosSigner

open Command

namespace BakingState.Succeeds

variable {state previous : BakingState}

/-- A record that is fresh in place of another layout has no key. -/
theorem of_checked (hstate : state.Succeeds previous.checked) : state.Succeeds previous := by
  refine ⟨hstate.current, fun key hkey => (hstate.path key hkey).imp_right fun hfound => ?_⟩
  unfold checked at hfound
  split at hfound
  · exact hfound
  · cases hfound

theorem checked (state : BakingState) : state.checked.Succeeds state :=
  of_checked ⟨state.isCurrent_checked, fun _ => Or.inr⟩

theorem setMark (hstate : state.Succeeds previous) (chain : Chain) (mark : Watermark) :
    (state.setMark chain mark).Succeeds previous := by
  refine ⟨(state.isCurrent_setMark chain mark).trans hstate.current, ?_⟩
  cases chain <;> exact hstate.path

theorem deauthorize (hstate : state.Succeeds previous) : state.deauthorize.Succeeds previous := by
  refine ⟨hstate.current, fun key hkey => ?_⟩
  cases hkey

theorem resetLevels (hstate : state.Succeeds previous) (level : UInt32) :
    (state.resetLevels level).Succeeds previous :=
  ⟨hstate.current, hstate.path⟩

theorem authorize (hstate : state.Succeeds previous) {key : KeyId}
    (hkey : key.path.isEmpty = false) : (state.authorize key).Succeeds previous := by
  refine ⟨hstate.current, fun stored hstored => ?_⟩
  cases hstored
  exact Or.inl hkey

theorem install (hstate : state.Succeeds previous) {setup : Setup}
    (hkey : setup.key.path.isEmpty = false) : (state.install setup).Succeeds previous := by
  refine ⟨hstate.current, fun stored hstored => ?_⟩
  cases hstored
  exact Or.inl hkey

end BakingState.Succeeds

/-- A key that is offered to be stored has the path that its frame names. -/
theorem Command.Offered.succeeds {keys : KeyProvider} {mode : Mode} {raw : Bytes}
    {prompt : Prompt} {action : PendingAction} (hoffered : Offered keys mode raw prompt action)
    {change : BakingState → BakingState} (hchange : action.change? = some change)
    {state previous : BakingState} (hstate : state.Succeeds previous) :
    (change state).Succeeds previous := by
  rcases hoffered with ⟨_, plan, rfl⟩ | ⟨payload, hannounces⟩
  · cases hchange
  · cases hannounces with
    | publicKey => cases hchange
    | authorization _ hnamed =>
        cases hchange
        exact hstate.authorize hnamed.path
    | setup _ hnamed =>
        cases hchange
        exact hstate.install hnamed.path
    | reset =>
        cases hchange
        exact hstate.resetLevels _

namespace Transition

variable {σ : Type} [Store σ] {step : Transition σ}

/-- What a step stores is saved over the record that it found and can follow it, as long as this
is so of what was waiting. -/
theorem Deed.saved_of_stored (hdeed : step.Deed)
    (hwaiting : ∀ action change, step.before.pending = some action →
      action.change? = some change → (change step.record).Succeeds (Store.load step.before.store))
    {state : BakingState} (hstored : .stored state ∈ step.journal) :
    state.Succeeds (Store.load step.before.store) ∧
      Store.save state step.before.store = .ok step.after.store := by
  have hfound : step.record.Succeeds (Store.load step.before.store) := .checked _
  have hdone : .stored state ∈ deeds step.journal := List.mem_filter.mpr ⟨hstored, rfl⟩
  cases hdeed with
  | none _ hjournal =>
      rw [hjournal] at hdone
      cases hdone
  | frame _ hdeed =>
      generalize step.after.store = after at hdeed ⊢
      generalize deeds step.journal = done at hdeed hdone
      cases hdeed with
      | none => cases hdone
      | keyedHash => simp at hdone
      | keyRemoved _ _ _ hsaved =>
          cases List.mem_singleton.mp hdone
          exact ⟨hfound.deauthorize, hsaved⟩
      | consensus _ _ _ _ _ _ hloaded _ _ hsaved =>
          obtain rfl : state = _ := by simpa using hdone
          cases hloaded
          exact ⟨hfound.setMark _ _, hsaved⟩
  | approval _ hpending hdeed =>
      generalize step.after.store = after at hdeed ⊢
      generalize deeds step.journal = done at hdeed hdone
      cases hdeed with
      | none => cases hdone
      | signature => simp at hdone
      | committed hchange hsaved =>
          cases List.mem_singleton.mp hdone
          exact ⟨hwaiting _ _ hpending hchange, hsaved⟩

/-- What a step has stored is loaded behind it. -/
def Remembers (step : Transition σ) : Prop :=
  ∀ state, .stored state ∈ step.journal → Store.load step.after.store = state

end Transition

namespace Scene

variable {σ : Type} [BreakableStore σ] {config : Config} {store : σ} {earlier : List Turn}

/-- What waits at some time of a run makes only records that can follow what is found. -/
theorem succeeds_of_pending {action : PendingAction}
    (hpending : ((start config store).follow earlier).signer.pending = some action)
    {change : BakingState → BakingState} (hchange : action.change? = some change)
    {state previous : BakingState} (hstate : state.Succeeds previous) :
    (change state).Succeeds previous := by
  obtain ⟨_, _, _, _, hasks, _⟩ := asked_of_pending hpending
  exact hasks.offered.succeeds hchange hstate

/-- In every step of a run, what is stored can follow what was found. -/
theorem saved_of_stored (config : Config) (store : σ) (earlier : List Turn) (turn : Turn)
    {state : BakingState}
    (hstored : .stored state ∈ (((start config store).follow earlier).play turn).journal) :
    let step := ((start config store).follow earlier).play turn
    state.Succeeds (Store.load step.before.store) ∧
      Store.save state step.before.store = .ok step.after.store := by
  have hsound := (sound_start config store).follow earlier
  refine (hsound.play turn).2.2.saved_of_stored (fun action change hpending hchange => ?_) hstored
  rw [play_before] at hpending
  exact succeeds_of_pending hpending hchange (.checked _)

/-- Every step of a run on a lawful store remembers what it has stored. -/
theorem remembers_play [LawfulStore σ] (config : Config) (store : σ) (earlier : List Turn)
    (turn : Turn) : (((start config store).follow earlier).play turn).Remembers := by
  intro state hstored
  obtain ⟨hsucceeds, hsaved⟩ := saved_of_stored config store earlier turn hstored
  exact LawfulStore.load_save hsucceeds hsaved

theorem remembers_of_mem_trace [LawfulStore σ] {turns : List Turn} {step : Transition σ}
    (hstep : step ∈ (start config store).trace turns) : step.Remembers := by
  obtain ⟨earlier, turn, rfl⟩ := exists_of_mem_trace hstep
  exact remembers_play config store earlier turn

end Scene

end TezosSigner
