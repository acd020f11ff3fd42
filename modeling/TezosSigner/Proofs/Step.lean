import TezosSigner.Proofs.Dispatch

/-!
# What a step of a run does

A frame does one of its deeds. An answer can have a plan carried out or a change
committed, each only if that very action waits for approval. Between two steps
the session follows the host, and nothing waits while a session is open.
-/

namespace TezosSigner

open Hash Command

/-- The change of the stored record that an action makes once it has been approved. -/
def PendingAction.change? : PendingAction → Option (BakingState → BakingState)
  | .authorizeBaking key _ => some (·.authorize key)
  | .setup install _ => some (·.install install)
  | .reset level => some (·.resetLevels level)
  | .sign _ | .providePublicKey _ => none

/-- What approving an action may store, and what it may have signed. -/
inductive ApprovalDeed {σ : Type} [Store σ] (action : PendingAction) (store : σ) :
    σ → List Event → Prop where
  | none : ApprovalDeed action store store []
  | signature {plan : SigningPlan} (planned : action = .sign plan) (asks : plan.asks = true) :
      ApprovalDeed action store store [.signing plan.key plan.payload.bytes]
  | committed {change : BakingState → BakingState} {after : σ}
      (commits : action.change? = some change)
      (saved : Store.save (change (Store.load store).checked) store = .ok after) :
      ApprovalDeed action store after [.stored (change (Store.load store).checked)]

namespace Command

variable {σ : Type} [Store σ] {before : Workspace σ} {action : PendingAction}

/-- Between two workspaces an action has been performed, or has failed without a trace. -/
def Performs (action : PendingAction) (before after : Workspace σ) : Prop :=
  after.session = before.session ∧ ∃ done, deeds after.journal = deeds before.journal ++ done ∧
    ApprovalDeed action before.store after.store done

/-- A change is stored as a whole or not at all. -/
theorem commit_performs (action : PendingAction) {change : BakingState → BakingState}
    (hchange : action.change? = some change) (event : LogEvent) :
    Ends (do saveState (change (← loadState)) event) before fun _ after =>
      Performs action before after := by
  refine (ends_bind _ _).mpr (ends_loadState.mpr ((ends_saveState _ _).mpr ?_))
  split
  next store hsave => exact ⟨rfl, _, by simp, .committed hchange hsave⟩
  next => exact ⟨rfl, [], by simp, .none⟩

theorem perform_performs (keys : KeyProvider) (action : PendingAction) :
    Ends (perform keys action) before fun _ after => Performs action before after := by
  have hthen {commit : Command σ Unit} (payload : Bytes)
      (hcommit : Ends commit before fun _ after => Performs action before after) :
      Ends (do commit; return payload) before fun _ after => Performs action before after := by
    refine (ends_bind _ _).mpr (hcommit.imp fun result after hafter => ?_)
    cases result <;> exact hafter
  cases action with
  | sign plan =>
      refine execute_ends.mpr ⟨fun _ => ⟨rfl, [], by simp, .none⟩, fun hasks => ?_⟩
      exact ⟨rfl, _, by simp, .signature rfl hasks⟩
  | providePublicKey publicKey => exact ⟨rfl, [], by simp, .none⟩
  | authorizeBaking key publicKey =>
      exact hthen _ (commit_performs (.authorizeBaking key publicKey) rfl _)
  | setup setup publicKey => exact hthen _ (commit_performs (.setup setup publicKey) rfl _)
  | reset level => exact hthen _ (commit_performs (.reset level) rfl _)

end Command

/-- Between two steps the session follows the host, and it is closed while an action waits.
A plan that waits signs what was transmitted. -/
structure Scene.Sound {σ : Type} (scene : Scene σ) : Prop where
  session : scene.signer.session.Follows scene.signer.config.mode scene.heard
  closed : scene.signer.pending.isSome = true → scene.signer.session = .blank
  plan : ∀ plan, scene.signer.pending = some (.sign plan) →
    plan.Covers scene.signer.config.mode scene.heard

theorem Scene.sound_idle {σ : Type} {config : Config} {session : Session} {store : σ}
    {heard : Bytes} (hsession : session.Follows config.mode heard) :
    Scene.Sound ⟨⟨config, session, none, store⟩, heard⟩ :=
  ⟨hsession, nofun, nofun⟩

/-- What a step of a run may do. -/
inductive Transition.Deed {σ : Type} [Store σ] (step : Transition σ) : Prop where
  | none (store : step.after.store = step.before.store) (journal : deeds step.journal = [])
  | frame {raw : Bytes} (stimulus : step.turn.stimulus = .frame raw)
      (deed : FrameDeed step.before.config step.before.session raw step.heard step.before.store
        step.after.store (deeds step.journal))
  | approval {action : PendingAction} (stimulus : step.turn.stimulus = .answer true)
      (pending : step.before.pending = some action)
      (deed : ApprovalDeed action step.before.store step.after.store (deeds step.journal))

/-- Logging signs nothing. -/
theorem Transition.signings_eq {σ : Type} (step : Transition σ) :
    step.signings = (deeds step.journal).filterMap fun
      | .signing key message => some (key, message)
      | _ => none := by
  unfold signings deeds
  rw [List.filterMap_filter]
  congr 1
  funext event
  cases event <;> rfl

namespace Signer

variable {σ : Type} {signer : Signer σ} {previous heard : Bytes}

theorem cancelPending_session (hsound : Scene.Sound ⟨signer, previous⟩) :
    signer.cancelPending.session = signer.session := by
  unfold cancelPending
  split
  next hpending =>
    change signer.session.reset = signer.session
    rw [hsound.closed hpending, Session.reset_blank]
  next => rfl

theorem cancelPending_store : signer.cancelPending.store = signer.store := by
  unfold cancelPending
  split <;> rfl

theorem deeds_cancelPending : deeds signer.cancelPending.journal = [] := by
  unfold cancelPending
  split <;> rfl

variable [Store σ] (keys : KeyProvider)

/-- A frame is answered as its command ends. -/
theorem receive_ends {keys : KeyProvider} {raw : Bytes}
    {post : Except Status Reaction → Workspace σ → Prop}
    (hends : Ends (dispatch signer.config keys raw) signer.cancelPending post) :
    (∃ payload after, post (.ok (.reply payload)) after ∧
      signer.receive keys raw =
        (⟨signer.config, after.session, none, after.store⟩, .reply (.success payload),
          after.journal)) ∨
    (∃ prompt action after, post (.ok (.confirm prompt action)) after ∧
      dispatch signer.config keys raw signer.cancelPending = .ok (.confirm prompt action) after ∧
      signer.receive keys raw =
        (⟨signer.config, after.session, some action, after.store⟩, .prompt prompt,
          after.journal)) ∨
    ∃ status after, post (.error status) after ∧
      signer.receive keys raw =
        (⟨signer.config, after.session.reset, none, after.store⟩, .reply (.failure status),
          after.journal ++ [.log (.commandFailed status)]) := by
  unfold receive
  unfold Ends at hends
  cases hdispatch : dispatch signer.config keys raw signer.cancelPending with
  | error status after =>
      rw [hdispatch] at hends
      exact Or.inr (Or.inr ⟨status, after, hends, rfl⟩)
  | ok reaction after =>
      rw [hdispatch] at hends
      cases reaction with
      | reply payload => exact Or.inl ⟨payload, after, hends, rfl⟩
      | confirm prompt action => exact Or.inr (Or.inl ⟨prompt, action, after, hends, rfl, rfl⟩)

/-- A frame keeps the signer sound and does one of its deeds; an action waits only behind a
prompt. -/
theorem receive_sound (raw : Bytes) (hsound : Scene.Sound ⟨signer, previous⟩)
    (hheard : heard = Frame.transmitted signer.config.mode raw previous) :
    (signer.receive keys raw).1.config = signer.config ∧
      Scene.Sound ⟨(signer.receive keys raw).1, heard⟩ ∧
      (∀ action, (signer.receive keys raw).1.pending = some action → ∃ prompt made,
        dispatch signer.config keys raw signer.cancelPending = .ok (.confirm prompt action) made ∧
          (signer.receive keys raw).2.1 = .prompt prompt ∧ ∀ plan, action = .sign plan →
            plan.Reviewed prompt keys signer.config.mode heard) ∧
      FrameDeed signer.config signer.session raw heard signer.store
        (signer.receive keys raw).1.store (deeds (signer.receive keys raw).2.2) := by
  have hsession : signer.cancelPending.session.Follows signer.config.mode previous := by
    rw [cancelPending_session hsound]
    exact hsound.session
  have hanswers := dispatch_answers keys hsession hheard
  unfold Answers at hanswers
  rw [cancelPending_session hsound, cancelPending_store, deeds_cancelPending] at hanswers
  rcases receive_ends hanswers with ⟨payload, after, hreply, hreceive⟩ |
    ⟨prompt, action, after, hconfirm, hdispatch, hreceive⟩ | ⟨status, after, herror, hreceive⟩
  · obtain ⟨hleaves, done, hdone, hdeed⟩ := hreply
    rw [hreceive]
    refine ⟨rfl, Scene.sound_idle hleaves, fun action hwaiting => ?_, ?_⟩
    · cases hwaiting
    · rw [hdone]
      exact hdeed
  · obtain ⟨⟨hblank, hreviewed⟩, done, hdone, hdeed⟩ := hconfirm
    rw [hreceive]
    refine ⟨rfl, ⟨?_, fun _ => hblank, fun plan hplan => ?_⟩, fun waiting hwaiting => ?_, ?_⟩
    · change Session.Follows _ after.session heard
      rw [hblank]
      exact .closed
    · exact (hreviewed plan (Option.some.inj hplan)).covers
    · cases Option.some.inj hwaiting
      exact ⟨prompt, after, hdispatch, rfl, hreviewed⟩
    · rw [hdone]
      exact hdeed
  · obtain ⟨hleaves, done, hdone, hdeed⟩ := herror
    have hblank : after.session.reset = .blank := hleaves
    rw [hreceive]
    refine ⟨rfl, Scene.sound_idle ?_, fun action hwaiting => ?_, ?_⟩
    · rw [hblank]
      exact .closed
    · cases hwaiting
    · rw [deeds_append, hdone]
      simpa using hdeed

/-- An answer keeps the signer sound, and only an approval performs the action. -/
theorem answer_sound (approved : Bool) (hsound : Scene.Sound ⟨signer, heard⟩) :
    (signer.answer keys approved).1.config = signer.config ∧
      Scene.Sound ⟨(signer.answer keys approved).1, heard⟩ ∧
      (signer.answer keys approved).1.pending = none ∧
      ((signer.answer keys approved).1.store = signer.store ∧
          deeds (signer.answer keys approved).2.2 = [] ∨
        approved = true ∧ ∃ action, signer.pending = some action ∧
          ApprovalDeed action signer.store (signer.answer keys approved).1.store
            (deeds (signer.answer keys approved).2.2)) := by
  unfold answer
  cases hpending : signer.pending with
  | none => exact ⟨rfl, hsound, hpending, Or.inl ⟨rfl, rfl⟩⟩
  | some action =>
      have hblank : signer.session = .blank := hsound.closed (by rw [hpending]; rfl)
      have hfinish (after : Workspace σ) (hsession : after.session = signer.session) :
          Scene.Sound ⟨⟨signer.config, after.session.reset, none, after.store⟩, heard⟩ := by
        rw [hsession, hblank, Session.reset_blank]
        exact Scene.sound_idle .closed
      cases approved with
      | false => exact ⟨rfl, hfinish _ rfl, rfl, Or.inl ⟨rfl, rfl⟩⟩
      | true =>
          -- A failure is no way out: what was done by then is a deed as well.
          have hperforms : Ends (settle keys true action) signer.workspace _ :=
            perform_performs keys action
          unfold Ends at hperforms
          dsimp only
          cases hperform : settle keys true action signer.workspace with
          | ok payload after =>
              rw [hperform] at hperforms
              obtain ⟨hsession, done, hdone, hdeed⟩ := hperforms
              refine ⟨rfl, hfinish after hsession, rfl, Or.inr ⟨rfl, action, rfl, ?_⟩⟩
              rw [hdone]
              exact hdeed
          | error status after =>
              rw [hperform] at hperforms
              obtain ⟨hsession, done, hdone, hdeed⟩ := hperforms
              refine ⟨rfl, hfinish after hsession, rfl, Or.inr ⟨rfl, action, rfl, ?_⟩⟩
              rw [hdone]
              exact hdeed

end Signer

namespace Scene

variable {σ : Type} {scene : Scene σ}

theorem sound_start (config : Config) (store : σ) : (start config store).Sound :=
  sound_idle .closed

variable [BreakableStore σ]

theorem Sound.meet (hsound : scene.Sound) (turn : Turn) : Sound ⟨scene.meet turn, scene.heard⟩ :=
  ⟨hsound.session, hsound.closed, hsound.plan⟩

/-- A turn finds a session that still follows the host, also when something is dropped first. -/
theorem Sound.follows (hsound : scene.Sound) (turn : Turn) :
    (scene.meet turn).cancelPending.session.Follows scene.signer.config.mode scene.heard := by
  rw [Signer.cancelPending_session (hsound.meet turn)]
  exact hsound.session

/-- Every step keeps configuration and soundness, and does nothing but its deed. -/
theorem Sound.play (hsound : scene.Sound) (turn : Turn) :
    (scene.play turn).after.config = scene.signer.config ∧ (scene.play turn).scene.Sound ∧
      (scene.play turn).Deed := by
  unfold Scene.play
  split
  next raw hstimulus =>
    obtain ⟨hconfig, hafter, _, hdeed⟩ :=
      Signer.receive_sound turn.keys raw (hsound.meet turn) rfl
    exact ⟨hconfig, hafter, .frame hstimulus hdeed⟩
  next approved hstimulus =>
    obtain ⟨hconfig, hafter, _, hdeed⟩ :=
      Signer.answer_sound turn.keys approved (hsound.meet turn)
    refine ⟨hconfig, hafter, ?_⟩
    rcases hdeed with ⟨hstore, hnothing⟩ | ⟨rfl, action, hpending, hdeed⟩
    · exact .none hstore hnothing
    · exact .approval hstimulus hpending hdeed

theorem Sound.follow (hsound : scene.Sound) (turns : List Turn) : (scene.follow turns).Sound :=
  follow_invariant (fun _ turn hscene => (hscene.play turn).2.1) scene turns hsound

theorem follow_config (config : Config) (store : σ) (turns : List Turn) :
    ((start config store).follow turns).signer.config = config := by
  let invariant (scene : Scene σ) : Prop := scene.signer.config = config ∧ scene.Sound
  have hfollow : invariant _ := follow_invariant
    (fun _ turn hscene => ⟨(hscene.2.play turn).1.trans hscene.1, (hscene.2.play turn).2.1⟩)
    (start config store) turns ⟨rfl, sound_start config store⟩
  exact hfollow.1

/-- An action waits only behind the prompt that its frame has just shown. A plan signs what
was transmitted, and in a wallet the prompt shows it. -/
theorem Sound.prompted (hsound : scene.Sound) {turn : Turn} {action : PendingAction}
    (hpending : (scene.play turn).after.pending = some action) :
    ∃ raw prompt made, turn.stimulus = .frame raw ∧
      dispatch scene.signer.config turn.keys raw (scene.meet turn).cancelPending =
        .ok (.confirm prompt action) made ∧
      (scene.play turn).outcome = some (.prompt prompt) ∧ ∀ plan, action = .sign plan →
        plan.Reviewed prompt turn.keys scene.signer.config.mode (scene.play turn).heard := by
  revert hpending
  unfold Scene.play
  split
  next raw hstimulus =>
    intro hpending
    obtain ⟨_, _, hprompt, _⟩ := Signer.receive_sound turn.keys raw (hsound.meet turn) rfl
    obtain ⟨prompt, made, hdispatch, houtcome, hreviewed⟩ := hprompt action hpending
    exact ⟨raw, prompt, made, hstimulus, hdispatch, congrArg some houtcome, hreviewed⟩
  next approved hstimulus =>
    intro hpending
    obtain ⟨_, _, hnone, _⟩ := Signer.answer_sound turn.keys approved (hsound.meet turn)
    have hsome : ((scene.meet turn).answer turn.keys approved).1.pending = some action := hpending
    rw [hnone] at hsome
    cases hsome

end Scene

end TezosSigner
