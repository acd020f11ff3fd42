import TezosSigner.Key.Simulated
import TezosSigner.Proofs.Alike
import TezosSigner.Proofs.Proposal

/-!
# No residue between commands

A further chunk belongs to what came before it. Any other frame is served as if the
signer had just been started on its store: an open session is closed or begun anew,
what waits is dropped, and nothing else is remembered. Two histories that have come to
the same store are told apart by nothing from such a frame on.
-/

namespace TezosSigner

/-- The bytes are a further chunk of a message. -/
def Frame.isFurtherChunk (mode : Mode) (raw : Bytes) : Bool :=
  (SigningRequest.ofBytes? mode raw).any fun request => request.position != 0x00

/-- The session that a command leaves by its end: a failure closes it. -/
def Session.settled {α : Type} (session : Session) : Except Status α → Session
  | .ok _ => session
  | .error _ => session.reset

/-- The ends of a command on two workspaces come to the same, whatever has been logged. -/
structure Workspace.EndsAlike {σ α : Type} (result : Except Status α) (one other : Workspace σ) :
    Prop where
  session : other.session.settled result = one.session.settled result
  store : other.store = one.store
  deeds : deeds other.journal = deeds one.journal

namespace Command

variable {σ α : Type} {before fresh : Workspace σ}

/-- How two commands end can be told in either order. -/
theorem ends_comm {β : Type} {one : Command σ α} {other : Command σ β}
    {post : Except Status α → Workspace σ → Except Status β → Workspace σ → Prop} :
    (Ends one before fun result after => Ends other fresh (post result after)) ↔
      Ends other fresh fun result' after' =>
        Ends one before fun result after => post result after result' after' := by
  unfold Ends
  cases one before <;> cases other fresh <;> rfl

/-- A command comes to the same on two workspaces. -/
def Forgets (command : Command σ α) (before fresh : Workspace σ) : Prop :=
  Ends command before fun result after => Ends command fresh fun result' after' =>
    result' = result ∧ Workspace.EndsAlike result after after'

/-- A command that matches itself comes to the same where session and store are the same. -/
theorem Matches.forgets {command : Command σ α} (hmatches : Matches Eq command command)
    (hsession : fresh.session = before.session) (hstore : fresh.store = before.store)
    (hdeeds : deeds fresh.journal = deeds before.journal) : Forgets command before fresh := by
  have halike : Workspace.Alike Eq before.journal fresh.journal before fresh :=
    ⟨hsession, hstore.symm, [], (List.append_nil _).symm, (List.append_nil _).symm⟩
  apply (hmatches halike).imp
  intro result after hother
  apply hother.imp
  rintro _ after' ⟨rfl, hsession', hstore', since, hone, hother⟩
  refine ⟨rfl, congrArg (Session.settled · _) hsession', hstore'.symm, ?_⟩
  rw [hone, hother, deeds_append, deeds_append, hdeeds]

/-- What closes the session first comes to the same whatever session it finds. -/
theorem forgets_resetSession_bind {next : Unit → Command σ α}
    (hnext : ∀ value, Matches Eq (next value) (next value))
    (hbefore : before.session.reset = .blank) (hfresh : fresh.session.reset = .blank)
    (hstore : fresh.store = before.store) (hdeeds : deeds fresh.journal = deeds before.journal) :
    Forgets (resetSession >>= next) before fresh := by
  simp only [Forgets, ends_bind, ends_resetSession]
  exact (hnext ()).forgets (hfresh.trans hbefore.symm) hstore hdeeds

variable [Store σ] {config : Config} {keys : KeyProvider} {raw : Bytes}

/-- A first chunk begins a session anew, whatever session it finds. -/
theorem takeChunk_forgets {mode : Mode} {request : SigningRequest}
    (hfirst : request.position = 0x00) (hbefore : before.session.reset = .blank)
    (hfresh : fresh.session.reset = .blank) (hstore : fresh.store = before.store)
    (hdeeds : deeds fresh.journal = deeds before.journal) :
    Forgets (takeChunk mode keys request) before fresh := by
  rw [takeChunk, if_pos hfirst]
  cases decide (request.data.length ≤ Frame.maxDataLength) with
  | false => exact ⟨rfl, hfresh.trans hbefore.symm, hstore, hdeeds⟩
  | true =>
      rw [show (require true .wrongLengthForInstruction : Command σ Unit) = pure () from rfl,
        pure_bind, openSession, bind_assoc]
      refine forgets_resetSession_bind (fun _ => ?_) hbefore hfresh hstore hdeeds
      exact ((matches_ofExcept _).bind fun _ => (matches_ofExcept _).bind fun _ =>
        matches_getSession.bind fun _ => matches_setSession _).bind fun _ => matches_pure _

/-- A frame that is no further chunk comes to the same in every session. -/
theorem dispatch_forgets {previous : Bytes} (hraw : Frame.isFurtherChunk config.mode raw = false)
    (hbefore : before.session.Follows config.mode previous) (hfresh : fresh.session = .blank)
    (hstore : fresh.store = before.store) (hdeeds : deeds fresh.journal = deeds before.journal) :
    Forgets (dispatch config keys raw) before fresh := by
  have hfollows : fresh.session.Follows config.mode [] := by
    rw [hfresh]
    exact .closed
  cases hcommand : Frame.understood? config.mode raw with
  | none =>
      obtain ⟨status, hfails⟩ := dispatch_unknown (σ := σ) keys hcommand
      refine hfails before _ (hfails fresh _ ⟨rfl, ?_, hstore, hdeeds⟩)
      exact hfollows.reset_eq.trans hbefore.reset_eq.symm
  | some command =>
      -- Both sides carry out the same instruction; only the sessions that it finds may differ.
      refine dispatch_ends hbefore (fun hnone => absurd (hcommand.symm.trans hnone) nofun)
        fun instruction frame middle hknown hmiddle hlogged _ hsession => ends_comm.mpr ?_
      refine dispatch_ends hfollows (fun hnone => absurd (hcommand.symm.trans hnone) nofun)
        fun instruction' frame' middle' hknown' hmiddle' hlogged' _ hsession' => ends_comm.mp ?_
      cases hknown.symm.trans hknown'
      have hstores : middle'.store = middle.store := by rw [hmiddle', hmiddle, hstore]
      have hlogs : deeds middle'.journal = deeds middle.journal := by
        rw [hlogged', hlogged, hdeeds]
      cases hsigning : instruction.isSigning with
      | false =>
          rw [hsigning, if_neg Bool.false_ne_true] at hsession hsession'
          exact (matches_run Store.concur_eq keys config frame instruction).forgets
            (hsession'.trans hsession.symm) hstores hlogs
      | true =>
          rw [hsigning, if_pos rfl] at hsession hsession'
          cases instruction with
          | sign kind =>
              have hfirst : (⟨kind, frame.p1, frame.p2, frame.data⟩ : SigningRequest).position =
                  0x00 := by
                rw [Frame.isFurtherChunk, SigningRequest.ofBytes?, hknown] at hraw
                simpa using hraw
              refine takeChunk_forgets hfirst ?_ ?_ hstores hlogs
              · rw [hsession]
                exact hbefore.reset_eq
              · rw [hsession']
                exact hfollows.reset_eq
          | _ => cases hsigning

end Command

/-- What comes to the same is served alike, and leaves the same signer. -/
theorem Signer.served_alike {σ : Type} (config : Config) {result : Except Status Reaction}
    {after after' : Workspace σ} (halike : Workspace.EndsAlike result after after') :
    (served config result after').1 = (served config result after).1 ∧
      (served config result after').2.1 = (served config result after).2.1 ∧
      deeds (served config result after').2.2 = deeds (served config result after).2.2 := by
  obtain ⟨hsession, hstore, hdeeds⟩ := halike
  cases result with
  | ok reaction =>
      have hsame : after'.session = after.session := hsession
      cases reaction <;> simp only [served, hsame, hstore, hdeeds, and_self]
  | error status =>
      have hsame : after'.session.reset = after.session.reset := hsession
      simp only [served, hsame, hstore, deeds_append, hdeeds, and_self]

/-- A frame whose command comes to the same in two signers is answered alike, and leaves the same
signer. -/
theorem Signer.receive_forgets {σ : Type} [Store σ] {signer fresh : Signer σ} {keys : KeyProvider}
    {raw : Bytes} (hconfig : fresh.config = signer.config)
    (hforgets : (Command.dispatch signer.config keys raw).Forgets signer.cancelPending
      fresh.cancelPending) :
    (fresh.receive keys raw).1 = (signer.receive keys raw).1 ∧
      (fresh.receive keys raw).2.1 = (signer.receive keys raw).2.1 ∧
      deeds (fresh.receive keys raw).2.2 = deeds (signer.receive keys raw).2.2 := by
  have hserved := fresh.receive_served keys raw
  rw [hconfig] at hserved
  obtain ⟨_, after, hone, hends⟩ :=
    ((signer.receive_served keys raw).and hforgets).exists
  obtain ⟨result, after', hother, rfl, halike⟩ := (hserved.and hends).exists
  rw [hone, hother]
  exact served_alike _ halike

/-- What is observed of a step: what is answered or shown, what is done besides logging, and the
signer that is left. -/
def Transition.behaviour {σ : Type} (step : Transition σ) :
    Option Outcome × List Event × Signer σ :=
  (step.outcome, deeds step.journal, step.after)

namespace Scene

variable {σ : Type} [BreakableStore σ]

/-- What the host has transmitted is followed beside the signer, who does not look at it. -/
theorem behaviour_play_congr {one other : Scene σ} (hsigner : other.signer = one.signer)
    (turn : Turn) : (other.play turn).behaviour = (one.play turn).behaviour := by
  have hmeet : other.meet turn = one.meet turn := by rw [meet, meet, hsigner]
  unfold play
  rw [hmeet]
  split <;> rfl

theorem behaviour_trace_congr {one other : Scene σ} (hsigner : other.signer = one.signer)
    (turns : List Turn) :
    (other.trace turns).map Transition.behaviour = (one.trace turns).map Transition.behaviour := by
  induction turns generalizing one other with
  | nil => rfl
  | cons turn turns ih =>
      have hplay := behaviour_play_congr hsigner turn
      have hafter : (other.play turn).scene.signer = (one.play turn).scene.signer :=
        congrArg (fun seen => seen.2.2) hplay
      rw [trace, trace, List.map_cons, List.map_cons, hplay, ih hafter]

/-- A frame that is no further chunk is served as on a signer that has just been started. -/
theorem Sound.behaviour_play {scene : Scene σ} (hsound : scene.Sound) {turn : Turn} {raw : Bytes}
    (hframe : turn.stimulus = .frame raw)
    (hraw : Frame.isFurtherChunk scene.signer.config.mode raw = false) :
    (scene.play turn).behaviour =
      ((start scene.signer.config scene.signer.store).play turn).behaviour := by
  let fresh := (start scene.signer.config scene.signer.store).meet turn
  have hforgets : (Command.dispatch scene.signer.config turn.keys raw).Forgets
      (scene.meet turn).cancelPending fresh.cancelPending := by
    refine Command.dispatch_forgets hraw (hsound.follows turn) rfl ?_ ?_
    · rw [Signer.cancelPending_store, Signer.cancelPending_store]
      rfl
    · rw [Signer.deeds_cancelPending, Signer.deeds_cancelPending]
  have hconfig : fresh.config = (scene.meet turn).config := rfl
  obtain ⟨hsigner, houtcome, hdeeds⟩ := Signer.receive_forgets hconfig hforgets
  unfold Transition.behaviour Scene.play
  rw [hframe]
  exact (Prod.ext (congrArg some houtcome) (Prod.ext hdeeds hsigner)).symm

end Scene

/-- In every run, a frame that is no further chunk of a message is answered as by a signer that
has just been started on the same store, does the same to keys and store, and leaves the same
session and the same action to be approved. From such a frame on, histories that have come
to the same store are not told apart. -/
theorem served_as_started {σ : Type} [BreakableStore σ] (config : Config) (store : σ)
    (earlier : List Turn) (turn : Turn) (raw : Bytes) (hframe : turn.stimulus = .frame raw)
    (hraw : Frame.isFurtherChunk config.mode raw = false) :
    let scene := (Scene.start config store).follow earlier
    let step := scene.play turn
    let fresh := (Scene.start config scene.signer.store).play turn
    (step.outcome = fresh.outcome ∧ step.after.session = fresh.after.session ∧
      step.after.pending = fresh.after.pending ∧ step.after.store = fresh.after.store ∧
      deeds step.journal = deeds fresh.journal) ∧
    ∀ (store' : σ) (earlier' later : List Turn),
      let scene' := (Scene.start config store').follow earlier'
      scene'.signer.store = scene.signer.store →
        (scene'.trace (turn :: later)).map Transition.behaviour =
          (scene.trace (turn :: later)).map Transition.behaviour := by
  intro scene step fresh
  have hconfig (store : σ) (turns : List Turn) :
      ((Scene.start config store).follow turns).signer.config = config :=
    Scene.follow_config config store turns
  have hserved (store : σ) (turns : List Turn) :
      (((Scene.start config store).follow turns).play turn).behaviour =
        ((Scene.start config ((Scene.start config store).follow turns).signer.store).play
          turn).behaviour := by
    have hsound := (Scene.sound_start config store).follow turns
    have hplay := hsound.behaviour_play hframe (by rw [hconfig]; exact hraw)
    rw [hconfig] at hplay
    exact hplay
  refine ⟨?_, fun store' earlier' later => ?_⟩
  · obtain ⟨houtcome, hrest⟩ := Prod.ext_iff.mp (hserved store earlier)
    obtain ⟨hdeeds, hafter⟩ := Prod.ext_iff.mp hrest
    exact ⟨houtcome, congrArg Signer.session hafter, congrArg Signer.pending hafter,
      congrArg Signer.store hafter, hdeeds⟩
  · intro scene' hstore
    have hplay : (scene'.play turn).behaviour = (scene.play turn).behaviour := by
      rw [hserved, hserved, show ((Scene.start config store').follow earlier').signer.store = _
        from hstore]
    have hafter : (scene'.play turn).scene.signer = (scene.play turn).scene.signer :=
      congrArg (fun seen => seen.2.2) hplay
    rw [Scene.trace, Scene.trace, List.map_cons, List.map_cons, hplay,
      Scene.behaviour_trace_congr hafter]

/-- A wallet that has been asked for the digest alone, and one whose first chunk is missing, open
the next session alike. -/
theorem served_as_started_opening :
    let turn (stimulus : Stimulus) : Turn := ⟨Simulated.provider, false, stimulus⟩
    let opening : Bytes := [0x80, 0x04, 0x00, 0x00, 5, 1, 0x80, 0, 0, 0]
    let digest : Turn := turn (.frame [0x80, 0x04, 0x03, 0x00, 2, 0x03, 0x2A])
    let later : List Turn := [turn (.frame [0x80, 0x04, 0x81, 0x00, 2, 0x03, 0x2B])]
    let start : Scene MemoryStore := .start (.ofMode .wallet) (.ofState .fresh)
    let scene := start.follow [turn (.frame opening), digest]
    let scene' := start.follow [digest]
    scene.signer.session.hashOnly = true ∧ scene'.signer.session = .blank ∧
      Frame.isFurtherChunk .wallet opening = false ∧
      (scene.play (turn (.frame opening))).after.session.hashOnly = false ∧
      scene'.signer.store = scene.signer.store ∧
      (scene'.trace (turn (.frame opening) :: later)).map Transition.behaviour =
        (scene.trace (turn (.frame opening) :: later)).map Transition.behaviour := by
  intro turn opening digest later start scene scene'
  have hraw : Frame.isFurtherChunk .wallet opening = false := by decide
  have hstore : scene'.signer.store = scene.signer.store := by decide +kernel
  obtain ⟨⟨_, hsession, _⟩, hlater⟩ := served_as_started (.ofMode .wallet)
    (MemoryStore.ofState .fresh) [turn (.frame opening), digest] (turn (.frame opening)) opening rfl
    hraw
  refine ⟨by decide +kernel, by decide +kernel, hraw, ?_, hstore, hlater _ [digest] later hstore⟩
  rw [hsession]
  decide +kernel

end TezosSigner
