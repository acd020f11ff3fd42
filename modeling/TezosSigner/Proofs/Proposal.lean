import TezosSigner.Proofs.Consent

/-!
# What a prompt proposes

An action waits only behind the prompt that was made for it, and nothing has been
stored by then. A prompt about a key or a setting shows the values of its action. A
baker is asked for one signature only, the registration of its baking key as its own
delegate; a wallet is never asked to change the stored record.
-/

namespace TezosSigner

open Hash

/-- A prompt and the action behind it, as one frame makes them. -/
inductive Proposal (keys : KeyProvider) (mode : Mode) (raw : Bytes) (session : Session)
    (state : BakingState) (heard : Bytes) : Prompt → PendingAction → Prop where
  | publicKey {key : KeyId} {publicKey : PublicKey}
      (derived : keys.publicKey key = .ok publicKey) :
      Proposal keys mode raw session state heard (.providePublicKey publicKey.address)
        (.providePublicKey publicKey)
  | authorization {key : KeyId} {publicKey : PublicKey} (baking : mode = .baking)
      (derived : keys.publicKey key = .ok publicKey) :
      Proposal keys mode raw session state heard (.authorizeBaking publicKey.address)
        (.authorizeBaking key publicKey)
  | setup (setup : Setup) {publicKey : PublicKey} (baking : mode = .baking)
      (derived : keys.publicKey setup.key = .ok publicKey) :
      Proposal keys mode raw session state heard
        (.setup publicKey.address setup.mainChainId setup.mainLevel setup.testLevel)
        (.setup setup publicKey)
  | reset {level : UInt32} (baking : mode = .baking) (valid : isValidLevel level = true) :
      Proposal keys mode raw session state heard (.reset level) (.reset level)
  | operation {prompt : Prompt} {plan : SigningPlan} (wallet : mode = .wallet) :
      Proposal keys mode raw session state heard prompt (.sign plan)
  | registration {prompt : Prompt} {plan : SigningPlan} {request : SigningRequest}
      (baking : mode = .baking) (chunk : SigningRequest.ofBytes? mode raw = some request)
      (last : request.isLast = true) (opened : session.key = some plan.key)
      (payload : plan.payload = .digest (blake2b256 heard))
      (registers : plan.Registers keys state heard prompt) :
      Proposal keys mode raw session state heard prompt (.sign plan)

/-- What is proposed without a session can be proposed in any. -/
theorem Proposal.of_blank {keys : KeyProvider} {mode : Mode} {raw heard : Bytes}
    {state : BakingState} {prompt : Prompt} {action : PendingAction}
    (hproposal : Proposal keys mode raw .blank state heard prompt action) (session : Session) :
    Proposal keys mode raw session state heard prompt action := by
  cases hproposal with
  | publicKey hderived => exact .publicKey hderived
  | authorization hbaking hderived => exact .authorization hbaking hderived
  | setup setup hbaking hderived => exact .setup setup hbaking hderived
  | reset hbaking hvalid => exact .reset hbaking hvalid
  | operation hwallet => exact .operation hwallet
  | registration _ _ _ hopened => cases hopened

/-- The instructions that a wallet knows. -/
theorem Instruction.known_of_wallet {code : UInt8} {instruction : Instruction}
    (hcode : ofCode .wallet code = .ok instruction) :
    instruction = .version ∨ instruction = .commit ∨
      (∃ display, instruction = .publicKey display) ∨ ∃ kind, instruction = .sign kind := by
  rcases ofCode_eq_ok hcode with hcommon | hmode
  · unfold common? at hcommon
    split_ifs at hcommon <;> cases hcommon <;> simp
  · unfold ofMode? at hmode
    dsimp only at hmode
    split_ifs at hmode
    cases hmode
    simp

/-- Whether a wallet knows an instruction. -/
def Instruction.forWallet : Instruction → Bool
  | .version | .commit | .publicKey _ | .sign _ => true
  | _ => false

/-- An instruction that a wallet does not know comes to a baker. -/
theorem Frame.baking_of_understood {mode : Mode} {raw : Bytes} {instruction : Instruction}
    {frame : Frame} (hcommand : Frame.understood? mode raw = some (instruction, frame))
    (hunknown : instruction.forWallet = false) : mode = .baking := by
  cases mode with
  | baking => rfl
  | wallet =>
      rcases Instruction.known_of_wallet (Frame.ofCode_of_understood hcommand) with
        rfl | rfl | ⟨display, rfl⟩ | ⟨kind, rfl⟩ <;> cases hunknown

namespace Command

variable {σ : Type}

/-- A command that only ever answers at once. -/
def Replies (command : Command σ Reaction) : Prop :=
  ∀ before, Ends command before fun result _ => Confirms (fun _ _ => False) result

theorem replies_reply (payload : Bytes) : Replies (pure (.reply payload) : Command σ Reaction) :=
  offers_reply payload

theorem Replies.bind {β : Type} {first : Command σ β} {next : β → Command σ Reaction}
    (hnext : ∀ value, Replies (next value)) : Replies (first >>= next) :=
  Offers.bind hnext

/-- The key that a command names is the one whose public key is handed on. -/
theorem derive_ends {keys : KeyProvider} {p1 p2 : UInt8} {data : Bytes} {before : Workspace σ} :
    Ends (derive keys p1 p2 data) before fun result after => after.store = before.store ∧
      ∀ key publicKey, result = .ok (key, publicKey) →
        p1 = 0 ∧ (∃ rest, KeyId.read p2 data = .ok (key, rest)) ∧
          keys.publicKey key = .ok publicKey := by
  simp only [derive, ends_bind, ends_require, ends_ofExcept]
  refine ⟨fun hparameter => ?_, fun _ => ⟨trivial, fun _ _ hfails => by cases hfails⟩⟩
  cases hread : KeyId.read p2 data with
  | error status => exact ⟨trivial, fun _ _ hfails => by cases hfails⟩
  | ok named =>
      simp only [ends_pure]
      cases hkey : keys.publicKey named.1 with
      | error status => exact ⟨trivial, fun _ _ hfails => by cases hfails⟩
      | ok publicKey =>
          refine ⟨trivial, fun key shown hresult => ?_⟩
          cases hresult
          exact ⟨beq_iff_eq.mp hparameter, ⟨named.2, rfl⟩, hkey⟩

variable [Store σ] {mode : Mode} {keys : KeyProvider} {before : Workspace σ} {raw heard : Bytes}

/-- If approval is asked for, nothing has been stored and the prompt was made for the action. -/
def Proposes (keys : KeyProvider) (mode : Mode) (raw heard : Bytes) (before : Workspace σ)
    (result : Except Status Reaction) (after : Workspace σ) : Prop :=
  Confirms (fun prompt action => after.store = before.store ∧
    Proposal keys mode raw before.session (Store.load before.store).checked heard prompt action)
    result

theorem Replies.proposes {command : Command σ Reaction} (hreplies : Replies command)
    (middle : Workspace σ) : Ends command middle (Proposes keys mode raw heard before) :=
  (hreplies middle).imp fun _ _ hnone => hnone.imp fun _ _ => False.elim

theorem providePublicKey_proposes (display : Bool) (p1 p2 : UInt8) (data : Bytes) :
    Ends (providePublicKey keys display p1 p2 data) before
      (Proposes keys mode raw heard before) := by
  rw [providePublicKey, ends_bind]
  apply derive_ends.imp
  rintro (status | ⟨key, publicKey⟩) middle ⟨hstore, hderived⟩
  · trivial
  · dsimp only
    rw [ends_ite]
    exact ⟨fun _ => ⟨hstore, .publicKey (hderived _ _ rfl).2.2⟩, fun _ => trivial⟩

theorem authorizeBaking_proposes (hbaking : mode = .baking) (p1 p2 : UInt8) (data : Bytes) :
    Ends (authorizeBaking keys p1 p2 data) before (Proposes keys mode raw heard before) := by
  rw [authorizeBaking, ends_bind]
  apply derive_ends.imp
  rintro (status | ⟨key, publicKey⟩) middle ⟨hstore, hderived⟩
  · trivial
  · exact ⟨hstore, .authorization hbaking (hderived _ _ rfl).2.2⟩

theorem reset_proposes (hbaking : mode = .baking) (data : Bytes) :
    Ends (reset data) before (Proposes keys mode raw heard before) := by
  simp only [reset, ends_bind, ends_require, ends_pure]
  exact ⟨fun _ => ⟨fun hvalid => ⟨rfl, .reset hbaking hvalid⟩, fun _ => trivial⟩, fun _ => trivial⟩

theorem setup_proposes (hbaking : mode = .baking) (p1 p2 : UInt8) (data : Bytes) :
    Ends (setup keys p1 p2 data) before (Proposes keys mode raw heard before) := by
  simp only [setup, ends_bind, ends_require, ends_ofExcept]
  refine ⟨fun _ => ⟨fun _ => ?_, fun _ => trivial⟩, fun _ => trivial⟩
  cases Curve.ofParameter p2 with
  | error status => trivial
  | ok curve =>
      dsimp only
      cases Path.ofBytes (data.drop 12) with
      | error status => trivial
      | ok path =>
          dsimp only
          split
          next hkey => exact ⟨rfl, .setup ⟨⟨curve, path⟩, _, _, _⟩ hbaking hkey⟩
          next => trivial

/-- A baker asks for nothing but the registration of its key, and for that only if it has kept
the whole message. -/
theorem completeBaking_registers {key : KeyId} {kind : SigningKind} {session : Session}
    {message : Bytes} (hcollects : session.buffer.Collects message) :
    Ends (completeBaking keys key kind session) before fun result after =>
      Confirms (fun prompt action => ∃ plan, action = .sign plan ∧ after.store = before.store ∧
        plan = ⟨key, .digest (blake2b256 message), session.replyForm kind⟩ ∧
        message.length ≤ MessageBuffer.capacity ∧
        plan.Registers keys (Store.load before.store).checked message prompt) result := by
  simp only [completeBaking, hcollects.message?_eq, hcollects.digest_eq]
  by_cases hlength : message.length ≤ MessageBuffer.capacity
  · simp only [hlength, if_true]
    split
    next =>
      have hreplies (data : ConsensusData) (plan : SigningPlan) : Replies (do
          authorizeAndCommit key data
          return .reply (← execute keys plan) : Command σ Reaction) :=
        .bind fun _ => .bind fun _ => replies_reply _
      exact (hreplies _ _ before).imp fun _ _ hconfirms => hconfirms.imp fun _ _ => False.elim
    next =>
      rw [ends_ite]
      refine ⟨fun _ => ?_, fun _ => trivial⟩
      apply ((quiet_reviewSelfDelegation keys _ message before).and
        reviewSelfDelegation_confirms).imp
      rintro result after ⟨hlogged, hconfirms⟩
      apply hconfirms.imp
      rintro prompt _ ⟨rfl, hregisters⟩
      exact ⟨_, rfl, hlogged.store_eq, rfl, trivial, hregisters⟩
  · simp only [hlength, if_false]
    trivial

/-- A wallet asks to sign what it has taken; a baker asks to register its key, if at all. -/
theorem complete_proposes {request : SigningRequest} {key : KeyId} {kind : SigningKind}
    {session : Session} (hrequest : SigningRequest.ofBytes? mode raw = some request)
    (hlast : request.isLast = true) (hopened : before.session.key = some key)
    (hcollects : session.buffer.Collects heard)
    {middle : Workspace σ} (hstore : middle.store = before.store) :
    Ends (complete mode keys key kind session) middle (Proposes keys mode raw heard before) := by
  cases mode with
  | wallet =>
      apply complete_ends hcollects
      case hquiet =>
        intro result after hlogged hasks
        apply hasks.imp
        rintro _ _ ⟨plan, rfl, _⟩
        exact ⟨hlogged.store_eq.trans hstore, .operation rfl⟩
      case hconsensus =>
        intro data hbaking
        cases hbaking
  | baking =>
      refine (completeBaking_registers hcollects).imp fun result after hconfirms => ?_
      apply hconfirms.imp
      rintro prompt _ ⟨plan, rfl, hkept, rfl, -, hregisters⟩
      rw [hstore] at hkept hregisters
      exact ⟨hkept, .registration rfl hrequest hlast hopened rfl hregisters⟩

theorem takeChunk_proposes {request : SigningRequest} {previous : Bytes}
    (hrequest : SigningRequest.ofBytes? mode raw = some request)
    (hheard : request.continuing previous = heard)
    (hsession : before.session.Follows mode previous) :
    Ends (takeChunk mode keys request) before (Proposes keys mode raw heard before) := by
  simp only [takeChunk, ends_bind, ends_require]
  refine ⟨fun _ => (ends_ite _ _ _).mpr ⟨fun _ => ?_, fun hfurther => ?_⟩, fun _ => trivial⟩
  · rw [ends_bind, openSession_ends]
    split <;> trivial
  · rw [SigningRequest.continuing, if_neg hfurther] at hheard
    subst hheard
    apply continueSession_ends
    case hparam =>
      intro _
      trivial
    case hclosed =>
      intro _
      trivial
    case hrefused =>
      intros
      trivial
    case hnext =>
      intros
      trivial
    case hlast =>
      intro key longer _ hkey hlonger hlast
      exact complete_proposes hrequest hlast hkey ((hsession.collects hkey).append hlonger) rfl

theorem run_proposes {config : Config} {instruction : Instruction} {frame : Frame}
    {previous : Bytes}
    (hcommand : Frame.understood? config.mode raw = some (instruction, frame))
    (hsession : before.session.Follows config.mode previous)
    (hheard : heard = Frame.transmitted config.mode raw previous) :
    Ends (run config keys frame instruction) before
      (Proposes keys config.mode raw heard before) := by
  cases instruction with
  | version => trivial
  | commit => trivial
  | publicKey display => exact providePublicKey_proposes display _ _ _
  | authorizeBaking =>
      exact authorizeBaking_proposes (Frame.baking_of_understood hcommand rfl) _ _ _
  | sign kind =>
      have hrequest : SigningRequest.ofBytes? config.mode raw =
          some ⟨kind, frame.p1, frame.p2, frame.data⟩ := by
        rw [SigningRequest.ofBytes?, hcommand]
      refine takeChunk_proposes hrequest ?_ hsession
      rw [hheard, Frame.transmitted, hrequest]
  | reset => exact reset_proposes (Frame.baking_of_understood hcommand rfl) _
  | setup => exact setup_proposes (Frame.baking_of_understood hcommand rfl) _ _ _
  | deauthorize =>
      exact Replies.proposes (.bind fun _ => .bind fun _ => .bind fun _ => .bind fun _ =>
        replies_reply _) before
  | queryKey => exact Replies.proposes (.bind fun _ => replies_reply _) before
  | queryKeyWithCurve => exact Replies.proposes (.bind fun _ => replies_reply _) before
  | queryMainMark => exact Replies.proposes (.bind fun _ => replies_reply _) before
  | queryAllMarks => exact Replies.proposes (.bind fun _ => replies_reply _) before
  | hmac =>
      exact Replies.proposes (.bind fun _ => .bind fun _ => .bind fun _ => .bind fun _ =>
        replies_reply _) before

/-- A frame that is understood is run in the session that it may come into; any other fails. -/
theorem dispatch_ends {config : Config} {previous : Bytes}
    {post : Except Status Reaction → Workspace σ → Prop}
    (hsession : before.session.Follows config.mode previous)
    (hunknown : Frame.understood? config.mode raw = none → ∀ status, post (.error status) before)
    (hrun : ∀ instruction frame middle,
      Frame.understood? config.mode raw = some (instruction, frame) →
      middle.store = before.store → deeds middle.journal = deeds before.journal →
      entries middle.journal = entries before.journal →
      middle.session = (if instruction.isSigning then before.session else .blank) →
      Ends (run config keys frame instruction) middle post) :
    Ends (dispatch config keys raw) before post := by
  cases hcommand : Frame.understood? config.mode raw with
  | none =>
      obtain ⟨status, hfails⟩ := dispatch_unknown (σ := σ) keys hcommand
      exact hfails before post (hunknown hcommand status)
  | some command =>
      obtain ⟨instruction, frame⟩ := command
      rw [dispatch_understood_ends hcommand, ends_bind]
      apply (abandonSession_ends hsession).imp
      rintro _ middle ⟨rfl, hstore, hdeeds, hentries, hmiddle⟩
      refine hrun instruction frame middle hcommand hstore ?_ ?_ hmiddle
      · rw [hdeeds]
        simp
      · rw [hentries, entries_append]
        exact List.append_nil _

/-- Whatever bytes arrive, what they ask to be approved is a proposal. -/
theorem dispatch_proposes {config : Config} {previous : Bytes}
    (hsession : before.session.Follows config.mode previous)
    (hheard : heard = Frame.transmitted config.mode raw previous) :
    Ends (dispatch config keys raw) before (Proposes keys config.mode raw heard before) := by
  apply dispatch_ends hsession
  case hunknown =>
    intro _ status
    trivial
  case hrun =>
    intro instruction frame middle hcommand hstore _ _ hmiddle
    have hfollows : middle.session.Follows config.mode previous := by
      rw [hmiddle]
      split
      · exact hsession
      · exact .closed
    apply (run_proposes hcommand hfollows hheard).imp
    intro result after hproposes
    apply hproposes.imp
    rintro prompt action ⟨hafter, hproposal⟩
    refine ⟨hafter.trans hstore, ?_⟩
    rw [hstore, hmiddle] at hproposal
    split at hproposal
    · exact hproposal
    · exact hproposal.of_blank _

end Command

/-- A frame whose command asks for approval leaves the action behind its prompt. -/
theorem Signer.receive_confirm {σ : Type} [Store σ] {signer : Signer σ} {keys : KeyProvider}
    {raw : Bytes} {prompt : Prompt} {action : PendingAction} {after : Workspace σ}
    (hdispatch : Command.dispatch signer.config keys raw signer.cancelPending =
      .ok (.confirm prompt action) after) :
    signer.receive keys raw = (⟨signer.config, after.session, some action, after.store⟩,
      .prompt prompt, after.journal) := by
  rw [receive, hdispatch]

namespace Transition

variable {σ : Type} [Store σ]

/-- The frame of a step has shown a prompt and left its action to be approved. -/
structure Asks (asked : Transition σ) (raw : Bytes) (prompt : Prompt) (action : PendingAction) :
    Prop where
  framed : asked.turn.stimulus = .frame raw
  dispatched : ∃ made, Command.dispatch asked.before.config asked.turn.keys raw
    asked.before.cancelPending = .ok (.confirm prompt action) made
  shown : asked.outcome = some (.prompt prompt)
  unstored : asked.after.store = asked.before.store
  proposal : Proposal asked.turn.keys asked.before.config.mode raw asked.before.session
    asked.record asked.heard prompt action

end Transition

namespace Scene

variable {σ : Type} [BreakableStore σ] {scene : Scene σ}

/-- What waits after a step has been asked for by the frame of that step. -/
theorem Sound.asks (hsound : scene.Sound) {turn : Turn} {action : PendingAction}
    (hpending : (scene.play turn).after.pending = some action) :
    ∃ raw prompt, (scene.play turn).Asks raw prompt action := by
  obtain ⟨raw, prompt, made, hframe, hdispatch, hshown, _⟩ := hsound.prompted hpending
  have hmeet := hsound.meet turn
  have hsession : (scene.meet turn).cancelPending.session = scene.signer.session :=
    Signer.cancelPending_session hmeet
  obtain ⟨hstore, hproposal⟩ :=
    (Command.dispatch_proposes (hsound.follows turn) (scene.heard_play_frame hframe)).ok hdispatch
  rw [hsession, Signer.cancelPending_store] at hproposal
  rw [Signer.cancelPending_store] at hstore
  refine ⟨raw, prompt, ?_, ⟨made, ?_⟩, hshown, ?_, ?_⟩
  · rw [play_turn]
    exact hframe
  · rw [play_before, play_turn]
    exact hdispatch
  · rw [play_before, (play_frame scene hframe).1, Signer.receive_confirm hdispatch]
    exact hstore
  · rw [Transition.record, play_before, play_turn]
    exact hproposal

/-- What waits at some time of a run has been asked for by the frame just before. -/
theorem asked_of_pending {config : Config} {store : σ} {earlier : List Turn}
    {action : PendingAction}
    (hpending : ((start config store).follow earlier).signer.pending = some action) :
    ∃ asked raw prompt, ((start config store).trace earlier).getLast? = some asked ∧
      asked.Asks raw prompt action ∧ asked.scene = (start config store).follow earlier ∧
      asked.before.config = config := by
  -- Nothing waits at the start, so there is a step before this time.
  rcases List.eq_nil_or_concat earlier with rfl | ⟨front, last, rfl⟩
  · cases hpending
  · rw [List.concat_eq_append] at hpending ⊢
    have hscene : (start config store).follow (front ++ [last]) =
        (((start config store).follow front).play last).scene := by
      rw [follow_append]
      rfl
    rw [hscene] at hpending
    obtain ⟨raw, prompt, hasks⟩ := ((sound_start config store).follow front).asks hpending
    refine ⟨_, raw, prompt, getLast?_trace_concat _ _ _, hasks, hscene.symm, ?_⟩
    rw [play_before]
    exact follow_config config store front

end Scene

end TezosSigner
