import TezosSigner.Proofs.Chunk

/-!
# What a frame leads to

Besides reading and logging, a frame can do three things: remove the baking key,
make a keyed hash, and have a consensus message signed behind the guard. It
leaves a session that still follows the host, or none. An action that needs
approval leaves no session, and if it signs, it signs what was transmitted.
-/

namespace TezosSigner

open Hash

/-- A workspace once a frame has been noted by its header and its length. -/
def Workspace.noting {σ : Type} (workspace : Workspace σ) (instruction : Instruction)
    (p1 p2 : UInt8) (length : Nat) : Workspace σ :=
  { workspace with
    journal := workspace.journal ++ [.log (.dispatched instruction p1 p2 length)] }

namespace Command

variable {σ : Type}

/-- What a command asks to be approved is a prompt with an action that belongs to it. -/
def Offers (offer : Prompt → PendingAction → Prop) (command : Command σ Reaction) : Prop :=
  ∀ before, Ends command before fun result _ => Confirms offer result

section Offers

variable {offer : Prompt → PendingAction → Prop}

theorem offers_reply (payload : Bytes) :
    Offers offer (pure (.reply payload) : Command σ Reaction) :=
  fun _ => trivial

theorem offers_throw (status : Status) : Offers offer (throw status : Command σ Reaction) :=
  fun _ => trivial

theorem offers_confirm {prompt : Prompt} {action : PendingAction} (hoffer : offer prompt action) :
    Offers offer (pure (.confirm prompt action) : Command σ Reaction) :=
  fun _ => hoffer

/-- What follows a command offers what it offers with the values that the command may have. -/
theorem Offers.bind_of {β : Type} {first : Command σ β} {may : β → Prop}
    {next : β → Command σ Reaction}
    (hfirst : ∀ before, Ends first before fun result _ => ∀ value, result = .ok value → may value)
    (hnext : ∀ value, may value → Offers offer (next value)) : Offers offer (first >>= next) := by
  intro before
  rw [ends_bind]
  apply (hfirst before).imp
  intro result middle hmay
  cases result with
  | ok value => exact hnext value (hmay value rfl) middle
  | error status => trivial

/-- Only what comes last in a sequence asks. -/
theorem Offers.bind {β : Type} {first : Command σ β} {next : β → Command σ Reaction}
    (hnext : ∀ value, Offers offer (next value)) : Offers offer (first >>= next) := by
  intro before
  rw [ends_bind]
  unfold Ends
  cases first before with
  | ok value middle => exact hnext value middle
  | error status middle => trivial

theorem Offers.ite {condition : Prop} [Decidable condition] {yes no : Command σ Reaction}
    (hyes : Offers offer yes) (hno : Offers offer no) :
    Offers offer (if condition then yes else no) := by
  split
  · exact hyes
  · exact hno

theorem offers_ofExcept_bind {β : Type} {result : Except Status β}
    {next : β → Command σ Reaction}
    (hnext : ∀ value, result = .ok value → Offers offer (next value)) :
    Offers offer (ofExcept result >>= next) := by
  cases result with
  | error status => exact offers_throw status
  | ok value => exact hnext value rfl

theorem offers_require_bind {condition : Bool} {status : Status} {next : Unit → Command σ Reaction}
    (hnext : condition = true → Offers offer (next ())) :
    Offers offer (require condition status >>= next) := by
  cases condition with
  | false => exact offers_throw status
  | true => exact hnext rfl

end Offers

/-- A command never asks for a signature to be approved. -/
def Unplanned (command : Command σ Reaction) : Prop :=
  ∀ before, Ends command before fun result _ =>
    Confirms (fun _ action => ∀ plan, action ≠ .sign plan) result

theorem unplanned_reply (payload : Bytes) :
    Unplanned (pure (.reply payload) : Command σ Reaction) :=
  offers_reply payload

theorem unplanned_confirm {prompt : Prompt} {action : PendingAction}
    (haction : ∀ plan, action ≠ .sign plan) :
    Unplanned (pure (.confirm prompt action) : Command σ Reaction) :=
  offers_confirm haction

theorem Unplanned.bind {β : Type} {first : Command σ β} {next : β → Command σ Reaction}
    (hnext : ∀ value, Unplanned (next value)) : Unplanned (first >>= next) :=
  Offers.bind hnext

theorem unplanned_providePublicKey (keys : KeyProvider) (display : Bool) (p1 p2 : UInt8)
    (data : Bytes) : Unplanned (providePublicKey keys display p1 p2 data : Command σ Reaction) := by
  apply Unplanned.bind
  intro named
  dsimp only
  split
  next =>
    apply unplanned_confirm
    intro plan hplan
    cases hplan
  next => exact unplanned_reply _

theorem unplanned_authorizeBaking (keys : KeyProvider) (p1 p2 : UInt8) (data : Bytes) :
    Unplanned (authorizeBaking keys p1 p2 data : Command σ Reaction) := by
  apply Unplanned.bind
  intro named
  apply unplanned_confirm
  intro plan hplan
  cases hplan

theorem unplanned_reset (data : Bytes) : Unplanned (reset data : Command σ Reaction) := by
  refine .bind fun _ => .bind fun _ => unplanned_confirm fun plan hplan => ?_
  cases hplan

theorem unplanned_setup (keys : KeyProvider) (p1 p2 : UInt8) (data : Bytes) :
    Unplanned (setup keys p1 p2 data : Command σ Reaction) := by
  refine .bind fun _ => .bind fun _ => .bind fun _ => .bind fun _ => .bind fun _ =>
    unplanned_confirm fun plan hplan => ?_
  cases hplan

end Command

/-- What a frame may store, and what it may have signed. -/
inductive FrameDeed {σ : Type} [Store σ] (config : Config) (session : Session) (raw : Bytes)
    (heard : Bytes) (store : σ) : σ → List Event → Prop where
  | none : FrameDeed config session raw heard store store []
  | keyRemoved {frame : Frame} {after : σ}
      (command : Frame.understood? config.mode raw = some (.deauthorize, frame))
      (parameter : frame.p1 = 0) (data : frame.data = [])
      (saved : Store.save (Store.load store).checked.deauthorize store = .ok after) :
      FrameDeed config session raw heard store after
        [.stored (Store.load store).checked.deauthorize]
  | keyedHash {frame : Frame} {key : KeyId} {message : Bytes}
      (command : Frame.understood? config.mode raw = some (.hmac, frame))
      (parameter : frame.p1 = 0) (read : KeyId.read frame.p2 frame.data = .ok (key, message)) :
      FrameDeed config session raw heard store store [.signing key Command.hmacSeed]
  | consensus {request : SigningRequest} {key : KeyId} {data : ConsensusData} {state : BakingState}
      {after : σ} (baking : config.mode = .baking)
      (chunk : SigningRequest.ofBytes? config.mode raw = some request)
      (position : request.position = 0x01) (last : request.isLast = true)
      (opened : session.key = some key)
      (consensus : (MessageClass.ofBytes heard).consensus? = some data)
      (loaded : (Store.load store).checked = state)
      (authorized : state.authorizes key = true)
      (allowed : state.allows (state.chainFor data.chainId) data.level data.isEndorsement = true)
      (saved : Store.save (state.raised data) store = .ok after)
      (short : request.data.length ≤ Frame.maxDataLength)
      (fits : heard.length ≤ MessageBuffer.capacity) :
      FrameDeed config session raw heard store after
        [.stored (state.raised data), .signing key (blake2b256 heard).val]

/-- What is done without a session can be done in any. -/
theorem FrameDeed.of_blank {σ : Type} [Store σ] {config : Config} {raw heard : Bytes}
    {before after : σ} {done : List Event}
    (hdeed : FrameDeed config .blank raw heard before after done) (session : Session) :
    FrameDeed config session raw heard before after done := by
  cases hdeed with
  | none => exact .none
  | keyRemoved hcommand hparameter hdata hsaved =>
      exact .keyRemoved hcommand hparameter hdata hsaved
  | keyedHash hcommand hparameter hread => exact .keyedHash hcommand hparameter hread
  | consensus _ _ _ _ hopened => cases hopened

/-- What a frame leaves of the session, and what it may leave to be approved. -/
def Leaves (keys : KeyProvider) (mode : Mode) (heard : Bytes) :
    Except Status Reaction → Session → Prop
  | .ok (.reply _), session => session.Follows mode heard
  | .ok (.confirm prompt action), session =>
      session = .blank ∧ ∀ plan, action = .sign plan → plan.Reviewed prompt keys mode heard
  | .error _, session => session.reset = .blank

theorem leaves_blank {keys : KeyProvider} {mode : Mode} {heard : Bytes}
    {result : Except Status Reaction}
    (hreviewed : Confirms
      (fun prompt action => ∀ plan, action = .sign plan → plan.Reviewed prompt keys mode heard)
      result) : Leaves keys mode heard result .blank := by
  cases result with
  | error status => exact Session.reset_blank
  | ok reaction =>
      cases reaction with
      | reply payload => exact .closed
      | confirm prompt action => exact ⟨rfl, hreviewed⟩

namespace Command

variable {σ : Type} [Store σ] {config : Config} {keys : KeyProvider} {before : Workspace σ}
  {raw heard : Bytes}

/-- A frame leads to one of its deeds and leaves what it may. -/
def Answers (keys : KeyProvider) (config : Config) (raw heard : Bytes) (before : Workspace σ)
    (result : Except Status Reaction) (after : Workspace σ) : Prop :=
  Leaves keys config.mode heard result after.session ∧
    ∃ done, deeds after.journal = deeds before.journal ++ done ∧
      FrameDeed config before.session raw heard before.store after.store done

theorem answers_of_quiet {result : Except Status Reaction} {after : Workspace σ}
    (hstore : after.store = before.store) (hdeeds : deeds after.journal = deeds before.journal)
    (hleaves : Leaves keys config.mode heard result after.session) :
    Answers keys config raw heard before result after := by
  refine ⟨hleaves, [], by rw [hdeeds, List.append_nil], ?_⟩
  rw [hstore]
  exact .none

/-- A quiet command that plans no signature leaves a closed session closed. -/
theorem Quiet.answers {command : Command σ Reaction} (hquiet : Quiet command)
    (hunplanned : Unplanned command) (hblank : before.session = .blank) :
    Ends command before (Answers keys config raw heard before) := by
  apply ((hquiet before).and (hunplanned before)).imp
  intro result after hends
  have hsession : after.session = .blank := hends.1.session_eq.trans hblank
  refine answers_of_quiet hends.1.store_eq hends.1.deeds_eq ?_
  rw [hsession]
  exact leaves_blank (hends.2.imp fun _ action hnone plan hplan => absurd hplan (hnone plan))

theorem deauthorize_answers {frame : Frame}
    (hcommand : Frame.understood? config.mode raw = some (.deauthorize, frame))
    (hblank : before.session = .blank) :
    Ends (deauthorize frame.p1 frame.data) before (Answers keys config raw heard before) := by
  have hquiet (result : Except Status Reaction) (after : Workspace σ)
      (hlogged : before.Logged after) (hresult : ∃ status, result = .error status) :
      Answers keys config raw heard before result after := by
    obtain ⟨status, rfl⟩ := hresult
    refine answers_of_quiet hlogged.store_eq hlogged.deeds_eq ?_
    rw [hlogged.session_eq, hblank]
    exact Session.reset_blank
  simp only [deauthorize, ends_bind, ends_require, ends_loadState, ends_saveState, ends_pure]
  refine ⟨fun hparameter => ⟨fun hdata => ?_, fun _ => ?_⟩, fun _ => ?_⟩
  · split
    next store hsave =>
      refine ⟨?_, _, ?_, .keyRemoved hcommand (beq_iff_eq.mp hparameter)
        (List.isEmpty_iff.mp hdata) hsave⟩
      · change Session.Follows _ before.session _
        rw [hblank]
        exact .closed
      · simp
    next =>
      exact hquiet _ _ (Workspace.Logged.log before (isNotice_of_mem_loadingLogs _)) ⟨_, rfl⟩
  · exact hquiet _ _ (Workspace.Logged.refl before) ⟨_, rfl⟩
  · exact hquiet _ _ (Workspace.Logged.refl before) ⟨_, rfl⟩

theorem hmac_answers {frame : Frame}
    (hcommand : Frame.understood? config.mode raw = some (.hmac, frame))
    (hblank : before.session = .blank) :
    Ends (hmac keys frame.p1 frame.p2 frame.data) before
      (Answers keys config raw heard before) := by
  have hfailure (status : Status) :
      Answers keys config raw heard before (.error status) before := by
    refine answers_of_quiet rfl rfl ?_
    rw [hblank]
    exact Session.reset_blank
  simp only [hmac, ends_bind, ends_require, ends_ofExcept]
  refine ⟨fun hparameter => ⟨fun _ => ?_, fun _ => hfailure _⟩, fun _ => hfailure _⟩
  cases hread : KeyId.read frame.p2 frame.data with
  | error status => exact hfailure status
  | ok named =>
      obtain ⟨key, message⟩ := named
      have hdeed : FrameDeed config before.session raw heard before.store before.store
          [.signing key hmacSeed] := .keyedHash hcommand (beq_iff_eq.mp hparameter) hread
      simp only [ends_sign]
      split
      next signature _ =>
        refine ⟨?_, _, by simp, hdeed⟩
        change Session.Follows _ before.session _
        rw [hblank]
        exact .closed
      next =>
        refine ⟨?_, _, by simp, hdeed⟩
        change before.session.reset = _
        rw [hblank]
        exact Session.reset_blank

/-- Behind the guard a consensus message is signed once its mark has been stored. -/
theorem signConsensus_ends {key : KeyId} {data : ConsensusData} {plan : SigningPlan}
    {state : BakingState} {post : Except Status Reaction → Workspace σ → Prop}
    (hkey : plan.key = key) (hasks : plan.asks = true)
    (hstate : (Store.load before.store).checked = state)
    (hrefused : ∀ status after, before.Logged after → post (.error status) after)
    (hsigned : ∀ result after, Confirms (fun _ _ => False) result →
      after.session = before.session →
      deeds after.journal = deeds before.journal ++
        [.stored (state.raised data), .signing key plan.payload.bytes] →
      state.authorizes key = true →
      state.allows (state.chainFor data.chainId) data.level data.isEndorsement = true →
      Store.save (state.raised data) before.store = .ok after.store → post result after) :
    Ends (do
      authorizeAndCommit key data
      return .reply (← execute keys plan)) before post := by
  rw [ends_bind]
  apply authorizeAndCommit_ends hstate
  case hrefused =>
    intro status after hlogged
    exact hrefused status after hlogged
  case hstored =>
    intro store middle hlogged hauth hallows hsave
    simp only [ends_bind, execute_ends, hasks]
    refine ⟨fun hnone => absurd hnone Bool.true_eq_false.mp, fun _ => ?_⟩
    have hdeeds := hlogged.deeds_eq
    cases hsign : keys.sign plan.key plan.payload.bytes with
    | ok signature =>
        exact hsigned _ _ trivial rfl (by simp [hkey, hdeeds]) hauth hallows hsave
    | error status => exact hsigned _ _ trivial rfl (by simp [hkey, hdeeds]) hauth hallows hsave

/-- The last chunk leads to a prompt, to a failure or, for a baker, to a consensus signature. -/
theorem complete_answers {request : SigningRequest} {key : KeyId} {session : Session}
    (hrequest : SigningRequest.ofBytes? config.mode raw = some request)
    (hcontinues : request.continues config.mode) (hlast : request.isLast = true)
    (hshort : request.data.length ≤ Frame.maxDataLength)
    (hopened : before.session.key = some key) (hcollects : session.buffer.Collects heard)
    (hform : config.mode = .baking → session.hashOnly = false) :
    Ends (complete config.mode keys key request.kind session)
      { before with session := session.reset } (Answers keys config raw heard before) := by
  -- The session is reset before the message is looked at, so it is blank at any end.
  have hreset : session.reset = .blank := Session.reset_eq_blank hcollects.toHolds
  rw [hreset]
  apply complete_ends hcollects
  case hquiet =>
    intro result after hlogged hplan
    refine answers_of_quiet hlogged.store_eq hlogged.deeds_eq ?_
    rw [hlogged.session_eq]
    apply leaves_blank
    apply hplan.imp
    rintro _ _ ⟨planned, rfl, _, hreviewed⟩ plan hplanned
    cases hplanned
    exact hreviewed
  case hconsensus =>
    intro data hbaking hfits hdata
    apply signConsensus_ends rfl (SigningPlan.asks_replyForm (hform hbaking) key _ _) rfl
    case hrefused =>
      intro status after hlogged
      refine answers_of_quiet hlogged.store_eq hlogged.deeds_eq ?_
      rw [hlogged.session_eq]
      exact Session.reset_blank
    case hsigned =>
      intro result after hresult hafter hdeeds hauthorizes hallows hsave
      have hposition := SigningRequest.position_of_continues (hbaking ▸ hcontinues)
      refine ⟨?_, _, hdeeds, .consensus hbaking hrequest hposition hlast hopened hdata rfl
        hauthorizes hallows hsave hshort hfits⟩
      rw [hafter]
      exact leaves_blank (hresult.imp fun _ _ => False.elim)

/-- A chunk is kept, or completes the message. -/
theorem takeChunk_answers {request : SigningRequest} {previous : Bytes}
    (hrequest : SigningRequest.ofBytes? config.mode raw = some request)
    (hheard : request.continuing previous = heard)
    (hsession : before.session.Follows config.mode previous) :
    Ends (takeChunk config.mode keys request) before (Answers keys config raw heard before) := by
  have hfailure (status : Status) (after : Workspace σ) (hstore : after.store = before.store)
      (hdeeds : deeds after.journal = deeds before.journal)
      (hreset : after.session.reset = .blank) :
      Answers keys config raw heard before (.error status) after :=
    answers_of_quiet hstore hdeeds hreset
  simp only [takeChunk, ends_bind, ends_require]
  refine ⟨fun hshort => (ends_ite _ _ _).mpr ⟨fun hfirst => ?_, fun hfurther => ?_⟩, fun _ => ?_⟩
  · rw [SigningRequest.continuing, if_pos hfirst] at hheard
    subst hheard
    rw [ends_bind, openSession_ends]
    split
    next =>
      refine answers_of_quiet rfl rfl ?_
      rw [hsession.reset_eq]
      exact .collecting MessageBuffer.collects_empty fun _ => rfl
    next => exact hfailure _ _ rfl rfl (by rw [hsession.reset_eq]; exact Session.reset_blank)
    next => exact hfailure _ _ rfl rfl (by rw [hsession.reset_eq]; exact Session.reset_blank)
  · rw [SigningRequest.continuing, if_neg hfurther] at hheard
    subst hheard
    obtain ⟨session, store, journal⟩ := before
    cases hsession with
    | closed =>
        -- No key has been named, so the chunk fails whatever it carries.
        apply continueSession_ends
        case hparam =>
          intro _
          exact hfailure _ _ rfl rfl Session.reset_blank
        case hclosed =>
          intro _
          exact hfailure _ _ rfl rfl (Session.reset_eq_blank MessageBuffer.holds_empty)
        all_goals
          intro _ _ _ hkey
          cases hkey
    | @collecting key buffer hashOnly _ hcollects hform =>
        have hreply (hbaking : config.mode = .baking) :
            (hashOnly || decide (request.asksDigest config.mode)) = false := by
          rw [hform hbaking, hbaking, Bool.false_or]
          exact decide_eq_false request.not_asksDigest_baking
        apply continueSession_ends
        case hparam =>
          intro _
          exact hfailure _ _ rfl rfl (Session.reset_eq_blank hcollects.toHolds)
        case hclosed =>
          intro hkey
          cases hkey
        case hrefused =>
          intro named cause refused hkey hrefused
          have hholds : refused.Holds previous := hcollects.toHolds.append_refused hrefused
          refine hfailure _ _ rfl ?_ (Session.reset_eq_blank hholds)
          rw [deeds_append]
          split <;> exact List.append_nil _
        case hnext =>
          intro named longer hcontinues hkey hlonger hnext
          exact answers_of_quiet rfl rfl (.collecting (hcollects.append hlonger) hreply)
        case hlast =>
          intro named longer hcontinues hkey hlonger hlast
          cases hkey
          exact complete_answers hrequest hcontinues hlast (of_decide_eq_true hshort) rfl
            (hcollects.append hlonger) hreply
  · exact hfailure _ _ rfl rfl hsession.reset_eq

omit [Store σ] in
/-- Only a chunk comes into an open session; any other instruction closes it. -/
theorem abandonSession_ends {instruction : Instruction} {mode : Mode} {previous : Bytes}
    {session : Session} {store : σ} {journal : List Event}
    (hsession : session.Follows mode previous) :
    Ends (abandonSession instruction) ⟨session, store, journal⟩ fun result after =>
      result = .ok () ∧ after.store = store ∧ deeds after.journal = deeds journal ∧
        entries after.journal = entries journal ∧
        after.session = if instruction.isSigning then session else .blank := by
  simp only [abandonSession, ends_bind, ends_getSession, ends_ite]
  refine ⟨fun habandoned => ?_, fun hkept => ?_⟩
  · rw [Bool.and_eq_true, Bool.not_eq_true'] at habandoned
    rw [ends_log]
    refine (ends_resetSession).mpr ⟨rfl, rfl, by simp, ?_, ?_⟩
    · rw [entries_append]
      exact List.append_nil _
    rw [habandoned.1, if_neg Bool.false_ne_true]
    exact hsession.reset_eq
  · refine (ends_pure _).mpr ⟨rfl, rfl, rfl, rfl, ?_⟩
    cases hsigning : instruction.isSigning with
    | true => rfl
    | false =>
        cases hsession with
        | closed => rfl
        | collecting => exact absurd (by rw [hsigning]; rfl) hkept

/-- Every instruction is answered as the session that it finds allows. -/
theorem run_answers {instruction : Instruction} {frame : Frame} {previous : Bytes}
    (hcommand : Frame.understood? config.mode raw = some (instruction, frame))
    (hblank : instruction.isSigning = false → before.session = .blank)
    (hsession : before.session.Follows config.mode previous)
    (hheard : heard = Frame.transmitted config.mode raw previous) :
    Ends (run config keys frame instruction) before (Answers keys config raw heard before) := by
  cases instruction with
  | version => exact (quiet_pure _).answers (unplanned_reply _) (hblank rfl)
  | commit => exact (quiet_pure _).answers (unplanned_reply _) (hblank rfl)
  | publicKey display =>
      exact (quiet_providePublicKey keys display _ _ _).answers
        (unplanned_providePublicKey keys display _ _ _) (hblank rfl)
  | authorizeBaking =>
      exact (quiet_authorizeBaking keys _ _ _).answers (unplanned_authorizeBaking keys _ _ _)
        (hblank rfl)
  | sign kind =>
      have hrequest : SigningRequest.ofBytes? config.mode raw =
          some ⟨kind, frame.p1, frame.p2, frame.data⟩ := by
        rw [SigningRequest.ofBytes?, hcommand]
      refine takeChunk_answers hrequest ?_ hsession
      rw [hheard, Frame.transmitted, hrequest]
  | reset => exact (quiet_reset _).answers (unplanned_reset _) (hblank rfl)
  | setup => exact (quiet_setup keys _ _ _).answers (unplanned_setup keys _ _ _) (hblank rfl)
  | deauthorize => exact deauthorize_answers hcommand (hblank rfl)
  | queryKey => exact quiet_queryKey.answers (.bind fun _ => unplanned_reply _) (hblank rfl)
  | queryKeyWithCurve =>
      exact quiet_queryKeyWithCurve.answers (.bind fun _ => unplanned_reply _) (hblank rfl)
  | queryMainMark =>
      exact quiet_queryMainMark.answers (.bind fun _ => unplanned_reply _) (hblank rfl)
  | queryAllMarks =>
      exact quiet_queryAllMarks.answers (.bind fun _ => unplanned_reply _) (hblank rfl)
  | hmac => exact hmac_answers hcommand (hblank rfl)

section Frames

variable {instruction : Instruction} {frame : Frame}
  {post : Except Status Reaction → Workspace σ → Prop}

/-- Bytes that are not understood fail with the same status on every workspace. -/
theorem dispatch_unknown (keys : KeyProvider)
    (hunknown : Frame.understood? config.mode raw = none) :
    ∃ status, ∀ (before : Workspace σ) (post : Except Status Reaction → Workspace σ → Prop),
      post (.error status) before → Ends (dispatch config keys raw) before post := by
  unfold Frame.understood? at hunknown
  split at hunknown
  next frame hframe =>
    split at hunknown
    next => cases hunknown
    next status hcode =>
      refine ⟨status, fun before post hpost => ?_⟩
      simp only [dispatch, hframe, hcode, ends_bind, ends_ofExcept]
      exact hpost
  next status hframe =>
    refine ⟨status, fun before post hpost => ?_⟩
    simp only [dispatch, hframe, ends_bind, ends_ofExcept]
    exact hpost

/-- A frame that is understood is noted by its header and its length before it is run. -/
theorem dispatch_understood_ends
    (hcommand : Frame.understood? config.mode raw = some (instruction, frame)) :
    Ends (dispatch config keys raw) before post ↔
      Ends (abandonSession instruction >>= fun _ => run config keys frame instruction)
        (before.noting instruction frame.p1 frame.p2 frame.data.length) post := by
  unfold Frame.understood? at hcommand
  split at hcommand
  next found hframe =>
    split at hcommand
    next known hcode =>
      cases hcommand
      simp only [dispatch, hframe, hcode, ends_bind, ends_ofExcept, ends_log, Workspace.noting]
    next => cases hcommand
  next => cases hcommand

/-- A chunk is taken in the session that it finds. -/
theorem dispatch_request_ends {request : SigningRequest}
    (hrequest : SigningRequest.ofBytes? config.mode raw = some request) :
    Ends (dispatch config keys raw) before post ↔
      Ends (takeChunk config.mode keys request)
        (before.noting (.sign request.kind) request.p1 request.p2 request.data.length) post := by
  unfold SigningRequest.ofBytes? at hrequest
  split at hrequest
  next kind frame hcommand =>
    cases hrequest
    rw [dispatch_understood_ends hcommand]
    rfl
  next => cases hrequest

end Frames

/-- Whatever bytes arrive, they lead to one of the deeds of a frame. -/
theorem dispatch_answers (keys : KeyProvider) {previous : Bytes}
    (hsession : before.session.Follows config.mode previous)
    (hheard : heard = Frame.transmitted config.mode raw previous) :
    Ends (dispatch config keys raw) before (Answers keys config raw heard before) := by
  cases hcommand : Frame.understood? config.mode raw with
  | none =>
      obtain ⟨status, hfails⟩ := dispatch_unknown (σ := σ) keys hcommand
      exact hfails before _ (answers_of_quiet rfl rfl hsession.reset_eq)
  | some command =>
      obtain ⟨instruction, frame⟩ := command
      rw [dispatch_understood_ends hcommand, ends_bind]
      apply (abandonSession_ends hsession).imp
      intro result middle hmiddle
      obtain ⟨rfl, hstore, hdeeds, _, hmiddle⟩ := hmiddle
      have hfollows : middle.session.Follows config.mode previous := by
        rw [hmiddle]
        split
        · exact hsession
        · exact .closed
      refine (run_answers hcommand (fun hsigning => ?_) hfollows hheard).imp
        fun result after hanswers => ?_
      · rw [hmiddle, hsigning, if_neg Bool.false_ne_true]
      · obtain ⟨hleaves, done, hafter, hdeed⟩ := hanswers
        -- The deed was done in the session that was kept, and is told of the one found.
        refine ⟨hleaves, done, ?_, ?_⟩
        · rw [hafter, hdeeds]
          simp
        · rw [hstore, hmiddle] at hdeed
          split at hdeed
          · exact hdeed
          · exact hdeed.of_blank _

end Command

end TezosSigner
