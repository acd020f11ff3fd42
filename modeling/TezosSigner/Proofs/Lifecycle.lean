import TezosSigner.Key.Simulated
import TezosSigner.Proofs.Approval
import TezosSigner.Proofs.Chunking

/-!
# The life of a session

A first chunk that is taken opens a session for the key that it names, and every further
chunk but the last prolongs it. Anything else closes it: the last chunk, a failure,
another instruction, a prompt, an answer. Only an answer that finds nothing waiting
changes nothing. So the latest step besides such answers tells whether a session is
open, and whether an action waits.
-/

namespace TezosSigner

open Command

namespace Command

variable {σ α β : Type}

/-- A command that leaves the session as it was. -/
def KeepsSession (command : Command σ α) : Prop :=
  ∀ before, Ends command before fun _ after => after.session = before.session

theorem Quiet.keepsSession {command : Command σ α} (hquiet : Quiet command) :
    KeepsSession command :=
  fun before => (hquiet before).imp fun _ _ hlogged => hlogged.session_eq

theorem KeepsSession.bind {first : Command σ β} {next : β → Command σ α}
    (hfirst : KeepsSession first) (hnext : ∀ value, KeepsSession (next value)) :
    KeepsSession (first >>= next) := by
  intro before
  rw [ends_bind]
  apply (hfirst before).imp
  intro result middle hmiddle
  cases result with
  | error status => exact hmiddle
  | ok value => exact (hnext value middle).imp fun _ _ hafter => hafter.trans hmiddle

theorem KeepsSession.ite {condition : Prop} [Decidable condition] {yes no : Command σ α}
    (hyes : KeepsSession yes) (hno : KeepsSession no) :
    KeepsSession (if condition then yes else no) := by
  split
  · exact hyes
  · exact hno

theorem keepsSession_pure (value : α) : KeepsSession (pure value : Command σ α) :=
  (quiet_pure value).keepsSession

theorem keepsSession_require (condition : Bool) (status : Status) :
    KeepsSession (require condition status : Command σ Unit) :=
  (quiet_require condition status).keepsSession

theorem keepsSession_sign (keys : KeyProvider) (key : KeyId) (message : Bytes) :
    KeepsSession (sign keys key message : Command σ Signature) :=
  fun _ => (ends_sign keys key message).mpr rfl

theorem keepsSession_execute (keys : KeyProvider) (plan : SigningPlan) :
    KeepsSession (execute keys plan : Command σ Bytes) := by
  intro before
  refine execute_ends.mpr ⟨fun _ => rfl, fun _ => rfl⟩

variable [Store σ]

theorem keepsSession_saveState (state : BakingState) (event : LogEvent) :
    KeepsSession (saveState state event : Command σ Unit) := by
  intro before
  rw [ends_saveState]
  split <;> rfl

theorem keepsSession_authorizeAndCommit (key : KeyId) (data : ConsensusData) :
    KeepsSession (authorizeAndCommit key data : Command σ Unit) :=
  quiet_loadState.keepsSession.bind fun _ =>
    .ite
      (.ite ((quiet_ofExcept _).keepsSession.bind fun _ => keepsSession_saveState _ _)
        ((quiet_log rfl).bind fun _ => quiet_throw _).keepsSession)
      ((quiet_log rfl).bind fun _ => quiet_throw _).keepsSession

/-- The session is over before a message is completed, and completing it opens none. -/
theorem keepsSession_complete (mode : Mode) (keys : KeyProvider) (key : KeyId)
    (kind : SigningKind) (session : Session) :
    KeepsSession (complete mode keys key kind session : Command σ Reaction) := by
  cases mode with
  | wallet =>
      exact .ite (quiet_reviewUnhashed key session).keepsSession
        (quiet_reviewOperation keys key kind session).keepsSession
  | baking =>
      unfold complete completeBaking
      dsimp only
      split
      next => exact (quiet_throw _).keepsSession
      next message _ =>
        split
        next data _ =>
          exact (keepsSession_authorizeAndCommit key data).bind fun _ =>
            (keepsSession_execute keys _).bind fun _ => keepsSession_pure _
        next =>
          exact .ite (quiet_reviewSelfDelegation keys _ message).keepsSession
            (quiet_throw _).keepsSession

theorem keepsSession_run (config : Config) (keys : KeyProvider) (frame : Frame)
    {instruction : Instruction} (hinstruction : instruction.isSigning = false) :
    KeepsSession (run config keys frame instruction : Command σ Reaction) := by
  cases instruction with
  | sign kind => cases hinstruction
  | version => exact keepsSession_pure _
  | commit => exact keepsSession_pure _
  | publicKey display => exact (quiet_providePublicKey keys display _ _ _).keepsSession
  | authorizeBaking => exact (quiet_authorizeBaking keys _ _ _).keepsSession
  | reset => exact (quiet_reset _).keepsSession
  | setup => exact (quiet_setup keys _ _ _).keepsSession
  | queryKey => exact quiet_queryKey.keepsSession
  | queryKeyWithCurve => exact quiet_queryKeyWithCurve.keepsSession
  | queryMainMark => exact quiet_queryMainMark.keepsSession
  | queryAllMarks => exact quiet_queryAllMarks.keepsSession
  | deauthorize =>
      exact (keepsSession_require _ _).bind fun _ => (keepsSession_require _ _).bind fun _ =>
        quiet_loadState.keepsSession.bind fun _ => (keepsSession_saveState _ _).bind fun _ =>
          keepsSession_pure _
  | hmac =>
      exact (keepsSession_require _ _).bind fun _ => (keepsSession_require _ _).bind fun _ =>
        (quiet_ofExcept _).keepsSession.bind fun _ => (keepsSession_sign keys _ _).bind fun _ =>
          keepsSession_pure _

theorem keepsSession_perform (keys : KeyProvider) (action : PendingAction) :
    KeepsSession (perform keys action : Command σ Bytes) := by
  cases action with
  | sign plan => exact keepsSession_execute keys plan
  | providePublicKey publicKey => exact keepsSession_pure _
  | authorizeBaking key publicKey =>
      exact (quiet_loadState.keepsSession.bind fun _ => keepsSession_saveState _ _).bind fun _ =>
        keepsSession_pure _
  | setup setup publicKey =>
      exact (quiet_loadState.keepsSession.bind fun _ => keepsSession_saveState _ _).bind fun _ =>
        keepsSession_pure _
  | reset level =>
      exact (quiet_loadState.keepsSession.bind fun _ => keepsSession_saveState _ _).bind fun _ =>
        keepsSession_pure _

end Command

/-- What a frame makes of the session that it finds. -/
inductive Session.Moves (request? : Option SigningRequest) (found : Session) :
    Except Status Reaction → Session → Prop where
  | opened {request : SigningRequest} {key : KeyId} {rest : Bytes} {left : Session}
      (carried : request? = some request) (first : request.position = 0x00)
      (read : KeyId.read request.p2 request.data = .ok (key, rest)) (named : left.key = some key) :
      Moves request? found (.ok (.reply [])) left
  | prolonged {request : SigningRequest} {key : KeyId} {left : Session}
      (carried : request? = some request) (further : request.position ≠ 0x00)
      (more : request.isLast = false) (known : found.key = some key) (kept : left.key = some key) :
      Moves request? found (.ok (.reply [])) left
  | closed {result : Except Status Reaction} {left : Session}
      (last : ∀ request, request? = some request →
        request.position ≠ 0x00 ∧ request.isLast = true ∧ found.isOpen = true)
      (ended : ∀ reaction, result = .ok reaction → left.key = none) :
      Moves request? found result left
  | refused {status : Status} {left : Session} (failed : status ≠ .ok) :
      Moves request? found (.error status) left

namespace Command

variable {σ : Type} [Store σ] {before : Workspace σ} {config : Config} {keys : KeyProvider}

theorem takeChunk_moves {mode : Mode} {request : SigningRequest} :
    Ends (takeChunk mode keys request) before fun result after =>
      Session.Moves (some request) before.session result after.session := by
  simp only [takeChunk, ends_bind, ends_require, ends_ite]
  refine ⟨fun _ => ⟨fun hfirst => ?_, fun hfurther => ?_⟩, fun _ => .refused (by decide)⟩
  · rw [openSession_ends]
    split
    next path rest curve hpath hcurve =>
      have hread : KeyId.read request.p2 request.data = .ok (⟨curve, path⟩, rest) := by
        rw [KeyId.read, hcurve, hpath]
        rfl
      exact .opened rfl hfirst hread rfl
    next hpath => exact .refused (status_ne_ok_of_read hpath)
    next hcurve => exact .refused (status_ne_ok_of_parameter hcurve)
  · apply continueSession_ends
    case hparam =>
      intro _
      exact .refused (by decide)
    case hclosed =>
      intro _
      exact .refused (by decide)
    case hrefused =>
      intros
      exact .refused (by decide)
    case hnext =>
      intro key longer _ hkey _ hmore
      exact .prolonged rfl hfurther hmore hkey hkey
    case hlast =>
      intro key longer _ hkey _ hlast
      apply (keepsSession_complete mode keys key request.kind _ _).imp
      intro result after hafter
      have hopen : before.session.isOpen = true := by rw [Session.isOpen, hkey]; rfl
      refine .closed (fun asked hasked => ?_) fun _ _ => by rw [hafter]; rfl
      cases hasked
      exact ⟨hfurther, hlast, hopen⟩

/-- Whatever bytes arrive, only a chunk that is taken leaves a session open. -/
theorem dispatch_moves (keys : KeyProvider) {raw previous : Bytes}
    (hsession : before.session.Follows config.mode previous) :
    Ends (dispatch config keys raw) before fun result after =>
      Session.Moves (SigningRequest.ofBytes? config.mode raw) before.session result
        after.session := by
  apply dispatch_ends hsession
  case hunknown =>
    intro hunknown status
    refine .closed (fun request hrequest => ?_) nofun
    rw [SigningRequest.ofBytes?, hunknown] at hrequest
    cases hrequest
  case hrun =>
    intro instruction frame middle hcommand _ _ _ hmiddle
    cases hsigning : instruction.isSigning with
    | false =>
        rw [hsigning, if_neg Bool.false_ne_true] at hmiddle
        apply (keepsSession_run config keys frame hsigning middle).imp
        intro result after hafter
        refine .closed (fun request hrequest => ?_) fun _ _ => by rw [hafter, hmiddle]; rfl
        rw [SigningRequest.ofBytes?_eq_none hcommand hsigning] at hrequest
        cases hrequest
    | true =>
        rw [hsigning, if_pos rfl] at hmiddle
        cases instruction with
        | sign kind =>
            rw [SigningRequest.ofBytes?, hcommand, ← hmiddle]
            exact takeChunk_moves
        | _ => cases hsigning

end Command

namespace Transition

variable {σ : Type}

/-- An answer has come while nothing waited for one. -/
def isIdle (step : Transition σ) : Bool :=
  match step.turn.stimulus with
  | .answer _ => step.before.pending.isNone
  | .frame _ => false

/-- The latest step of a run besides idle answers. -/
def latest? (run : List (Transition σ)) : Option (Transition σ) :=
  (run.filter (!·.isIdle)).getLast?

theorem latest?_concat (run : List (Transition σ)) (step : Transition σ) :
    latest? (run ++ [step]) = if step.isIdle then latest? run else some step := by
  unfold latest?
  rw [List.filter_append]
  cases hidle : step.isIdle <;> simp [hidle]

theorem request?_of_idle {step : Transition σ} (hidle : step.isIdle = true) :
    step.request? = none := by
  unfold isIdle at hidle
  unfold request?
  split at hidle
  next hanswer => rw [hanswer]
  next => cases hidle

/-- A frame was answered with success, and it was a first chunk or a further one that is not
marked as the last. -/
structure Takes (step : Transition σ) (request : SigningRequest) : Prop where
  carried : step.request? = some request
  answered : ∃ payload, step.outcome = some (.reply (.success payload))
  kept : request.position = 0x00 ∨ request.isLast = false

/-- A first chunk was taken that names a key. -/
structure Begins (step : Transition σ) (request : SigningRequest) (key : KeyId) : Prop extends
    step.Takes request where
  first : request.position = 0x00
  read : ∃ rest, KeyId.read request.p2 request.data = .ok (key, rest)

/-- The payload of the chunk that a step has transmitted. -/
def payload (step : Transition σ) : Bytes :=
  (step.request?.map (·.data)).getD []

/-- A run has gathered a message for a key: since the latest first chunk, which names the key,
nothing has happened but further chunks that were taken and idle answers. -/
def Gathers (run : List (Transition σ)) (key : KeyId) (message : Bytes) : Prop :=
  ∃ earlier opening behind request, run = earlier ++ opening :: behind ∧
    opening.Begins request key ∧
    (∀ step ∈ behind, step.isIdle = true ∨
      ∃ further, step.Takes further ∧ further.position ≠ 0x00) ∧
    message = behind.flatMap payload

theorem Gathers.concat {run : List (Transition σ)} {key : KeyId} {message : Bytes}
    (hgathers : Gathers run key message) {step : Transition σ}
    (hstep : step.isIdle = true ∨ ∃ further, step.Takes further ∧ further.position ≠ 0x00) :
    Gathers (run ++ [step]) key (message ++ step.payload) := by
  obtain ⟨earlier, opening, behind, request, rfl, hbegins, hbehind, rfl⟩ := hgathers
  refine ⟨earlier, opening, behind ++ [step], request, ?_, hbegins, ?_, ?_⟩
  · rw [List.append_assoc, List.cons_append]
  · intro later hlater
    rcases List.mem_append.mp hlater with hlater | hlater
    · exact hbehind later hlater
    · rw [List.mem_singleton.mp hlater]
      exact hstep
  · rw [List.flatMap_append, List.flatMap_singleton]

/-- What a step makes of the session and of what waits, where something has been heard so far. -/
inductive Moves (step : Transition σ) (heard : Bytes) : Prop where
  | idle (idle : step.isIdle = true) (outcome : step.outcome = none)
      (unchanged : step.after = step.before) (hears : step.heard = heard)
  | opened {request : SigningRequest} {key : KeyId} (busy : step.isIdle = false)
      (begins : step.Begins request key) (named : step.after.session.key = some key)
      (waits : step.after.pending = none) (hears : step.heard = [])
  | prolonged {request : SigningRequest} {key : KeyId} (busy : step.isIdle = false)
      (takes : step.Takes request) (further : request.position ≠ 0x00)
      (known : step.before.session.key = some key) (kept : step.after.session.key = some key)
      (waits : step.after.pending = none) (hears : step.heard = heard ++ request.data)
  | closed (busy : step.isIdle = false)
      (last : ∀ request, step.request? = some request →
        request.position ≠ 0x00 ∧ request.isLast = true ∧ step.before.session.isOpen = true)
      (ended : step.after.session.key = none)
      (waits : step.after.pending.isSome = true ↔ ∃ prompt, step.outcome = some (.prompt prompt))
  | refused {status : Status} (busy : step.isIdle = false) (failed : status ≠ .ok)
      (outcome : step.outcome = some (.reply (.failure status)))
      (ended : step.after.session.key = none) (waits : step.after.pending = none)

end Transition

/-- Whatever an answer leads to, it closes the session. -/
theorem Signer.answer_closes {σ : Type} [Store σ] {signer : Signer σ} {action : PendingAction}
    (keys : KeyProvider) (approved : Bool) (hpending : signer.pending = some action) :
    (signer.answer keys approved).1.session.key = none := by
  unfold answer
  rw [hpending]
  dsimp only
  split <;> rfl

namespace Scene

variable {σ : Type} [BreakableStore σ] {scene : Scene σ}

theorem Sound.moves_frame (hsound : scene.Sound) {turn : Turn} {raw : Bytes}
    (hframe : turn.stimulus = .frame raw) : (scene.play turn).Moves scene.heard := by
  have hmoves : Ends (dispatch (scene.meet turn).config turn.keys raw)
      (scene.meet turn).cancelPending _ := dispatch_moves turn.keys (hsound.follows turn)
  rw [Signer.cancelPending_session (hsound.meet turn)] at hmoves
  have hturn : (scene.play turn).turn.stimulus = .frame raw := by rw [play_turn]; exact hframe
  have hbusy : (scene.play turn).isIdle = false := by rw [Transition.isIdle, hturn]
  have hrequest : (scene.play turn).request? =
      SigningRequest.ofBytes? (scene.meet turn).config.mode raw := by
    rw [Transition.request?_eq hturn, play_before]
  have hheard (request : SigningRequest) (hcarried : (scene.play turn).request? = some request) :
      (scene.play turn).heard = request.continuing scene.heard := by
    rw [hrequest] at hcarried
    rw [heard_play_frame scene hframe, Frame.transmitted,
      show SigningRequest.ofBytes? scene.signer.config.mode raw = some request from hcarried]
  have hbefore : (scene.play turn).before.session = scene.signer.session := by
    rw [play_before]
    rfl
  obtain ⟨hafter, houtcome⟩ := scene.play_frame hframe
  have hclosed (hlast : ∀ request, (scene.play turn).request? = some request →
        request.position ≠ 0x00 ∧ request.isLast = true ∧ scene.signer.session.isOpen = true)
      (hended : (scene.play turn).after.session.key = none)
      (hwaits : (scene.play turn).after.pending.isSome = true ↔
        ∃ prompt, (scene.play turn).outcome = some (.prompt prompt)) :
      (scene.play turn).Moves scene.heard :=
    .closed hbusy (by rw [hbefore]; exact hlast) hended hwaits
  rw [← hrequest] at hmoves
  rcases Signer.receive_ends hmoves with ⟨payload, after, hends, hreceive⟩ |
    ⟨prompt, action, after, hends, _, hreceive⟩ | ⟨status, after, hends, hreceive⟩
  all_goals rw [hreceive] at hafter houtcome
  · cases hends with
    | opened hcarried hfirst hread hnamed =>
        refine .opened hbusy ⟨⟨hcarried, ⟨_, houtcome⟩, Or.inl hfirst⟩, hfirst, _, hread⟩ ?_ ?_ ?_
        · rw [hafter]
          exact hnamed
        · rw [hafter]
        · rw [hheard _ hcarried, SigningRequest.continuing, if_pos hfirst]
    | prolonged hcarried hfurther hmore hknown hkept =>
        refine .prolonged hbusy ⟨hcarried, ⟨_, houtcome⟩, Or.inr hmore⟩ hfurther
          (hbefore ▸ hknown) ?_ ?_ ?_
        · rw [hafter]
          exact hkept
        · rw [hafter]
        · rw [hheard _ hcarried, SigningRequest.continuing, if_neg hfurther]
    | closed hlast hended =>
        exact hclosed hlast (by rw [hafter]; exact hended _ rfl) (by rw [hafter, houtcome]; simp)
  · cases hends with
    | closed hlast hended =>
        exact hclosed hlast (by rw [hafter]; exact hended _ rfl) (by rw [hafter, houtcome]; simp)
  · cases hends with
    | closed hlast _ =>
        exact hclosed hlast (by rw [hafter]; rfl) (by rw [hafter, houtcome]; simp)
    | refused hfailed =>
        exact .refused hbusy hfailed houtcome (by rw [hafter]; rfl) (by rw [hafter])

theorem moves_answer (scene : Scene σ) {turn : Turn} {approved : Bool}
    (hanswer : turn.stimulus = .answer approved) : (scene.play turn).Moves scene.heard := by
  have hturn : (scene.play turn).turn.stimulus = .answer approved := by
    rw [play_turn]
    exact hanswer
  have hidle : (scene.play turn).isIdle = scene.signer.pending.isNone := by
    rw [Transition.isIdle, hturn, play_before]
    rfl
  cases hpending : scene.signer.pending with
  | none =>
      rw [hpending] at hidle
      obtain ⟨houtcome, hafter, _⟩ := scene.play_idle hanswer hpending
      refine .idle hidle houtcome hafter ?_
      unfold play
      rw [hanswer]
  | some action =>
      rw [hpending] at hidle
      obtain ⟨⟨response, houtcome⟩, hnone⟩ := scene.play_answered hanswer hpending
      refine .closed hidle (fun request hcarried => ?_) ?_ ?_
      · rw [Transition.request?, hturn] at hcarried
        cases hcarried
      · rw [(scene.play_answer hanswer).1]
        exact Signer.answer_closes _ _ hpending
      · rw [hnone, houtcome]
        simp

/-- Every step either leaves all as it was, or takes a chunk, or closes the session. -/
theorem Sound.moves (hsound : scene.Sound) (turn : Turn) :
    (scene.play turn).Moves scene.heard := by
  cases hstimulus : turn.stimulus with
  | frame raw => exact hsound.moves_frame hstimulus
  | answer approved => exact scene.moves_answer hstimulus

/-- A response that is no success has no payload. -/
theorem payload_of_failed (scene : Scene σ) (turn : Turn) {response : Response}
    (hreply : (scene.play turn).outcome = some (.reply response))
    (hfailed : response.status ≠ .ok) :
    response.payload = [] := by
  revert hreply
  unfold play
  split
  next raw _ =>
    dsimp only [Signer.receive]
    split <;> rintro ⟨⟩
    next => exact absurd rfl hfailed
    next => rfl
  next approved _ =>
    dsimp only [Signer.answer]
    split
    next => rintro ⟨⟩
    next =>
      split <;> rintro ⟨⟩
      next => exact absurd rfl hfailed
      next => rfl

/-- A scene is what the steps of a run have made of it: whether a session is open and whether an
action waits is told by the latest step besides idle answers. -/
structure ToldBy (scene : Scene σ) (run : List (Transition σ)) : Prop where
  opened : scene.signer.session.isOpen = true ↔
    ∃ step request, Transition.latest? run = some step ∧ step.Takes request
  gathers : ∀ key, scene.signer.session.key = some key → Transition.Gathers run key scene.heard
  waits : scene.signer.pending.isSome = true ↔
    ∃ step prompt, Transition.latest? run = some step ∧ step.outcome = some (.prompt prompt)

section Concat

variable {run : List (Transition σ)} {step : Transition σ}

omit [BreakableStore σ] in
/-- A step that is no idle answer tells everything anew. -/
theorem toldBy_busy (hbusy : step.isIdle = false)
    (hopened : step.after.session.isOpen = true ↔ ∃ request, step.Takes request)
    (hgathers : ∀ key, step.after.session.key = some key →
      Transition.Gathers (run ++ [step]) key step.heard)
    (hwaits : step.after.pending.isSome = true ↔ ∃ prompt, step.outcome = some (.prompt prompt)) :
    step.scene.ToldBy (run ++ [step]) := by
  have hlatest : Transition.latest? (run ++ [step]) = some step := by
    rw [Transition.latest?_concat, hbusy, if_neg Bool.false_ne_true]
  refine ⟨?_, hgathers, ?_⟩
  · rw [hlatest]
    simpa [Transition.scene] using hopened
  · rw [hlatest]
    simpa [Transition.scene] using hwaits

omit [BreakableStore σ] in
theorem toldBy_taken {request : SigningRequest} {key : KeyId} (hbusy : step.isIdle = false)
    (htakes : step.Takes request) (hkey : step.after.session.key = some key)
    (hnone : step.after.pending = none)
    (hgathers : Transition.Gathers (run ++ [step]) key step.heard) :
    step.scene.ToldBy (run ++ [step]) := by
  have hopen : step.after.session.isOpen = true := by
    rw [Session.isOpen, hkey]
    rfl
  obtain ⟨_, hanswered⟩ := htakes.answered
  refine toldBy_busy hbusy ⟨fun _ => ⟨request, htakes⟩, fun _ => hopen⟩ (fun named hnamed => ?_)
    (by rw [hnone, hanswered]; simp)
  rw [hkey] at hnamed
  cases hnamed
  exact hgathers

omit [BreakableStore σ] in
theorem toldBy_closed (hbusy : step.isIdle = false) (hnothing : ∀ request, ¬ step.Takes request)
    (hended : step.after.session.key = none)
    (hwaits : step.after.pending.isSome = true ↔ ∃ prompt, step.outcome = some (.prompt prompt)) :
    step.scene.ToldBy (run ++ [step]) := by
  refine toldBy_busy hbusy ⟨fun hopen => ?_, fun htakes => ?_⟩ (fun key hkey => ?_) hwaits
  · rw [Session.isOpen, hended] at hopen
    cases hopen
  · exact htakes.elim fun request hrequest => absurd hrequest (hnothing request)
  · rw [hended] at hkey
    cases hkey

/-- An idle answer changes nothing, and nothing that is told. -/
theorem ToldBy.idle (htold : scene.ToldBy run) {turn : Turn}
    (hidle : (scene.play turn).isIdle = true)
    (hunchanged : (scene.play turn).after = (scene.play turn).before)
    (hhears : (scene.play turn).heard = scene.heard) :
    (scene.play turn).scene.ToldBy (run ++ [scene.play turn]) := by
  have hlatest : Transition.latest? (run ++ [scene.play turn]) = Transition.latest? run := by
    rw [Transition.latest?_concat, hidle, if_pos rfl]
  have hscene : (scene.play turn).scene = ⟨scene.meet turn, scene.heard⟩ := by
    rw [Transition.scene, hunchanged, hhears, play_before]
  rw [hscene]
  refine ⟨?_, fun key hkey => ?_, ?_⟩
  · rw [hlatest]
    exact htold.opened
  · have hgathers := (htold.gathers key hkey).concat (Or.inl hidle)
    rw [Transition.payload, Transition.request?_of_idle hidle] at hgathers
    rw [← List.append_nil scene.heard]
    exact hgathers
  · rw [hlatest]
    exact htold.waits

theorem ToldBy.concat (htold : scene.ToldBy run) {turn : Turn}
    (hmoves : (scene.play turn).Moves scene.heard) :
    (scene.play turn).scene.ToldBy (run ++ [scene.play turn]) := by
  cases hmoves with
  | idle hidle _ hunchanged hhears => exact htold.idle hidle hunchanged hhears
  | @opened request key hbusy hbegins hnamed hnone hhears =>
      refine toldBy_taken hbusy hbegins.toTakes hnamed hnone ?_
      exact ⟨run, _, [], request, rfl, hbegins, List.forall_mem_nil _, hhears⟩
  | @prolonged request key hbusy htakes hfurther hknown hkept hnone hhears =>
      have hkey : scene.signer.session.key = some key := by
        rw [play_before] at hknown
        exact hknown
      have hpayload : (scene.play turn).payload = request.data := by
        rw [Transition.payload, htakes.carried]
        rfl
      refine toldBy_taken hbusy htakes hkept hnone ?_
      rw [hhears, ← hpayload]
      exact (htold.gathers key hkey).concat (Or.inr ⟨request, htakes, hfurther⟩)
  | closed hbusy hlast hended hwaits =>
      refine toldBy_closed hbusy (fun request htakes => ?_) hended hwaits
      obtain ⟨hfurther, hmarked, _⟩ := hlast request htakes.carried
      rcases htakes.kept with hfirst | hmore
      · exact hfurther hfirst
      · exact Bool.true_eq_false.mp (hmarked.symm.trans hmore)
  | refused hbusy hfailed houtcome hended hnone =>
      refine toldBy_closed hbusy (fun request htakes => ?_) hended (by rw [hnone, houtcome]; simp)
      obtain ⟨payload, hanswered⟩ := htakes.answered
      have hresponse := Outcome.reply.inj (Option.some.inj (houtcome.symm.trans hanswered))
      exact hfailed (congrArg Response.status hresponse)

end Concat

/-- At any time of a run, the steps so far tell what there is. -/
theorem follow_toldBy (config : Config) (store : σ) (turns : List Turn) :
    ((start config store).follow turns).ToldBy ((start config store).trace turns) := by
  -- The last step is taken off, since it is the one that tells what there is.
  induction turns using List.reverseRecOn with
  | nil =>
      refine ⟨⟨nofun, ?_⟩, nofun, ⟨nofun, ?_⟩⟩ <;>
        rintro ⟨_, _, hlatest, _⟩ <;>
        cases hlatest
  | append_singleton turns turn ih =>
      rw [follow_append, trace_append]
      exact ih.concat (((sound_start config store).follow turns).moves turn)

/-- A further chunk fails where no session is open. -/
theorem Sound.further_refused (hsound : scene.Sound) {turn : Turn} {request : SigningRequest}
    (hrequest : (scene.play turn).request? = some request) (hfurther : request.position ≠ 0x00)
    (hclosed : (scene.play turn).before.session.isOpen = false) :
    ∃ status, status ≠ .ok ∧ (scene.play turn).outcome = some (.reply (.failure status)) := by
  cases hsound.moves turn with
  | idle hidle =>
      rw [Transition.request?_of_idle hidle] at hrequest
      cases hrequest
  | opened _ hbegins =>
      cases hrequest.symm.trans hbegins.carried
      exact absurd hbegins.first hfurther
  | prolonged _ _ _ hknown =>
      rw [Session.isOpen, hknown] at hclosed
      cases hclosed
  | closed _ hlast =>
      exact absurd ((hlast request hrequest).2.2.symm.trans hclosed) Bool.true_eq_false.mp
  | refused _ hfailed houtcome => exact ⟨_, hfailed, houtcome⟩

/-- Whatever fails leaves no session and nothing waiting. -/
theorem Sound.blank_of_failed (hsound : scene.Sound) {turn : Turn} {response : Response}
    (hreply : (scene.play turn).outcome = some (.reply response))
    (hfailed : response.status ≠ .ok) :
    (scene.play turn).after.session = .blank ∧ (scene.play turn).after.pending = none := by
  have hblank (hended : (scene.play turn).after.session.key = none) :
      (scene.play turn).after.session = .blank :=
    (hsound.play turn).2.1.session.blank_of_closed hended
  have htaken {request : SigningRequest} (htakes : (scene.play turn).Takes request) : False := by
    obtain ⟨payload, hanswered⟩ := htakes.answered
    have hresponse := Outcome.reply.inj (Option.some.inj (hreply.symm.trans hanswered))
    exact hfailed (congrArg Response.status hresponse)
  cases hsound.moves turn with
  | idle _ houtcome =>
      rw [houtcome] at hreply
      cases hreply
  | opened _ hbegins => exact (htaken hbegins.toTakes).elim
  | prolonged _ htakes => exact (htaken htakes).elim
  | refused _ _ _ hended hnone => exact ⟨hblank hended, hnone⟩
  | closed _ _ hended hwaits =>
      refine ⟨hblank hended, Option.not_isSome_iff_eq_none.mp fun hwaiting => ?_⟩
      obtain ⟨prompt, hprompt⟩ := hwaits.mp hwaiting
      cases hreply.symm.trans hprompt

end Scene

/-- After every step of every run, a session is open exactly if the latest step besides idle
answers was a frame answered with success that carried a first chunk, or a further one not
marked as the last. Its key is then the one that the latest first chunk named, and its buffer
has collected just what was transmitted since. Any other session is as it was created. An
action waits exactly if that latest step has shown a prompt, and never beside an open
session. A further chunk without a session fails, and whatever fails has no payload and
leaves no session and no action. -/
theorem session_lifecycle {σ : Type} [BreakableStore σ] (config : Config) (store : σ)
    (turns : List Turn) :
    let run := (Scene.start config store).trace turns
    let signer := ((Scene.start config store).follow turns).signer
    (signer.session.isOpen = true ↔
      ∃ step request, Transition.latest? run = some step ∧ step.Takes request) ∧
    (signer.session.isOpen = true → ∃ key message, Transition.Gathers run key message ∧
      signer.session.key = some key ∧ signer.session.buffer.Collects message) ∧
    (signer.session.isOpen = false → signer.session = .blank) ∧
    (signer.pending.isSome = true ↔
      ∃ step prompt, Transition.latest? run = some step ∧ step.outcome = some (.prompt prompt)) ∧
    (signer.pending.isSome = true → signer.session.isOpen = false) ∧
    ∀ step ∈ run,
      (∀ request, step.request? = some request → request.position ≠ 0x00 →
        step.before.session.isOpen = false →
        ∃ status, status ≠ .ok ∧ step.outcome = some (.reply (.failure status))) ∧
      ∀ response, step.outcome = some (.reply response) → response.status ≠ .ok →
        response.payload = [] ∧ step.after.session = .blank ∧ step.after.pending = none := by
  intro run signer
  have htold := Scene.follow_toldBy config store turns
  have hsound := (Scene.sound_start config store).follow turns
  refine ⟨htold.opened, fun hopen => ?_, fun hclosed => ?_, htold.waits, fun hwaiting => ?_,
    fun step hstep => ?_⟩
  · obtain ⟨key, hkey⟩ := Option.isSome_iff_exists.mp hopen
    exact ⟨key, _, htold.gathers key hkey, hkey, hsound.session.collects hkey⟩
  · have hnone : signer.session.key = none :=
      Option.isNone_iff_eq_none.mp (Option.isSome_eq_false_iff.mp hclosed)
    exact hsound.session.blank_of_closed hnone
  · rw [hsound.closed hwaiting]
    rfl
  · obtain ⟨earlier, turn, rfl⟩ := Scene.exists_of_mem_trace hstep
    have hearlier := (Scene.sound_start config store).follow earlier
    refine ⟨fun request => hearlier.further_refused, fun response hreply hfailed => ?_⟩
    exact ⟨Scene.payload_of_failed _ turn hreply hfailed, hearlier.blank_of_failed hreply hfailed⟩

/-- An idle answer leaves a session open that has gathered two bytes, and the next query closes
it. -/
theorem session_lifecycle_idle :
    let turn (stimulus : Stimulus) : Turn := ⟨Simulated.provider, false, stimulus⟩
    let start : Scene MemoryStore := .start (.ofMode .baking) (.ofState .fresh)
    let turns : List Turn :=
      [turn (.frame [0x80, 0x04, 0x00, 0x00, 5, 1, 0x80, 0, 0, 0]),
        turn (.frame [0x80, 0x04, 0x01, 0x00, 2, 0x03, 0x2A]), turn (.answer true)]
    let query : Turn := turn (.frame [0x80, 0x00, 0x00, 0x00, 0])
    let signer := (start.follow turns).signer
    (signer.session.isOpen = true ∧ ∃ key message,
      Transition.Gathers (start.trace turns) key message ∧ signer.session.key = some key ∧
        signer.session.buffer.Collects message) ∧
      (start.follow (turns ++ [query])).signer.session = .blank := by
  intro turn start turns query signer
  have hopen : signer.session.isOpen = true := by decide +kernel
  have hclosed : (start.follow (turns ++ [query])).signer.session.isOpen = false := by
    decide +kernel
  exact ⟨⟨hopen, (session_lifecycle _ _ turns).2.1 hopen⟩,
    (session_lifecycle _ _ (turns ++ [query])).2.2.1 hclosed⟩

end TezosSigner
