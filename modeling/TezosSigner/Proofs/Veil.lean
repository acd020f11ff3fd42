import TezosSigner.Proofs.Audit
import TezosSigner.Proofs.Lifecycle
import TezosSigner.Proofs.Resident

/-!
# Raw messages are not disclosed

A wallet that is to sign a message as it is keeps it until it has been approved. Meanwhile
nothing but its length decides what happens: two runs that differ in the bytes of such
messages only are logged, answered and stored alike, and their prompts differ in the
hash that the user compares. So a log tells lengths and headers, and never what is signed.
-/

namespace TezosSigner

open Command

/-- A prompt without the hash that the review of a raw message shows. -/
def Prompt.redacted (prompt : Prompt) : Prompt :=
  if prompt.title = "Pre-hashed operation" then
    { prompt with fields := prompt.fields.map fun field =>
        if field.name = "Sign Hash" then { field with value := "" } else field }
  else prompt

/-- The status of a reply, or a prompt without the hash of a raw message. -/
def Outcome.redacted : Outcome → Outcome
  | .reply response => .reply ⟨[], response.status⟩
  | .prompt shown => .prompt shown.redacted

/-- What a step discloses besides the payload of its reply. -/
structure Disclosure (σ : Type) where
  records : List (LogLevel × String)
  outcome : Option Outcome
  /-- Whether an action is left to be approved. -/
  waits : Bool
  store : σ

def Transition.disclosure {σ : Type} (step : Transition σ) : Disclosure σ where
  records := records step.journal
  outcome := step.outcome.map .redacted
  waits := step.after.pending.isSome
  store := step.after.store

/-- Whether the keys refuse to sign, and with which status, does not depend on the bytes that are
to be signed. -/
def KeyProvider.Indifferent (keys : KeyProvider) : Prop :=
  ∀ key message message', message'.length = message.length →
    (keys.sign key message').map (fun _ => ()) = (keys.sign key message).map (fun _ => ())

/-- Simulated keys sign whatever they are given. -/
theorem Simulated.indifferent : provider.Indifferent := by
  have hencoded (r s : Hash.Digest) (odd : Bool) :
      (Signature.ofEncoded (encodePair (positive r.val) (positive s.val)) odd).map (fun _ => ()) =
        .ok () := by
    simp [encodePair, positive, Signature.ofEncoded, Signature.capacity, r.property, s.property,
      Except.map]
  have hsigns (key : KeyId) (message : Bytes) :
      (provider.sign key message).map (fun _ => ()) = .ok () := by
    show (sign key message).map (fun _ => ()) = .ok ()
    unfold sign
    cases key.curve with
    | ed25519 => rfl
    | secp256k1 => exact hencoded _ _ _
    | secp256r1 => exact hencoded _ _ _
  intro key message message' _
  rw [hsigns, hsigns]

namespace Turn

/-- A turn is the same as another, except that the payload of a further chunk that is to be signed
as it is may consist of as many other bytes. -/
inductive Varies : Turn → Turn → Prop where
  | same (turn : Turn) : Varies turn turn
  | chunk (keys : KeyProvider) (broken : Bool) {raw raw' : Bytes} {p1 p2 : UInt8}
      {data data' : Bytes}
      (carried : SigningRequest.ofBytes? .wallet raw = some ⟨.unhashed, p1, p2, data⟩)
      (varied : SigningRequest.ofBytes? .wallet raw' = some ⟨.unhashed, p1, p2, data'⟩)
      (further : p1 &&& 0x7F ≠ 0x00) (length : data'.length = data.length) :
      Varies ⟨keys, broken, .frame raw⟩ ⟨keys, broken, .frame raw'⟩

/-- A chunk that continues a session in this turn, if there is one, is to be signed as it is. -/
def Unhashed (turn : Turn) : Prop :=
  ∀ raw request, turn.stimulus = .frame raw →
    SigningRequest.ofBytes? .wallet raw = some request → request.continues .wallet →
    request.kind = .unhashed

end Turn

/-! ## What may differ -/

/-- Sessions that differ at most in the bytes of a message that is kept whole. -/
inductive Session.Veiled : Session → Session → Prop where
  | closed : Veiled .blank .blank
  | collecting {key : KeyId} {message message' : Bytes}
      (length : message'.length = message.length)
      (fits : message.length ≤ MessageBuffer.capacity) :
      Veiled (.keeping key message) (.keeping key message')

/-- Actions that differ at most in the bytes to be signed. -/
inductive PendingAction.Veiled : PendingAction → PendingAction → Prop where
  | same (action : PendingAction) : Veiled action action
  | raw {key : KeyId} {message message' : Bytes} (length : message'.length = message.length) :
      Veiled (.sign ⟨key, .raw message, .signature⟩) (.sign ⟨key, .raw message', .signature⟩)

/-- Signers that differ at most in the bytes of a raw message. While an action waits, no session is
open. -/
inductive Signer.Veiled {σ : Type} (config : Config) : Signer σ → Signer σ → Prop where
  | resting {session session' : Session} {store : σ} (veiled : session.Veiled session') :
      Veiled config ⟨config, session, none, store⟩ ⟨config, session', none, store⟩
  | waiting {action action' : PendingAction} {store : σ} (veiled : action.Veiled action') :
      Veiled config ⟨config, .blank, some action, store⟩ ⟨config, .blank, some action', store⟩

namespace Session.Veiled

variable {session session' : Session}

theorem reset_eq (hsession : session.Veiled session') :
    session.reset = .blank ∧ session'.reset = .blank := by
  cases hsession with
  | closed => exact ⟨reset_blank, reset_blank⟩
  | collecting hlength hfits =>
      exact ⟨reset_keeping _ hfits, reset_keeping _ (hlength.trans_le hfits)⟩

/-- A session for which nothing has been kept yet. -/
theorem opened (key : KeyId) : Veiled ⟨some key, .empty, false⟩ ⟨some key, .empty, false⟩ := by
  have hkeeping : keeping key [] = ⟨some key, .empty, false⟩ := by
    rw [keeping, MessageBuffer.whole_nil]
  rw [← hkeeping]
  exact .collecting rfl (Nat.zero_le _)

end Session.Veiled

/-- What an instruction that is no chunk finds: an open session is closed, and this is noted. -/
def Workspace.abandoned {σ : Type} (workspace : Workspace σ) : Workspace σ :=
  if workspace.session.isOpen then
    { workspace with
      session := workspace.session.reset
      journal := workspace.journal ++ [.log .sessionAbandoned] }
  else workspace

/-- Once a session has been closed, the bytes that it kept make no difference. -/
theorem Session.Veiled.abandoned {σ : Type} {session session' : Session}
    (hsession : session.Veiled session') (store : σ) (journal : List Event) :
    Workspace.abandoned ⟨session', store, journal⟩ = .abandoned ⟨session, store, journal⟩ ∧
      (Workspace.abandoned ⟨session, store, journal⟩).session = .blank := by
  obtain ⟨hreset, hreset'⟩ := hsession.reset_eq
  cases hsession with
  | closed => exact ⟨rfl, rfl⟩
  | collecting =>
      constructor
      · simp only [Workspace.abandoned, hreset, hreset']
        rfl
      · exact hreset

namespace SigningRequest

/-- Chunks that differ at most in the payload of a further chunk. -/
structure Varies (request other : SigningRequest) : Prop where
  header : other = { request with data := other.data }
  length : other.data.length = request.data.length
  first : request.position = 0x00 → other = request

theorem Varies.refl (request : SigningRequest) : request.Varies request :=
  ⟨rfl, rfl, fun _ => rfl⟩

/-- Only a message that is hashed can be asked for its digest alone. -/
theorem position_of_unhashed {request : SigningRequest} (hkind : request.kind = .unhashed)
    (hcontinues : request.continues .wallet) : request.position = 0x01 := by
  rcases hcontinues with ⟨_, hfold⟩ | hposition
  · rw [mayFold, hkind] at hfold
    cases hfold
  · exact hposition

/-- A further chunk of a raw message is a fragment, whatever keys are at hand. -/
theorem exists_fragment {request : SigningRequest} (keys : KeyProvider)
    (hkind : request.kind = .unhashed) (hposition : request.position = 0x01)
    (hshort : request.data.length ≤ Frame.maxDataLength) :
    ∃ (fragment : Fragment .wallet) (last : Bool), request = fragment.request last := by
  have hbits : ∀ p1 : UInt8, p1 &&& 0x7F = 0x01 →
      p1 = Piece.parameter false (p1 &&& 0x80 != 0) := by
    rintro ⟨bits⟩
    revert bits
    decide
  obtain ⟨kind, p1, p2, data⟩ := request
  cases hkind
  refine ⟨⟨keys, false, .unhashed, by decide, p2, data, hshort⟩, p1 &&& 0x80 != 0, ?_⟩
  exact congrArg (SigningRequest.mk _ · p2 data) (hbits p1 hposition)

end SigningRequest

/-- Of replies nothing but the status is left. -/
theorem Outcome.redacted_replies {response? response?' : Option Response}
    (hstatus : response?'.map Response.status = response?.map Response.status) :
    (response?'.map reply).map redacted = (response?.map reply).map redacted := by
  have hredacted (response? : Option Response) : (response?.map reply).map redacted =
      (response?.map Response.status).map fun status => reply ⟨[], status⟩ := by
    cases response? <;> rfl
  rw [hredacted, hredacted, hstatus]

/-- The status of a response depends on whether the signature was made, and not on its bytes. -/
theorem Response.status_ofResult {result result' : Except Status Signature}
    (hresult : result'.map (fun _ => ()) = result.map (fun _ => ())) :
    (ofResult (result'.map Signature.bytes)).status =
      (ofResult (result.map Signature.bytes)).status := by
  cases result <;> cases result' <;> cases hresult <;> rfl

namespace Signer

variable {σ : Type} {config : Config} {after after' : Workspace σ}

/-- Two signers have served their frames alike as far as it is disclosed, and still differ at most
in the bytes of a raw message. -/
structure ServedVeiled (config : Config) (one other : Signer σ × Outcome × List Event) :
    Prop where
  signer : Veiled config one.1 other.1
  outcome : other.2.1.redacted = one.2.1.redacted
  records : records other.2.2 = records one.2.2

theorem servedVeiled_error (status : Status) (hsession : after.session.reset = .blank)
    (hsession' : after'.session.reset = .blank) (hstore : after'.store = after.store)
    (hjournal : after'.journal = after.journal) :
    ServedVeiled config (served config (.error status) after)
      (served config (.error status) after') := by
  simp only [served, hsession, hsession', hstore, hjournal]
  exact ⟨.resting .closed, rfl, rfl⟩

theorem servedVeiled_reply (payload : Bytes) {session session' : Session} {store : σ}
    {journal : List Event} (hsession : session.Veiled session') :
    ServedVeiled config (served config (.ok (.reply payload)) ⟨session, store, journal⟩)
      (served config (.ok (.reply payload)) ⟨session', store, journal⟩) :=
  ⟨.resting hsession, rfl, rfl⟩

/-- What ends without a session is not told apart from itself. -/
theorem servedVeiled_self (result : Except Status Reaction) (hsession : after.session = .blank) :
    ServedVeiled config (served config result after) (served config result after) := by
  obtain ⟨session, store, journal⟩ := after
  cases hsession
  cases result with
  | error status => exact servedVeiled_error status Session.reset_blank Session.reset_blank rfl rfl
  | ok reaction =>
      cases reaction with
      | reply payload => exact servedVeiled_reply payload .closed
      | confirm prompt action => exact ⟨.waiting (.same action), rfl, rfl⟩

end Signer

namespace Command

variable {σ : Type}

/-- Two commands are served alike as far as it is disclosed. -/
def Veils (config : Config) (one other : Command σ Reaction) (before before' : Workspace σ) :
    Prop :=
  Ends one before fun result after => Ends other before' fun result' after' =>
    Signer.ServedVeiled config (Signer.served config result after)
      (Signer.served config result' after')

/-! ## Chunks -/

section Chunks

variable [Store σ] {config : Config} {keys : KeyProvider} {request : SigningRequest}
  {session session' : Session} {store : σ} {journal : List Event} {before : Workspace σ}
  {post : Except Status Reaction → Workspace σ → Prop}

theorem takeChunk_long_ends {mode : Mode} (hlong : ¬ request.data.length ≤ Frame.maxDataLength) :
    Ends (takeChunk mode keys request) before post ↔
      post (.error .wrongLengthForInstruction) before := by
  simp [takeChunk, hlong]

theorem takeChunk_first_ends {mode : Mode} (hshort : request.data.length ≤ Frame.maxDataLength)
    (hfirst : request.position = 0x00) :
    Ends (takeChunk mode keys request) before post ↔
      match Path.read request.data, Curve.ofParameter request.p2 with
      | .ok (path, _), .ok curve => post (.ok (.reply []))
          { before with session := { before.session.reset with key := some ⟨curve, path⟩ } }
      | .error status, _ | .ok _, .error status =>
          post (.error status) { before with session := before.session.reset } := by
  simp only [takeChunk, hshort, decide_true, ends_bind, ends_require, ends_ite, hfirst,
    openSession_ends]
  cases Path.read request.data <;> cases Curve.ofParameter request.p2 <;> simp

theorem takeChunk_misplaced_ends {mode : Mode}
    (hshort : request.data.length ≤ Frame.maxDataLength) (hfurther : request.position ≠ 0x00)
    (hnot : ¬ request.continues mode) :
    Ends (takeChunk mode keys request) before post ↔ post (.error .wrongParam) before := by
  simp [takeChunk, hshort, hfurther, continueSession, notePosition_ends, hnot]

omit [Store σ] in
/-- Only an Edwards key signs raw messages of any length. -/
theorem reviewUnhashed_ends {key : KeyId} {message : Bytes}
    (hfits : message.length ≤ MessageBuffer.capacity) :
    Ends (reviewUnhashed key (.keeping key message)) before post ↔
      if key.curve == .ed25519 || message.length == 32 then
        post (.ok (.confirm (.prehashed message) (.sign ⟨key, .raw message, .signature⟩))) before
      else post (.error .wrongLengthForInstruction) before := by
  have hmessage : (Session.keeping key message).buffer.message? = some message := by
    rw [Session.keeping, (MessageBuffer.collects_whole hfits).message?_eq, if_pos hfits]
  unfold reviewUnhashed
  rw [hmessage]
  simp only [ends_bind, ends_require, ends_pure]
  cases key.curve == .ed25519 || message.length == 32 <;> simp

omit [Store σ] in
/-- Two messages of the same length are reviewed alike. -/
theorem reviewUnhashed_veils {key : KeyId} {message message' : Bytes}
    (hlength : message'.length = message.length)
    (hfits : message.length ≤ MessageBuffer.capacity) :
    Veils config (reviewUnhashed key (.keeping key message))
      (reviewUnhashed key (.keeping key message')) ⟨.blank, store, journal⟩
      ⟨.blank, store, journal⟩ := by
  simp only [Veils, reviewUnhashed_ends hfits, reviewUnhashed_ends (hlength.trans_le hfits),
    hlength]
  split
  · exact ⟨.waiting (.raw hlength), rfl, rfl⟩
  · exact Signer.servedVeiled_error _ Session.reset_blank Session.reset_blank rfl rfl

/-- Two fragments of the same length are taken alike. -/
theorem takeChunk_fragment_veils {fragment fragment' : Fragment .wallet} {last : Bool}
    (hsession : session.Veiled session') (hlength : fragment'.data.length = fragment.data.length) :
    Veils config (takeChunk .wallet keys (fragment.request last))
      (takeChunk .wallet keys (fragment'.request last)) ⟨session, store, journal⟩
      ⟨session', store, journal⟩ := by
  cases hsession with
  | closed =>
      apply takeChunk_blank_ends
      apply takeChunk_blank_ends
      exact Signer.servedVeiled_error _ Session.reset_blank Session.reset_blank rfl rfl
  | @collecting key message message' hmessages hfits =>
      have hfits' : message'.length ≤ MessageBuffer.capacity := hmessages.trans_le hfits
      have hsame : (message' ++ fragment'.data).length = (message ++ fragment.data).length := by
        rw [List.length_append, List.length_append, hmessages, hlength]
      -- The lengths are the same, so the two fragments end in the same way out of three.
      apply takeChunk_fragment_ends hfits
      case hrefused =>
        intro hlong
        apply takeChunk_fragment_ends hfits'
        case hrefused =>
          intro _
          exact Signer.servedVeiled_error _ (Session.reset_keeping key hfits)
            (Session.reset_keeping key hfits') rfl rfl
        all_goals
          intro hshort
          exact absurd (hsame ▸ hshort) (Nat.not_le_of_lt hlong)
      case hnext =>
        intro hshort hmore
        apply takeChunk_fragment_ends hfits'
        case hrefused =>
          intro hlong
          exact absurd hshort (Nat.not_le_of_lt (hsame ▸ hlong))
        case hnext =>
          intro _ _
          exact Signer.servedVeiled_reply [] (.collecting hsame hshort)
        case hlast =>
          intro _ hlast
          cases hmore.symm.trans hlast
      case hlast =>
        intro hshort hlast
        rw [complete, if_pos (fragment.resident.mpr rfl)]
        apply (reviewUnhashed_veils hsame hshort).imp
        intro result after hother
        apply takeChunk_fragment_ends hfits'
        case hrefused =>
          intro hlong
          exact absurd hshort (Nat.not_le_of_lt (hsame ▸ hlong))
        case hnext =>
          intro _ hmore
          cases hmore.symm.trans hlast
        case hlast =>
          intro _ _
          rw [complete, if_pos (fragment'.resident.mpr rfl)]
          exact hother

/-- Two chunks that differ at most in the payload of a raw message are taken alike. -/
theorem takeChunk_veils {other : SigningRequest} (hsession : session.Veiled session')
    (hvaries : request.Varies other)
    (hunhashed : request.continues .wallet → request.kind = .unhashed) :
    Veils config (takeChunk .wallet keys request) (takeChunk .wallet keys other)
      ⟨session, store, journal⟩ ⟨session', store, journal⟩ := by
  obtain ⟨hother, hlength, hfirst⟩ := hvaries
  obtain ⟨hreset, hreset'⟩ := hsession.reset_eq
  have hposition : other.position = request.position := by rw [hother]; rfl
  unfold Veils
  by_cases hshort : request.data.length ≤ Frame.maxDataLength
  case neg =>
    rw [takeChunk_long_ends hshort, takeChunk_long_ends (hlength ▸ hshort)]
    exact Signer.servedVeiled_error _ hreset hreset' rfl rfl
  have hshort' : other.data.length ≤ Frame.maxDataLength := hlength.trans_le hshort
  by_cases hbegins : request.position = 0x00
  case pos =>
    rw [hfirst hbegins]
    simp only [takeChunk_first_ends hshort hbegins, hreset, hreset']
    cases hpath : Path.read request.data with
    | error status =>
        exact Signer.servedVeiled_error status Session.reset_blank Session.reset_blank rfl rfl
    | ok read =>
        cases hcurve : Curve.ofParameter request.p2 with
        | error status =>
            exact Signer.servedVeiled_error status Session.reset_blank Session.reset_blank rfl rfl
        | ok curve => exact Signer.servedVeiled_reply [] (.opened _)
  by_cases hcontinues : request.continues .wallet
  case neg =>
    have hnot : ¬ other.continues .wallet := by
      rw [hother]
      exact hcontinues
    rw [takeChunk_misplaced_ends hshort hbegins hcontinues,
      takeChunk_misplaced_ends hshort' (hposition ▸ hbegins) hnot]
    exact Signer.servedVeiled_error _ hreset hreset' rfl rfl
  have hkind := hunhashed hcontinues
  have hnext : request.position = 0x01 := SigningRequest.position_of_unhashed hkind hcontinues
  obtain ⟨fragment, last, hfragment⟩ := request.exists_fragment keys hkind hnext hshort
  obtain ⟨fragment', last', hfragment'⟩ :=
    other.exists_fragment keys (by rw [hother]; exact hkind) (hposition.trans hnext) hshort'
  have hlast : last' = last := by
    rw [← fragment'.isLast_request last', ← fragment.isLast_request last, ← hfragment',
      ← hfragment, hother]
    rfl
  subst hfragment hfragment' hlast
  exact takeChunk_fragment_veils hsession hlength

end Chunks

/-! ## Frames -/

section Frames

variable [Store σ] {config : Config} {keys : KeyProvider} {raw raw' : Bytes}
  {session session' : Session} {store : σ} {journal : List Event} {before : Workspace σ}
  {post : Except Status Reaction → Workspace σ → Prop}

/-- Any other instruction closes the session that it finds, and is then run. -/
theorem dispatch_other_ends {instruction : Instruction} {frame : Frame}
    (hcommand : Frame.understood? config.mode raw = some (instruction, frame))
    (hinstruction : instruction.isSigning = false) :
    Ends (dispatch config keys raw) before post ↔
      Ends (run config keys frame instruction)
        (before.noting instruction frame.p1 frame.p2 frame.data.length).abandoned post := by
  rw [dispatch_understood_ends hcommand]
  unfold Workspace.abandoned Workspace.noting
  cases hopen : before.session.isOpen <;> simp [abandonSession, hinstruction, hopen]

/-- An instruction that is no chunk comes to the same in every session. -/
theorem dispatch_other_veils {instruction : Instruction} {frame : Frame}
    (hcommand : Frame.understood? config.mode raw = some (instruction, frame))
    (hinstruction : instruction.isSigning = false) (hsession : session.Veiled session') :
    Veils config (dispatch config keys raw) (dispatch config keys raw) ⟨session, store, journal⟩
      ⟨session', store, journal⟩ := by
  simp only [Veils, dispatch_other_ends hcommand hinstruction]
  obtain ⟨hsame, hblank⟩ := hsession.abandoned store <|
    journal ++ [.log (.dispatched instruction frame.p1 frame.p2 frame.data.length)]
  rw [Workspace.noting, Workspace.noting, hsame]
  apply Ends.twice
  apply (keepsSession_run config keys frame hinstruction _).imp
  intro result after hafter
  exact Signer.servedVeiled_self result (hafter.trans hblank)

/-- A chunk and one that differs from it at most in the payload of a raw message are served
alike. -/
theorem dispatch_chunk_veils {request other : SigningRequest} (hwallet : config.mode = .wallet)
    (hsession : session.Veiled session')
    (hrequest : SigningRequest.ofBytes? config.mode raw = some request)
    (hvaried : SigningRequest.ofBytes? config.mode raw' = some other)
    (hvaries : request.Varies other)
    (hunhashed : request.continues .wallet → request.kind = .unhashed) :
    Veils config (dispatch config keys raw) (dispatch config keys raw') ⟨session, store, journal⟩
      ⟨session', store, journal⟩ := by
  have hnoted : Workspace.noting ⟨session', store, journal⟩ (.sign other.kind) other.p1 other.p2
      other.data.length =
        .noting ⟨session', store, journal⟩ (.sign request.kind) request.p1 request.p2
          request.data.length := by
    rw [hvaries.length, hvaries.header]
  simp only [Veils, dispatch_request_ends hrequest, dispatch_request_ends hvaried, hnoted, hwallet]
  exact takeChunk_veils hsession hvaries hunhashed

/-- A frame is served alike in sessions that differ at most in the bytes of a raw message. -/
theorem dispatch_veils (hwallet : config.mode = .wallet) (hsession : session.Veiled session')
    (hunhashed : ∀ request, SigningRequest.ofBytes? config.mode raw = some request →
      request.continues .wallet → request.kind = .unhashed) :
    Veils config (dispatch config keys raw) (dispatch config keys raw) ⟨session, store, journal⟩
      ⟨session', store, journal⟩ := by
  obtain ⟨hreset, hreset'⟩ := hsession.reset_eq
  cases hcommand : Frame.understood? config.mode raw with
  | none =>
      obtain ⟨status, hfails⟩ := dispatch_unknown (σ := σ) keys hcommand
      apply hfails
      apply hfails
      exact Signer.servedVeiled_error status hreset hreset' rfl rfl
  | some command =>
      obtain ⟨instruction, frame⟩ := command
      cases instruction with
      | sign kind =>
          have hrequest : SigningRequest.ofBytes? config.mode raw =
              some ⟨kind, frame.p1, frame.p2, frame.data⟩ := by
            rw [SigningRequest.ofBytes?, hcommand]
          exact dispatch_chunk_veils hwallet hsession hrequest hrequest (.refl _)
            (hunhashed _ hrequest)
      | _ => exact dispatch_other_veils hcommand rfl hsession

end Frames

end Command

/-! ## Answers -/

namespace Signer

variable {σ : Type} {config : Config} {keys : KeyProvider} {signer other : Signer σ}

theorem Veiled.config_eq (hveiled : signer.Veiled config other) :
    signer.config = config ∧ other.config = config := by
  cases hveiled <;> exact ⟨rfl, rfl⟩

theorem Veiled.left_eq (hveiled : signer.Veiled config other) :
    other.pending.isSome = signer.pending.isSome ∧ other.store = signer.store := by
  cases hveiled <;> exact ⟨rfl, rfl⟩

/-- Whatever waits is dropped alike. -/
theorem Veiled.cancelPending (hveiled : signer.Veiled config other) :
    ∃ (session session' : Session) (store : σ) (journal : List Event), session.Veiled session' ∧
      signer.cancelPending = ⟨session, store, journal⟩ ∧
      other.cancelPending = ⟨session', store, journal⟩ := by
  cases hveiled with
  | resting hsession => exact ⟨_, _, _, _, hsession, rfl, rfl⟩
  | waiting haction =>
      refine ⟨Session.blank.reset, Session.blank.reset, _, _, ?_, rfl, rfl⟩
      rw [Session.reset_blank]
      exact .closed

variable [Store σ]

/-- Frames that are served alike in every two sessions are received alike. -/
theorem Veiled.receive {raw raw' : Bytes} (hveiled : signer.Veiled config other)
    (hdispatch : ∀ {session session' : Session} {store : σ} {journal : List Event},
      session.Veiled session' → Veils config (dispatch config keys raw) (dispatch config keys raw')
        ⟨session, store, journal⟩ ⟨session', store, journal⟩) :
    ServedVeiled config (signer.receive keys raw) (other.receive keys raw') := by
  obtain ⟨session, session', store, journal, hsession, hone, hother⟩ := hveiled.cancelPending
  obtain ⟨hconfig, hconfig'⟩ := hveiled.config_eq
  have hserved := signer.receive_served keys raw
  have hserved' := other.receive_served keys raw'
  rw [hconfig, hone] at hserved
  rw [hconfig', hother] at hserved'
  obtain ⟨_, after, hreceive, hends⟩ := (hserved.and (hdispatch hsession)).exists
  obtain ⟨_, after', hreceive', hserves⟩ := (hserved'.and hends).exists
  rw [hreceive, hreceive']
  exact hserves

/-- Whatever an answer leads to, the signer is at rest behind it. -/
theorem answer_rests (config : Config) (keys : KeyProvider) (approved : Bool)
    (action : PendingAction) (store : σ) :
    ∃ store', (answer keys approved ⟨config, .blank, some action, store⟩).1 =
      ⟨config, .blank, none, store'⟩ := by
  cases approved with
  | false =>
      rw [answer_rejected keys rfl]
      exact ⟨store, congrArg (Signer.mk config · none store) Session.reset_blank⟩
  | true =>
      obtain ⟨result, after, hanswer, hsession⟩ :=
        ((answer_approved keys rfl).and (keepsSession_perform keys action
          (workspace ⟨config, .blank, some action, store⟩))).exists
      rw [hanswer, hsession]
      exact ⟨after.store, congrArg (Signer.mk config · none after.store) Session.reset_blank⟩

/-- An approved raw message is handed to the keys, and nothing is logged. -/
theorem answer_raw (config : Config) (keys : KeyProvider) (key : KeyId) (message : Bytes)
    (store : σ) :
    answer keys true ⟨config, .blank, some (.sign ⟨key, .raw message, .signature⟩), store⟩ =
      (⟨config, .blank, none, store⟩,
        some (.ofResult ((keys.sign key message).map Signature.bytes)),
        [.signing key message]) := by
  let plan : SigningPlan := ⟨key, .raw message, .signature⟩
  have hends : Ends (perform keys (.sign plan))
      (workspace ⟨config, .blank, some (.sign plan), store⟩) fun result after =>
        result = (keys.sign key message).map Signature.bytes ∧
          after = ⟨.blank, store, [.signing key message]⟩ := by
    rw [show (perform keys (.sign plan) : Command σ Bytes) = execute keys plan from rfl]
    refine execute_ends.mpr ⟨fun hasks => ?_, fun _ => ⟨rfl, rfl⟩⟩
    cases hasks
  obtain ⟨_, _, hanswer, rfl, rfl⟩ := ((answer_approved keys rfl).and hends).exists
  rw [hanswer, Session.reset_blank]

/-- An answer comes to the same as far as it is disclosed, if the keys do not look at the bytes. -/
theorem answer_veils (hveiled : signer.Veiled config other) (hkeys : keys.Indifferent)
    (approved : Bool) :
    (signer.answer keys approved).1.Veiled config (other.answer keys approved).1 ∧
      (other.answer keys approved).2.1.map Response.status =
        (signer.answer keys approved).2.1.map Response.status ∧
      records (other.answer keys approved).2.2 = records (signer.answer keys approved).2.2 := by
  cases hveiled with
  | resting hsession => exact ⟨.resting hsession, rfl, rfl⟩
  | @waiting action _ store haction =>
      cases haction with
      | same =>
          obtain ⟨store', hrests⟩ := answer_rests config keys approved action store
          rw [hrests]
          exact ⟨.resting .closed, rfl, rfl⟩
      | @raw key message message' hlength =>
          cases approved with
          | false =>
              rw [answer_rejected keys rfl, answer_rejected keys rfl]
              refine ⟨.resting ?_, rfl, rfl⟩
              rw [Session.reset_blank]
              exact .closed
          | true =>
              rw [answer_raw, answer_raw]
              refine ⟨.resting .closed, ?_, rfl⟩
              rw [Option.map_some, Option.map_some,
                Response.status_ofResult (hkeys key message message' hlength)]

end Signer

/-! ## Runs -/

/-- Two steps disclose the same if they are logged and answered alike and what they leave differs
at most in the bytes of a raw message. -/
theorem Transition.disclosure_eq {σ : Type} {config : Config} {step step' : Transition σ}
    (hafter : step.after.Veiled config step'.after)
    (houtcome : step'.outcome.map Outcome.redacted = step.outcome.map Outcome.redacted)
    (hrecords : records step'.journal = records step.journal) :
    step'.disclosure = step.disclosure := by
  obtain ⟨hwaits, hstore⟩ := hafter.left_eq
  simp only [Transition.disclosure, houtcome, hrecords, hwaits, hstore]

namespace Scene

variable {σ : Type} [BreakableStore σ] {config : Config} {one other : Scene σ}

theorem meet_veiled (hveiled : one.signer.Veiled config other.signer) {turn turn' : Turn}
    (hbroken : turn'.broken = turn.broken) :
    (one.meet turn).Veiled config (other.meet turn') := by
  unfold meet
  rw [hbroken]
  generalize one.signer = signer, other.signer = signer' at hveiled ⊢
  cases hveiled with
  | resting hsession => exact .resting hsession
  | waiting haction => exact .waiting haction

theorem play_frame_veils {turn turn' : Turn} {raw raw' : Bytes}
    (hframe : turn.stimulus = .frame raw) (hframe' : turn'.stimulus = .frame raw')
    (hserved : Signer.ServedVeiled config ((one.meet turn).receive turn.keys raw)
      ((other.meet turn').receive turn'.keys raw')) :
    (other.play turn').disclosure = (one.play turn).disclosure ∧
      (one.play turn).after.Veiled config (other.play turn').after := by
  obtain ⟨hafter, houtcome⟩ := one.play_frame hframe
  obtain ⟨hafter', houtcome'⟩ := other.play_frame hframe'
  have hveiled : (one.play turn).after.Veiled config (other.play turn').after := by
    rw [hafter, hafter']
    exact hserved.signer
  refine ⟨Transition.disclosure_eq hveiled ?_ ?_, hveiled⟩
  · rw [houtcome, houtcome', Option.map_some, Option.map_some, hserved.outcome]
  · rw [one.journal_play_frame hframe, other.journal_play_frame hframe']
    exact hserved.records

theorem play_answer_veils (hveiled : one.signer.Veiled config other.signer) {turn : Turn}
    {approved : Bool} (hanswer : turn.stimulus = .answer approved)
    (hkeys : turn.keys.Indifferent) :
    (other.play turn).disclosure = (one.play turn).disclosure ∧
      (one.play turn).after.Veiled config (other.play turn).after := by
  obtain ⟨hafter, houtcome, hjournal⟩ := one.play_answer hanswer
  obtain ⟨hafter', houtcome', hjournal'⟩ := other.play_answer hanswer
  have hmeet : (one.meet turn).Veiled config (other.meet turn) := meet_veiled hveiled rfl
  obtain ⟨hleft, hstatus, hrecords⟩ := Signer.answer_veils hmeet hkeys approved
  have hplayed : (one.play turn).after.Veiled config (other.play turn).after := by
    rw [hafter, hafter']
    exact hleft
  refine ⟨Transition.disclosure_eq hplayed ?_ ?_, hplayed⟩
  · rw [houtcome, houtcome', Outcome.redacted_replies hstatus]
  · rw [hjournal, hjournal']
    exact hrecords

/-- One step comes to the same as far as it is disclosed, and leaves signers that differ at most in
the bytes of a raw message. -/
theorem play_veils (hwallet : config.mode = .wallet)
    (hveiled : one.signer.Veiled config other.signer) {turn turn' : Turn}
    (hvaries : turn.Varies turn') (hunhashed : turn.Unhashed) (hkeys : turn.keys.Indifferent) :
    (other.play turn').disclosure = (one.play turn).disclosure ∧
      (one.play turn).after.Veiled config (other.play turn').after := by
  cases hvaries with
  | same =>
      cases hstimulus : turn.stimulus with
      | answer approved => exact play_answer_veils hveiled hstimulus hkeys
      | frame raw =>
          refine play_frame_veils hstimulus hstimulus ?_
          refine (meet_veiled hveiled rfl).receive fun hsession => ?_
          refine dispatch_veils hwallet hsession fun request hrequest => ?_
          rw [hwallet] at hrequest
          exact hunhashed raw request hstimulus hrequest
  | chunk keys broken hcarried hvaried hfurther hlength =>
      rw [← hwallet] at hcarried hvaried
      refine play_frame_veils rfl rfl ?_
      refine (meet_veiled hveiled rfl).receive fun hsession => ?_
      exact dispatch_chunk_veils hwallet hsession hcarried hvaried
        ⟨rfl, hlength, fun hfirst => absurd hfirst hfurther⟩ fun _ => rfl

/-- So do all steps. -/
theorem trace_veils (hwallet : config.mode = .wallet)
    (hveiled : one.signer.Veiled config other.signer) {turns turns' : List Turn}
    (hvaries : List.Forall₂ Turn.Varies turns turns') (hunhashed : ∀ turn ∈ turns, turn.Unhashed)
    (hkeys : ∀ turn ∈ turns, turn.keys.Indifferent) :
    (other.trace turns').map Transition.disclosure =
      (one.trace turns).map Transition.disclosure := by
  induction hvaries generalizing one other with
  | nil => rfl
  | @cons turn turn' turns turns' hturn _ ih =>
      obtain ⟨hdisclosure, hafter⟩ := play_veils hwallet hveiled hturn
        (hunhashed turn List.mem_cons_self) (hkeys turn List.mem_cons_self)
      have hscene : (one.play turn).scene.signer.Veiled config (other.play turn').scene.signer :=
        hafter
      rw [trace, trace, List.map_cons, List.map_cons, hdisclosure, ih hscene
        (fun turn hturn => hunhashed turn (List.mem_cons_of_mem _ hturn))
        fun turn hturn => hkeys turn (List.mem_cons_of_mem _ hturn)]

end Scene

/-- Two runs of a wallet that differ only in the bytes of messages to be signed as they are, and in
which no other message is continued, disclose the same at every step: all that is logged, the
status of every reply, whether an action waits, what is stored, and every prompt apart from
the hash that the review of such a message shows. Keys whose failures depend on
the bytes that they sign are not considered. -/
theorem raw_messages_undisclosed {σ : Type} [BreakableStore σ] (config : Config) (store : σ)
    (turns turns' : List Turn) (hwallet : config.mode = .wallet)
    (hvaries : List.Forall₂ Turn.Varies turns turns') (hunhashed : ∀ turn ∈ turns, turn.Unhashed)
    (hkeys : ∀ turn ∈ turns, turn.keys.Indifferent) :
    ((Scene.start config store).trace turns').map Transition.disclosure =
      ((Scene.start config store).trace turns).map Transition.disclosure :=
  Scene.trace_veils hwallet (.resting .closed) hvaries hunhashed hkeys

/-- Two messages are signed as they are: the prompts show which, and nothing else does. -/
theorem raw_messages_undisclosed_approved :
    let turn (stimulus : Stimulus) : Turn := ⟨Simulated.provider, false, stimulus⟩
    let opening : Turn := turn (.frame [0x80, 0x05, 0x00, 0x00, 5, 1, 0x80, 0, 0, 0])
    let chunk (data : UInt8) : Turn := turn (.frame [0x80, 0x05, 0x81, 0x00, 1, data])
    let run (data : UInt8) : List Turn := [opening, chunk data, turn (.answer true)]
    let start : Scene MemoryStore := .start (.ofMode .wallet) (.ofState .fresh)
    ((start.follow [opening]).play (chunk 0x2A)).outcome = some (.prompt (.prehashed [0x2A])) ∧
      ((start.follow [opening]).play (chunk 0x2B)).outcome = some (.prompt (.prehashed [0x2B])) ∧
      (start.trace (run 0x2B)).map Transition.disclosure =
        (start.trace (run 0x2A)).map Transition.disclosure := by
  intro turn opening chunk run start
  have hvaries : (chunk 0x2A).Varies (chunk 0x2B) :=
    @Turn.Varies.chunk Simulated.provider false _ _ 0x81 0x00 [0x2A] [0x2B] rfl rfl (by decide) rfl
  have hunhashed : ∀ turn ∈ run 0x2A, turn.Unhashed := by
    intro turn hturn raw request hframe hrequest _
    simp only [run, List.mem_cons, List.not_mem_nil, or_false] at hturn
    rcases hturn with rfl | rfl | rfl
    · cases hframe
      cases hrequest
      rfl
    · cases hframe
      cases hrequest
      rfl
    · cases hframe
  have hkeys : ∀ turn ∈ run 0x2A, turn.keys.Indifferent := by
    intro turn hturn
    simp only [run, List.mem_cons, List.not_mem_nil, or_false] at hturn
    rcases hturn with rfl | rfl | rfl <;> exact Simulated.indifferent
  have hruns : List.Forall₂ Turn.Varies (run 0x2A) (run 0x2B) :=
    .cons (.same _) (.cons hvaries (.cons (.same _) .nil))
  have hsame := raw_messages_undisclosed (.ofMode .wallet) (MemoryStore.ofState .fresh) (run 0x2A)
    (run 0x2B) rfl hruns hunhashed hkeys
  exact ⟨by decide +kernel, by decide +kernel, hsame⟩

end TezosSigner
