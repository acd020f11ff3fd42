import TezosSigner.Proofs.Guard
import TezosSigner.Proofs.Plan
import TezosSigner.Proofs.Review
import TezosSigner.Proofs.Run

/-!
# Chunks

A session that is open collects what its host transmits. A further chunk is
noted, appended and, if it is the last one, completes the message; whatever
comes of that, the session is then closed. A prompt that results has a plan
behind it which signs just the transmitted message.
-/

namespace TezosSigner

open Hash

namespace SigningRequest

/-- A further chunk asks for the digest alone. -/
def asksDigest (request : SigningRequest) (mode : Mode) : Prop :=
  request.position = 0x03 ∧ request.mayFold mode = true

instance (request : SigningRequest) (mode : Mode) : Decidable (request.asksDigest mode) :=
  inferInstanceAs (Decidable (_ ∧ _))

/-- A chunk is one that continues a session. -/
def continues (request : SigningRequest) (mode : Mode) : Prop :=
  request.asksDigest mode ∨ request.position = 0x01

theorem position_of_continues {request : SigningRequest}
    (hcontinues : request.continues .baking) : request.position = 0x01 := by
  rcases hcontinues with ⟨_, hfold⟩ | hposition
  · cases hfold
  · exact hposition

theorem not_asksDigest_baking (request : SigningRequest) : ¬ request.asksDigest .baking := by
  rintro ⟨_, hfold⟩
  cases hfold

theorem position_ne_zero {request : SigningRequest} {mode : Mode}
    (hcontinues : request.continues mode) : request.position ≠ 0x00 := by
  rcases hcontinues with ⟨hposition, _⟩ | hposition <;> rw [hposition] <;> decide

end SigningRequest

namespace Session

/-- The session once the position of a chunk has been noted. -/
def noting (session : Session) (mode : Mode) (request : SigningRequest) : Session :=
  { session with hashOnly := session.hashOnly || decide (request.asksDigest mode) }

@[simp] theorem noting_key (session : Session) (mode : Mode) (request : SigningRequest) :
    (session.noting mode request).key = session.key := rfl

@[simp] theorem noting_buffer (session : Session) (mode : Mode) (request : SigningRequest) :
    (session.noting mode request).buffer = session.buffer := rfl

/-- A session is either closed or collects what the host transmits. Only a wallet
may be asked for the digest alone. -/
inductive Follows (mode : Mode) : Session → Bytes → Prop where
  | closed {heard : Bytes} : Follows mode .blank heard
  | collecting {key : KeyId} {buffer : MessageBuffer} {hashOnly : Bool} {heard : Bytes}
      (collects : buffer.Collects heard) (form : mode = .baking → hashOnly = false) :
      Follows mode ⟨some key, buffer, hashOnly⟩ heard

theorem reset_eq_blank {session : Session} {message : Bytes}
    (hbuffer : session.buffer.Holds message) : session.reset = .blank := by
  rw [reset, hbuffer.clear]
  rfl

theorem reset_blank : Session.blank.reset = .blank :=
  reset_eq_blank MessageBuffer.holds_empty

theorem Follows.reset_eq {mode : Mode} {session : Session} {heard : Bytes}
    (hsession : session.Follows mode heard) : session.reset = .blank := by
  cases hsession with
  | closed => exact reset_blank
  | collecting hcollects _ => exact reset_eq_blank hcollects.toHolds

theorem Follows.blank_of_closed {mode : Mode} {session : Session} {heard : Bytes}
    (hsession : session.Follows mode heard) (hclosed : session.key = none) : session = .blank := by
  cases hsession with
  | closed => rfl
  | collecting => cases hclosed

theorem Follows.collects {mode : Mode} {session : Session} {heard : Bytes} {key : KeyId}
    (hsession : session.Follows mode heard) (hkey : session.key = some key) :
    session.buffer.Collects heard := by
  cases hsession with
  | closed => cases hkey
  | collecting hcollects _ => exact hcollects

end Session

namespace Command

variable {σ : Type} {before : Workspace σ}

theorem appendChunk_ends {mayFold : Bool} {chunk : Bytes}
    {post : Except Status Unit → Workspace σ → Prop} :
    Ends (appendChunk mayFold chunk) before post ↔
      match MessageBuffer.append mayFold chunk before.session.buffer with
      | .ok () buffer => post (.ok ()) { before with session := { before.session with buffer } }
      | .error cause buffer => post (.error .parseError)
          { before with
            session := { before.session with buffer }
            journal := before.journal ++
              if cause = .messageTooLong then [.log .capacityExceeded] else [] } := by
  unfold appendChunk
  simp only [ends_bind, ends_getSession]
  cases MessageBuffer.append mayFold chunk before.session.buffer with
  | ok _ buffer => simp
  | error cause buffer => cases cause <;> simp

theorem notePosition_ends {mode : Mode} {request : SigningRequest}
    {post : Except Status Unit → Workspace σ → Prop} :
    Ends (notePosition mode request) before post ↔
      (request.continues mode →
        post (.ok ()) { before with session := before.session.noting mode request }) ∧
      (¬ request.continues mode → post (.error .wrongParam) before) := by
  have hdef : notePosition mode request = if request.asksDigest mode then
      (do setSession { (← getSession) with hashOnly := true } : Command σ Unit)
      else require (request.position == 0x01) .wrongParam := rfl
  rw [hdef]
  by_cases hdigest : request.asksDigest mode
  · simp [SigningRequest.continues, Session.noting, hdigest]
  · simp [SigningRequest.continues, Session.noting, hdigest]

variable [Store σ] {mode : Mode} {keys : KeyProvider} {request : SigningRequest}
  {post : Except Status Reaction → Workspace σ → Prop}

/-- The ways in which a further chunk may end. -/
theorem continueSession_ends
    (hparam : ¬ request.continues mode → post (.error .wrongParam) before)
    (hclosed : before.session.key = none → post (.error .wrongLengthForInstruction)
      { before with session := before.session.noting mode request })
    (hrefused : ∀ key cause buffer, before.session.key = some key →
      MessageBuffer.append (request.mayFold mode) request.data before.session.buffer =
        .error cause buffer →
      post (.error .parseError)
        { before with
          session := { before.session.noting mode request with buffer }
          journal := before.journal ++
            if cause = .messageTooLong then [.log .capacityExceeded] else [] })
    (hnext : ∀ key buffer, request.continues mode → before.session.key = some key →
      MessageBuffer.append (request.mayFold mode) request.data before.session.buffer =
        .ok () buffer →
      request.isLast = false →
      post (.ok (.reply []))
        { before with session := { before.session.noting mode request with buffer } })
    (hlast : ∀ key buffer, request.continues mode → before.session.key = some key →
      MessageBuffer.append (request.mayFold mode) request.data before.session.buffer =
        .ok () buffer →
      request.isLast = true →
      Ends (complete mode keys key request.kind
          { before.session.noting mode request with buffer })
        { before with session :=
            Session.reset { before.session.noting mode request with buffer } } post) :
    Ends (continueSession mode keys request) before post := by
  simp only [continueSession, ends_bind, notePosition_ends, ends_getSession, Session.noting_key]
  refine ⟨fun hcontinues => ?_, hparam⟩
  cases hkey : before.session.key with
  | none => exact hclosed hkey
  | some key =>
      simp only [ends_bind, appendChunk_ends, Session.noting_buffer]
      cases happend : MessageBuffer.append (request.mayFold mode) request.data
          before.session.buffer with
      | error cause buffer => exact hrefused key cause buffer hkey happend
      | ok _ buffer =>
          simp only [ends_ite, ends_bind, ends_getSession, ends_resetSession, ends_pure,
            Bool.not_eq_true]
          exact ⟨hlast key buffer hcontinues hkey happend, hnext key buffer hcontinues hkey happend⟩

omit [Store σ] in
/-- A first chunk opens a session for the key that it names, whatever was under way. -/
theorem openSession_ends {p2 : UInt8} {data : Bytes}
    {post : Except Status Unit → Workspace σ → Prop} :
    Ends (openSession p2 data) before post ↔
      match Path.read data, Curve.ofParameter p2 with
      | .ok (path, _), .ok curve => post (.ok ())
          { before with session := { before.session.reset with key := some ⟨curve, path⟩ } }
      | .error status, _ | .ok _, .error status =>
          post (.error status) { before with session := before.session.reset } := by
  unfold openSession
  cases hpath : Path.read data <;> cases hcurve : Curve.ofParameter p2 <;> simp

/-- Completing a message is quiet, and what it may ask to be approved is a plan for just
that message; only a baker acts at once, on a consensus message. -/
theorem complete_ends {key : KeyId} {kind : SigningKind} {session : Session} {heard : Bytes}
    (hbuffer : session.buffer.Collects heard)
    (hquiet : ∀ result after, before.Logged after →
      Confirms (AsksToSign keys key mode heard) result → post result after)
    (hconsensus : ∀ data, mode = .baking → heard.length ≤ MessageBuffer.capacity →
      (MessageClass.ofBytes heard).consensus? = some data →
      Ends (do
          authorizeAndCommit key data
          return .reply (← execute keys
            ⟨key, .digest (blake2b256 heard), session.replyForm kind⟩)) before post) :
    Ends (complete mode keys key kind session) before post := by
  cases mode with
  | wallet =>
      unfold complete
      dsimp only
      split
      next =>
        exact ((quiet_reviewUnhashed key session before).and (reviewUnhashed_asks hbuffer)).imp
          fun result after hends => hquiet result after hends.1 hends.2
      next =>
        -- That the review is quiet and what it comes to are told of one and the same ending.
        apply ((quiet_reviewOperation keys key kind session before).and
          (reviewOperation_ends hbuffer)).imp
        intro result after hends
        obtain ⟨hlogged, rfl⟩ := hends
        exact hquiet _ after hlogged (walletReview_asks keys key _ heard)
  | baking =>
      have hfailure (status : Status) : post (.error status) before :=
        hquiet _ _ (Workspace.Logged.refl before) trivial
      simp only [complete, completeBaking, hbuffer.message?_eq, hbuffer.digest_eq]
      by_cases hlength : heard.length ≤ MessageBuffer.capacity
      · simp only [hlength, if_true]
        cases hclass : (MessageClass.ofBytes heard).consensus? with
        | some data => exact hconsensus data rfl hlength hclass
        | none =>
            simp only [ends_ite, ends_throw]
            refine ⟨fun hmark => ?_, fun _ => hfailure _⟩
            refine ((quiet_reviewSelfDelegation keys _ heard before).and
              reviewSelfDelegation_confirms).imp fun result after hends => ?_
            refine hquiet result after hends.1 (hends.2.imp ?_)
            rintro _ _ ⟨rfl, _⟩
            refine ⟨_, rfl, rfl, Or.inl ⟨rfl, hmark⟩, fun hwallet => ?_⟩
            cases hwallet
      · simp only [hlength, if_false]
        exact hfailure _

end Command

end TezosSigner
