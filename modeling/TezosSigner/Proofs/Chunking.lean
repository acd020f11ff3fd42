import TezosSigner.Key.Simulated
import TezosSigner.Proofs.Step

/-!
# A wallet's verdict does not depend on the cut

After a first chunk has been taken, a message may be cut anywhere and sent in
chunks of either hashing kind and of either position. Every chunk before the last
is only acknowledged, and the last one leads to the verdict on the whole message.
-/

namespace TezosSigner

open Hash Command

/-- The code of the instruction that carries a chunk. -/
def SigningKind.code : SigningKind → UInt8
  | .standard => 0x04
  | .unhashed => 0x05
  | .withHash => 0x0F

theorem SigningKind.ofCode_code {mode : Mode} {kind : SigningKind}
    (hkind : kind = .unhashed → mode = .wallet) :
    Instruction.ofCode mode kind.code = .ok (.sign kind) := by
  cases kind with
  | standard => rfl
  | withHash => rfl
  | unhashed =>
      rw [hkind rfl]
      rfl

/-- The frame of a chunk is read as it was meant. -/
theorem SigningRequest.ofBytes?_chunk {mode : Mode} {kind : SigningKind} {p1 p2 : UInt8}
    {data : Bytes} (hkind : kind = .unhashed → mode = .wallet) (hlength : data.length ≤ 230) :
    ofBytes? mode ([0x80, kind.code, p1, p2, UInt8.ofNat data.length] ++ data) =
      some ⟨kind, p1, p2, data⟩ := by
  have hcount : (UInt8.ofNat data.length).toNat = data.length := by
    rw [UInt8.toNat_ofNat']
    omega
  have hframe : Frame.ofBytes ([0x80, kind.code, p1, p2, UInt8.ofNat data.length] ++ data) =
      .ok ⟨kind.code, p1, p2, data⟩ := by
    simp [Frame.ofBytes, Frame.classByte, hcount]
  rw [ofBytes?, Frame.understood?, hframe]
  dsimp only
  rw [SigningKind.ofCode_code hkind]

/-- A further chunk as a host may send it, and the turn that it is sent in. -/
structure Piece where
  keys : KeyProvider
  broken : Bool
  /-- Whether it asks for the digest ahead of the signature. -/
  withHash : Bool
  /-- Whether its position asks for the digest alone. -/
  digestOnly : Bool
  p2 : UInt8
  data : Bytes
  length_le : data.length ≤ 230

namespace Piece

/-- The first parameter of a chunk: its position, and the mark of the last one. -/
def parameter (digestOnly last : Bool) : UInt8 :=
  (if digestOnly then 0x03 else 0x01) ||| (if last then 0x80 else 0x00)

theorem parameter_last : ∀ digestOnly last, (parameter digestOnly last &&& 0x80 != 0) = last := by
  decide

theorem parameter_position : ∀ digestOnly last,
    parameter digestOnly last &&& 0x7F = if digestOnly then 0x03 else 0x01 := by
  decide

/-- The kind of a chunk. -/
def kind (piece : Piece) : SigningKind :=
  if piece.withHash then .withHash else .standard

/-- The frame of a chunk, marked if it is the last one. -/
def frame (piece : Piece) (last : Bool) : Frame where
  instruction := if piece.withHash then 0x0F else 0x04
  p1 := parameter piece.digestOnly last
  p2 := piece.p2
  data := piece.data

/-- The turn in which a chunk is sent. -/
def turn (piece : Piece) (last : Bool) : Turn where
  keys := piece.keys
  broken := piece.broken
  stimulus := .frame <|
    [0x80, (piece.frame last).instruction, (piece.frame last).p1, piece.p2,
      UInt8.ofNat piece.data.length] ++ piece.data

/-- A chunk as it is read. -/
def request (piece : Piece) (last : Bool) : SigningRequest :=
  ⟨piece.kind, (piece.frame last).p1, piece.p2, piece.data⟩

variable (piece : Piece) (last : Bool)

theorem isLast_request : (piece.request last).isLast = last :=
  parameter_last piece.digestOnly last

theorem position_request :
    (piece.request last).position = if piece.digestOnly then 0x03 else 0x01 :=
  parameter_position piece.digestOnly last

theorem mayFold_request : (piece.request last).mayFold .wallet = true := by
  unfold SigningRequest.mayFold request kind
  cases piece.withHash <;> rfl

theorem asksDigest_request : (piece.request last).asksDigest .wallet ↔ piece.digestOnly = true := by
  rw [SigningRequest.asksDigest, position_request, mayFold_request]
  cases piece.digestOnly <;> simp

theorem continues_request : (piece.request last).continues .wallet := by
  unfold SigningRequest.continues
  rw [asksDigest_request, position_request]
  cases piece.digestOnly <;> simp

/-- A wallet reads a chunk as it was meant. -/
theorem ofBytes?_turn {raw : Bytes} (hstimulus : (piece.turn last).stimulus = .frame raw) :
    SigningRequest.ofBytes? .wallet raw = some (piece.request last) := by
  cases hstimulus
  have hcode : (piece.frame last).instruction = piece.kind.code := by
    unfold frame kind
    cases piece.withHash <;> rfl
  rw [hcode]
  exact SigningRequest.ofBytes?_chunk (fun _ => rfl) piece.length_le

end Piece

namespace Command

variable {σ : Type} [Store σ] {config : Config} {keys : KeyProvider} {raw : Bytes}
  {request : SigningRequest} {session : Session} {store : σ} {journal : List Event}

/-- A frame that carries a chunk does nothing but take it. -/
theorem dispatch_chunk_ends {post : Except Status Reaction → Workspace σ → Prop}
    (hrequest : SigningRequest.ofBytes? config.mode raw = some request)
    (htake : ∀ later, deeds later = deeds journal →
      Ends (takeChunk config.mode keys request) ⟨session, store, later⟩ post) :
    Ends (dispatch config keys raw) ⟨session, store, journal⟩ post := by
  rw [dispatch_request_ends hrequest]
  exact htake _ (by simp)

/-- A wallet takes a further chunk that continues a session: it is acknowledged, or the last
one leads to the verdict. -/
theorem takeChunk_wallet_ends {key : KeyId} {buffer : MessageBuffer} {hashOnly : Bool}
    {message : Bytes} (hcollects : buffer.Collects message)
    (hlength : request.data.length ≤ 230) (hfold : request.mayFold .wallet = true)
    (hcontinues : request.continues .wallet) :
    Ends (takeChunk .wallet keys request) ⟨⟨some key, buffer, hashOnly⟩, store, journal⟩
      fun result after => ∃ longer, longer.Collects (message ++ request.data) ∧
        (request.isLast = false → result = .ok (.reply []) ∧ after.session =
          ⟨some key, longer, hashOnly || decide (request.asksDigest .wallet)⟩) ∧
        (request.isLast = true → result = (walletReview keys key
          (Session.replyForm ⟨some key, longer, hashOnly || decide (request.asksDigest .wallet)⟩
            request.kind) (message ++ request.data)).map Reaction.ofReview) := by
  have hposition := SigningRequest.position_ne_zero hcontinues
  have hroom : request.data.length + Blake2b.blockSize ≤ MessageBuffer.capacity := by
    unfold Blake2b.blockSize MessageBuffer.capacity
    omega
  obtain ⟨longer, happend, hlonger⟩ := hcollects.append_folding hroom
  have hkind : request.kind ≠ .unhashed := by
    intro hkind
    unfold SigningRequest.mayFold at hfold
    rw [hkind] at hfold
    cases hfold
  simp only [takeChunk, ends_bind, ends_require, ends_ite]
  refine ⟨fun _ => ⟨fun hfirst => absurd hfirst hposition, fun _ => ?_⟩, fun hlong => ?_⟩
  · apply continueSession_ends
    case hparam =>
      intro hnot
      exact absurd hcontinues hnot
    case hclosed =>
      intro hkey
      cases hkey
    case hrefused =>
      -- Folding makes room for any chunk, so none is refused.
      intro _ cause refused _ hrefused
      rw [hfold] at hrefused
      cases happend.symm.trans hrefused
    case hnext =>
      intro _ taken _ hkey htaken hlast
      rw [hfold] at htaken
      cases happend.symm.trans htaken
      cases hkey
      refine ⟨longer, hlonger, fun _ => ⟨rfl, rfl⟩, fun hnot => ?_⟩
      rw [hlast] at hnot
      cases hnot
    case hlast =>
      intro _ taken _ hkey htaken hlast
      rw [hfold] at htaken
      cases happend.symm.trans htaken
      cases hkey
      rw [complete, if_neg hkind]
      apply (reviewOperation_ends hlonger).imp
      intro result after hresult
      refine ⟨longer, hlonger, fun hnot => ?_, fun _ => hresult⟩
      rw [hlast] at hnot
      cases hnot
  · rw [decide_eq_false_iff_not] at hlong
    exact absurd hlength hlong

omit [Store σ] in
theorem status_ne_ok_of_read {data : Bytes} {status : Status}
    (hread : Path.read data = .error status) : status ≠ .ok := by
  unfold Path.read at hread
  split at hread
  next => cases hread; decide
  next =>
    split at hread
    next => cases hread; decide
    next =>
      split at hread
      next => cases hread
      next => cases hread; decide

omit [Store σ] in
theorem status_ne_ok_of_parameter {parameter : UInt8} {status : Status}
    (hcurve : Curve.ofParameter parameter = .error status) : status ≠ .ok := by
  unfold Curve.ofParameter at hcurve
  split at hcurve
  next => cases hcurve
  next => cases hcurve; decide

/-- A first chunk has opened a session for the key that it names, or has failed. -/
def Opens (request : SigningRequest) (result : Except Status Reaction) (after : Workspace σ) :
    Prop :=
  (∃ status, result = .error status ∧ status ≠ .ok) ∨
  result = .ok (.reply []) ∧ ∃ key rest, Curve.ofParameter request.p2 = .ok key.curve ∧
    Path.read request.data = .ok (key.path, rest) ∧ after.session = ⟨some key, .empty, false⟩

theorem takeChunk_opens {mode : Mode} {previous : Bytes} (hposition : request.position = 0x00)
    (hsession : session.Follows mode previous) :
    Ends (takeChunk mode keys request) ⟨session, store, journal⟩ (Opens request) := by
  simp only [takeChunk, ends_bind, ends_require, ends_ite]
  refine ⟨fun _ => ⟨fun _ => ?_, fun hfurther => absurd hposition hfurther⟩,
    fun _ => Or.inl ⟨_, rfl, by decide⟩⟩
  rw [openSession_ends]
  split
  next path rest curve hpath hcurve =>
    refine Or.inr ⟨rfl, ⟨curve, path⟩, rest, hcurve, hpath, ?_⟩
    rw [hsession.reset_eq]
    rfl
  next hpath => exact Or.inl ⟨_, rfl, status_ne_ok_of_read hpath⟩
  next hcurve => exact Or.inl ⟨_, rfl, status_ne_ok_of_parameter hcurve⟩

end Command

/-- A step ends with a verdict: a failure, or a prompt with a plan behind it. -/
def Transition.Concludes {σ : Type} (step : Transition σ) :
    Except Status (Prompt × SigningPlan) → Prop
  | .ok (prompt, plan) =>
      step.outcome = some (.prompt prompt) ∧ step.after.pending = some (.sign plan)
  | .error status =>
      step.outcome = some (.reply (.failure status)) ∧ step.after.pending = none

namespace Scene

variable {σ : Type}

/-- A wallet has opened a session for a key and collected a message. -/
structure Collecting (scene : Scene σ) (key : KeyId) (hashOnly : Bool) (message : Bytes) :
    Prop where
  mode : scene.signer.config.mode = .wallet
  idle : scene.signer.pending = none
  opened : ∃ buffer, scene.signer.session = ⟨some key, buffer, hashOnly⟩ ∧ buffer.Collects message

variable [BreakableStore σ] {scene : Scene σ} {key : KeyId} {hashOnly : Bool} {message : Bytes}

/-- How the signer takes a further chunk of a session that is open. -/
theorem Collecting.dispatch (hscene : scene.Collecting key hashOnly message) (piece : Piece)
    (last : Bool) {raw : Bytes} (hraw : (piece.turn last).stimulus = .frame raw) :
    Ends (Command.dispatch (scene.meet (piece.turn last)).config piece.keys raw)
      (scene.meet (piece.turn last)).cancelPending fun result after =>
        ∃ longer, longer.Collects (message ++ piece.data) ∧
          (last = false → result = .ok (.reply []) ∧
            after.session = ⟨some key, longer, hashOnly || piece.digestOnly⟩) ∧
          (last = true → result = (walletReview piece.keys key
            (Session.replyForm ⟨some key, longer, hashOnly || piece.digestOnly⟩ piece.kind)
            (message ++ piece.data)).map Reaction.ofReview) := by
  obtain ⟨buffer, hsession, hcollects⟩ := hscene.opened
  have hworkspace : (scene.meet (piece.turn last)).cancelPending =
      ⟨⟨some key, buffer, hashOnly⟩, (scene.meet (piece.turn last)).store, []⟩ := by
    rw [← hsession]
    exact if_neg (by rw [meet, hscene.idle]; decide)
  have hmode : (scene.meet (piece.turn last)).config.mode = .wallet := hscene.mode
  have hrequest : SigningRequest.ofBytes? (scene.meet (piece.turn last)).config.mode raw =
      some (piece.request last) := by
    rw [hmode]
    exact piece.ofBytes?_turn last hraw
  have hnoted : decide ((piece.request last).asksDigest .wallet) = piece.digestOnly := by
    rw [Bool.eq_iff_iff, decide_eq_true_iff]
    exact piece.asksDigest_request last
  rw [hworkspace]
  refine dispatch_chunk_ends hrequest fun journal _ => ?_
  rw [hmode]
  refine (takeChunk_wallet_ends hcollects piece.length_le (piece.mayFold_request last)
    (piece.continues_request last)).imp fun result after htaken => ?_
  rw [hnoted, piece.isLast_request] at htaken
  exact htaken

/-- A chunk before the last one is acknowledged and collected. -/
theorem Collecting.play (hscene : scene.Collecting key hashOnly message) (piece : Piece) :
    (scene.play (piece.turn false)).outcome = some (.reply (.success [])) ∧
      (scene.play (piece.turn false)).scene.Collecting key (hashOnly || piece.digestOnly)
        (message ++ piece.data) := by
  obtain ⟨hafter, houtcome⟩ : _ ∧ (scene.play (piece.turn false)).outcome = _ :=
    play_frame scene rfl
  unfold Transition.scene
  rw [hafter, houtcome]
  rcases Signer.receive_ends (hscene.dispatch piece false rfl) with
    ⟨payload, after, ⟨longer, hlonger, htaken, _⟩, hreceive⟩ |
    ⟨prompt, action, after, ⟨_, _, htaken, _⟩, _⟩ | ⟨status, after, ⟨_, _, htaken, _⟩, _⟩
  · obtain ⟨hresult, hsession⟩ := htaken rfl
    cases hresult
    rw [show Signer.receive (piece.turn false).keys _ _ = _ from hreceive]
    exact ⟨rfl, hscene.mode, rfl, longer, hsession, hlonger⟩
  · cases (htaken rfl).1
  · cases (htaken rfl).1

/-- The last chunk leads to the verdict on the whole message. -/
theorem Collecting.finish (hscene : scene.Collecting key hashOnly message) (piece : Piece) :
    (scene.play (piece.turn true)).Concludes (walletReview piece.keys key
      (if hashOnly || piece.digestOnly then .hashOnly
        else if piece.withHash then .hashAndSignature else .signature)
      (message ++ piece.data)) := by
  obtain ⟨hafter, houtcome⟩ : _ ∧ (scene.play (piece.turn true)).outcome = _ :=
    play_frame scene rfl
  -- Only the key and the note in the session decide on the form, never the buffer.
  have hform (buffer : MessageBuffer) :
      Session.replyForm ⟨some key, buffer, hashOnly || piece.digestOnly⟩ piece.kind =
        if hashOnly || piece.digestOnly then .hashOnly
        else if piece.withHash then .hashAndSignature else .signature := by
    unfold Session.replyForm Piece.kind
    cases piece.withHash <;> rfl
  have hends := (hscene.dispatch piece true rfl).imp fun result after hdispatch =>
    hdispatch.elim fun longer hlonger => (hlonger.2.2 rfl).trans (by rw [hform])
  unfold Transition.Concludes
  rw [hafter, houtcome]
  rcases Signer.receive_ends hends with ⟨payload, after, hresult, hreceive⟩ |
    ⟨prompt, action, after, hresult, _, hreceive⟩ | ⟨status, after, hresult, hreceive⟩
  all_goals
    rw [show Signer.receive (piece.turn true).keys _ _ = _ from hreceive]
    generalize walletReview _ _ _ _ = verdict at hresult ⊢
    cases verdict with
    | error status => cases hresult <;> exact ⟨rfl, rfl⟩
    | ok review => cases hresult <;> exact ⟨rfl, rfl⟩

/-- A first chunk that was answered with success has opened a session for the key that it
names. -/
theorem Sound.opens_session (hsound : scene.Sound) {turn : Turn} {raw : Bytes}
    {request : SigningRequest} (hstimulus : turn.stimulus = .frame raw)
    (hrequest : SigningRequest.ofBytes? scene.signer.config.mode raw = some request)
    (hposition : request.position = 0x00)
    (hanswered : (scene.play turn).outcome = some (.reply (.success []))) :
    ∃ key rest, Curve.ofParameter request.p2 = .ok key.curve ∧
      Path.read request.data = .ok (key.path, rest) ∧
      (scene.play turn).after.session = ⟨some key, .empty, false⟩ ∧
      (scene.play turn).after.pending = none := by
  obtain ⟨hafter, houtcome⟩ := play_frame scene hstimulus
  have hread : SigningRequest.ofBytes? (scene.meet turn).config.mode raw = some request := hrequest
  have hends : Ends (Command.dispatch (scene.meet turn).config turn.keys raw)
      (scene.meet turn).cancelPending (Opens request) :=
    dispatch_chunk_ends hread fun journal _ => takeChunk_opens hposition (hsound.follows turn)
  rw [houtcome] at hanswered
  rw [hafter]
  rcases Signer.receive_ends hends with ⟨payload, after, hresult, hreceive⟩ |
    ⟨prompt, action, after, hresult, _, hreceive⟩ | ⟨status, after, hresult, hreceive⟩
  · rcases hresult with ⟨_, herror, _⟩ | ⟨_, key, rest, hcurve, hpath, hopened⟩
    · cases herror
    · rw [hreceive]
      exact ⟨key, rest, hcurve, hpath, hopened, rfl⟩
  · rw [hreceive] at hanswered
    cases hanswered
  · rcases hresult with ⟨_, herror, hfailed⟩ | ⟨hreply, _⟩
    · cases herror
      rw [hreceive] at hanswered
      have hresponse := Outcome.reply.inj (Option.some.inj hanswered)
      exact absurd (congrArg Response.status hresponse) hfailed
    · cases hreply

/-- A wallet is then collecting a message. -/
theorem Sound.opens (hsound : scene.Sound) (hmode : scene.signer.config.mode = .wallet)
    {turn : Turn} {raw : Bytes} {request : SigningRequest} (hstimulus : turn.stimulus = .frame raw)
    (hrequest : SigningRequest.ofBytes? .wallet raw = some request)
    (hposition : request.position = 0x00)
    (hanswered : (scene.play turn).outcome = some (.reply (.success []))) :
    ∃ key rest, Curve.ofParameter request.p2 = .ok key.curve ∧
      Path.read request.data = .ok (key.path, rest) ∧
      (scene.play turn).scene.Collecting key false [] := by
  have hread : SigningRequest.ofBytes? scene.signer.config.mode raw = some request := by
    rw [hmode]
    exact hrequest
  obtain ⟨key, rest, hcurve, hpath, hopened, hidle⟩ :=
    hsound.opens_session hstimulus hread hposition hanswered
  have hconfig : (scene.play turn).scene.signer.config.mode = .wallet := by
    rw [← hmode]
    exact congrArg Config.mode (hsound.play turn).1
  exact ⟨key, rest, hcurve, hpath, hconfig, hidle, .empty, hopened, MessageBuffer.collects_empty⟩

/-- Any number of chunks before the last one are acknowledged and collected. -/
theorem Collecting.follow (hscene : scene.Collecting key hashOnly message) (pieces : List Piece) :
    (∀ step ∈ scene.trace (pieces.map (·.turn false)),
      step.outcome = some (.reply (.success []))) ∧
    (scene.follow (pieces.map (·.turn false))).Collecting key
      (hashOnly || pieces.any (·.digestOnly)) (message ++ pieces.flatMap (·.data)) := by
  induction pieces generalizing scene hashOnly message with
  | nil =>
      constructor
      · intro step hstep
        cases hstep
      · rw [List.any_nil, Bool.or_false, List.flatMap_nil, List.append_nil]
        exact hscene
  | cons piece pieces ih =>
      obtain ⟨hanswered, hcollects⟩ := hscene.play piece
      obtain ⟨hanswers, hfollow⟩ := ih hcollects
      constructor
      · intro step hstep
        rcases List.mem_cons.mp hstep with rfl | hstep
        · exact hanswered
        · exact hanswers step hstep
      · rw [List.any_cons, ← Bool.or_assoc, List.flatMap_cons, ← List.append_assoc]
        exact hfollow

end Scene

/-- In a wallet, once a first chunk has been answered with success, every further chunk but
the last is acknowledged, and the last leads to the verdict on the whole message under the
key that the first chunk named. Neither the cut nor the kinds and positions of the chunks
before the last play any part, but that one chunk may ask for the digest alone. -/
theorem wallet_verdict {σ : Type} [BreakableStore σ] (config : Config)
    (hwallet : config.mode = .wallet) (store : σ) (earlier : List Turn) (opening : Turn)
    (raw : Bytes) (request : SigningRequest) (hstimulus : opening.stimulus = .frame raw)
    (hrequest : SigningRequest.ofBytes? .wallet raw = some request)
    (hposition : request.position = 0x00)
    (hanswered : (((Scene.start config store).follow earlier).play opening).outcome =
      some (.reply (.success []))) :
    ∃ key rest, Curve.ofParameter request.p2 = .ok key.curve ∧
      Path.read request.data = .ok (key.path, rest) ∧
      ∀ (pieces : List Piece) (final : Piece),
        let opened := (((Scene.start config store).follow earlier).play opening).scene
        let turns := pieces.map (·.turn false)
        let form : ReplyForm :=
          if (pieces ++ [final]).any (·.digestOnly) then .hashOnly
          else if final.withHash then .hashAndSignature else .signature
        (∀ step ∈ opened.trace turns, step.outcome = some (.reply (.success []))) ∧
          ((opened.follow turns).play (final.turn true)).Concludes
            (walletReview final.keys key form ((pieces ++ [final]).flatMap (·.data))) := by
  have hsound := (Scene.sound_start config store).follow earlier
  have hmode : ((Scene.start config store).follow earlier).signer.config.mode = .wallet := by
    rw [Scene.follow_config, hwallet]
  obtain ⟨key, rest, hcurve, hpath, hcollecting⟩ :=
    hsound.opens hmode hstimulus hrequest hposition hanswered
  refine ⟨key, rest, hcurve, hpath, fun pieces final => ?_⟩
  obtain ⟨hanswers, hfollow⟩ := hcollecting.follow pieces
  refine ⟨hanswers, ?_⟩
  have hfinish := hfollow.finish final
  rw [Bool.false_or, List.nil_append] at hfinish
  rw [List.any_append, List.flatMap_append, List.any_cons, List.any_nil, Bool.or_false,
    List.flatMap_cons, List.flatMap_nil, List.append_nil]
  exact hfinish

/-- A message that is no operation group is reviewed by its digest, also when it is cut behind
its first byte. A transfer is shown in detail wherever it is cut, and three chunks of full length
are too much to be decoded. -/
theorem wallet_verdict_blind :
    let key : KeyId := ⟨.ed25519, ⟨[0x80000000], by decide⟩⟩
    let keys : KeyProvider := ⟨fun _ => .ok (.ed25519 (.fill 32 0x11)), Simulated.sign⟩
    let start : Scene MemoryStore := .start (.ofMode .wallet) (.ofState .fresh)
    let opening : Turn := ⟨keys, false, .frame [0x80, 0x0F, 0x00, 0x00, 5, 1, 0x80, 0, 0, 0]⟩
    let piece (withHash : Bool) (data : Bytes) (hdata : data.length ≤ 230) : Piece :=
      ⟨keys, false, withHash, false, 0, data, hdata⟩
    let last (pieces : List Piece) (final : Piece) : Transition MemoryStore :=
      ((start.play opening).scene.follow (pieces.map (·.turn false))).play (final.turn true)
    let blind := last [piece false [0x03] (by decide)] (piece true [0x00] (by decide))
    let transfer : Bytes := 0x03 :: (List.replicate 32 0xBB
      ++ 0x08 :: 0x01 :: List.replicate 20 0x22 ++ [0x00, 0x05, 0x01, 0x02, 0x06, 0x2A]
      ++ 0x00 :: 0x01 :: List.replicate 20 0x44 ++ [0x00])
    let detailed := last [piece true (transfer.take 40) (by decide)]
      (piece false (transfer.drop 40) (by decide))
    let part : Bytes := List.replicate 230 0x03
    let full := piece false part List.length_replicate.le
    let folded := last [full, full] full
    (start.play opening).outcome = some (.reply (.success [])) ∧
      blind.outcome = some (.prompt (.unrecognized (blake2b256 [0x03, 0x00]).val)) ∧
      blind.after.pending = some (.sign ⟨key, .digest (blake2b256 [0x03, 0x00]),
        .hashAndSignature⟩) ∧
      detailed.outcome = some (.prompt (.transfer (.originated (.fill 20 0x22))
        (.implicit .secp256k1 (.fill 20 0x44)) 42 ⟨5, 6⟩)) ∧
      detailed.after.pending = some (.sign ⟨key, .digest (blake2b256 transfer), .signature⟩) ∧
      folded.outcome = some (.prompt (.unrecognized (blake2b256 (part ++ (part ++ part))).val)) ∧
      folded.after.pending = some (.sign ⟨key, .digest (blake2b256 (part ++ (part ++ part))),
        .signature⟩) := by
  intro key keys start opening piece last blind transfer detailed part full folded
  have hanswered : (start.play opening).outcome = some (.reply (.success [])) := by decide
  obtain ⟨named, rest, hcurve, hpath, hverdict⟩ := wallet_verdict (.ofMode .wallet) rfl
    (MemoryStore.ofState .fresh) [] opening _ _ rfl rfl rfl hanswered
  obtain ⟨curve, path⟩ := named
  cases hpath
  cases hcurve
  have hblind := (hverdict [piece false [0x03] (by decide)] (piece true [0x00] (by decide))).2
  have hdetailed := (hverdict [piece true (transfer.take 40) (by decide)]
    (piece false (transfer.drop 40) (by decide))).2
  have hshown : walletReview keys key .signature transfer = .ok
      (.transfer (.originated (.fill 20 0x22)) (.implicit .secp256k1 (.fill 20 0x44)) 42 ⟨5, 6⟩,
        ⟨key, .digest (blake2b256 transfer), .signature⟩) := rfl
  change Transition.Concludes detailed (walletReview keys key .signature transfer) at hdetailed
  rw [hshown] at hdetailed
  -- Only the length and the first byte of the message that is folded play a part.
  have hfolded (data : Bytes) (hdata : data.length ≤ 230)
      (hfirst : (data ++ (data ++ data)).head? = some 0x03)
      (hlong : ¬ (data ++ (data ++ data)).length ≤ 512) :
      (last [piece false data hdata, piece false data hdata] (piece false data hdata)).Concludes
        (.ok (.unrecognized (blake2b256 (data ++ (data ++ data))).val,
          ⟨key, .digest (blake2b256 (data ++ (data ++ data))), .signature⟩)) := by
    have hverdict := (hverdict [piece false data hdata, piece false data hdata]
      (piece false data hdata)).2
    have hwhole : ([piece false data hdata, piece false data hdata]
        ++ [piece false data hdata]).flatMap (·.data) = data ++ (data ++ data) := by
      simp [piece]
    rw [hwhole, walletReview, if_pos hfirst, if_neg hlong] at hverdict
    exact hverdict
  have hlength : part.length = 230 := List.length_replicate
  have hlong : ¬ (part ++ (part ++ part)).length ≤ 512 := by
    rw [List.length_append, List.length_append, hlength]
    decide
  have hmessage : folded.Concludes _ := hfolded part List.length_replicate.le rfl hlong
  exact ⟨hanswered, hblind.1, hblind.2, hdetailed.1, hdetailed.2, hmessage⟩

end TezosSigner
