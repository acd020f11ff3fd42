import TezosSigner.Key.Simulated
import TezosSigner.Proofs.Chunking
import TezosSigner.Proofs.Residue

/-!
# Messages that are kept whole

A baker keeps every message whole, and so does a wallet that signs a message as it is.
Such a message may be cut anywhere: every chunk before the last is only acknowledged,
and the last one leads to what the whole message leads to. A message that does not fit
into the memory is refused at the chunk that is too much, and nothing comes of it.
-/

namespace TezosSigner

open Command

/-- A further chunk of a message that is kept whole, as a host may send it, and the turn that it
is sent in. -/
structure Fragment (mode : Mode) where
  keys : KeyProvider
  broken : Bool
  kind : SigningKind
  /-- A wallet keeps a message whole to sign it as it is. -/
  resident : kind = .unhashed ↔ mode = .wallet
  p2 : UInt8
  data : Bytes
  length_le : data.length ≤ 230

namespace Fragment

variable {mode : Mode} (fragment : Fragment mode) (last : Bool)

/-- The turn in which a fragment is sent, marked if it is the last one. -/
def turn : Turn where
  keys := fragment.keys
  broken := fragment.broken
  stimulus := .frame <|
    [0x80, fragment.kind.code, Piece.parameter false last, fragment.p2,
      UInt8.ofNat fragment.data.length] ++ fragment.data

/-- The turns in which a message is sent. -/
def turns (fragments : List (Fragment mode)) (final : Fragment mode) : List Turn :=
  fragments.map (·.turn false) ++ [final.turn true]

theorem exists_of_mem_turns {fragments : List (Fragment mode)} {final : Fragment mode} {turn : Turn}
    (hturn : turn ∈ turns fragments final) :
    ∃ (fragment : Fragment mode) (last : Bool), turn = fragment.turn last := by
  rcases List.mem_append.mp hturn with hfront | hfinal
  · obtain ⟨fragment, _, rfl⟩ := List.mem_map.mp hfront
    exact ⟨fragment, false, rfl⟩
  · exact ⟨final, true, List.mem_singleton.mp hfinal⟩

/-- A fragment as it is read. -/
def request : SigningRequest :=
  ⟨fragment.kind, Piece.parameter false last, fragment.p2, fragment.data⟩

theorem ofBytes?_turn {raw : Bytes} (hstimulus : (fragment.turn last).stimulus = .frame raw) :
    SigningRequest.ofBytes? mode raw = some (fragment.request last) := by
  cases hstimulus
  exact SigningRequest.ofBytes?_chunk fragment.resident.mp fragment.length_le

theorem isLast_request : (fragment.request last).isLast = last :=
  Piece.parameter_last false last

theorem position_request : (fragment.request last).position = 0x01 :=
  Piece.parameter_position false last

theorem mayFold_request : (fragment.request last).mayFold mode = false := by
  have hresident := fragment.resident
  unfold SigningRequest.mayFold request
  cases mode with
  | baking => rfl
  | wallet =>
      rw [hresident.mpr rfl]
      rfl

theorem continues_request : (fragment.request last).continues mode :=
  Or.inr (fragment.position_request last)

/-- A fragment does not ask for the digest alone. -/
theorem noting_request (session : Session) :
    session.noting mode (fragment.request last) = session := by
  have hdigest : ¬ (fragment.request last).asksDigest mode := by
    rintro ⟨hposition, _⟩
    rw [position_request] at hposition
    exact absurd hposition (by decide)
  rw [Session.noting, decide_eq_false hdigest, Bool.or_false]

end Fragment

/-- The session that keeps a message whole for a key. -/
def Session.keeping (key : KeyId) (message : Bytes) : Session :=
  ⟨some key, .whole message, false⟩

theorem Session.reset_keeping (key : KeyId) {message : Bytes}
    (hfits : message.length ≤ MessageBuffer.capacity) : (keeping key message).reset = .blank :=
  reset_eq_blank (MessageBuffer.collects_whole hfits).toHolds

/-- What is observed of a signer that has served a frame. -/
def Signer.observed {σ : Type} :
    Signer σ × Outcome × List Event → Option Outcome × List Event × Signer σ
  | (after, outcome, journal) => (some outcome, deeds journal, after)

/-- What is observed of a signer that completes a whole message at once. -/
def Signer.conclusion {σ : Type} [Store σ] (config : Config) (keys : KeyProvider) (key : KeyId)
    (kind : SigningKind) (message : Bytes) (store : σ) : Option Outcome × List Event × Signer σ :=
  match complete config.mode keys key kind (.keeping key message) (.ofStore store) with
  | .ok reaction after => observed (served config (.ok reaction) after)
  | .error status after => observed (served config (.error status) after)

namespace Command

variable {σ : Type} [Store σ] {mode : Mode} {keys : KeyProvider} {fragment : Fragment mode}
  {last : Bool} {key : KeyId} {message : Bytes} {store : σ} {journal : List Event}
  {post : Except Status Reaction → Workspace σ → Prop}

/-- A fragment is short enough and no first chunk, so it continues the session. -/
theorem takeChunk_of_continueSession {before : Workspace σ}
    (hends : Ends (continueSession mode keys (fragment.request last)) before post) :
    Ends (takeChunk mode keys (fragment.request last)) before post := by
  simp only [takeChunk, ends_bind, ends_require, ends_ite]
  refine ⟨fun _ => ⟨fun hfirst => ?_, fun _ => hends⟩, fun hlong => ?_⟩
  · rw [fragment.position_request] at hfirst
    exact absurd hfirst (by decide)
  · exact absurd fragment.length_le (of_decide_eq_false hlong)

/-- A fragment is kept, or completes the message, or is refused because it does not fit. -/
theorem takeChunk_fragment_ends (hmessage : message.length ≤ MessageBuffer.capacity)
    (hrefused : MessageBuffer.capacity < (message ++ fragment.data).length →
      post (.error .parseError)
        ⟨.keeping key message, store, journal ++ [.log .capacityExceeded]⟩)
    (hnext : (message ++ fragment.data).length ≤ MessageBuffer.capacity → last = false →
      post (.ok (.reply [])) ⟨.keeping key (message ++ fragment.data), store, journal⟩)
    (hlast : (message ++ fragment.data).length ≤ MessageBuffer.capacity → last = true →
      Ends (complete mode keys key fragment.kind (.keeping key (message ++ fragment.data)))
        ⟨.blank, store, journal⟩ post) :
    Ends (takeChunk mode keys (fragment.request last)) ⟨.keeping key message, store, journal⟩
      post := by
  have happend : MessageBuffer.append ((fragment.request last).mayFold mode) fragment.data
      (MessageBuffer.whole message) =
        if (message ++ fragment.data).length ≤ MessageBuffer.capacity then
          .ok () (.whole (message ++ fragment.data))
        else .error .messageTooLong (.whole message) := by
    rw [fragment.mayFold_request]
    exact MessageBuffer.append_whole hmessage
  apply takeChunk_of_continueSession
  apply continueSession_ends
  case hparam =>
    intro hnot
    exact absurd (fragment.continues_request last) hnot
  case hclosed =>
    intro hkey
    cases hkey
  case hrefused =>
    intro _ cause buffer _ hfull
    have hcut := happend.symm.trans hfull
    split at hcut
    next => cases hcut
    next hlong =>
      cases hcut
      rw [fragment.noting_request]
      exact hrefused (Nat.lt_of_not_le hlong)
  case hnext =>
    intro _ buffer _ _ htaken hmore
    have hcut := happend.symm.trans htaken
    split at hcut
    next hfits =>
      cases hcut
      rw [fragment.noting_request]
      exact hnext hfits ((fragment.isLast_request last).symm.trans hmore)
    next => cases hcut
  case hlast =>
    intro _ buffer _ hkey htaken hmarked
    cases hkey
    have hcut := happend.symm.trans htaken
    split at hcut
    next hfits =>
      cases hcut
      have hends := hlast hfits ((fragment.isLast_request last).symm.trans hmarked)
      rw [← Session.reset_keeping key hfits] at hends
      rw [fragment.noting_request]
      exact hends
    next => cases hcut

/-- A fragment fails where no session is open. -/
theorem takeChunk_blank_ends
    (hclosed : post (.error .wrongLengthForInstruction) ⟨.blank, store, journal⟩) :
    Ends (takeChunk mode keys (fragment.request last)) ⟨.blank, store, journal⟩ post := by
  apply takeChunk_of_continueSession
  apply continueSession_ends
  case hparam =>
    intro hnot
    exact absurd (fragment.continues_request last) hnot
  case hclosed =>
    intro _
    rw [fragment.noting_request]
    exact hclosed
  all_goals
    intro _ _ _ hkey
    cases hkey

end Command

/-- What has been logged before plays no part in how a message is completed. -/
theorem Command.complete_concludes {σ : Type} [Store σ] (config : Config) (keys : KeyProvider)
    (key : KeyId) (kind : SigningKind) (message : Bytes) (store : σ) {journal : List Event}
    (hjournal : deeds journal = []) :
    Ends (complete config.mode keys key kind (.keeping key message)) ⟨.blank, store, journal⟩
      fun result after => Signer.observed (Signer.served config result after) =
        Signer.conclusion config keys key kind message store := by
  have hconclusion : Ends (complete config.mode keys key kind (.keeping key message))
      (.ofStore store) fun result after => Signer.conclusion config keys key kind message store =
        Signer.observed (Signer.served config result after) := by
    unfold Ends Signer.conclusion
    split <;> rename_i hrun <;> rw [hrun]
  have hforgets : Forgets (complete config.mode keys key kind (.keeping key message))
      (.ofStore store) ⟨.blank, store, journal⟩ :=
    (matches_complete Store.concur_eq keys config.mode key kind _).forgets rfl rfl hjournal
  obtain ⟨result, after, hsame, hends⟩ := (hconclusion.and hforgets).exists
  rw [hsame]
  apply hends.imp
  rintro _ after' ⟨rfl, halike⟩
  obtain ⟨hsigner, houtcome, hdeeds⟩ := Signer.served_alike config halike
  exact Prod.ext (congrArg some houtcome) (Prod.ext hdeeds hsigner)

/-- A step answers and does nothing else: nothing is shown, signed or stored. -/
structure Transition.OnlyAnswers {σ : Type} (step : Transition σ) (response : Response) : Prop where
  outcome : step.outcome = some (.reply response)
  pending : step.after.pending = none
  deeds : deeds step.journal = []
  store : step.after.store = step.before.store

namespace Scene

variable {σ : Type} {scene : Scene σ}

/-- Nothing waits, and this is the session. -/
structure Rests (scene : Scene σ) (config : Config) (session : Session) : Prop where
  config_eq : scene.signer.config = config
  idle : scene.signer.pending = none
  session_eq : scene.signer.session = session

variable [BreakableStore σ] {config : Config} {session : Session} {key : KeyId} {message : Bytes}

/-- What is observed of a step is how its fragment is taken in the session that it finds. -/
theorem Rests.behaviour_play (hscene : scene.Rests config session)
    (fragment : Fragment config.mode) (last : Bool)
    {seen : Option Outcome × List Event × Signer σ}
    (htake : ∀ journal, deeds journal = [] →
      Ends (takeChunk config.mode fragment.keys (fragment.request last))
        ⟨session, (scene.meet (fragment.turn last)).store, journal⟩ fun result after =>
          Signer.observed (Signer.served config result after) = seen) :
    (scene.play (fragment.turn last)).behaviour = seen := by
  obtain ⟨hconfig, hidle, hsession⟩ := hscene
  obtain ⟨raw, hraw⟩ : ∃ raw, (fragment.turn last).stimulus = .frame raw := ⟨_, rfl⟩
  have hmeet : (scene.meet (fragment.turn last)).config = config := hconfig
  have hworkspace : (scene.meet (fragment.turn last)).cancelPending =
      ⟨session, (scene.meet (fragment.turn last)).store, []⟩ := by
    rw [← hsession]
    exact if_neg (by rw [meet, hidle]; decide)
  have hends : Ends (dispatch (scene.meet (fragment.turn last)).config fragment.keys raw)
      (scene.meet (fragment.turn last)).cancelPending fun result after =>
        Signer.observed (Signer.served config result after) = seen := by
    rw [hworkspace, hmeet]
    exact dispatch_chunk_ends (fragment.ofBytes?_turn last hraw) htake
  obtain ⟨result, after, hseen, hreceive⟩ :=
    (hends.and ((scene.meet (fragment.turn last)).receive_served fragment.keys raw)).exists
  obtain ⟨hafter, houtcome⟩ := scene.play_frame hraw
  have hplay : (scene.play (fragment.turn last)).behaviour =
      Signer.observed ((scene.meet (fragment.turn last)).receive fragment.keys raw) := by
    rw [Transition.behaviour, hafter, houtcome, scene.journal_play_frame hraw]
    rfl
  rw [hmeet] at hreceive
  rw [hplay, hreceive, hseen]

/-- A step that is seen to answer only does nothing else. -/
theorem rests_of_behaviour {turn : Turn} {response : Response}
    (hstep : (scene.play turn).behaviour =
      (some (.reply response), [], ⟨config, session, none, (scene.meet turn).store⟩)) :
    (scene.play turn).OnlyAnswers response ∧ (scene.play turn).scene.Rests config session := by
  obtain ⟨houtcome, hrest⟩ := Prod.ext_iff.mp hstep
  obtain ⟨hdeeds, hafter⟩ := Prod.ext_iff.mp hrest
  have hsigner : (scene.play turn).after = ⟨config, session, none, (scene.meet turn).store⟩ :=
    hafter
  refine ⟨⟨houtcome, ?_, hdeeds, ?_⟩, ?_, ?_, ?_⟩
  · rw [hsigner]
  · rw [hsigner, play_before]
  all_goals rw [Transition.scene, hsigner]

section Keeping

variable (hscene : scene.Rests config (.keeping key message)) (fragment : Fragment config.mode)

include hscene

/-- A fragment before the last is acknowledged and kept. -/
theorem Rests.keep (hfits : (message ++ fragment.data).length ≤ MessageBuffer.capacity) :
    (scene.play (fragment.turn false)).OnlyAnswers (.success []) ∧
      (scene.play (fragment.turn false)).scene.Rests config
        (.keeping key (message ++ fragment.data)) := by
  have hmessage : message.length ≤ MessageBuffer.capacity :=
    (List.prefix_append _ _).length_le.trans hfits
  apply rests_of_behaviour
  apply hscene.behaviour_play
  intro journal hjournal
  apply takeChunk_fragment_ends hmessage
  case hrefused =>
    intro hlong
    exact absurd hfits (Nat.not_le_of_lt hlong)
  case hnext =>
    intro _ _
    rw [Signer.served, Signer.observed, hjournal]
  case hlast =>
    intro _ hlast
    cases hlast

/-- The last fragment leads to what the whole message leads to. -/
theorem Rests.finish (hfits : (message ++ fragment.data).length ≤ MessageBuffer.capacity) :
    (scene.play (fragment.turn true)).behaviour = Signer.conclusion config fragment.keys key
      fragment.kind (message ++ fragment.data) (scene.play (fragment.turn true)).before.store := by
  have hmessage : message.length ≤ MessageBuffer.capacity :=
    (List.prefix_append _ _).length_le.trans hfits
  rw [play_before]
  apply hscene.behaviour_play
  intro journal hjournal
  apply takeChunk_fragment_ends hmessage
  case hrefused =>
    intro hlong
    exact absurd hfits (Nat.not_le_of_lt hlong)
  case hnext =>
    intro _ hmore
    cases hmore
  case hlast =>
    intro _ _
    exact complete_concludes config fragment.keys key fragment.kind _ _ hjournal

/-- A fragment that does not fit is refused, and closes the session. -/
theorem Rests.overflow (hmessage : message.length ≤ MessageBuffer.capacity)
    (hlong : MessageBuffer.capacity < (message ++ fragment.data).length) (last : Bool) :
    (scene.play (fragment.turn last)).OnlyAnswers (.failure .parseError) ∧
      (scene.play (fragment.turn last)).scene.Rests config .blank := by
  apply rests_of_behaviour
  apply hscene.behaviour_play
  intro journal hjournal
  apply takeChunk_fragment_ends hmessage
  case hrefused =>
    intro _
    rw [Signer.served, Signer.observed, Session.reset_keeping key hmessage]
    simp [hjournal]
  case hnext =>
    intro hfits
    exact absurd hfits (Nat.not_le_of_lt hlong)
  case hlast =>
    intro hfits
    exact absurd hfits (Nat.not_le_of_lt hlong)

end Keeping

/-- Without a session every fragment is refused. -/
theorem Rests.refuse (hscene : scene.Rests config .blank) (fragment : Fragment config.mode)
    (last : Bool) :
    (scene.play (fragment.turn last)).OnlyAnswers (.failure .wrongLengthForInstruction) ∧
      (scene.play (fragment.turn last)).scene.Rests config .blank := by
  apply rests_of_behaviour
  apply hscene.behaviour_play
  intro journal hjournal
  apply takeChunk_blank_ends
  rw [Signer.served, Signer.observed, Session.reset_blank]
  simp [hjournal]

/-- However many fragments come after a session has been closed, all are refused. -/
theorem Rests.refuse_all (hscene : scene.Rests config .blank) {turns : List Turn}
    (hturns : ∀ turn ∈ turns, ∃ (fragment : Fragment config.mode) (last : Bool),
      turn = fragment.turn last) :
    ∀ step ∈ scene.trace turns, step.OnlyAnswers (.failure .wrongLengthForInstruction) := by
  induction turns generalizing scene with
  | nil => exact List.forall_mem_nil _
  | cons turn turns ih =>
      obtain ⟨fragment, last, rfl⟩ := hturns turn List.mem_cons_self
      obtain ⟨hanswers, hrests⟩ := hscene.refuse fragment last
      exact List.forall_mem_cons.mpr
        ⟨hanswers, ih hrests fun turn hturn => hturns turn (List.mem_cons_of_mem _ hturn)⟩

/-- All fragments that fit are acknowledged and kept. -/
theorem Rests.keep_all (hscene : scene.Rests config (.keeping key message))
    (fragments : List (Fragment config.mode))
    (hfits : (message ++ fragments.flatMap (·.data)).length ≤ MessageBuffer.capacity) :
    (∀ step ∈ scene.trace (fragments.map (·.turn false)), step.OnlyAnswers (.success [])) ∧
      (scene.follow (fragments.map (·.turn false))).Rests config
        (.keeping key (message ++ fragments.flatMap (·.data))) := by
  induction fragments generalizing scene message with
  | nil =>
      rw [List.flatMap_nil, List.append_nil]
      exact ⟨List.forall_mem_nil _, hscene⟩
  | cons fragment fragments ih =>
      rw [List.flatMap_cons, ← List.append_assoc] at hfits ⊢
      have hfirst : (message ++ fragment.data).length ≤ MessageBuffer.capacity :=
        (List.prefix_append _ _).length_le.trans hfits
      obtain ⟨hanswers, hrests⟩ := hscene.keep fragment hfirst
      obtain ⟨hall, hfollow⟩ := ih hrests hfits
      exact ⟨List.forall_mem_cons.mpr ⟨hanswers, hall⟩, hfollow⟩

/-- Of a message that does not fit, the fragments that still do are acknowledged, the next one is
refused, and so is all that comes behind it. -/
theorem Rests.overflow_all (hscene : scene.Rests config (.keeping key message))
    (hmessage : message.length ≤ MessageBuffer.capacity) (fragments : List (Fragment config.mode))
    (final : Fragment config.mode)
    (hlong : MessageBuffer.capacity <
      (message ++ (fragments ++ [final]).flatMap (·.data)).length) :
    ∃ front breaking behind taken refused late,
      fragments ++ [final] = front ++ breaking :: behind ∧
      scene.trace (Fragment.turns fragments final) = taken ++ refused :: late ∧
      taken.length = front.length ∧
      (message ++ front.flatMap (·.data)).length ≤ MessageBuffer.capacity ∧
      MessageBuffer.capacity < (message ++ (front ++ [breaking]).flatMap (·.data)).length ∧
      (∀ step ∈ taken, step.OnlyAnswers (.success [])) ∧
      refused.OnlyAnswers (.failure .parseError) ∧
      ∀ step ∈ late, step.OnlyAnswers (.failure .wrongLengthForInstruction) := by
  induction fragments generalizing scene message with
  | nil =>
      rw [List.nil_append, List.flatMap_singleton] at hlong
      obtain ⟨hrefused, _⟩ := hscene.overflow final hmessage hlong true
      refine ⟨[], final, [], [], _, [], rfl, rfl, rfl, ?_, ?_, List.forall_mem_nil _, hrefused,
        List.forall_mem_nil _⟩
      · rw [List.flatMap_nil, List.append_nil]
        exact hmessage
      · rw [List.nil_append, List.flatMap_singleton]
        exact hlong
  | cons fragment fragments ih =>
      rcases Nat.lt_or_ge MessageBuffer.capacity (message ++ fragment.data).length with
        hover | hfits
      · obtain ⟨hrefused, hrests⟩ := hscene.overflow fragment hmessage hover false
        refine ⟨[], fragment, fragments ++ [final], [], _, _, rfl, rfl, rfl, ?_, ?_,
          List.forall_mem_nil _, hrefused, hrests.refuse_all fun turn hturn => ?_⟩
        · rw [List.flatMap_nil, List.append_nil]
          exact hmessage
        · rw [List.nil_append, List.flatMap_singleton]
          exact hover
        · exact Fragment.exists_of_mem_turns hturn
      · obtain ⟨hanswers, hrests⟩ := hscene.keep fragment hfits
        rw [List.cons_append, List.flatMap_cons, ← List.append_assoc] at hlong
        obtain ⟨front, breaking, behind, taken, refused, late, hcut, htrace, hcount, hfront,
          hbreaking, htaken, hrefused, hlate⟩ := ih hrests hfits hlong
        refine ⟨fragment :: front, breaking, behind, _ :: taken, refused, late, ?_, ?_, ?_, ?_, ?_,
          List.forall_mem_cons.mpr ⟨hanswers, htaken⟩, hrefused, hlate⟩
        · rw [List.cons_append, hcut, List.cons_append]
        · rw [List.cons_append, ← htrace]
          rfl
        · rw [List.length_cons, hcount, List.length_cons]
        · rw [List.flatMap_cons, ← List.append_assoc]
          exact hfront
        · rw [List.cons_append, List.flatMap_cons, ← List.append_assoc]
          exact hbreaking

end Scene

/-- In a baker, and in a wallet that signs a message as it is, once a first chunk has been answered
with success, a message may be cut anywhere. If it fits into the memory, every fragment but the
last is only acknowledged, and the last leads to what the whole message leads to on the store
and with the keys found then. If it does not fit, the fragments that still do are
acknowledged, the first that does not is refused as malformed, all that come behind it are
refused for want of a session, and nothing is shown, signed or stored. -/
theorem resident_conclusion {σ : Type} [BreakableStore σ] (config : Config) (store : σ)
    (earlier : List Turn) (opening : Turn) (raw : Bytes) (request : SigningRequest)
    (hstimulus : opening.stimulus = .frame raw)
    (hrequest : SigningRequest.ofBytes? config.mode raw = some request)
    (hposition : request.position = 0x00)
    (hanswered : (((Scene.start config store).follow earlier).play opening).outcome =
      some (.reply (.success []))) :
    ∃ key rest, KeyId.read request.p2 request.data = .ok (key, rest) ∧
      ∀ (fragments : List (Fragment config.mode)) (final : Fragment config.mode),
        let opened := (((Scene.start config store).follow earlier).play opening).scene
        let message := (fragments ++ [final]).flatMap (·.data)
        (message.length ≤ MessageBuffer.capacity →
          let front := fragments.map (·.turn false)
          let step := (opened.follow front).play (final.turn true)
          (∀ step ∈ opened.trace front, step.OnlyAnswers (.success [])) ∧
          step.behaviour =
            Signer.conclusion config final.keys key final.kind message step.before.store) ∧
        (MessageBuffer.capacity < message.length →
          ∃ front breaking behind taken refused late,
            fragments ++ [final] = front ++ breaking :: behind ∧
            opened.trace (Fragment.turns fragments final) = taken ++ refused :: late ∧
            taken.length = front.length ∧
            (front.flatMap (·.data)).length ≤ MessageBuffer.capacity ∧
            MessageBuffer.capacity < ((front ++ [breaking]).flatMap (·.data)).length ∧
            (∀ step ∈ taken, step.OnlyAnswers (.success [])) ∧
            refused.OnlyAnswers (.failure .parseError) ∧
            ∀ step ∈ late, step.OnlyAnswers (.failure .wrongLengthForInstruction)) := by
  have hsound := (Scene.sound_start config store).follow earlier
  have hconfig : ((Scene.start config store).follow earlier).signer.config = config :=
    Scene.follow_config config store earlier
  obtain ⟨key, rest, hcurve, hpath, hsession, hidle⟩ :=
    hsound.opens_session hstimulus (by rw [hconfig]; exact hrequest) hposition hanswered
  have hread : KeyId.read request.p2 request.data = .ok (key, rest) := by
    rw [KeyId.read, hcurve, hpath]
    rfl
  have hopened : (((Scene.start config store).follow earlier).play opening).scene.Rests config
      (.keeping key []) := by
    refine ⟨(hsound.play opening).1.trans hconfig, hidle, ?_⟩
    rw [Session.keeping, MessageBuffer.whole_nil]
    exact hsession
  refine ⟨key, rest, hread, fun fragments final => ⟨fun hfits => ?_, fun hlong => ?_⟩⟩
  · rw [List.flatMap_append, List.flatMap_singleton] at hfits ⊢
    have hfront : (fragments.flatMap (·.data)).length ≤ MessageBuffer.capacity :=
      (List.prefix_append _ _).length_le.trans hfits
    obtain ⟨hanswers, hrests⟩ := hopened.keep_all fragments hfront
    exact ⟨hanswers, hrests.finish final hfits⟩
  · exact hopened.overflow_all (Nat.zero_le _) fragments final hlong

/-- Two bytes that a wallet is to sign as they are come in two fragments, and a block comes to a
baker in two fragments: it is guarded and signed as if it had come at once. For both, three
fragments of full length are too much. -/
theorem resident_conclusion_unhashed :
    let key : KeyId := ⟨.ed25519, ⟨[0x80000000], by decide⟩⟩
    let opening (code : UInt8) : Turn :=
      ⟨Simulated.provider, false, .frame [0x80, code, 0x00, 0x00, 5, 1, 0x80, 0, 0, 0]⟩
    let wallet : Scene MemoryStore := .start (.ofMode .wallet) (.ofState .fresh)
    let opened := (wallet.play (opening 0x05)).scene
    let fragment (data : Bytes) (hdata : data.length ≤ 230) : Fragment .wallet :=
      ⟨Simulated.provider, false, .unhashed, by decide, 0, data, hdata⟩
    let full := fragment (List.replicate 230 0x2A) List.length_replicate.le
    let step := (opened.follow [(fragment [0x2A] (by decide)).turn false]).play
      ((fragment [0x2B] (by decide)).turn true)
    let baker : Scene MemoryStore :=
      .start .standard (.ofState { BakingState.fresh with key := some key })
    let bakerOpened := (baker.play (opening 0x04)).scene
    let piece (data : Bytes) (hdata : data.length ≤ 230) : Fragment Config.standard.mode :=
      ⟨Simulated.provider, false, .standard, by decide, 0, data, hdata⟩
    let fullPiece := piece (List.replicate 230 0x2A) List.length_replicate.le
    let block := blockBytes 7 10
    let baked := (bakerOpened.follow [(piece (block.take 20) (by decide)).turn false]).play
      ((piece (block.drop 20) (by decide)).turn true)
    (wallet.play (opening 0x05)).outcome = some (.reply (.success [])) ∧
      step.outcome = some (.prompt (.prehashed [0x2A, 0x2B])) ∧
      (∃ refused ∈ opened.trace (Fragment.turns [full, full] full),
        refused.OnlyAnswers (.failure .parseError)) ∧
      (baker.play (opening 0x04)).outcome = some (.reply (.success [])) ∧
      baked.behaviour = Signer.conclusion .standard Simulated.provider key .standard block
        baked.before.store ∧
      baked.after.store.state.main = ⟨10, false⟩ ∧
      ∃ refused ∈ bakerOpened.trace (Fragment.turns [fullPiece, fullPiece] fullPiece),
        refused.OnlyAnswers (.failure .parseError) := by
  intro key opening wallet opened fragment full step baker bakerOpened piece fullPiece block baked
  have hanswered : (wallet.play (opening 0x05)).outcome = some (.reply (.success [])) := by decide
  have hanswered' : (baker.play (opening 0x04)).outcome = some (.reply (.success [])) := by decide
  obtain ⟨_, _, hread, hcut⟩ := resident_conclusion (.ofMode .wallet)
    (MemoryStore.ofState .fresh) [] (opening 0x05) _ _ rfl rfl rfl hanswered
  obtain ⟨_, _, hread', hcut'⟩ := resident_conclusion .standard
    (MemoryStore.ofState { BakingState.fresh with key := some key }) [] (opening 0x04) _ _ rfl rfl
    rfl hanswered'
  cases hread
  cases hread'
  have hseen := ((hcut [fragment [0x2A] (by decide)] (fragment [0x2B] (by decide))).1
    (by decide)).2
  -- The block is left open, so that its bytes are not compared one by one.
  have hwhole (message : Bytes) (hfirst : (message.take 20).length ≤ 230)
      (hsecond : (message.drop 20).length ≤ 230)
      (hlength : message.length ≤ MessageBuffer.capacity) :
      let step := (bakerOpened.follow [(piece (message.take 20) hfirst).turn false]).play
        ((piece (message.drop 20) hsecond).turn true)
      step.behaviour = Signer.conclusion .standard Simulated.provider key .standard message
        step.before.store := by
    have hjoined : ([piece (message.take 20) hfirst] ++ [piece (message.drop 20) hsecond]).flatMap
        (·.data) = message := by
      simp [piece]
    have hcut := (hcut' [piece (message.take 20) hfirst] (piece (message.drop 20) hsecond)).1
    rw [hjoined] at hcut
    exact (hcut hlength).2
  have hbaked : baked.behaviour = Signer.conclusion .standard Simulated.provider key .standard block
      baked.before.store := hwhole block (by decide) (by decide) (by decide)
  have hraised : baked.after = (Signer.conclusion .standard Simulated.provider key .standard block
      baked.before.store).2.2 := by
    rw [← hbaked]
    rfl
  have hlength : full.data.length = 230 := List.length_replicate
  have hlong : MessageBuffer.capacity < (([full, full] ++ [full]).flatMap (·.data)).length := by
    simp only [List.cons_append, List.nil_append, List.length_flatMap, List.map_cons, List.map_nil,
      hlength]
    decide
  obtain ⟨_, _, _, _, refused, _, _, htrace, _, _, _, _, hrefused, _⟩ :=
    (hcut [full, full] full).2 hlong
  obtain ⟨_, _, _, _, refused', _, _, htrace', _, _, _, _, hrefused', _⟩ :=
    (hcut' [fullPiece, fullPiece] fullPiece).2 hlong
  refine ⟨hanswered, ?_, ⟨refused, ?_, hrefused⟩, hanswered', hbaked, ?_, refused', ?_, hrefused'⟩
  · exact (congrArg Prod.fst hseen).trans (by decide +kernel)
  · exact htrace ▸ List.mem_append_right _ List.mem_cons_self
  · rw [hraised]
    decide +kernel
  · exact htrace' ▸ List.mem_append_right _ List.mem_cons_self

end TezosSigner
