import TezosSigner.Key.Simulated
import TezosSigner.Proofs.Step

/-!
# No signature without consent or guard

In a run of either mode the keys are asked for a signature at most once in a step,
and for one of three reasons: the user has just approved the plan that was prompted
for, the guard has just stored the mark of a consensus message, or the host wants a
keyed hash. A wallet knows the first reason only. How often a public key is derived
is not counted: that tells nothing about a message.
-/

namespace TezosSigner

open Hash Command

namespace Instruction

theorem ofCode_eq_ok {mode : Mode} {code : UInt8} {instruction : Instruction}
    (hcode : ofCode mode code = .ok instruction) :
    common? code = some instruction ∨ ofMode? mode code = some instruction := by
  unfold ofCode at hcode
  split at hcode
  next known hknown =>
    cases hcode
    exact (Option.or_eq_some_iff.mp (Option.orElse_eq_or.symm.trans hknown)).imp_right And.right
  next => cases hcode

/-- A baking signer signs digests only. -/
theorem kind_of_baking {code : UInt8} {kind : SigningKind}
    (hcode : ofCode .baking code = .ok (.sign kind)) : kind = .standard ∨ kind = .withHash := by
  rcases ofCode_eq_ok hcode with hcommon | hmode
  · unfold common? at hcommon
    split_ifs at hcommon <;> cases hcommon
    · exact Or.inl rfl
    · exact Or.inr rfl
  · unfold ofMode? at hmode
    dsimp only at hmode
    split_ifs at hmode <;> cases hmode

theorem baking_of_hmac {mode : Mode} {code : UInt8} (hcode : ofCode mode code = .ok .hmac) :
    mode = .baking := by
  rcases ofCode_eq_ok hcode with hcommon | hmode
  · unfold common? at hcommon
    split_ifs at hcommon <;> cases hcommon
  · cases mode with
    | baking => rfl
    | wallet =>
        unfold ofMode? at hmode
        dsimp only at hmode
        split_ifs at hmode
        cases hmode

end Instruction

theorem Frame.ofCode_of_understood {mode : Mode} {raw : Bytes} {instruction : Instruction}
    {frame : Frame} (hcommand : Frame.understood? mode raw = some (instruction, frame)) :
    Instruction.ofCode mode frame.instruction = .ok instruction := by
  unfold Frame.understood? at hcommand
  split at hcommand
  next =>
    split at hcommand
    next hcode =>
      cases hcommand
      exact hcode
    next => cases hcommand
  next => cases hcommand

theorem SigningRequest.understood_of_ofBytes {mode : Mode} {raw : Bytes}
    {request : SigningRequest} (hrequest : SigningRequest.ofBytes? mode raw = some request) :
    ∃ frame, Frame.understood? mode raw = some (.sign request.kind, frame) := by
  unfold SigningRequest.ofBytes? at hrequest
  split at hrequest
  next kind frame hcommand =>
    cases hrequest
    exact ⟨frame, hcommand⟩
  next => cases hrequest

namespace Transition

variable {σ : Type} [Store σ] {run : List (Transition σ)} {step : Transition σ} {key : KeyId}
  {message : Bytes}

/-- The user has approved a plan that needs a signature. The step before showed its
prompt, and made the plan together with it. -/
structure Consent (step : Transition σ) (run : List (Transition σ)) (key : KeyId)
    (message : Bytes) where
  asked : Transition σ
  raw : Bytes
  prompt : Prompt
  plan : SigningPlan
  made : Workspace σ
  previous : run.getLast? = some asked
  framed : asked.turn.stimulus = .frame raw
  dispatched : dispatch asked.before.config asked.turn.keys raw asked.before.cancelPending =
    .ok (.confirm prompt (.sign plan)) made
  shown : asked.outcome = some (.prompt prompt)
  pending : step.before.pending = some (.sign plan)
  approved : step.turn.stimulus = .answer true
  form : plan.reply ≠ .hashOnly
  key_eq : key = plan.key
  message_eq : message = plan.payload.bytes

/-- A last chunk has completed a consensus message, and its mark was stored before the
session's key was asked to sign its digest. -/
structure Guarded (step : Transition σ) (key : KeyId) (message : Bytes) where
  request : SigningRequest
  data : ConsensusData
  state : BakingState
  baking : step.before.config.mode = .baking
  chunk : step.request? = some request
  kind : request.kind = .standard ∨ request.kind = .withHash
  position : request.position = 0x01
  last : request.isLast = true
  opened : step.before.session.key = some key
  consensus : (MessageClass.ofBytes step.heard).consensus? = some data
  authorized : step.record.authorizes key = true
  allowed : step.record.allows (step.record.chainFor data.chainId) data.level
    data.isEndorsement = true
  recorded : step.record.recordSigned data = .ok state
  saved : Store.save state step.before.store = .ok step.after.store
  ordered : deeds step.journal = [.stored state, .signing key message]
  message_eq : message = (blake2b256 step.heard).val

/-- The host has asked for a keyed hash, whose secret is a signature over a fixed value. -/
structure KeyedHash (step : Transition σ) (key : KeyId) (message : Bytes) where
  frame : Frame
  rest : Bytes
  baking : step.before.config.mode = .baking
  command : step.command? = some (.hmac, frame)
  parameter : frame.p1 = 0
  named : KeyId.read frame.p2 frame.data = .ok (key, rest)
  message_eq : message = hmacSeed

/-- The user approves a plan, the guard has stored a mark, or the host wants a keyed hash. -/
def Occasion (step : Transition σ) (key : KeyId) (message : Bytes) : Prop :=
  (∃ plan, step.turn.stimulus = .answer true ∧ step.before.pending = some (.sign plan) ∧
    plan.asks = true ∧ key = plan.key ∧ message = plan.payload.bytes) ∨
  Nonempty (step.Guarded key message) ∨ Nonempty (step.KeyedHash key message)

theorem occasion_of_approval {action : PendingAction} {after : σ} {done : List Event}
    (hdeed : ApprovalDeed action step.before.store after done)
    (hstimulus : step.turn.stimulus = .answer true)
    (hpending : step.before.pending = some action) (hjournal : deeds step.journal = done) :
    step.signings = [] ∨
      ∃ key message, step.signings = [(key, message)] ∧ step.Occasion key message := by
  have hsignings := step.signings_eq
  rw [hjournal] at hsignings
  cases hdeed with
  | none => exact Or.inl hsignings
  | committed => exact Or.inl hsignings
  | @signature plan hplanned hasks =>
      subst hplanned
      exact Or.inr ⟨_, _, hsignings, Or.inl ⟨plan, hstimulus, hpending, hasks, rfl, rfl⟩⟩

theorem occasion_of_frame {raw : Bytes} {done : List Event}
    (hdeed : FrameDeed step.before.config step.before.session raw step.heard step.before.store
      step.after.store done)
    (hstimulus : step.turn.stimulus = .frame raw) (hjournal : deeds step.journal = done) :
    step.signings = [] ∨
      ∃ key message, step.signings = [(key, message)] ∧ step.Occasion key message := by
  have hsignings := step.signings_eq
  rw [hjournal] at hsignings
  generalize hstore : step.after.store = after at hdeed
  cases hdeed with
  | none => exact Or.inl hsignings
  | keyRemoved => exact Or.inl hsignings
  | @keyedHash frame key rest hcommand hparameter hread =>
      refine Or.inr ⟨_, _, hsignings, Or.inr (Or.inr ⟨?_⟩)⟩
      have hmode := Instruction.baking_of_hmac (Frame.ofCode_of_understood hcommand)
      refine ⟨frame, rest, hmode, ?_, hparameter, hread, rfl⟩
      rw [command?_eq hstimulus]
      exact hcommand
  | @consensus request key data state after hbaking hchunk hposition hlast hopened hconsensus
      hloaded hauthorized hallowed hsaved =>
      subst hloaded hstore
      obtain ⟨frame, hcommand⟩ := SigningRequest.understood_of_ofBytes hchunk
      rw [hbaking] at hcommand
      have hkind := Instruction.kind_of_baking (Frame.ofCode_of_understood hcommand)
      refine Or.inr ⟨_, _, hsignings, Or.inr (Or.inl ⟨?_⟩)⟩
      refine ⟨request, data, _, hbaking, ?_, hkind, hposition, hlast, hopened, hconsensus,
        hauthorized, hallowed, BakingState.recordSigned_of_allows _ hallowed, hsaved, hjournal, rfl⟩
      rw [request?_eq hstimulus]
      exact hchunk

/-- What a step has signed, if anything, and on which occasion. -/
theorem Deed.signings (hdeed : step.Deed) :
    step.signings = [] ∨
      ∃ key message, step.signings = [(key, message)] ∧ step.Occasion key message := by
  cases hdeed with
  | none _ hjournal =>
      have hsignings := step.signings_eq
      rw [hjournal] at hsignings
      exact Or.inl hsignings
  | approval hstimulus hpending hdeed => exact occasion_of_approval hdeed hstimulus hpending rfl
  | frame hstimulus hdeed => exact occasion_of_frame hdeed hstimulus rfl

omit [Store σ] in
theorem request?_of_keyedHash (hhash : step.KeyedHash key message) : step.request? = none := by
  have hcommand := hhash.command
  cases hstimulus : step.turn.stimulus with
  | frame raw =>
      rw [command?_eq hstimulus] at hcommand
      rw [request?_eq hstimulus]
      exact SigningRequest.ofBytes?_eq_none hcommand rfl
  | answer approved => rw [request?, hstimulus]

end Transition

namespace Scene

variable {σ : Type} [BreakableStore σ]

/-- A plan that waits when a turn begins was made by the frame just before. -/
theorem consent_of_pending {config : Config} {store : σ} {earlier : List Turn} {turn : Turn}
    {plan : SigningPlan}
    (hpending : ((start config store).follow earlier).signer.pending = some (.sign plan))
    (happroved : turn.stimulus = .answer true) (hasks : plan.asks = true) :
    Nonempty ((((start config store).follow earlier).play turn).Consent
      ((start config store).trace earlier) plan.key plan.payload.bytes) := by
  have hform : plan.reply ≠ .hashOnly := by
    intro hreply
    rw [SigningPlan.asks_of_hashOnly hreply] at hasks
    cases hasks
  -- Nothing waits at the start, so there is a step before this one.
  rcases List.eq_nil_or_concat earlier with rfl | ⟨front, last, rfl⟩
  · cases hpending
  · rw [List.concat_eq_append] at hpending ⊢
    have hsound := (sound_start config store).follow front
    have hafter : (((start config store).follow front).play last).after.pending =
        some (.sign plan) := by
      rw [follow_append] at hpending
      exact hpending
    obtain ⟨raw, prompt, made, hframe, hdispatch, hshown, _⟩ := hsound.prompted hafter
    refine ⟨⟨((start config store).follow front).play last, raw, prompt, plan, made,
      getLast?_trace_concat _ _ _, ?_, ?_, hshown, ?_, ?_, hform, rfl, rfl⟩⟩
    · rw [play_turn]
      exact hframe
    · rw [play_before, play_turn]
      exact hdispatch
    · rw [play_before]
      exact hpending
    · rw [play_turn]
      exact happroved

end Scene

/-- In every run of either mode, a step asks the keys for one signature at most, and only for a
plan that was just approved, for a consensus message whose mark was just stored, or for a keyed
hash. In a wallet only approval counts. A chunk is never signed when the store refuses, and a
plan for the digest alone is never signed. -/
theorem signings_of_step {σ : Type} [BreakableStore σ] (config : Config) (store : σ)
    (earlier : List Turn) (turn : Turn) :
    let scene := (Scene.start config store).follow earlier
    let run := (Scene.start config store).trace earlier
    let step := scene.play turn
    step.signings.length ≤ 1 ∧
    (∀ key message, (key, message) ∈ step.signings →
      Nonempty (step.Consent run key message) ∨
      Nonempty (step.Guarded key message) ∨ Nonempty (step.KeyedHash key message)) ∧
    (config.mode = .wallet → ∀ key message, (key, message) ∈ step.signings →
      Nonempty (step.Consent run key message)) ∧
    ((∀ state after, Store.save state step.before.store ≠ .ok after) →
      step.request?.isSome = true → step.signings = []) ∧
    (∀ plan approved, step.before.pending = some (.sign plan) → plan.reply = .hashOnly →
      turn.stimulus = .answer approved → step.signings = []) := by
  intro scene run step
  have hsound : scene.Sound := (Scene.sound_start config store).follow earlier
  have hturn : step.turn = turn := Scene.play_turn scene turn
  have hbefore : step.before = scene.meet turn := Scene.play_before scene turn
  have hmode : step.before.config.mode = config.mode := by
    rw [hbefore]
    exact congrArg Config.mode (Scene.follow_config config store earlier)
  have hconsent {plan : SigningPlan} (happroved : step.turn.stimulus = .answer true)
      (hpending : step.before.pending = some (.sign plan)) (hasks : plan.asks = true) :
      Nonempty (step.Consent run plan.key plan.payload.bytes) := by
    rw [hturn] at happroved
    rw [hbefore] at hpending
    exact Scene.consent_of_pending hpending happroved hasks
  have hmem {key : KeyId} {message : Bytes} (hasked : (key, message) ∈ step.signings) :
      step.Occasion key message := by
    rcases (hsound.play turn).2.2.signings with hnone | ⟨_, _, hone, hoccasion⟩
    · rw [show step.signings = [] from hnone] at hasked
      cases hasked
    · rw [show step.signings = _ from hone] at hasked
      cases List.mem_singleton.mp hasked
      exact hoccasion
  refine ⟨?_, ?_, ?_, ?_, ?_⟩
  · rcases (hsound.play turn).2.2.signings with hnone | ⟨_, _, hone, _⟩
    · rw [show step.signings = [] from hnone]
      exact Nat.zero_le 1
    · exact Nat.le_of_eq (congrArg List.length hone)
  · intro key message hasked
    rcases hmem hasked with ⟨plan, happroved, hpending, hasks, rfl, rfl⟩ | hother
    · exact Or.inl (hconsent happroved hpending hasks)
    · exact Or.inr hother
  · intro hwallet key message hasked
    rcases hmem hasked with ⟨plan, happroved, hpending, hasks, rfl, rfl⟩ | ⟨⟨hguard⟩⟩ | ⟨⟨hhash⟩⟩
    · exact hconsent happroved hpending hasks
    · exact absurd (hmode.symm.trans hguard.baking) (by rw [hwallet]; decide)
    · exact absurd (hmode.symm.trans hhash.baking) (by rw [hwallet]; decide)
  · intro hrefuses hchunk
    apply List.eq_nil_iff_forall_not_mem.mpr
    intro call hasked
    obtain ⟨key, message⟩ := call
    rcases hmem hasked with ⟨plan, happroved, _⟩ | ⟨⟨hguard⟩⟩ | ⟨⟨hhash⟩⟩
    · rw [Transition.request?, happroved] at hchunk
      cases hchunk
    · exact hrefuses _ _ hguard.saved
    · rw [Transition.request?_of_keyedHash hhash] at hchunk
      cases hchunk
  · intro plan approved hpending hform hanswer
    apply List.eq_nil_iff_forall_not_mem.mpr
    intro call hasked
    obtain ⟨key, message⟩ := call
    rw [← hturn] at hanswer
    rcases hmem hasked with ⟨other, _, hother, hasks, _⟩ | ⟨⟨hguard⟩⟩ | ⟨⟨hhash⟩⟩
    · rw [hpending] at hother
      cases hother
      rw [SigningPlan.asks_of_hashOnly hform] at hasks
      cases hasks
    · have hchunk := hguard.chunk
      rw [Transition.request?, hanswer] at hchunk
      cases hchunk
    · have hcommand := hhash.command
      rw [Transition.command?, hanswer] at hcommand
      cases hcommand

/-- A wallet signs a raw message once approved, and a digest that is asked for alone is told without
a signature. A baker with an open session signs a block behind its mark; once the store is broken
the same block is not signed, nor is a chunk without a session. The secret of a keyed hash is
signed at once. -/
theorem signings_of_step_examples :
    let turn (broken : Bool) (stimulus : Stimulus) : Turn :=
      ⟨Simulated.provider, broken, stimulus⟩
    let frame (bytes : Bytes) : Turn := turn false (.frame bytes)
    let key : KeyId := ⟨.ed25519, ⟨[0x80000000], by decide⟩⟩
    let start : Scene MemoryStore := .start (.ofMode .wallet) (.ofState .fresh)
    let raw : List Turn := [frame [0x80, 0x05, 0x00, 0x00, 5, 1, 0x80, 0, 0, 0],
      frame [0x80, 0x05, 0x81, 0x00, 1, 0x2A]]
    let operation : List Turn := [frame [0x80, 0x04, 0x00, 0x00, 5, 1, 0x80, 0, 0, 0],
      frame [0x80, 0x04, 0x83, 0x00, 1, 0x03]]
    let approved := (start.follow raw).play (turn false (.answer true))
    let refused := start.play (turn true (.frame [0x80, 0x04, 0x81, 0x00, 0]))
    let told := (start.follow operation).play (turn false (.answer true))
    let store : MemoryStore := .ofState { BakingState.fresh with key := some key }
    let opened : List Turn := [frame [0x80, 0x04, 0x00, 0x00, 5, 1, 0x80, 0, 0, 0]]
    let baker := (Scene.start .standard store).follow opened
    let block : Bytes := [0x80, 0x04, 0x81, 0x00, 50] ++ blockBytes 7 10
    let guarded := baker.play (frame block)
    let stopped := baker.play (turn true (.frame block))
    let hashed := (Scene.start .standard store).play
      (frame [0x80, 0x0E, 0x00, 0x00, 6, 1, 0x80, 0, 0, 0, 0x2A])
    (key, [0x2A]) ∈ approved.signings ∧ Nonempty (approved.Consent (start.trace raw) key [0x2A]) ∧
    refused.request?.isSome = true ∧ refused.signings = [] ∧
    (∃ plan, told.before.pending = some (.sign plan) ∧ plan.reply = .hashOnly) ∧
      told.signings = [] ∧
    (∃ message, (key, message) ∈ guarded.signings ∧ Nonempty (guarded.Guarded key message)) ∧
    stopped.before.session.key = some key ∧ stopped.request?.isSome = true ∧
      stopped.signings = [] ∧
    (key, hmacSeed) ∈ hashed.signings ∧ Nonempty (hashed.KeyedHash key hmacSeed) := by
  intro turn frame key start raw operation approved refused told store opened baker block guarded
    stopped hashed
  have hasked : (key, [0x2A]) ∈ approved.signings := by decide
  have hchunk : refused.request?.isSome = true := by decide
  have hform : ∃ plan, told.before.pending = some (.sign plan) ∧ plan.reply = .hashOnly :=
    ⟨_, rfl, rfl⟩
  have hconsent := (signings_of_step (.ofMode .wallet) (MemoryStore.ofState .fresh) raw
    (turn false (.answer true))).2.2.1 rfl key [0x2A] hasked
  have hrefused := (signings_of_step (.ofMode .wallet) (MemoryStore.ofState .fresh) []
    (turn true (.frame [0x80, 0x04, 0x81, 0x00, 0]))).2.2.2.1 (fun _ _ hsaved => by cases hsaved)
    hchunk
  have htold : told.signings = [] := by
    obtain ⟨plan, hpending, hreply⟩ := hform
    exact (signings_of_step (.ofMode .wallet) (MemoryStore.ofState .fresh) operation
      (turn false (.answer true))).2.2.2.2 plan true hpending hreply rfl
  have hguarded : ∃ message, (key, message) ∈ guarded.signings ∧
      Nonempty (guarded.Guarded key message) := by
    have hkeys : guarded.signings.map Prod.fst = [key] := by decide
    have hnamed : key ∈ guarded.signings.map Prod.fst := by
      rw [hkeys]
      exact List.mem_singleton_self _
    obtain ⟨⟨named, message⟩, hmem, rfl⟩ := List.mem_map.mp hnamed
    rcases (signings_of_step .standard store opened (frame block)).2.1 key message hmem with
      ⟨⟨hanswered⟩⟩ | hguarded | ⟨⟨hhash⟩⟩
    · cases hanswered.approved
    · exact ⟨message, hmem, hguarded⟩
    · cases hhash.command
  have hstopped := (signings_of_step .standard store opened (turn true (.frame block))).2.2.2.1
    (fun _ _ hsaved => by cases hsaved) rfl
  have hhashed : (key, hmacSeed) ∈ hashed.signings := by decide
  have hkeyed : Nonempty (hashed.KeyedHash key hmacSeed) := by
    rcases (signings_of_step .standard store []
      (frame [0x80, 0x0E, 0x00, 0x00, 6, 1, 0x80, 0, 0, 0, 0x2A])).2.1 key hmacSeed hhashed with
      ⟨⟨hanswered⟩⟩ | ⟨⟨hguard⟩⟩ | hkeyed
    · cases hanswered.approved
    · cases hguard.chunk
    · exact hkeyed
  exact ⟨hasked, hconsent, hchunk, hrefused, hform, htold, hguarded, rfl, rfl, hstopped, hhashed,
    hkeyed⟩

end TezosSigner
