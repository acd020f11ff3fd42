import TezosSigner.Key.Simulated
import TezosSigner.Proofs.Alike
import TezosSigner.Proofs.Proposal

/-!
# An approval performs what was last asked

What waits for the user is what the frame just before has asked for, and any step
takes it away. An approval performs it, a rejection drops it without a trace, and
a frame that comes instead of an answer is served as if it had been rejected. In a
run every action is therefore performed at most once, in the step behind its prompt.
-/

namespace TezosSigner

open Command

/-- The response to how an action has ended. -/
def Response.ofResult : Except Status Bytes → Response
  | .ok payload => .success payload
  | .error status => .failure status

namespace Transition

variable {σ : Type} [Store σ]

/-- The action that the frame of a step has asked to be approved. -/
def asked? (step : Transition σ) : Option PendingAction :=
  match step.turn.stimulus with
  | .frame raw =>
      match dispatch step.before.config step.turn.keys raw step.before.cancelPending with
      | .ok (.confirm _ action) _ => some action
      | .ok (.reply _) _ | .error _ _ => none
  | .answer _ => none

/-- The action that a step performs: the one that waits, if it is approved. -/
def performed? (step : Transition σ) : Option PendingAction :=
  match step.turn.stimulus with
  | .answer true => step.before.pending
  | .answer false | .frame _ => none

/-- A step comes to just what performing an action comes to. -/
def Performs (step : Transition σ) (action : PendingAction) : Prop :=
  Ends (perform step.turn.keys action) step.before.workspace fun result after =>
    step.outcome = some (.reply (.ofResult result)) ∧ step.after.store = after.store ∧
      step.journal = after.journal

/-! ## What an action is to bring about -/

omit [Store σ] in
/-- A step has one message signed, and is answered with what is made of the signature or with the
status of the keys. -/
def Signs (step : Transition σ) (key : KeyId) (message : Bytes) (payload : Signature → Bytes) :
    Prop :=
  step.signings = [(key, message)] ∧
    step.outcome = some (.reply (.ofResult ((step.turn.keys.sign key message).map payload)))

omit [Store σ] in
/-- A step has nothing signed, and is answered all the same. -/
def Tells (step : Transition σ) (result : Except Status Bytes) : Prop :=
  step.signings = [] ∧ step.outcome = some (.reply (.ofResult result))

/-- A step saves a record and is answered with a payload, or it changes nothing and is answered
with the status of the store. -/
def Saves (step : Transition σ) (state : BakingState) (payload : Bytes) : Prop :=
  match Store.save state step.before.store with
  | .ok store => step.after.store = store ∧ step.Tells (.ok payload)
  | .error status => step.after.store = step.before.store ∧ step.Tells (.error status)

omit [Store σ] in
/-- A step carries out a plan. Only the digest alone is told without a signature, and there is
none to be told of a message that is signed as it is. -/
def CarriesOut (step : Transition σ) : SigningPlan → Prop
  | ⟨key, .digest digest, .signature⟩ => step.Signs key digest.val fun signature => signature.bytes
  | ⟨key, .digest digest, .hashAndSignature⟩ =>
      step.Signs key digest.val fun signature => digest.val ++ signature.bytes
  | ⟨_, .digest digest, .hashOnly⟩ => step.Tells (.ok digest.val)
  | ⟨key, .raw message, .signature⟩ => step.Signs key message fun signature => signature.bytes
  | ⟨_, .raw _, .hashAndSignature⟩ | ⟨_, .raw _, .hashOnly⟩ => step.Tells (.error .wrongValues)

/-- A step brings about what an action is for, with the very values of the action. -/
def Fulfils (step : Transition σ) : PendingAction → Prop
  | .sign plan => step.after.store = step.before.store ∧ step.CarriesOut plan
  | .providePublicKey publicKey =>
      step.after.store = step.before.store ∧ step.Tells (.ok publicKey.reply)
  | .authorizeBaking key publicKey =>
      step.Saves { step.record with key := some key } publicKey.reply
  | .setup setup publicKey =>
      step.Saves { step.record with
        key := some setup.key
        mainChainId := setup.mainChainId
        main := ⟨setup.mainLevel, false⟩
        test := ⟨setup.testLevel, false⟩ } publicKey.reply
  | .reset level =>
      step.Saves { step.record with main := ⟨level, false⟩, test := ⟨level, false⟩ } []

variable {step : Transition σ}

omit [Store σ] in
theorem signings_eq_nil (hdeeds : deeds step.journal = []) : step.signings = [] := by
  rw [signings_eq, hdeeds]
  rfl

theorem fulfils_of_performs_sign {plan : SigningPlan} (hperforms : step.Performs (.sign plan)) :
    step.Fulfils (.sign plan) := by
  obtain ⟨hunsigned, hsigned⟩ := execute_ends.mp hperforms
  obtain ⟨key, payload, reply⟩ := plan
  -- The form of the reply decides whether there is a signature, so the plan is told apart by both.
  cases payload with
  | digest digest =>
      cases reply with
      | hashOnly =>
          obtain ⟨houtcome, hstore, hjournal⟩ := hunsigned rfl
          exact ⟨hstore, signings_eq_nil (by rw [hjournal]; rfl), houtcome⟩
      | signature =>
          obtain ⟨houtcome, hstore, hjournal⟩ := hsigned rfl
          exact ⟨hstore, by rw [signings, hjournal]; rfl, houtcome⟩
      | hashAndSignature =>
          obtain ⟨houtcome, hstore, hjournal⟩ := hsigned rfl
          exact ⟨hstore, by rw [signings, hjournal]; rfl, houtcome⟩
  | raw message =>
      cases reply with
      | signature =>
          obtain ⟨houtcome, hstore, hjournal⟩ := hsigned rfl
          exact ⟨hstore, by rw [signings, hjournal]; rfl, houtcome⟩
      | hashAndSignature =>
          obtain ⟨houtcome, hstore, hjournal⟩ := hunsigned rfl
          exact ⟨hstore, signings_eq_nil (by rw [hjournal]; rfl), houtcome⟩
      | hashOnly =>
          obtain ⟨houtcome, hstore, hjournal⟩ := hunsigned rfl
          exact ⟨hstore, signings_eq_nil (by rw [hjournal]; rfl), houtcome⟩

/-- To save what becomes of the record found, and to answer, is what the three settings come to. -/
theorem saves_of_commit (change : BakingState → BakingState) {event : LogEvent} {payload : Bytes}
    (hends : Ends (do
        (do saveState (change (← loadState)) event : Command σ Unit)
        return payload) step.before.workspace fun result after =>
      step.outcome = some (.reply (.ofResult result)) ∧ step.after.store = after.store ∧
        step.journal = after.journal) :
    step.Saves (change step.record) payload := by
  have hrecord : (Store.load step.before.store).checked = step.record := rfl
  have hbefore : step.before.workspace.store = step.before.store := rfl
  have hblank : step.before.workspace.journal = [] := rfl
  simp only [ends_bind, ends_loadState, ends_saveState, ends_pure, hrecord, hbefore, hblank]
    at hends
  unfold Saves
  cases hsave : Store.save (change step.record) step.before.store with
  | ok store =>
      simp only [hsave] at hends
      obtain ⟨houtcome, hstore, hjournal⟩ := hends
      exact ⟨hstore, by simp [signings_eq, hjournal], houtcome⟩
  | error status =>
      simp only [hsave] at hends
      obtain ⟨houtcome, hstore, hjournal⟩ := hends
      exact ⟨hstore, signings_eq_nil (by simp [hjournal]), houtcome⟩

/-- To perform an action is to bring about what it is for. -/
theorem fulfils_of_performs {action : PendingAction} (hperforms : step.Performs action) :
    step.Fulfils action := by
  cases action with
  | sign plan => exact fulfils_of_performs_sign hperforms
  | providePublicKey publicKey =>
      obtain ⟨houtcome, hstore, hjournal⟩ := hperforms
      exact ⟨hstore, signings_eq_nil (by rw [hjournal]; rfl), houtcome⟩
  | authorizeBaking key publicKey => exact saves_of_commit (·.authorize key) hperforms
  | setup setup publicKey => exact saves_of_commit (·.install setup) hperforms
  | reset level => exact saves_of_commit (·.resetLevels level) hperforms

end Transition

namespace Signer

variable {σ : Type} [Store σ] {signer : Signer σ} {action : PendingAction}

theorem answer_rejected (keys : KeyProvider) (hpending : signer.pending = some action) :
    signer.answer keys false = (⟨signer.config, signer.session.reset, none, signer.store⟩,
      some (.failure .rejected), [.log .rejected]) := by
  unfold answer
  rw [hpending]
  rfl

theorem answer_approved (keys : KeyProvider) (hpending : signer.pending = some action) :
    Ends (perform keys action) signer.workspace fun result after =>
      signer.answer keys true = (⟨signer.config, after.session.reset, none, after.store⟩,
        some (.ofResult result), after.journal) := by
  have hsettle : settle keys true action = (perform keys action : Command σ Bytes) := rfl
  unfold answer Ends
  rw [hpending]
  dsimp only
  rw [hsettle]
  cases perform keys action signer.workspace with
  | ok payload after => rfl
  | error status after => rfl

theorem answer_clears (keys : KeyProvider) (approved : Bool)
    (hpending : signer.pending = some action) :
    (∃ response, (signer.answer keys approved).2.1 = some response) ∧
      (signer.answer keys approved).1.pending = none := by
  unfold answer
  rw [hpending]
  dsimp only
  split <;> exact ⟨⟨_, rfl⟩, rfl⟩

/-- A frame that comes instead of an answer is served as if the answer had been no; only the
note that something was dropped is another. -/
theorem receive_rejected (keys : KeyProvider) (raw : Bytes)
    (hpending : signer.pending = some action) :
    let rejected := (signer.answer keys false).1
    (signer.receive keys raw).1 = (rejected.receive keys raw).1 ∧
      (signer.receive keys raw).2.1 = (rejected.receive keys raw).2.1 ∧
      (signer.receive keys raw).2.2 =
        .log .pendingCancelled :: (rejected.receive keys raw).2.2 := by
  intro rejected
  have hrejected : rejected = ⟨signer.config, signer.session.reset, none, signer.store⟩ := by
    unfold rejected
    rw [answer_rejected keys hpending]
  have hcancelled : signer.cancelPending =
      ⟨signer.session.reset, signer.store, [.log .pendingCancelled]⟩ := by
    unfold cancelPending
    rw [hpending]
    rfl
  have hwork : Workspace.Alike Eq [] [.log .pendingCancelled] rejected.cancelPending
      signer.cancelPending := by
    rw [hcancelled, hrejected]
    exact Workspace.alike_of_journal _ _ _ _
  have hconfig : signer.config = rejected.config := by rw [hrejected]
  obtain ⟨houtcome, halike, since, hfirst, hsecond⟩ :=
    receive_alike hconfig (matches_dispatch Store.concur_eq keys rejected.config raw) hwork
  refine ⟨halike.eq, houtcome, ?_⟩
  rw [hsecond, hfirst]
  rfl

end Signer

namespace Scene

variable {σ : Type} [BreakableStore σ]

theorem play_answer (scene : Scene σ) {turn : Turn} {approved : Bool}
    (hstimulus : turn.stimulus = .answer approved) :
    let answered := (scene.meet turn).answer turn.keys approved
    (scene.play turn).after = answered.1 ∧
      (scene.play turn).outcome = answered.2.1.map .reply ∧
      (scene.play turn).journal = answered.2.2 := by
  unfold play
  rw [hstimulus]
  exact ⟨rfl, rfl, rfl⟩

section Answers

variable (scene : Scene σ) {turn : Turn} {approved : Bool} {action : PendingAction}

/-- An answer does nothing while nothing waits. -/
theorem play_idle (hanswer : turn.stimulus = .answer approved)
    (hpending : scene.signer.pending = none) :
    (scene.play turn).outcome = none ∧ (scene.play turn).after = (scene.play turn).before ∧
      (scene.play turn).journal = [] := by
  obtain ⟨hafter, houtcome, hjournal⟩ := scene.play_answer hanswer
  have hidle : (scene.meet turn).answer turn.keys approved = (scene.meet turn, none, []) := by
    rw [Signer.answer, show (scene.meet turn).pending = none from hpending]
  rw [hidle] at hafter houtcome hjournal
  exact ⟨houtcome, hafter.trans (scene.play_before turn).symm, hjournal⟩

/-- What waits is answered and cleared, whatever comes of it. -/
theorem play_answered (hanswer : turn.stimulus = .answer approved)
    (hpending : scene.signer.pending = some action) :
    (∃ response, (scene.play turn).outcome = some (.reply response)) ∧
      (scene.play turn).after.pending = none := by
  have hwaits : (scene.meet turn).pending = some action := hpending
  obtain ⟨hafter, houtcome, _⟩ := scene.play_answer hanswer
  obtain ⟨⟨response, hresponse⟩, hcleared⟩ := Signer.answer_clears turn.keys approved hwaits
  rw [hresponse] at houtcome
  exact ⟨⟨response, houtcome⟩, (congrArg Signer.pending hafter).trans hcleared⟩

/-- A rejection leaves the store alone, and it is the same with any keys and any store. -/
theorem play_rejected (hanswer : turn.stimulus = .answer false)
    (hpending : scene.signer.pending = some action) :
    (scene.play turn).outcome = some (.reply (.failure .rejected)) ∧
      (scene.play turn).journal = [.log .rejected] ∧
      (scene.play turn).after.store = (scene.play turn).before.store ∧
      ∀ (keys : KeyProvider) (other : σ),
        ({ (scene.play turn).before with store := other }).answer keys false =
          ({ (scene.play turn).after with store := other }, some (.failure .rejected),
            [.log .rejected]) := by
  have hwaits : (scene.meet turn).pending = some action := hpending
  obtain ⟨hafter, houtcome, hjournal⟩ := scene.play_answer hanswer
  rw [Signer.answer_rejected turn.keys hwaits] at hafter houtcome hjournal
  refine ⟨houtcome, hjournal, ?_, fun keys other => ?_⟩
  · rw [play_before, hafter]
  · rw [play_before, hafter]
    exact Signer.answer_rejected keys hwaits

/-- An approval performs what waits. -/
theorem play_approved (hanswer : turn.stimulus = .answer true)
    (hpending : scene.signer.pending = some action) :
    (scene.play turn).performed? = some action ∧ (scene.play turn).Performs action := by
  have hwaits : (scene.meet turn).pending = some action := hpending
  obtain ⟨hafter, houtcome, hjournal⟩ := scene.play_answer hanswer
  refine ⟨?_, ?_⟩
  · rw [Transition.performed?, play_turn, hanswer, play_before]
    exact hpending
  · rw [Transition.Performs, play_turn, play_before]
    apply (Signer.answer_approved turn.keys hwaits).imp
    intro result after hends
    rw [hends] at hafter houtcome hjournal
    exact ⟨houtcome, congrArg Signer.store hafter, hjournal⟩

/-- A frame that comes instead of an answer is served as if the answer had been no. -/
theorem play_instead {raw : Bytes} (hframe : turn.stimulus = .frame raw)
    (hpending : scene.signer.pending = some action) :
    let rejected := ((scene.play turn).before.answer turn.keys false).1
    (scene.play turn).after = (rejected.receive turn.keys raw).1 ∧
      (scene.play turn).outcome = some (rejected.receive turn.keys raw).2.1 ∧
      (scene.play turn).journal =
        .log .pendingCancelled :: (rejected.receive turn.keys raw).2.2 := by
  intro rejected
  have hwaits : (scene.meet turn).pending = some action := hpending
  obtain ⟨hafter, houtcome⟩ := scene.play_frame hframe
  obtain ⟨hsigner, hreaction, hjournal⟩ := Signer.receive_rejected turn.keys raw hwaits
  rw [hsigner] at hafter
  rw [hreaction] at houtcome
  unfold rejected
  rw [play_before]
  exact ⟨hafter, houtcome, (scene.journal_play_frame hframe).trans hjournal⟩

end Answers

/-- After a step waits what its frame has asked for, and nothing else. -/
theorem pending_play (scene : Scene σ) (turn : Turn) :
    (scene.play turn).after.pending = (scene.play turn).asked? := by
  unfold Transition.asked?
  rw [play_turn, play_before]
  split
  next raw hstimulus =>
    rw [(scene.play_frame hstimulus).1, Signer.receive]
    split <;> rename_i hdispatch <;> rw [hdispatch]
  next approved hstimulus =>
    rw [(scene.play_answer hstimulus).1, Signer.answer]
    split
    next hnone => exact hnone
    next =>
      dsimp only
      split <;> rfl

/-- A step finds waiting what the step before it has asked for. -/
theorem pending_behind {scene : Scene σ} {turns : List Turn} {index : Nat}
    {asked answered : Transition σ} (hasked : (scene.trace turns)[index]? = some asked)
    (hanswered : (scene.trace turns)[index + 1]? = some answered) :
    answered.before.pending = asked.asked? := by
  -- The two steps are reached together, so the scene moves along.
  induction turns generalizing scene index with
  | nil => cases hasked
  | cons turn turns ih =>
      cases index with
      | succ index => exact ih hasked hanswered
      | zero =>
          cases hasked
          cases turns with
          | nil => cases hanswered
          | cons next turns =>
              cases hanswered
              rw [play_before]
              exact scene.pending_play turn

/-- What waits was asked for by the last step so far, together with its prompt. -/
theorem previous_of_pending {config : Config} {store : σ} {earlier : List Turn}
    {action : PendingAction}
    (hpending : ((start config store).follow earlier).signer.pending = some action) :
    ∃ asked raw prompt, ((start config store).trace earlier).getLast? = some asked ∧
      asked.Asks raw prompt action := by
  obtain ⟨asked, raw, prompt, hprevious, hasks, _⟩ := asked_of_pending hpending
  exact ⟨asked, raw, prompt, hprevious, hasks⟩

/-- The actions of a run are performed each in the step behind its prompt, and nowhere else. -/
theorem performed_iff {config : Config} {store : σ} {turns : List Turn} {index : Nat}
    {action : PendingAction} :
    (∃ step, ((start config store).trace turns)[index]? = some step ∧
      step.performed? = some action) ↔
    ∃ earlier asked answered, index = earlier + 1 ∧
      ((start config store).trace turns)[earlier]? = some asked ∧ asked.asked? = some action ∧
      ((start config store).trace turns)[index]? = some answered ∧
      answered.turn.stimulus = .answer true := by
  constructor
  · rintro ⟨step, hstep, hperformed⟩
    unfold Transition.performed? at hperformed
    split at hperformed
    next happroved =>
      cases index with
      | zero =>
          -- Nothing waits when a run starts.
          cases turns with
          | nil => cases hstep
          | cons turn turns =>
              cases hstep
              rw [play_before] at hperformed
              cases hperformed
      | succ earlier =>
          obtain ⟨hlength, _⟩ := List.getElem?_eq_some_iff.mp hstep
          have hasked := List.getElem?_eq_getElem (Nat.lt_of_succ_lt hlength)
          refine ⟨earlier, _, step, rfl, hasked, ?_, hstep, happroved⟩
          rw [← pending_behind hasked hstep]
          exact hperformed
    next => cases hperformed
    next => cases hperformed
  · rintro ⟨earlier, asked, answered, rfl, hasked, haction, hanswered, happroved⟩
    refine ⟨answered, hanswered, ?_⟩
    rw [Transition.performed?, happroved, pending_behind hasked hanswered]
    exact haction

end Scene

/-- In every run, an answer does nothing while nothing waits. Otherwise it is answered and
clears what waits: a rejection leaves the store alone and comes to the same whatever keys and
store are, and an approval performs just what the frame before has asked for together with its
prompt. Then a plan has its payload signed by its own key, once, and is answered in its form, or
is told without a signature; a public key is told and nothing is stored; and an authorization, a
setup or a reset saves its own key, chain and levels over the record found and is answered, or
fails as the store does. So an action is performed only in the step behind its prompt, and a frame
that comes instead is served as if the answer had been no. -/
theorem approval_performs_asked {σ : Type} [BreakableStore σ] (config : Config) (store : σ)
    (earlier : List Turn) (turn : Turn) :
    let scene := (Scene.start config store).follow earlier
    let run := (Scene.start config store).trace earlier
    let step := scene.play turn
    (∀ approved, turn.stimulus = .answer approved → scene.signer.pending = none →
      step.outcome = none ∧ step.after = step.before ∧ step.journal = []) ∧
    (∀ approved action, turn.stimulus = .answer approved → scene.signer.pending = some action →
      (∃ response, step.outcome = some (.reply response)) ∧ step.after.pending = none) ∧
    (∀ action, turn.stimulus = .answer false → scene.signer.pending = some action →
      step.outcome = some (.reply (.failure .rejected)) ∧ step.journal = [.log .rejected] ∧
      step.after.store = step.before.store ∧
      ∀ (keys : KeyProvider) (other : σ), ({ step.before with store := other }).answer keys false =
        ({ step.after with store := other }, some (.failure .rejected), [.log .rejected])) ∧
    (∀ action, turn.stimulus = .answer true → scene.signer.pending = some action →
      step.performed? = some action ∧ step.Performs action ∧ step.Fulfils action ∧
      ∃ asked raw prompt, run.getLast? = some asked ∧ asked.Asks raw prompt action) ∧
    (∀ (index : Nat) (action : PendingAction),
      (∃ step, run[index]? = some step ∧ step.performed? = some action) ↔
      ∃ before asked answered, index = before + 1 ∧ run[before]? = some asked ∧
        asked.asked? = some action ∧ run[index]? = some answered ∧
        answered.turn.stimulus = .answer true) ∧
    (∀ raw action, turn.stimulus = .frame raw → scene.signer.pending = some action →
      let rejected := (step.before.answer turn.keys false).1
      step.after = (rejected.receive turn.keys raw).1 ∧
      step.outcome = some (rejected.receive turn.keys raw).2.1 ∧
      step.journal = .log .pendingCancelled :: (rejected.receive turn.keys raw).2.2) := by
  intro scene run step
  refine ⟨fun _ hanswer hpending => scene.play_idle hanswer hpending,
    fun _ _ hanswer hpending => scene.play_answered hanswer hpending,
    fun _ hanswer hpending => scene.play_rejected hanswer hpending,
    fun action hanswer hpending => ?_, fun _ _ => Scene.performed_iff,
    fun _ _ hframe hpending => scene.play_instead hframe hpending⟩
  obtain ⟨hperformed, hperforms⟩ := scene.play_approved hanswer hpending
  exact ⟨hperformed, hperforms, Transition.fulfils_of_performs hperforms,
    Scene.previous_of_pending hpending⟩

/-- A reset waits to be approved: an answer before it does nothing, a rejection or another frame
drops it, and its approval performs it, so that its level is stored for both chains unless the
store is broken. A message that waits to be signed as it is, is signed by its key. -/
theorem approval_performs_asked_reset :
    let turn (broken : Bool) (stimulus : Stimulus) : Turn :=
      ⟨Simulated.provider, broken, stimulus⟩
    let frame (bytes : Bytes) : Turn := turn false (.frame bytes)
    let yes (broken : Bool) : Turn := turn broken (.answer true)
    let reset : Turn := frame [0x80, 0x06, 0x00, 0x00, 4, 0, 0, 0, 9]
    let start : Scene MemoryStore := .start .standard (.ofState .fresh)
    let scene := start.follow [reset]
    let approved := scene.play (yes false)
    let refused := scene.play (yes true)
    let rejected := scene.play (turn false (.answer false))
    let replaced := scene.play reset
    let key : KeyId := ⟨.ed25519, ⟨[0x80000000], by decide⟩⟩
    let message : List Turn := [frame [0x80, 0x05, 0x00, 0x00, 5, 1, 0x80, 0, 0, 0],
      frame [0x80, 0x05, 0x81, 0x00, 1, 0x2A]]
    let signed := ((Scene.start (.ofMode .wallet) (MemoryStore.ofState .fresh)).follow
      message).play (yes false)
    start.signer.pending = none ∧ (start.play (yes false)).outcome = none ∧
      scene.signer.pending = some (.reset 9) ∧ approved.after.pending = none ∧
      (∃ asked raw prompt, (start.trace [reset]).getLast? = some asked ∧
        asked.Asks raw prompt (.reset 9)) ∧
      approved.after.store.state =
        { BakingState.fresh with main := ⟨9, false⟩, test := ⟨9, false⟩ } ∧
      approved.outcome = some (.reply (.success [])) ∧ approved.signings = [] ∧
      refused.after.store = refused.before.store ∧
      refused.outcome = some (.reply (.failure .memoryError)) ∧
      (∃ step, (start.trace [reset, yes false])[1]? = some step ∧
        step.performed? = some (.reset 9)) ∧
      rejected.outcome = some (.reply (.failure .rejected)) ∧
      replaced.after = (rejected.after.receive Simulated.provider
        [0x80, 0x06, 0x00, 0x00, 4, 0, 0, 0, 9]).1 ∧
      signed.after.store = signed.before.store ∧ signed.signings = [(key, [0x2A])] := by
  intro turn frame yes reset start scene approved refused rejected replaced key message signed
  have hwaits : scene.signer.pending = some (.reset 9) := by decide
  have hidle := approval_performs_asked .standard (MemoryStore.ofState .fresh) [] (yes false)
  have hyes (broken : Bool) :=
    approval_performs_asked .standard (MemoryStore.ofState .fresh) [reset] (yes broken)
  have hno := approval_performs_asked .standard (MemoryStore.ofState .fresh) [reset]
    (turn false (.answer false))
  have hagain := approval_performs_asked .standard (MemoryStore.ofState .fresh) [reset] reset
  have hrun := approval_performs_asked .standard (MemoryStore.ofState .fresh)
    [reset, yes false] reset
  have hmessage := approval_performs_asked (.ofMode .wallet) (MemoryStore.ofState .fresh) message
    (yes false)
  obtain ⟨_, _, hreset, hasked⟩ := (hyes false).2.2.2.1 _ rfl hwaits
  obtain ⟨hstored, hnothing, hreply⟩ := hreset
  obtain ⟨_, _, hrefused, _⟩ := (hyes true).2.2.2.1 _ rfl hwaits
  obtain ⟨hkept, _, hfailure⟩ := hrefused
  obtain ⟨_, _, hplan, _⟩ := hmessage.2.2.2.1 (.sign ⟨key, .raw [0x2A], .signature⟩) rfl (by decide)
  obtain ⟨hunstored, hsigned, _⟩ := hplan
  refine ⟨rfl, (hidle.1 true rfl rfl).1, hwaits, ((hyes false).2.1 true _ rfl hwaits).2, hasked,
    congrArg MemoryStore.state hstored, hreply, hnothing, hkept, hfailure,
    (hrun.2.2.2.2.1 1 _).mpr ⟨0, _, _, rfl, rfl, ?_, rfl, rfl⟩,
    (hno.2.2.1 _ rfl hwaits).1, (hagain.2.2.2.2.2 _ _ rfl hwaits).1, hunstored, hsigned⟩
  decide

end TezosSigner
