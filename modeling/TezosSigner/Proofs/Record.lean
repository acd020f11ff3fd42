import TezosSigner.Key.Simulated
import TezosSigner.Proofs.Succession
import TezosSigner.Proofs.Wallet

/-!
# Who changes the stored record

A baker's record is replaced by five kinds of steps and by nothing else: the host removes
the key, a consensus message passes the guard, or the user approves an authorization, a
reset or a setup. Each of them stores one record, which is told from the one before, or
it fails as the store does and leaves everything as it was. A wallet stores nothing.
-/

namespace TezosSigner

open Hash Command

/-- The records that a journal tells to have been stored, oldest first. -/
def saved (journal : List Event) : List BakingState :=
  journal.filterMap fun
    | .stored state => some state
    | _ => none

@[simp] theorem saved_append (first second : List Event) :
    saved (first ++ second) = saved first ++ saved second :=
  List.filterMap_append

/-- Logging stores nothing. -/
theorem saved_deeds (journal : List Event) : saved (deeds journal) = saved journal := by
  unfold saved deeds
  rw [List.filterMap_filter]
  congr 1
  funext event
  cases event <;> rfl

theorem saved_eq_of_deeds {first second : List Event} (hdeeds : deeds first = deeds second) :
    saved first = saved second := by
  rw [← saved_deeds, hdeeds, saved_deeds]

@[simp] theorem saved_logs (logs : List LogEvent) : saved (logs.map .log) = [] := by
  rw [← saved_deeds, deeds_logs]
  rfl

theorem mem_saved_iff {journal : List Event} {state : BakingState} :
    state ∈ saved journal ↔ .stored state ∈ journal := by
  rw [saved, List.mem_filterMap]
  constructor
  · rintro ⟨event, hevent, hstate⟩
    cases event <;> cases hstate
    exact hevent
  · intro hstored
    exact ⟨_, hstored, rfl⟩

/-- The one record that a step has stored is loaded behind it. -/
theorem Transition.Remembers.load_eq {σ : Type} [Store σ] {step : Transition σ}
    (hremembers : step.Remembers) {state : BakingState} (hsaved : saved step.journal = [state]) :
    Store.load step.after.store = state := by
  apply hremembers
  rw [← mem_saved_iff, hsaved]
  exact List.mem_singleton_self state

/-- A store that counts how often it has been replaced. -/
class CountedStore (σ : Type) extends BreakableStore σ where
  writes : σ → Nat

/-- Every replacement is counted once, and a store that cannot be replaced says so by one
status. -/
class LawfulCount (σ : Type) [CountedStore σ] : Prop where
  writes_save {state : BakingState} {store after : σ} :
    Store.save state store = .ok after → CountedStore.writes after = CountedStore.writes store + 1
  refused {state : BakingState} {store : σ} {status : Status} :
    Store.save state store = .error status → status = .memoryError

instance : CountedStore MemoryStore where
  writes := MemoryStore.writes

instance : LawfulCount MemoryStore where
  writes_save {state store after} hsave := by
    obtain ⟨_, _, broken⟩ := store
    cases broken <;> cases hsave
    rfl
  refused {state store status} hsave := by
    obtain ⟨_, _, broken⟩ := store
    cases broken <;> cases hsave
    rfl

instance : CountedStore FlashStore where
  writes := FlashStore.writes

instance : LawfulCount FlashStore where
  writes_save {state store after} hsave := by
    obtain ⟨_, _, broken⟩ := store
    cases broken <;> cases hsave
    rfl
  refused {state store status} hsave := by
    obtain ⟨_, _, broken⟩ := store
    cases broken <;> cases hsave
    rfl

/-- A command has replaced the record once, or it has failed as the store did and left the
record alone. -/
structure Workspace.Commits {σ α : Type} [Store σ] (state : BakingState) (before : Workspace σ)
    (result : Except Status α) (after : Workspace σ) : Prop where
  stored : ∀ store, Store.save state before.store = .ok store →
    after.store = store ∧ saved after.journal = saved before.journal ++ [state]
  refused : ∀ status, Store.save state before.store = .error status →
    result = .error status ∧ after.store = before.store ∧
      saved after.journal = saved before.journal

/-- What is done from another workspace on that is no different to the store. -/
theorem Workspace.Commits.of_same {σ α : Type} [Store σ] {state : BakingState}
    {before middle after : Workspace σ} {result : Except Status α}
    (hcommits : Commits state middle result after) (hstore : middle.store = before.store)
    (hsaved : saved middle.journal = saved before.journal) : Commits state before result after := by
  obtain ⟨hstored, hrefused⟩ := hcommits
  rw [hstore, hsaved] at hstored hrefused
  exact ⟨hstored, hrefused⟩

namespace Command

variable {σ α β : Type} [Store σ] {before : Workspace σ} {state : BakingState}

omit [Store σ] in
/-- A command that stores nothing, whatever else it does. -/
def Unstoring (command : Command σ α) : Prop :=
  ∀ before, Ends command before fun _ after =>
    after.store = before.store ∧ saved after.journal = saved before.journal

theorem saveState_commits (event : LogEvent) :
    Ends (saveState state event) before (Workspace.Commits state before) := by
  rw [ends_saveState]
  cases hsave : Store.save state before.store with
  | ok store =>
      refine ⟨fun after hafter => ?_, fun status hfails => ?_⟩
      · cases hsave.symm.trans hafter
        exact ⟨rfl, saved_append _ _⟩
      · cases hsave.symm.trans hfails
  | error status =>
      refine ⟨fun after hafter => ?_, fun status' hfails => ?_⟩
      · cases hsave.symm.trans hafter
      · cases hsave.symm.trans hfails
        exact ⟨rfl, rfl, rfl⟩

/-- What follows a replacement does not take it back, and nothing follows a refusal. -/
theorem commits_bind {first : Command σ β} {next : β → Command σ α}
    (hfirst : Ends first before (Workspace.Commits state before))
    (hnext : ∀ value, Unstoring (next value)) :
    Ends (first >>= next) before (Workspace.Commits state before) := by
  rw [ends_bind]
  apply hfirst.imp
  intro result middle hmiddle
  cases result with
  | error status =>
      refine ⟨hmiddle.stored, fun status' hfails => ?_⟩
      obtain ⟨hstatus, hrest⟩ := hmiddle.refused status' hfails
      cases hstatus
      exact ⟨rfl, hrest⟩
  | ok value =>
      apply (hnext value middle).imp
      rintro result' after ⟨hstore, hsaved⟩
      refine ⟨fun store hsave => ?_, fun status hfails => ?_⟩
      · rw [hstore, hsaved]
        exact hmiddle.stored store hsave
      · cases (hmiddle.refused status hfails).1

theorem commitChange_commits (change : BakingState → BakingState) (event : LogEvent) :
    Ends (do saveState (change (← loadState)) event) before
      (Workspace.Commits (change (Store.load before.store).checked) before) := by
  rw [ends_bind, ends_loadState]
  exact (saveState_commits event).imp fun _ _ hcommits => hcommits.of_same rfl (by
    rw [saved_append, saved_logs, List.append_nil])

omit [Store σ] in
theorem unstoring_pure (value : α) : Unstoring (pure value : Command σ α) :=
  fun _ => ⟨rfl, rfl⟩

theorem perform_commits (keys : KeyProvider) {action : PendingAction}
    {change : BakingState → BakingState} (hchange : action.change? = some change) :
    Ends (perform keys action) before
      (Workspace.Commits (change (Store.load before.store).checked) before) := by
  cases action with
  | sign => cases hchange
  | providePublicKey => cases hchange
  | authorizeBaking key publicKey =>
      cases hchange
      exact commits_bind (commitChange_commits _ _) fun _ => unstoring_pure _
  | setup setup publicKey =>
      cases hchange
      exact commits_bind (commitChange_commits _ _) fun _ => unstoring_pure _
  | reset level =>
      cases hchange
      exact commits_bind (commitChange_commits _ _) fun _ => unstoring_pure _

theorem deauthorize_commits :
    Ends (deauthorize 0 []) before
      (Workspace.Commits (Store.load before.store).checked.deauthorize before) := by
  have hcommit : Ends (do
      saveState (← loadState).deauthorize .keyRemoved
      return Reaction.reply []) before
      (Workspace.Commits (Store.load before.store).checked.deauthorize before) := by
    rw [← bind_assoc]
    exact commits_bind (commitChange_commits BakingState.deauthorize _) fun _ => unstoring_pure _
  simp only [deauthorize, ends_bind, ends_require] at hcommit ⊢
  refine ⟨fun _ => ⟨fun _ => hcommit, fun hdata => ?_⟩, fun hparameter => ?_⟩
  · cases hdata
  · cases hparameter

omit [Store σ] in
theorem unstoring_execute (keys : KeyProvider) (plan : SigningPlan) :
    Unstoring (execute keys plan : Command σ Bytes) := by
  refine fun before => execute_ends.mpr ⟨fun _ => ⟨rfl, rfl⟩, fun _ => ⟨rfl, ?_⟩⟩
  rw [saved_append, saved_append, saved_logs]
  exact (List.append_nil _).trans (List.append_nil _)

/-- What the guard allows is committed. -/
theorem authorizeAndCommit_commits {key : KeyId} {data : ConsensusData} {state : BakingState}
    (hstate : (Store.load before.store).checked = state) (hauthorized : state.authorizes key = true)
    (hallowed : state.allows (state.chainFor data.chainId) data.level data.isEndorsement = true) :
    Ends (authorizeAndCommit key data) before (Workspace.Commits (state.raised data) before) := by
  unfold authorizeAndCommit
  simp only [ends_bind, ends_loadState, hstate, ends_ite, ends_ofExcept,
    state.recordSigned_of_allows hallowed]
  refine ⟨fun _ => ⟨fun _ => ?_, fun hrefused => absurd hallowed hrefused⟩,
    fun hforeign => absurd hauthorized hforeign⟩
  exact (saveState_commits _).imp fun _ _ hcommits => hcommits.of_same rfl (by
    rw [saved_append, saved_logs, List.append_nil])

/-- A last chunk whose message passes the guard has its mark committed. -/
theorem takeChunk_commits {keys : KeyProvider} {request : SigningRequest} {key : KeyId}
    {previous : Bytes} {data : ConsensusData} {state : BakingState}
    (hsession : before.session.Follows .baking previous)
    (hposition : request.position = 0x01) (hlast : request.isLast = true)
    (hshort : request.data.length ≤ Frame.maxDataLength)
    (hfits : (previous ++ request.data).length ≤ MessageBuffer.capacity)
    (hopened : before.session.key = some key)
    (hconsensus : (MessageClass.ofBytes (previous ++ request.data)).consensus? = some data)
    (hstate : (Store.load before.store).checked = state) (hauthorized : state.authorizes key = true)
    (hallowed : state.allows (state.chainFor data.chainId) data.level data.isEndorsement = true) :
    Ends (takeChunk .baking keys request) before
      (Workspace.Commits (state.raised data) before) := by
  have hcollects : before.session.buffer.Collects previous := hsession.collects hopened
  have happend := hcollects.append_of_fits (request.mayFold .baking) hfits
  rw [takeChunk, if_neg (by rw [hposition]; decide)]
  simp only [ends_bind, ends_require]
  refine ⟨fun _ => ?_, fun hlong => absurd (decide_eq_true hshort) (by simp [hlong])⟩
  apply continueSession_ends
  case hparam =>
    intro hother
    exact absurd (Or.inr hposition) hother
  case hclosed =>
    intro hclosed
    cases hopened.symm.trans hclosed
  case hrefused =>
    intro _ _ _ _ hrefused
    cases happend.symm.trans hrefused
  case hnext =>
    intro _ _ _ _ _ hnext
    cases hlast.symm.trans hnext
  case hlast =>
    intro named buffer _ hnamed hlonger _
    cases hopened.symm.trans hnamed
    have hmessage := (hcollects.append hlonger).message?_eq
    rw [if_pos hfits] at hmessage
    simp only [complete, completeBaking, hmessage, hconsensus]
    have hguard (closed : Session) :
        Ends (authorizeAndCommit key data) { before with session := closed }
          (Workspace.Commits (state.raised data) { before with session := closed }) :=
      authorizeAndCommit_commits hstate hauthorized hallowed
    refine (commits_bind (hguard _) fun _ => ?_).imp fun _ _ hcommits => hcommits.of_same rfl rfl
    intro middle
    rw [ends_bind]
    apply (unstoring_execute keys _ middle).imp
    intro result after hafter
    cases result <;> exact hafter

/-- What an instruction commits is committed by the frame that brings it. -/
theorem dispatch_commits {config : Config} {keys : KeyProvider} {raw previous : Bytes}
    {instruction : Instruction} {frame : Frame}
    (hsession : before.session.Follows config.mode previous)
    (hcommand : Frame.understood? config.mode raw = some (instruction, frame))
    (hrun : ∀ middle, middle.store = before.store →
      middle.session = (if instruction.isSigning then before.session else .blank) →
      Ends (run config keys frame instruction) middle (Workspace.Commits state middle)) :
    Ends (dispatch config keys raw) before (Workspace.Commits state before) := by
  refine dispatch_ends hsession (fun hnone => absurd (hcommand.symm.trans hnone) nofun)
    fun instruction' frame' middle hknown hstore hdeeds _ hmiddle => ?_
  cases hcommand.symm.trans hknown
  exact (hrun middle hstore hmiddle).imp fun _ _ hcommits =>
    hcommits.of_same hstore (saved_eq_of_deeds hdeeds)

end Command

namespace Transition

variable {σ : Type} {step : Transition σ}

/-- A step that leaves the stored record alone. -/
def Untouched (step : Transition σ) : Prop :=
  step.after.store = step.before.store ∧ saved step.journal = []

theorem untouched_of_deeds (hstore : step.after.store = step.before.store)
    (hnothing : saved (deeds step.journal) = []) : step.Untouched :=
  ⟨hstore, (saved_deeds step.journal).symm.trans hnothing⟩

variable [Store σ] {run : List (Transition σ)}

/-- What a step is about to make of the stored record: the host removes the key, a consensus
message passes the guard, or the user approves what the step before has prompted for. -/
inductive Amends (step : Transition σ) (run : List (Transition σ)) : BakingState → Prop where
  | keyRemoved {frame : Frame} (command : step.command? = some (.deauthorize, frame))
      (parameter : frame.p1 = 0) (data : frame.data = []) :
      Amends step run { step.record with key := none }
  | consensus {request : SigningRequest} {key : KeyId} {data : ConsensusData}
      (baking : step.before.config.mode = .baking) (chunk : step.request? = some request)
      (position : request.position = 0x01) (last : request.isLast = true)
      (short : request.data.length ≤ Frame.maxDataLength)
      (fits : step.heard.length ≤ MessageBuffer.capacity)
      (opened : step.before.session.key = some key)
      (consensus : (MessageClass.ofBytes step.heard).consensus? = some data)
      (authorized : step.record.authorizes key = true)
      (allowed : step.record.allows (step.record.chainFor data.chainId) data.level
        data.isEndorsement = true) :
      Amends step run
        (step.record.setMark (step.record.chainFor data.chainId) ⟨data.level, data.isEndorsement⟩)
  | authorization {asked : Transition σ} {raw : Bytes} {key : KeyId} {publicKey : PublicKey}
      (previous : run.getLast? = some asked)
      (asks : asked.Asks raw (.authorizeBaking publicKey.address) (.authorizeBaking key publicKey))
      (approved : step.turn.stimulus = .answer true) :
      Amends step run { step.record with key := some key }
  | reset {asked : Transition σ} {raw : Bytes} {level : UInt32}
      (previous : run.getLast? = some asked) (asks : asked.Asks raw (.reset level) (.reset level))
      (approved : step.turn.stimulus = .answer true) :
      Amends step run { step.record with main := ⟨level, false⟩, test := ⟨level, false⟩ }
  | setup {asked : Transition σ} {raw : Bytes} {setup : Setup} {publicKey : PublicKey}
      (previous : run.getLast? = some asked)
      (asks : asked.Asks raw
        (.setup publicKey.address setup.mainChainId setup.mainLevel setup.testLevel)
        (.setup setup publicKey))
      (approved : step.turn.stimulus = .answer true) :
      Amends step run
        { step.record with
          key := some setup.key
          mainChainId := setup.mainChainId
          main := ⟨setup.mainLevel, false⟩
          test := ⟨setup.testLevel, false⟩ }

/-- A step has replaced the record once, or has said why the store refused it and left the
record alone. -/
structure Replaces (step : Transition σ) (state : BakingState) : Prop where
  stored : ∀ store, Store.save state step.before.store = .ok store →
    step.after.store = store ∧ saved step.journal = [state]
  refused : ∀ status, Store.save state step.before.store = .error status →
    step.outcome = some (.reply (.failure status)) ∧ step.after.store = step.before.store ∧
      saved step.journal = []

/-- What a frame stores amends the record. -/
theorem untouched_or_amends_of_frame {raw : Bytes} (hstimulus : step.turn.stimulus = .frame raw)
    (hdeed : FrameDeed step.before.config step.before.session raw step.heard step.before.store
      step.after.store (deeds step.journal)) :
    step.Untouched ∨ ∃ state, step.Amends run state := by
  generalize hstore : step.after.store = after at hdeed
  generalize hdone : deeds step.journal = done at hdeed
  cases hdeed with
  | none => exact Or.inl (untouched_of_deeds hstore (by rw [hdone]; rfl))
  | keyedHash => exact Or.inl (untouched_of_deeds hstore (by rw [hdone]; rfl))
  | keyRemoved hcommand hparameter hdata =>
      rw [← command?_eq hstimulus] at hcommand
      exact Or.inr ⟨_, .keyRemoved hcommand hparameter hdata⟩
  | consensus hbaking hchunk hposition hlast hopened hconsensus hloaded hauthorized hallowed _
      hshort hfits =>
      subst hloaded
      rw [← request?_eq hstimulus] at hchunk
      exact Or.inr ⟨_, .consensus hbaking hchunk hposition hlast hshort hfits hopened hconsensus
        hauthorized hallowed⟩

end Transition

/-- The frame behind a chunk. -/
theorem SigningRequest.frame_of_ofBytes? {mode : Mode} {raw : Bytes} {request : SigningRequest}
    (hrequest : SigningRequest.ofBytes? mode raw = some request) :
    ∃ frame, Frame.understood? mode raw = some (.sign request.kind, frame) ∧
      request = ⟨request.kind, frame.p1, frame.p2, frame.data⟩ := by
  unfold SigningRequest.ofBytes? at hrequest
  split at hrequest
  next kind frame hcommand =>
    cases hrequest
    exact ⟨frame, hcommand, rfl⟩
  next => cases hrequest

/-- What a frame does to the store is what its command does, and its failure is the answer. -/
theorem Signer.receive_of_ends {σ : Type} [Store σ] {signer : Signer σ} {keys : KeyProvider}
    {raw : Bytes} {post : Except Status Reaction → Workspace σ → Prop}
    (hends : Ends (dispatch signer.config keys raw) signer.cancelPending post) :
    ∃ result after, post result after ∧ (signer.receive keys raw).1.store = after.store ∧
      saved (signer.receive keys raw).2.2 = saved after.journal ∧
      ∀ status, result = .error status →
        (signer.receive keys raw).2.1 = .reply (.failure status) := by
  obtain ⟨result, after, hserved, hpost⟩ := ((signer.receive_served keys raw).and hends).exists
  rw [hserved]
  refine ⟨result, after, hpost, ?_⟩
  cases result with
  | ok reaction => cases reaction <;> exact ⟨rfl, rfl, nofun⟩
  | error status =>
      refine ⟨rfl, (saved_append _ _).trans (List.append_nil _), fun status' hstatus => ?_⟩
      cases hstatus
      rfl

namespace Scene

variable {σ : Type} [BreakableStore σ]

/-- What a step has left alone is loaded as it was before, even if the store was broken. -/
theorem load_of_untouched [SteadyStore σ] {scene : Scene σ} {turn : Turn}
    (huntouched : (scene.play turn).Untouched) :
    Store.load (scene.play turn).after.store = Store.load scene.signer.store := by
  rw [huntouched.1, play_before]
  exact SteadyStore.load_setBroken _ _

/-- A frame whose command commits a record replaces the stored one. -/
theorem replaces_of_dispatch (scene : Scene σ) {turn : Turn} {raw : Bytes} {state : BakingState}
    (hframe : turn.stimulus = .frame raw)
    (hcommits : Ends (dispatch (scene.meet turn).config turn.keys raw)
      (scene.meet turn).cancelPending
      (Workspace.Commits state (scene.meet turn).cancelPending)) :
    (scene.play turn).Replaces state := by
  obtain ⟨hafter, houtcome⟩ := scene.play_frame hframe
  have hjournal := scene.journal_play_frame hframe
  have hbefore : (scene.meet turn).cancelPending.store = (scene.play turn).before.store := by
    rw [Signer.cancelPending_store, play_before]
  have hnothing : saved (scene.meet turn).cancelPending.journal = [] := by
    rw [← saved_deeds, Signer.deeds_cancelPending]
    rfl
  obtain ⟨result, after, ⟨hstored, hrefused⟩, hstore, hsaved, hfailure⟩ :=
    Signer.receive_of_ends hcommits
  rw [hbefore, hnothing, ← hsaved, ← hjournal, ← hstore, ← hafter] at hstored hrefused
  refine ⟨hstored, fun status hfails => ?_⟩
  obtain ⟨hresult, hkept⟩ := hrefused status hfails
  exact ⟨houtcome.trans (congrArg some (hfailure status hresult)), hkept⟩

/-- An approved change replaces the stored record. -/
theorem replaces_of_approval (scene : Scene σ) {turn : Turn} {action : PendingAction}
    {change : BakingState → BakingState} (happroved : turn.stimulus = .answer true)
    (hpending : scene.signer.pending = some action) (hchange : action.change? = some change) :
    (scene.play turn).Replaces (change (scene.play turn).record) := by
  have hwaits : (scene.meet turn).pending = some action := hpending
  obtain ⟨hafter, houtcome, hjournal⟩ := scene.play_answer happroved
  obtain ⟨result, after, hanswer, hstored, hrefused⟩ :=
    ((Signer.answer_approved turn.keys hwaits).and (perform_commits turn.keys hchange)).exists
  rw [hanswer] at hafter houtcome hjournal
  have hstore : (scene.play turn).after.store = after.store := congrArg Signer.store hafter
  rw [← hstore, ← show (scene.play turn).journal = after.journal from hjournal] at hstored hrefused
  rw [show (scene.play turn).record = (Store.load (scene.meet turn).store).checked by
    rw [Transition.record, play_before]]
  refine ⟨fun store hsave => ?_, fun status hfails => ?_⟩
  · rw [play_before] at hsave
    exact hstored store hsave
  · rw [play_before] at hfails ⊢
    obtain ⟨rfl, hkept⟩ := hrefused status hfails
    exact ⟨houtcome, hkept⟩

/-- What a step has asked to be approved waits when the next one begins. -/
theorem pending_of_asks {config : Config} {store : σ} {earlier : List Turn}
    {asked : Transition σ} {raw : Bytes} {prompt : Prompt} {action : PendingAction}
    (hprevious : ((start config store).trace earlier).getLast? = some asked)
    (hasks : asked.Asks raw prompt action) :
    ((start config store).follow earlier).signer.pending = some action := by
  rcases List.eq_nil_or_concat earlier with rfl | ⟨front, last, rfl⟩
  · cases hprevious
  · rw [List.concat_eq_append] at hprevious ⊢
    cases (getLast?_trace_concat _ _ _).symm.trans hprevious
    obtain ⟨made, hdispatch⟩ := hasks.dispatched
    have hwaits := ((start config store).follow front).pending_play last
    rw [Transition.asked?, hasks.framed] at hwaits
    dsimp only at hwaits
    rw [hdispatch] at hwaits
    rw [follow_append]
    exact hwaits

/-- An approval of what the step before has asked for replaces the stored record. -/
theorem replaces_of_asks {config : Config} {store : σ} {earlier : List Turn} {turn : Turn}
    {asked : Transition σ} {raw : Bytes} {prompt : Prompt} {action : PendingAction}
    {change : BakingState → BakingState}
    (hprevious : ((start config store).trace earlier).getLast? = some asked)
    (hasks : asked.Asks raw prompt action) (hchange : action.change? = some change)
    (happroved : (((start config store).follow earlier).play turn).turn.stimulus = .answer true) :
    (((start config store).follow earlier).play turn).Replaces
      (change (((start config store).follow earlier).play turn).record) := by
  rw [play_turn] at happroved
  exact replaces_of_approval _ happroved (pending_of_asks hprevious hasks) hchange

section Frames

variable {scene : Scene σ} {turn : Turn}

/-- The removal of the key replaces the stored record. -/
theorem Sound.replaces_of_removal (hsound : scene.Sound) {frame : Frame}
    (hcommand : (scene.play turn).command? = some (.deauthorize, frame))
    (hparameter : frame.p1 = 0) (hdata : frame.data = []) :
    (scene.play turn).Replaces (scene.play turn).record.deauthorize := by
  obtain ⟨raw, hframe⟩ := Transition.frame_of_command? hcommand
  rw [Transition.command?_eq hframe, play_before] at hcommand
  rw [play_turn] at hframe
  refine scene.replaces_of_dispatch hframe (dispatch_commits (hsound.follows turn) hcommand
    fun middle hstore _ => ?_)
  have hrecord : (scene.play turn).record = (Store.load middle.store).checked := by
    rw [hstore, Signer.cancelPending_store, Transition.record, play_before]
  rw [hrecord, run, hparameter, hdata]
  exact deauthorize_commits

/-- A consensus message that passes the guard replaces the stored record. -/
theorem Sound.replaces_of_consensus (hsound : scene.Sound) {request : SigningRequest}
    {key : KeyId} {data : ConsensusData}
    (hbaking : (scene.play turn).before.config.mode = .baking)
    (hchunk : (scene.play turn).request? = some request) (hposition : request.position = 0x01)
    (hlast : request.isLast = true) (hshort : request.data.length ≤ Frame.maxDataLength)
    (hfits : (scene.play turn).heard.length ≤ MessageBuffer.capacity)
    (hopened : (scene.play turn).before.session.key = some key)
    (hconsensus : (MessageClass.ofBytes (scene.play turn).heard).consensus? = some data)
    (hauthorized : (scene.play turn).record.authorizes key = true)
    (hallowed : (scene.play turn).record.allows ((scene.play turn).record.chainFor data.chainId)
      data.level data.isEndorsement = true) :
    (scene.play turn).Replaces ((scene.play turn).record.raised data) := by
  obtain ⟨raw, hframe⟩ := Transition.frame_of_request? hchunk
  rw [Transition.request?_eq hframe, play_before] at hchunk
  rw [play_turn] at hframe
  rw [play_before] at hbaking hopened
  obtain ⟨frame, hcommand, hrequest⟩ := SigningRequest.frame_of_ofBytes? hchunk
  have hsession := Signer.cancelPending_session (hsound.meet turn)
  have hfirst : request.position ≠ 0x00 := by
    rw [hposition]
    decide
  have hheard : (scene.play turn).heard = scene.heard ++ request.data := by
    rw [scene.heard_play_frame hframe, Frame.transmitted,
      show SigningRequest.ofBytes? scene.signer.config.mode raw = some request from hchunk]
    exact if_neg hfirst
  rw [hheard] at hfits hconsensus
  refine scene.replaces_of_dispatch hframe (dispatch_commits (hsound.follows turn) hcommand
    fun middle hstore hmiddle => ?_)
  have hrecord : (Store.load middle.store).checked = (scene.play turn).record := by
    rw [hstore, Signer.cancelPending_store, Transition.record, play_before]
  have hkept : middle.session = scene.signer.session := hmiddle.trans hsession
  rw [run, ← hrequest, hbaking]
  refine takeChunk_commits ?_ hposition hlast hshort hfits ?_ hconsensus hrecord hauthorized
    hallowed
  · rw [hkept, ← show scene.signer.config.mode = .baking from hbaking]
    exact hsound.session
  · rw [hkept]
    exact hopened

end Frames

/-- Whatever a step is about to make of the record, it does so or fails as the store does. -/
theorem replaces_of_amends {config : Config} {store : σ} {earlier : List Turn} {turn : Turn}
    {state : BakingState}
    (hamends : (((start config store).follow earlier).play turn).Amends
      ((start config store).trace earlier) state) :
    (((start config store).follow earlier).play turn).Replaces state := by
  have hsound := (sound_start config store).follow earlier
  cases hamends with
  | keyRemoved hcommand hparameter hdata =>
      exact hsound.replaces_of_removal hcommand hparameter hdata
  | consensus hbaking hchunk hposition hlast hshort hfits hopened hconsensus hauthorized hallowed =>
      exact hsound.replaces_of_consensus hbaking hchunk hposition hlast hshort hfits hopened
        hconsensus hauthorized hallowed
  | authorization hprevious hasks happroved => exact replaces_of_asks hprevious hasks rfl happroved
  | reset hprevious hasks happroved => exact replaces_of_asks hprevious hasks rfl happroved
  | setup hprevious hasks happroved => exact replaces_of_asks hprevious hasks rfl happroved

/-- A change of the record that waits has been prompted for by the step before. -/
theorem amends_of_change {config : Config} {store : σ} {earlier : List Turn} {turn : Turn}
    {action : PendingAction} {change : BakingState → BakingState}
    (hpending : ((start config store).follow earlier).signer.pending = some action)
    (happroved : (((start config store).follow earlier).play turn).turn.stimulus = .answer true)
    (hchange : action.change? = some change) :
    ∃ state, (((start config store).follow earlier).play turn).Amends
      ((start config store).trace earlier) state := by
  obtain ⟨asked, raw, prompt, hprevious, hasks, _⟩ := asked_of_pending hpending
  have hproposal := hasks.proposal
  cases hproposal with
  | publicKey => cases hchange
  | operation => cases hchange
  | registration => cases hchange
  | authorization => exact ⟨_, .authorization hprevious hasks happroved⟩
  | reset => exact ⟨_, .reset hprevious hasks happroved⟩
  | setup => exact ⟨_, .setup hprevious hasks happroved⟩

/-- A step leaves the record alone, or it is one of those that change it. -/
theorem untouched_or_amends (config : Config) (store : σ) (earlier : List Turn) (turn : Turn) :
    (((start config store).follow earlier).play turn).Untouched ∨
      ∃ state, (((start config store).follow earlier).play turn).Amends
        ((start config store).trace earlier) state := by
  have hsound := (sound_start config store).follow earlier
  cases (hsound.play turn).2.2 with
  | none hstore hdeeds =>
      exact Or.inl (Transition.untouched_of_deeds hstore (by rw [hdeeds]; rfl))
  | frame hstimulus hdeed => exact Transition.untouched_or_amends_of_frame hstimulus hdeed
  | approval happroved hpending hdeed =>
      rw [play_before] at hpending
      generalize hstore : (((start config store).follow earlier).play turn).after.store = after
        at hdeed
      generalize hdone : deeds (((start config store).follow earlier).play turn).journal = done
        at hdeed
      cases hdeed with
      | none => exact Or.inl (Transition.untouched_of_deeds hstore (by rw [hdone]; rfl))
      | signature => exact Or.inl (Transition.untouched_of_deeds hstore (by rw [hdone]; rfl))
      | committed hchange => exact Or.inr (amends_of_change hpending happroved hchange)

/-- A wallet's record is not changed. -/
theorem not_amends_of_wallet {config : Config} (hwallet : config.mode = .wallet) (store : σ)
    (earlier : List Turn) (turn : Turn) (state : BakingState) :
    ¬ (((start config store).follow earlier).play turn).Amends
      ((start config store).trace earlier) state := by
  have hmode : (((start config store).follow earlier).play turn).before.config.mode = .wallet := by
    rw [play_before]
    exact (congrArg Config.mode (follow_config config store earlier)).trans hwallet
  intro hamends
  cases hamends with
  | keyRemoved hcommand =>
      obtain ⟨raw, hframe⟩ := Transition.frame_of_command? hcommand
      rw [Transition.command?_eq hframe] at hcommand
      have hbaking := Frame.baking_of_understood hcommand rfl
      cases hmode.symm.trans hbaking
  | consensus hbaking => cases hmode.symm.trans hbaking
  | authorization hprevious hasks =>
      cases change?_of_wallet hwallet (pending_of_asks hprevious hasks)
  | reset hprevious hasks => cases change?_of_wallet hwallet (pending_of_asks hprevious hasks)
  | setup hprevious hasks => cases change?_of_wallet hwallet (pending_of_asks hprevious hasks)

end Scene

/-- In every run, a step leaves the store alone unless the host removes the key, a consensus
message passes the guard, or the user approves an authorization, a reset or a setup that was
prompted for just before. Such a step stores once what it makes of the record; if the store
refuses, nothing changes and the answer is a memory error. A wallet stores nothing, and what
it answers does not depend on what its store holds, or on what kind of store it is. -/
theorem record_replaced {σ : Type} [CountedStore σ] [LawfulCount σ] (config : Config) (store : σ)
    (earlier : List Turn) (turn : Turn) :
    let run := (Scene.start config store).trace earlier
    let step := ((Scene.start config store).follow earlier).play turn
    (∀ state, step.Amends run state →
      (∀ after, Store.save state step.before.store = .ok after →
        step.after.store = after ∧ saved step.journal = [state] ∧
        CountedStore.writes step.after.store = CountedStore.writes step.before.store + 1 ∧
        (LawfulStore σ → Store.load step.after.store = state)) ∧
      ((∀ after, Store.save state step.before.store ≠ .ok after) →
        step.after.store = step.before.store ∧ saved step.journal = [] ∧
        step.outcome = some (.reply (.failure .memoryError)))) ∧
    ((∀ state, ¬ step.Amends run state) →
      step.after.store = step.before.store ∧ saved step.journal = []) ∧
    (config.mode = .wallet →
      (step.after.store = step.before.store ∧ saved step.journal = []) ∧
      ∀ {τ : Type} [BreakableStore τ] (other : τ),
        (((Scene.start config other).follow earlier).play turn).outcome = step.outcome) := by
  intro run step
  have hkept : (∀ state, ¬ step.Amends run state) → step.Untouched := by
    intro hnone
    rcases Scene.untouched_or_amends config store earlier turn with huntouched | ⟨state, hamends⟩
    · exact huntouched
    · exact absurd hamends (hnone state)
  refine ⟨fun state hamends => ?_, hkept, fun hwallet => ⟨?_, fun other => ?_⟩⟩
  · obtain ⟨hstored, hrefused⟩ := Scene.replaces_of_amends hamends
    refine ⟨fun after hsave => ?_, fun hfails => ?_⟩
    · obtain ⟨hafter, hsaved⟩ := hstored after hsave
      refine ⟨hafter, hsaved, ?_, fun hlawful => ?_⟩
      · rw [show step.after.store = after from hafter]
        exact LawfulCount.writes_save hsave
      · exact (Scene.remembers_play config store earlier turn).load_eq hsaved
    · cases hsave : Store.save state step.before.store with
      | ok after => exact absurd hsave (hfails after)
      | error status =>
          obtain ⟨houtcome, hrest⟩ := hrefused status hsave
          cases LawfulCount.refused hsave
          exact ⟨hrest.1, hrest.2, houtcome⟩
  · exact hkept (Scene.not_amends_of_wallet hwallet store earlier turn)
  · have halike := Scene.follow_alike hwallet (fun _ _ => True.intro) store other earlier
    refine (Scene.play_alike (fun _ _ => True.intro) halike ?_ (fun action hpending => ?_) turn).1
    · rw [Scene.follow_config]
      exact hwallet
    · exact Scene.change?_of_wallet hwallet hpending

/-- A key is removed from a record of another layout: the store is written once, with a fresh
record, or not at all if it is broken. -/
theorem record_replaced_removal :
    let turn (broken : Bool) : Turn :=
      ⟨Simulated.provider, broken, .frame [0x80, 0x0C, 0x00, 0x00, 0]⟩
    let store : MemoryStore := .ofState { BakingState.fresh with version := 2, main := ⟨7, true⟩ }
    let run (config : Config) (broken : Bool) := (Scene.start config store).play (turn broken)
    (run .standard false).Amends [] { BakingState.fresh with key := none } ∧
      saved (run .standard false).journal = [.fresh] ∧
      (run .standard false).after.store.writes = 1 ∧
      Store.load (run .standard false).after.store = .fresh ∧
      (run .standard true).after.store = (run .standard true).before.store ∧
      (run .standard true).outcome = some (.reply (.failure .memoryError)) ∧
      (run (.ofMode .wallet) false).after.store = (run (.ofMode .wallet) false).before.store ∧
      ((Scene.start (.ofMode .wallet) (FlashStore.mk .blank 0 true)).play (turn false)).outcome =
        (run (.ofMode .wallet) false).outcome := by
  intro turn store run
  have hremoves (broken : Bool) :
      (run .standard broken).Amends [] { BakingState.fresh with key := none } :=
    .keyRemoved rfl rfl rfl
  have hworks := (record_replaced .standard store [] (turn false)).1 _ (hremoves false)
  have hbroken := (record_replaced .standard store [] (turn true)).1 _ (hremoves true)
  have hwallet := (record_replaced (.ofMode .wallet) store [] (turn false)).2.2 rfl
  obtain ⟨_, hsaved, hwrites, hload⟩ := hworks.1 _ rfl
  obtain ⟨hkept, _, houtcome⟩ := hbroken.2 nofun
  exact ⟨hremoves false, hsaved, hwrites, hload inferInstance, hkept, houtcome, hwallet.1.1,
    hwallet.2 _⟩

end TezosSigner
