import TezosSigner.Proofs.Record

/-!
# What is stored is logged

There are five ways to amend the stored record. A command that stores an amendment logs it
at once, and nothing else is logged about the record. So a step either leaves the record
alone and says nothing about it, or it has stored the one amendment that its frame or its
approval makes, and said so.
-/

namespace TezosSigner

open Hash Command

/-- A change of the stored record. -/
inductive Amendment where
  /-- The mark of a consensus message. -/
  | consensus (data : ConsensusData)
  | reset (level : UInt32)
  | setup (install : Setup)
  | authorization (key : KeyId)
  | removal
deriving DecidableEq

namespace Amendment

/-- The record that is stored in place of another. -/
def apply (state : BakingState) : Amendment → BakingState
  | .consensus data => state.raised data
  | .reset level => state.resetLevels level
  | .setup install => state.install install
  | .authorization key => state.authorize key
  | .removal => state.deauthorize

/-- What is logged behind it. -/
def notice (state : BakingState) : Amendment → LogEvent
  | .consensus data => .markRaised (state.chainFor data.chainId) data.level
  | .reset level => .marksReset level
  | .setup install => .installed install.mainChainId
  | .authorization _ => .keyAuthorized
  | .removal => .keyRemoved

/-- What the journal tells of an amendment. -/
def entries (state : BakingState) (amendment : Amendment) : List Event :=
  [.stored (amendment.apply state), .log (amendment.notice state)]

/-- Only a consensus message has a guard to pass when its mark is stored. -/
def Allowed (state : BakingState) : Amendment → Prop
  | .consensus data =>
      state.allows (state.chainFor data.chainId) data.level data.isEndorsement = true
  | .reset _ | .setup _ | .authorization _ | .removal => True

theorem isNotice_notice (state : BakingState) (amendment : Amendment) :
    (amendment.notice state).isNotice = true := by
  cases amendment <;> rfl

theorem entries_entries (state : BakingState) (amendment : Amendment) :
    TezosSigner.entries (amendment.entries state) = amendment.entries state := by
  rw [entries, entries_stored, entries_notice (amendment.isNotice_notice state), entries_nil]

theorem isCurrent_apply {state : BakingState} (hcurrent : state.isCurrent = true)
    (amendment : Amendment) : (amendment.apply state).isCurrent = true := by
  cases amendment with
  | consensus data => exact (state.isCurrent_raised data).trans hcurrent
  | reset level => exact hcurrent
  | setup install => exact hcurrent
  | authorization key => exact hcurrent
  | removal => exact hcurrent

end Amendment

/-- The amendment that an action makes once it has been approved. -/
def PendingAction.amendment? : PendingAction → Option Amendment
  | .authorizeBaking key _ => some (.authorization key)
  | .setup install _ => some (.setup install)
  | .reset level => some (.reset level)
  | .sign _ | .providePublicKey _ => none

/-- The amendment that a frame may make without approval: the removal of the key, or the mark
of the message that has been transmitted. -/
def Frame.amendment? (mode : Mode) (raw heard : Bytes) : Option Amendment :=
  match Frame.understood? mode raw with
  | some (.deauthorize, _) => some .removal
  | some (.sign _, _) => (MessageClass.ofBytes heard).consensus?.map .consensus
  | _ => none

theorem Frame.amendment?_eq_some {mode : Mode} {raw heard : Bytes} {amendment : Amendment}
    (hasked : Frame.amendment? mode raw heard = some amendment) :
    amendment = .removal ∨ ∃ data, amendment = .consensus data := by
  unfold Frame.amendment? at hasked
  split at hasked
  next =>
    cases hasked
    exact Or.inl rfl
  next =>
    obtain ⟨data, _, rfl⟩ := Option.map_eq_some_iff.mp hasked
    exact Or.inr ⟨data, rfl⟩
  next => cases hasked

/-- Between two workspaces the record was left alone and nothing was logged about it, or one
amendment has been stored and then logged. A failure behind it is one of the keys. -/
inductive Workspace.Accounts {σ α : Type} [Store σ] (keys : KeyProvider) (may : Amendment → Prop)
    (before : Workspace σ) (result : Except Status α) (after : Workspace σ) : Prop where
  | kept (store : after.store = before.store)
      (entries : entries after.journal = entries before.journal)
  | made (amendment : Amendment) (may : may amendment)
      (allowed : amendment.Allowed (Store.load before.store).checked)
      (saved : Store.save (amendment.apply (Store.load before.store).checked) before.store =
        .ok after.store)
      (entries : entries after.journal =
        entries before.journal ++ amendment.entries (Store.load before.store).checked)
      (failed : ∀ status, result = .error status →
        ∃ key message, .signing key message ∈ after.journal ∧ keys.sign key message = .error status)

/-- What is accounted for from another workspace on that is no different to the store. -/
theorem Workspace.Accounts.of_same {σ α : Type} [Store σ] {keys : KeyProvider}
    {may other : Amendment → Prop} {before middle after : Workspace σ} {result : Except Status α}
    (haccounts : Accounts keys may middle result after) (hstore : middle.store = before.store)
    (hentries : entries middle.journal = entries before.journal)
    (hmay : ∀ amendment, may amendment → other amendment) :
    Accounts keys other before result after := by
  cases haccounts with
  | kept hkept hsame => exact .kept (hkept.trans hstore) (hsame.trans hentries)
  | made amendment hmade hallowed hsaved hadded hfailed =>
      rw [hstore] at hallowed hsaved hadded
      rw [hentries] at hadded
      exact .made amendment (hmay amendment hmade) hallowed hsaved hadded hfailed

namespace Command

variable {σ α : Type} [Store σ] {keys : KeyProvider} {may : Amendment → Prop}
  {before : Workspace σ}

theorem accounts_of_logged {result : Except Status α} {after : Workspace σ}
    (hlogged : before.Logged after) : Workspace.Accounts keys may before result after :=
  .kept hlogged.store_eq hlogged.entries_eq

theorem Quiet.accounts {command : Command σ α} (hquiet : Quiet command) :
    Ends command before (Workspace.Accounts keys may before) :=
  (hquiet before).imp fun _ _ => accounts_of_logged

/-- Nothing that is stored is taken back by an answer. -/
theorem accounts_then {β : Type} {commit : Command σ β} (value : α)
    (hcommit : Ends commit before (Workspace.Accounts keys may before)) :
    Ends (do let _ ← commit; return value) before (Workspace.Accounts keys may before) := by
  rw [ends_bind]
  apply hcommit.imp
  intro result after haccounts
  cases haccounts with
  | kept hstore hentries => cases result <;> exact .kept hstore hentries
  | made amendment hmay hallowed hsaved hentries hfailed =>
      cases result with
      | ok _ => exact .made amendment hmay hallowed hsaved hentries nofun
      | error status =>
          refine .made amendment hmay hallowed hsaved hentries fun failure hfailure => ?_
          cases hfailure
          exact hfailed status rfl

/-- How an amendment is made that has no guard to pass. -/
def commit (amendment : Amendment) : Command σ Unit := do
  let state ← loadState
  saveState (amendment.apply state) (amendment.notice state)

theorem commit_accounts (amendment : Amendment) (hmay : may amendment)
    (hallowed : ∀ state, amendment.Allowed state) :
    Ends (commit amendment) before (Workspace.Accounts keys may before) := by
  have hloaded := Workspace.Logged.log before
    (isNotice_of_mem_loadingLogs (Store.load before.store))
  simp only [commit, ends_bind, ends_loadState, ends_saveState]
  split
  next store hsave =>
    refine .made amendment hmay (hallowed _) hsave ?_ fun status hfails => ?_
    · rw [entries_append, hloaded.entries_eq]
      exact congrArg _ (amendment.entries_entries _)
    · cases hfails
  next status hrefused => exact accounts_of_logged hloaded

omit [Store σ] in
/-- Signing is no matter of the record. A digest is refused by the keys only. -/
theorem execute_entries (keys : KeyProvider) (plan : SigningPlan) (before : Workspace σ) :
    Ends (execute keys plan) before fun result after => after.store = before.store ∧
      entries after.journal = entries before.journal ∧
      ∀ status digest, result = .error status → plan.payload = .digest digest →
        ∃ key message, .signing key message ∈ after.journal ∧
          keys.sign key message = .error status := by
  refine execute_ends.mpr ⟨fun _ => ⟨rfl, rfl, fun status digest hfails hdigest => ?_⟩,
    fun _ => ⟨rfl, ?_, fun status _ hfails _ => ?_⟩⟩
  · rw [SigningPlan.unsigned, hdigest] at hfails
    cases hfails
  · rw [entries_append, entries_append, entries_logs SigningPlan.isNotice_of_mem_logs,
      List.append_nil]
    exact List.append_nil _
  · refine ⟨_, _, List.mem_append_right _ (List.mem_singleton_self _), ?_⟩
    cases hsign : keys.sign plan.key plan.payload.bytes with
    | ok signature =>
        rw [hsign] at hfails
        cases hfails
    | error failure =>
        rw [hsign] at hfails
        cases hfails
        rfl

theorem perform_accounts (keys : KeyProvider) (action : PendingAction) :
    Ends (perform keys action) before
      (Workspace.Accounts keys (fun amendment => action.amendment? = some amendment) before) := by
  cases action with
  | sign plan =>
      exact (execute_entries keys plan before).imp fun _ _ hafter => .kept hafter.1 hafter.2.1
  | providePublicKey publicKey => exact .kept rfl rfl
  | authorizeBaking key publicKey =>
      exact accounts_then _ (commit_accounts (.authorization key) rfl fun _ => trivial)
  | setup install publicKey =>
      exact accounts_then _ (commit_accounts (.setup install) rfl fun _ => trivial)
  | reset level => exact accounts_then _ (commit_accounts (.reset level) rfl fun _ => trivial)

theorem deauthorize_accounts (p1 : UInt8) (data : Bytes) (hmay : may .removal) :
    Ends (deauthorize p1 data) before (Workspace.Accounts keys may before) := by
  have hcommit : Ends (do
      saveState (← loadState).deauthorize .keyRemoved
      return Reaction.reply []) before (Workspace.Accounts keys may before) := by
    rw [← bind_assoc]
    exact accounts_then _ (commit_accounts .removal hmay fun _ => trivial)
  rw [deauthorize, ends_bind, ends_require]
  refine ⟨fun _ => ?_, fun _ => .kept rfl rfl⟩
  dsimp only
  rw [ends_bind, ends_require]
  exact ⟨fun _ => hcommit, fun _ => .kept rfl rfl⟩

/-- A consensus message that passes the guard has its mark stored and logged, whatever comes
of its signature. -/
theorem signConsensus_accounts {key : KeyId} {data : ConsensusData} {digest : Digest}
    {form : ReplyForm} (hmay : may (.consensus data)) :
    Ends (do
      authorizeAndCommit key data
      return Reaction.reply (← execute keys ⟨key, .digest digest, form⟩)) before
      (Workspace.Accounts keys may before) := by
  rw [ends_bind]
  apply authorizeAndCommit_ends rfl
  case hrefused =>
    intro status after hlogged
    exact accounts_of_logged hlogged
  case hstored =>
    intro store middle hlogged _ hallows hsave
    dsimp only
    rw [ends_bind]
    apply (execute_entries keys _ _).imp
    rintro result after ⟨hstore, hentries, hfailed⟩
    have hadded : entries after.journal = entries before.journal ++
        Amendment.entries (Store.load before.store).checked (.consensus data) := by
      rw [hentries, entries_append, hlogged.entries_eq]
      exact congrArg _ (Amendment.entries_entries _ (.consensus data))
    rw [← show after.store = store from hstore] at hsave
    cases result with
    | ok payload => exact .made (.consensus data) hmay hallows hsave hadded nofun
    | error status =>
        refine .made (.consensus data) hmay hallows hsave hadded fun failure hfailure => ?_
        cases hfailure
        exact hfailed status digest rfl rfl

/-- A further chunk may lead to the mark of the message that it completes. -/
theorem takeChunk_accounts {mode : Mode} {request : SigningRequest} {previous : Bytes}
    (hsession : before.session.Follows mode previous)
    (hmay : ∀ data, (MessageClass.ofBytes (request.continuing previous)).consensus? = some data →
      may (.consensus data)) :
    Ends (takeChunk mode keys request) before (Workspace.Accounts keys may before) := by
  simp only [takeChunk, ends_bind, ends_require]
  refine ⟨fun _ => (ends_ite _ _ _).mpr ⟨fun _ => ?_, fun hfurther => ?_⟩, fun _ => .kept rfl rfl⟩
  · rw [ends_bind, openSession_ends]
    split <;> exact .kept rfl rfl
  · rw [SigningRequest.continuing, if_neg hfurther] at hmay
    apply continueSession_ends
    case hparam =>
      intro _
      exact .kept rfl rfl
    case hclosed =>
      intro _
      exact .kept rfl rfl
    case hrefused =>
      intro _ cause _ _ _
      refine .kept rfl ?_
      rw [entries_append]
      split <;> exact List.append_nil _
    case hnext =>
      intros
      exact .kept rfl rfl
    case hlast =>
      intro key buffer _ hkey happend _
      have hcollects := (hsession.collects hkey).append happend
      apply complete_ends hcollects
      case hquiet =>
        intro result after hlogged _
        exact .kept hlogged.store_eq hlogged.entries_eq
      case hconsensus =>
        intro data _ _ hdata
        exact (signConsensus_accounts (hmay data hdata)).imp fun _ _ haccounts =>
          haccounts.of_same rfl rfl fun _ hmade => hmade

theorem run_accounts {config : Config} {raw previous heard : Bytes} {instruction : Instruction}
    {frame : Frame} (hcommand : Frame.understood? config.mode raw = some (instruction, frame))
    (hsession : before.session.Follows config.mode previous)
    (hheard : heard = Frame.transmitted config.mode raw previous) :
    Ends (run config keys frame instruction) before (Workspace.Accounts keys
      (fun amendment => Frame.amendment? config.mode raw heard = some amendment) before) := by
  cases instruction with
  | version => exact (quiet_pure _).accounts
  | commit => exact (quiet_pure _).accounts
  | publicKey display => exact (quiet_providePublicKey keys display _ _ _).accounts
  | authorizeBaking => exact (quiet_authorizeBaking keys _ _ _).accounts
  | sign kind =>
      refine takeChunk_accounts hsession fun data hdata => ?_
      have hrequest : heard = SigningRequest.continuing ⟨kind, frame.p1, frame.p2, frame.data⟩
          previous := by
        rw [hheard, Frame.transmitted, SigningRequest.ofBytes?, hcommand]
      rw [Frame.amendment?, hcommand, hrequest]
      dsimp only
      rw [hdata]
      rfl
  | reset => exact (quiet_reset _).accounts
  | setup => exact (quiet_setup keys _ _ _).accounts
  | deauthorize => exact deauthorize_accounts _ _ (by rw [Frame.amendment?, hcommand])
  | queryKey => exact quiet_queryKey.accounts
  | queryKeyWithCurve => exact quiet_queryKeyWithCurve.accounts
  | queryMainMark => exact quiet_queryMainMark.accounts
  | queryAllMarks => exact quiet_queryAllMarks.accounts
  | hmac =>
      simp only [run, hmac, ends_bind, ends_require, ends_ofExcept]
      refine ⟨fun _ => ⟨fun _ => ?_, fun _ => .kept rfl rfl⟩, fun _ => .kept rfl rfl⟩
      cases KeyId.read frame.p2 frame.data with
      | error status => exact .kept rfl rfl
      | ok named =>
          simp only [ends_sign]
          have hsigning (key : KeyId) (message : Bytes) :
              entries (before.journal ++ [.signing key message]) = entries before.journal := by
            rw [entries_append]
            exact List.append_nil _
          split <;> exact .kept rfl (hsigning _ _)

/-- Whatever bytes arrive, what they lead to is accounted for. -/
theorem dispatch_accounts {config : Config} {raw previous heard : Bytes}
    (hsession : before.session.Follows config.mode previous)
    (hheard : heard = Frame.transmitted config.mode raw previous) :
    Ends (dispatch config keys raw) before (Workspace.Accounts keys
      (fun amendment => Frame.amendment? config.mode raw heard = some amendment) before) := by
  apply dispatch_ends hsession
  case hunknown =>
    intro _ status
    exact .kept rfl rfl
  case hrun =>
    intro instruction frame middle hcommand hstore _ hentries hmiddle
    have hfollows : middle.session.Follows config.mode previous := by
      rw [hmiddle]
      split
      · exact hsession
      · exact .closed
    exact (run_accounts hcommand hfollows hheard).imp fun _ _ haccounts =>
      haccounts.of_same hstore hentries fun _ hmade => hmade

end Command

/-- The records that were stored are among the entries. -/
theorem saved_entries (journal : List Event) : saved (entries journal) = saved journal := by
  unfold saved entries
  rw [List.filterMap_filter]
  congr 1
  funext event
  cases event with
  | log event => exact ite_self none
  | signing key message => rfl
  | stored state => rfl

namespace Transition

variable {σ : Type}

/-- The amendment that a step may make: that of its frame, or the one that waits if it is
approved. -/
def amendment? (step : Transition σ) : Option Amendment :=
  match step.turn.stimulus with
  | .frame raw => Frame.amendment? step.before.config.mode raw step.heard
  | .answer true => step.before.pending.bind PendingAction.amendment?
  | .answer false => none

/-- An amendment comes with a frame, or it waits and is approved. -/
theorem source_of_amendment? {step : Transition σ} {amendment : Amendment}
    (hasked : step.amendment? = some amendment) :
    (∃ raw, step.turn.stimulus = .frame raw ∧
      Frame.amendment? step.before.config.mode raw step.heard = some amendment) ∨
    step.turn.stimulus = .answer true ∧
      ∃ action, step.before.pending = some action ∧ action.amendment? = some amendment := by
  unfold amendment? at hasked
  split at hasked
  next raw hframe => exact Or.inl ⟨raw, hframe, hasked⟩
  next hanswer => exact Or.inr ⟨hanswer, Option.bind_eq_some_iff.mp hasked⟩
  next => cases hasked

variable [Store σ]

/-- A step leaves the record alone and logs nothing about it, or it stores the amendment that it
may make and then logs it. A failure behind it is one of the keys. -/
inductive Accounts (step : Transition σ) : Prop where
  | kept (store : step.after.store = step.before.store) (entries : entries step.journal = [])
  | made (amendment : Amendment) (asked : step.amendment? = some amendment)
      (allowed : amendment.Allowed step.record)
      (saved : Store.save (amendment.apply step.record) step.before.store = .ok step.after.store)
      (entries : entries step.journal = amendment.entries step.record)
      (failed : ∀ response, step.outcome = some (.reply response) → response.status ≠ .ok →
        ∃ key message, (key, message) ∈ step.signings ∧
          step.turn.keys.sign key message = .error response.status)

/-- A step that comes to what a command comes to is accounted for as the command is. -/
theorem accounts_of_command {α : Type} {step : Transition σ} {before after : Workspace σ}
    {result : Except Status α} (logs : List LogEvent)
    (haccounts : Workspace.Accounts step.turn.keys
      (fun amendment => step.amendment? = some amendment) before result after)
    (hbefore : before.store = step.before.store) (hnothing : entries before.journal = [])
    (hafter : step.after.store = after.store)
    (hjournal : step.journal = after.journal ++ logs.map .log)
    (hlogs : ∀ event ∈ logs, event.isNotice = false)
    (hfailed : ∀ response, step.outcome = some (.reply response) → response.status ≠ .ok →
      result = .error response.status) : step.Accounts := by
  have hentries : entries step.journal = entries after.journal := by
    rw [hjournal, entries_append, entries_logs hlogs, List.append_nil]
  cases haccounts with
  | kept hstore hsame =>
      exact .kept (hafter.trans (hstore.trans hbefore)) (hentries.trans (hsame.trans hnothing))
  | made amendment hasked hallowed hsaved hadded hkeys =>
      rw [hbefore] at hallowed hsaved hadded
      rw [hnothing, List.nil_append] at hadded
      rw [← hafter] at hsaved
      refine .made amendment hasked hallowed hsaved (hentries.trans hadded)
        fun response houtcome hstatus => ?_
      obtain ⟨key, message, hsigning, hrefused⟩ := hkeys _ (hfailed response houtcome hstatus)
      refine ⟨key, message, List.mem_filterMap.mpr ⟨.signing key message, ?_, rfl⟩, hrefused⟩
      rw [hjournal]
      exact List.mem_append_left _ hsigning

end Transition

theorem entries_cancelPending {σ : Type} (signer : Signer σ) :
    entries signer.cancelPending.journal = [] := by
  unfold Signer.cancelPending
  split <;> rfl

/-- A response that is no success is a failure of what it responds to. -/
theorem Response.error_of_ofResult {result : Except Status Bytes}
    (hstatus : (ofResult result).status ≠ .ok) : result = .error (ofResult result).status := by
  cases result with
  | ok payload => exact absurd rfl hstatus
  | error status => rfl

namespace Scene

variable {σ : Type} [BreakableStore σ] {scene : Scene σ}

theorem Sound.accounts_of_frame (hsound : scene.Sound) {turn : Turn} {raw : Bytes}
    (hframe : turn.stimulus = .frame raw) : (scene.play turn).Accounts := by
  have hbefore : (scene.meet turn).cancelPending.store = (scene.play turn).before.store := by
    rw [play_before, Signer.cancelPending_store]
  have hamendment : (scene.play turn).amendment? = Frame.amendment? scene.signer.config.mode raw
      (scene.play turn).heard := by
    rw [Transition.amendment?, play_turn, hframe, play_before]
    rfl
  have haccounts : Ends (dispatch scene.signer.config turn.keys raw)
      (scene.meet turn).cancelPending (Workspace.Accounts (scene.play turn).turn.keys
        (fun amendment => (scene.play turn).amendment? = some amendment)
        (scene.meet turn).cancelPending) := by
    rw [hamendment, play_turn]
    exact dispatch_accounts (hsound.follows turn) (scene.heard_play_frame hframe)
  have hnothing := entries_cancelPending (scene.meet turn)
  have hjournal := scene.journal_play_frame hframe
  obtain ⟨hafter, houtcome⟩ := scene.play_frame hframe
  rcases Signer.receive_ends haccounts with ⟨payload, after, hends, hreceive⟩ |
    ⟨prompt, action, after, hends, _, hreceive⟩ | ⟨status, after, hends, hreceive⟩
  · rw [hreceive] at hjournal hafter houtcome
    refine Transition.accounts_of_command [] hends hbefore hnothing (congrArg _ hafter)
      (by rw [hjournal, List.map_nil, List.append_nil]) nofun fun response hresponse hstatus => ?_
    cases hresponse.symm.trans houtcome
    exact absurd rfl hstatus
  · rw [hreceive] at hjournal hafter houtcome
    refine Transition.accounts_of_command [] hends hbefore hnothing (congrArg _ hafter)
      (by rw [hjournal, List.map_nil, List.append_nil]) nofun fun response hresponse _ => ?_
    cases hresponse.symm.trans houtcome
  · rw [hreceive] at hjournal hafter houtcome
    refine Transition.accounts_of_command [.commandFailed status] hends hbefore hnothing
      (congrArg _ hafter) hjournal (List.forall_mem_singleton.mpr rfl)
      fun response hresponse _ => ?_
    cases hresponse.symm.trans houtcome
    rfl

theorem accounts_of_answer {turn : Turn} {approved : Bool}
    (hanswer : turn.stimulus = .answer approved) : (scene.play turn).Accounts := by
  cases hpending : scene.signer.pending with
  | none =>
      obtain ⟨_, hafter, hjournal⟩ := scene.play_idle hanswer hpending
      exact .kept (congrArg _ hafter) (by rw [hjournal]; rfl)
  | some action =>
      cases approved with
      | false =>
          obtain ⟨_, hjournal, hstore, _⟩ := scene.play_rejected hanswer hpending
          exact .kept hstore (by rw [hjournal]; rfl)
      | true =>
          have hamendment : (scene.play turn).amendment? = action.amendment? := by
            rw [Transition.amendment?, play_turn, hanswer, play_before]
            exact congrArg (Option.bind · _) hpending
          have hperforms := (scene.play_approved hanswer hpending).2.and
            (perform_accounts (scene.play turn).turn.keys action)
          obtain ⟨result, after, ⟨houtcome, hstore, hjournal⟩, haccounts⟩ := hperforms.exists
          rw [← hamendment] at haccounts
          refine Transition.accounts_of_command [] haccounts rfl rfl hstore
            (by rw [hjournal, List.map_nil, List.append_nil]) nofun
            fun response hresponse hstatus => ?_
          cases hresponse.symm.trans houtcome
          exact Response.error_of_ofResult hstatus

/-- Whatever happens in a turn is accounted for. -/
theorem Sound.accounts (hsound : scene.Sound) (turn : Turn) : (scene.play turn).Accounts := by
  cases hstimulus : turn.stimulus with
  | frame raw => exact hsound.accounts_of_frame hstimulus
  | answer approved => exact accounts_of_answer hstimulus

/-- An amendment that no frame makes by itself has been asked for by the frame just before. -/
theorem asked_of_amendment {config : Config} {store : σ} {earlier : List Turn} {turn : Turn}
    {amendment : Amendment}
    (hamendment : (((start config store).follow earlier).play turn).amendment? =
      some amendment) :
    amendment = .removal ∨ (∃ data, amendment = .consensus data) ∨
      ∃ asked raw prompt action, ((start config store).trace earlier).getLast? = some asked ∧
        asked.Asks raw prompt action ∧ action.amendment? = some amendment := by
  rcases Transition.source_of_amendment? hamendment with
    ⟨_, _, hmade⟩ | ⟨_, action, hpending, hmade⟩
  · rcases Frame.amendment?_eq_some hmade with hremoval | hconsensus
    · exact Or.inl hremoval
    · exact Or.inr (Or.inl hconsensus)
  · rw [play_before] at hpending
    obtain ⟨asked, raw, prompt, hlast, hasks⟩ := previous_of_pending hpending
    exact Or.inr (Or.inr ⟨asked, raw, prompt, action, hlast, hasks, hmade⟩)

end Scene

namespace Transition

variable {σ : Type} [Store σ] {step : Transition σ} {amendment : Amendment} {state : BakingState}

/-- A step has stored what the amendment that it may make makes of the record. -/
structure Stored (step : Transition σ) (amendment : Amendment) (state : BakingState) : Prop where
  asked : step.amendment? = some amendment
  applied : amendment.apply step.record = state
  saved : saved step.journal = [state]

/-- A step that leaves no entry behind has stored nothing. -/
theorem not_stored_of_entries (hentries : entries step.journal = []) :
    ¬ step.Stored amendment state := by
  intro hstored
  have hsaved := hstored.saved
  rw [← saved_entries, hentries] at hsaved
  cases hsaved

namespace Accounts

theorem untouched_or_stored (haccounts : step.Accounts) :
    step.Untouched ∧ entries step.journal = [] ∨
      ∃ amendment state, step.Stored amendment state := by
  cases haccounts with
  | kept hstore hentries =>
      refine Or.inl ⟨⟨hstore, ?_⟩, hentries⟩
      rw [← saved_entries, hentries]
      rfl
  | made amendment hasked _ _ hentries _ =>
      refine Or.inr ⟨amendment, _, hasked, rfl, ?_⟩
      rw [← saved_entries, hentries]
      rfl

/-- What has been stored has passed its guard, and it was logged. -/
theorem of_stored (haccounts : step.Accounts) (hstored : step.Stored amendment state) :
    amendment.Allowed step.record ∧ Store.save state step.before.store = .ok step.after.store ∧
      entries step.journal = amendment.entries step.record := by
  cases haccounts with
  | kept _ hentries => exact absurd hstored (not_stored_of_entries hentries)
  | made other hasked hallowed hsaved hentries _ =>
      cases hasked.symm.trans hstored.asked
      rw [hstored.applied] at hsaved
      exact ⟨hallowed, hsaved, hentries⟩

end Accounts

end Transition

end TezosSigner
