import TezosSigner.Proofs.Quiet

/-!
# Commands on alike workspaces

Two workspaces are alike if they have the same session, if their stores are related,
and if the same has been noted in them since two given beginnings. A command matches
another if on alike workspaces both end with the same result, and alike again. What
never touches the store matches itself whatever the stores are, and every command does
if the stores concur. Equal stores do, so nothing depends on what was noted before.
-/

namespace TezosSigner

/-- The same session, related stores, and the same notes since given beginnings. -/
structure Workspace.Alike {σ τ : Type} (stores : σ → τ → Prop) (first second : List Event)
    (one : Workspace σ) (other : Workspace τ) : Prop where
  session : other.session = one.session
  store : stores one.store other.store
  journal : ∃ since, one.journal = first ++ since ∧ other.journal = second ++ since

/-- Related stores concur on a kind of records: they hold the same one, and one that is to be
saved is saved by both or refused by both. A signer's own changes are of the kind again. -/
structure Store.Concur {σ τ : Type} [Store σ] [Store τ] (stores : σ → τ → Prop)
    (kept : BakingState → Prop) : Prop where
  load : ∀ {one other}, stores one other →
    Store.load other = Store.load one ∧ kept (Store.load one).checked
  save : ∀ {one other state}, stores one other → kept state →
    match Store.save state one with
    | .ok after => ∃ after', Store.save state other = .ok after' ∧ stores after after'
    | .error status => Store.save state other = .error status
  signed : ∀ {state data after}, kept state → state.recordSigned data = .ok after → kept after
  removed : ∀ {state}, kept state → kept state.deauthorize

/-- A store concurs with itself on every record. -/
theorem Store.concur_eq {σ : Type} [Store σ] : Concur (Eq (α := σ)) fun _ => True where
  load hstores := ⟨congrArg Store.load hstores.symm, True.intro⟩
  save {one other state} hstores _ := by
    subst hstores
    cases Store.save state one with
    | ok after => exact ⟨after, rfl, rfl⟩
    | error status => rfl
  signed _ _ := True.intro
  removed _ := True.intro

/-- Alike workspaces in which the stores have become others and the same has been noted. -/
theorem Workspace.Alike.noting {σ τ : Type} {stores : σ → τ → Prop} {first second : List Event}
    {one : Workspace σ} {other : Workspace τ} (halike : Alike stores first second one other)
    {after : σ} {after' : τ} (hstores : stores after after') (events : List Event) :
    Alike stores first second ⟨one.session, after, one.journal ++ events⟩
      ⟨other.session, after', other.journal ++ events⟩ := by
  obtain ⟨hsession, _, since, hone, hother⟩ := halike
  refine ⟨hsession, hstores, since ++ events, ?_, ?_⟩
  · rw [hone, List.append_assoc]
  · rw [hother, List.append_assoc]

/-- Workspaces that differ in their notes only. -/
theorem Workspace.alike_of_journal {σ : Type} (session : Session) (store : σ)
    (first second : List Event) :
    Workspace.Alike Eq first second ⟨session, store, first⟩ ⟨session, store, second⟩ :=
  ⟨rfl, rfl, [], (List.append_nil _).symm, (List.append_nil _).symm⟩

namespace Command

variable {σ τ α β : Type} {stores : σ → τ → Prop}

/-- On alike workspaces two commands end with the same result, and alike again. -/
def Matches (stores : σ → τ → Prop) (one : Command σ α) (other : Command τ α) : Prop :=
  ∀ ⦃first second before before'⦄, Workspace.Alike stores first second before before' →
    Ends one before fun result after => Ends other before' fun result' after' =>
      result' = result ∧ Workspace.Alike stores first second after after'

section Rules

theorem matches_pure (value : α) :
    Matches stores (pure value : Command σ α) (pure value : Command τ α) :=
  fun _ _ _ _ halike => ⟨rfl, halike⟩

theorem matches_throw (status : Status) :
    Matches stores (throw status : Command σ α) (throw status : Command τ α) :=
  fun _ _ _ _ halike => ⟨rfl, halike⟩

theorem Matches.bind {first : Command σ β} {first' : Command τ β} {next : β → Command σ α}
    {next' : β → Command τ α} (hfirst : Matches stores first first')
    (hnext : ∀ value, Matches stores (next value) (next' value)) :
    Matches stores (first >>= next) (first' >>= next') := by
  intro start start' before before' halike
  rw [ends_bind]
  apply (hfirst halike).imp
  intro result middle hother
  cases result with
  | error status =>
      refine (ends_bind _ _).mpr (hother.imp ?_)
      rintro _ middle' ⟨rfl, hmiddle⟩
      exact ⟨rfl, hmiddle⟩
  | ok value =>
      -- Both continuations start where the two first parts have ended, each on its own side.
      unfold Ends at hother
      cases hrun : first' before' with
      | error status middle' =>
          rw [hrun] at hother
          cases hother.1
      | ok value' middle' =>
          rw [hrun] at hother
          obtain ⟨hvalue, hmiddle⟩ := hother
          cases hvalue
          apply (hnext value hmiddle).imp
          intro result after hafter
          rw [ends_bind]
          unfold Ends
          rw [hrun]
          exact hafter

theorem Matches.ite {condition : Prop} [Decidable condition] {yes no : Command σ α}
    {yes' no' : Command τ α} (hyes : Matches stores yes yes') (hno : Matches stores no no') :
    Matches stores (if condition then yes else no) (if condition then yes' else no') := by
  split
  · exact hyes
  · exact hno

theorem matches_ofExcept (result : Except Status α) :
    Matches stores (ofExcept result : Command σ α) (ofExcept result : Command τ α) := by
  cases result with
  | ok value => exact matches_pure value
  | error status => exact matches_throw status

/-- What follows a result need match only for the value that it has. -/
theorem matches_ofExcept_bind {result : Except Status β} {next : β → Command σ α}
    {next' : β → Command τ α}
    (hnext : ∀ value, result = .ok value → Matches stores (next value) (next' value)) :
    Matches stores (ofExcept result >>= next) (ofExcept result >>= next') := by
  cases result with
  | error status => exact matches_throw status
  | ok value => exact hnext value rfl

theorem matches_require (condition : Bool) (status : Status) :
    Matches stores (require condition status : Command σ Unit)
      (require condition status : Command τ Unit) :=
  (matches_pure ()).ite (matches_throw status)

theorem matches_note (event : Event) :
    Matches stores (note event : Command σ Unit) (note event : Command τ Unit) :=
  fun _ _ _ _ halike => ⟨rfl, halike.noting halike.store [event]⟩

theorem matches_log (event : LogEvent) :
    Matches stores (log event : Command σ Unit) (log event : Command τ Unit) :=
  matches_note (.log event)

theorem matches_getSession :
    Matches stores (getSession : Command σ Session) (getSession : Command τ Session) :=
  fun _ _ _ _ halike => ⟨congrArg Except.ok halike.session, halike⟩

theorem matches_setSession (session : Session) :
    Matches stores (setSession session : Command σ Unit) (setSession session : Command τ Unit) :=
  fun _ _ _ _ halike => ⟨rfl, rfl, halike.store, halike.journal⟩

theorem matches_resetSession :
    Matches stores (resetSession : Command σ Unit) (resetSession : Command τ Unit) :=
  matches_getSession.bind fun _ => matches_setSession _

theorem matches_sign (keys : KeyProvider) (key : KeyId) (message : Bytes) :
    Matches stores (sign keys key message : Command σ Signature)
      (sign keys key message : Command τ Signature) :=
  (matches_note _).bind fun _ => matches_ofExcept _

variable [Store σ] [Store τ] {kept : BakingState → Prop}

/-- What follows a loaded record need match only for records of the kind. -/
theorem matches_loadState_bind (hconcur : Store.Concur stores kept)
    {next : BakingState → Command σ α} {next' : BakingState → Command τ α}
    (hnext : ∀ state, kept state → Matches stores (next state) (next' state)) :
    Matches stores (loadState >>= next) (loadState >>= next') := by
  intro first second before before' halike
  obtain ⟨hload, hkept⟩ := hconcur.load halike.store
  have hlogged := halike.noting halike.store ((loadingLogs (Store.load before.store)).map .log)
  rw [ends_bind, ends_loadState]
  apply (hnext _ hkept hlogged).imp
  intro result after hafter
  rw [ends_bind, ends_loadState, hload]
  exact hafter

theorem matches_saveState (hconcur : Store.Concur stores kept) {state : BakingState}
    (hstate : kept state) (event : LogEvent) :
    Matches stores (saveState state event : Command σ Unit)
      (saveState state event : Command τ Unit) := by
  intro first second before before' halike
  have hsave := hconcur.save halike.store hstate
  simp only [ends_saveState]
  cases hsaved : Store.save state before.store with
  | ok after =>
      rw [hsaved] at hsave
      obtain ⟨after', hsaved', hafter⟩ := hsave
      rw [hsaved']
      exact ⟨True.intro, halike.noting hafter [.stored state, .log event]⟩
  | error status =>
      rw [hsaved] at hsave
      rw [hsave]
      exact ⟨rfl, halike⟩

end Rules

/-! ## What never touches the store -/

section Storeless

variable (keys : KeyProvider)

theorem matches_derive (p1 p2 : UInt8) (data : Bytes) :
    Matches stores (derive keys p1 p2 data) (derive keys p1 p2 data) :=
  (matches_require _ _).bind fun _ => (matches_ofExcept _).bind fun _ =>
    (matches_ofExcept _).bind fun _ => matches_pure _

theorem matches_providePublicKey (display : Bool) (p1 p2 : UInt8) (data : Bytes) :
    Matches stores (providePublicKey keys display p1 p2 data)
      (providePublicKey keys display p1 p2 data) :=
  (matches_derive keys p1 p2 data).bind fun _ => (matches_pure _).ite (matches_pure _)

theorem matches_signDigest (key : KeyId) (digest : Hash.Digest) :
    Matches stores (signDigest keys key digest) (signDigest keys key digest) :=
  (matches_log _).bind fun _ => matches_sign keys key digest.val

theorem matches_execute (plan : SigningPlan) :
    Matches stores (execute keys plan) (execute keys plan) := by
  obtain ⟨key, payload, reply⟩ := plan
  cases payload with
  | digest digest =>
      cases reply with
      | hashOnly => exact matches_pure _
      | hashAndSignature => exact (matches_signDigest keys key digest).bind fun _ => matches_pure _
      | signature => exact (matches_signDigest keys key digest).bind fun _ => matches_pure _
  | raw message =>
      cases reply with
      | signature => exact (matches_sign keys key message).bind fun _ => matches_pure _
      | hashOnly => exact matches_throw _
      | hashAndSignature => exact matches_throw _

theorem matches_decodeGroup (publicKey : PublicKey) (allowed : AllowedOperations)
    (message : Bytes) :
    Matches stores (decodeGroup publicKey allowed message)
      (decodeGroup publicKey allowed message) := by
  unfold decodeGroup
  split
  next => exact matches_pure _
  next => exact ((matches_log _).bind fun _ => matches_pure _).ite (matches_pure _)

theorem matches_reviewUnhashed (key : KeyId) (session : Session) :
    Matches stores (reviewUnhashed key session) (reviewUnhashed key session) := by
  unfold reviewUnhashed
  split
  next => exact matches_throw _
  next => exact (matches_require _ _).bind fun _ => matches_pure _

theorem matches_detailedPrompt (key : KeyId) (session : Session) :
    Matches stores (detailedPrompt keys key session) (detailedPrompt keys key session) := by
  unfold detailedPrompt
  split
  next =>
    exact (matches_ofExcept _).bind fun _ => (matches_decodeGroup _ _ _).bind fun _ =>
      matches_pure _
  next => exact (matches_log _).bind fun _ => matches_pure _

theorem matches_reviewOperation (key : KeyId) (kind : SigningKind) (session : Session) :
    Matches stores (reviewOperation keys key kind session)
      (reviewOperation keys key kind session) := by
  refine (matches_require _ _).bind fun _ => (matches_detailedPrompt keys key session).bind
    fun prompt => ?_
  cases prompt with
  | some prompt => exact matches_pure _
  | none => exact (matches_log _).bind fun _ => matches_pure _

theorem matches_appendChunk (mayFold : Bool) (chunk : Bytes) :
    Matches stores (appendChunk mayFold chunk) (appendChunk mayFold chunk) := by
  refine matches_getSession.bind fun session => ?_
  cases MessageBuffer.append mayFold chunk session.buffer with
  | ok _ buffer => exact matches_setSession _
  | error cause buffer =>
      refine (matches_setSession _).bind fun _ => ?_
      exact ((matches_log _).bind fun _ => matches_throw _).ite (matches_throw _)

theorem matches_openSession (p2 : UInt8) (data : Bytes) :
    Matches stores (openSession p2 data) (openSession p2 data) :=
  matches_resetSession.bind fun _ => (matches_ofExcept _).bind fun _ =>
    (matches_ofExcept _).bind fun _ => matches_getSession.bind fun _ => matches_setSession _

theorem matches_notePosition (mode : Mode) (request : SigningRequest) :
    Matches stores (notePosition mode request) (notePosition mode request) :=
  (matches_getSession.bind fun _ => matches_setSession _).ite (matches_require _ _)

theorem matches_abandonSession (instruction : Instruction) :
    Matches stores (abandonSession instruction) (abandonSession instruction) :=
  matches_getSession.bind fun _ =>
    ((matches_log _).bind fun _ => matches_resetSession).ite (matches_pure _)

variable [Store σ] [Store τ]

/-- A chunk touches the store at most when it completes its message. -/
theorem matches_takeChunk {mode : Mode} (request : SigningRequest)
    (hcomplete : ∀ key session, Matches stores (complete mode keys key request.kind session)
      (complete mode keys key request.kind session)) :
    Matches stores (takeChunk mode keys request) (takeChunk mode keys request) := by
  refine (matches_require _ _).bind fun _ => Matches.ite ?_ ?_
  · exact (matches_openSession _ _).bind fun _ => matches_pure _
  · refine (matches_notePosition _ _).bind fun _ => matches_getSession.bind fun session => ?_
    cases session.key with
    | none => exact matches_throw _
    | some key =>
        refine (matches_appendChunk _ _).bind fun _ => Matches.ite ?_ (matches_pure _)
        exact matches_getSession.bind fun session => matches_resetSession.bind fun _ =>
          hcomplete key session

theorem matches_complete_wallet (key : KeyId) (kind : SigningKind) (session : Session) :
    Matches stores (complete .wallet keys key kind session)
      (complete .wallet keys key kind session) :=
  (matches_reviewUnhashed key session).ite (matches_reviewOperation keys key kind session)

end Storeless

/-! ## What looks at the store -/

section Concurring

variable [Store σ] [Store τ] {kept : BakingState → Prop} (hconcur : Store.Concur stores kept)
  (keys : KeyProvider)

include hconcur

theorem matches_query (reply : BakingState → Bytes) :
    Matches stores (do return .reply (reply (← loadState)) : Command σ Reaction)
      (do return .reply (reply (← loadState)) : Command τ Reaction) :=
  matches_loadState_bind hconcur fun _ _ => matches_pure _

theorem matches_authorizeAndCommit (key : KeyId) (data : ConsensusData) :
    Matches stores (authorizeAndCommit key data) (authorizeAndCommit key data) := by
  refine matches_loadState_bind hconcur fun state hstate => Matches.ite (Matches.ite ?_ ?_) ?_
  · exact matches_ofExcept_bind fun _ hsigned =>
      matches_saveState hconcur (hconcur.signed hstate hsigned) _
  · exact (matches_log _).bind fun _ => matches_throw _
  · exact (matches_log _).bind fun _ => matches_throw _

theorem matches_reviewSelfDelegation (plan : SigningPlan) (message : Bytes) :
    Matches stores (reviewSelfDelegation keys plan message)
      (reviewSelfDelegation keys plan message) := by
  refine (matches_ofExcept _).bind fun publicKey => (matches_decodeGroup _ _ _).bind fun group =>
    matches_loadState_bind hconcur fun state _ => ?_
  dsimp only
  split
  next => exact matches_pure _
  next => exact (matches_log _).bind fun _ => matches_throw _

theorem matches_complete (mode : Mode) (key : KeyId) (kind : SigningKind) (session : Session) :
    Matches stores (complete mode keys key kind session) (complete mode keys key kind session) := by
  cases mode with
  | wallet => exact matches_complete_wallet keys key kind session
  | baking =>
      unfold complete completeBaking
      dsimp only
      split
      next => exact matches_throw _
      next message _ =>
        split
        next data _ =>
          exact (matches_authorizeAndCommit hconcur key data).bind fun _ =>
            (matches_execute keys _).bind fun _ => matches_pure _
        next =>
          exact (matches_reviewSelfDelegation hconcur keys _ message).ite (matches_throw _)

theorem matches_run (config : Config) (frame : Frame) (instruction : Instruction) :
    Matches stores (run config keys frame instruction) (run config keys frame instruction) := by
  cases instruction with
  | version => exact matches_pure _
  | commit => exact matches_pure _
  | publicKey display => exact matches_providePublicKey keys display _ _ _
  | authorizeBaking => exact (matches_derive keys _ _ _).bind fun _ => matches_pure _
  | sign kind =>
      exact matches_takeChunk keys _ fun key session =>
        matches_complete hconcur keys _ key kind session
  | reset => exact (matches_require _ _).bind fun _ => (matches_require _ _).bind fun _ =>
      matches_pure _
  | setup =>
      exact (matches_require _ _).bind fun _ => (matches_require _ _).bind fun _ =>
        (matches_ofExcept _).bind fun _ => (matches_ofExcept _).bind fun _ =>
          (matches_ofExcept _).bind fun _ => matches_pure _
  | deauthorize =>
      exact (matches_require _ _).bind fun _ => (matches_require _ _).bind fun _ =>
        matches_loadState_bind hconcur fun _ hstate =>
          (matches_saveState hconcur (hconcur.removed hstate) _).bind fun _ => matches_pure _
  | queryKey => exact matches_query hconcur _
  | queryKeyWithCurve =>
      exact matches_query hconcur fun state => curveReply state.key :: pathReply state.key
  | queryMainMark => exact matches_query hconcur _
  | queryAllMarks => exact matches_query hconcur _
  | hmac =>
      exact (matches_require _ _).bind fun _ => (matches_require _ _).bind fun _ =>
        (matches_ofExcept _).bind fun _ => (matches_sign keys _ _).bind fun _ => matches_pure _

theorem matches_dispatch (config : Config) (raw : Bytes) :
    Matches stores (dispatch config keys raw) (dispatch config keys raw) :=
  (matches_ofExcept _).bind fun frame => (matches_ofExcept _).bind fun instruction =>
    (matches_log _).bind fun _ => (matches_abandonSession instruction).bind fun _ =>
      matches_run hconcur keys config frame instruction

end Concurring

end Command

/-! ## Signers -/

namespace Signer

variable {σ τ : Type} {stores : σ → τ → Prop}

/-- Signers that differ in their stores only. -/
structure Alike (stores : σ → τ → Prop) (one : Signer σ) (other : Signer τ) : Prop where
  config : other.config = one.config
  session : other.session = one.session
  pending : other.pending = one.pending
  store : stores one.store other.store

/-- Alike signers drop what waits alike. -/
theorem Alike.cancelPending {one : Signer σ} {other : Signer τ} (halike : Alike stores one other) :
    ∃ notes, Workspace.Alike stores notes notes one.cancelPending other.cancelPending := by
  obtain ⟨_, _, _, _⟩ := one
  obtain ⟨_, _, waiting, _⟩ := other
  obtain ⟨rfl, rfl, rfl, hstore⟩ := halike
  cases waiting with
  | none => exact ⟨[], rfl, hstore, [], rfl, rfl⟩
  | some action => exact ⟨[.log .pendingCancelled], rfl, hstore, [], rfl, rfl⟩

theorem Alike.eq {one other : Signer σ} (halike : Alike Eq one other) : other = one := by
  obtain ⟨config, session, pending, store⟩ := one
  obtain ⟨hconfig, hsession, hpending, hstore⟩ := halike
  cases other
  cases hconfig
  cases hsession
  cases hpending
  cases hstore
  rfl

/-- What a frame comes to once its command has ended. -/
def served (config : Config) :
    Except Status Reaction → Workspace σ → Signer σ × Outcome × List Event
  | .ok (.reply payload), after =>
      (⟨config, after.session, none, after.store⟩, .reply (.success payload), after.journal)
  | .ok (.confirm prompt action), after =>
      (⟨config, after.session, some action, after.store⟩, .prompt prompt, after.journal)
  | .error status, after =>
      (⟨config, after.session.reset, none, after.store⟩, .reply (.failure status),
        after.journal ++ [.log (.commandFailed status)])

theorem receive_served [Store σ] (signer : Signer σ) (keys : KeyProvider) (raw : Bytes) :
    Command.Ends (Command.dispatch signer.config keys raw) signer.cancelPending
      fun result after => signer.receive keys raw = served signer.config result after := by
  unfold receive Command.Ends
  cases Command.dispatch signer.config keys raw signer.cancelPending with
  | ok reaction after => cases reaction <;> rfl
  | error status after => rfl

/-- A frame whose command matches itself is answered alike by alike signers. -/
theorem receive_alike [Store σ] [Store τ] {one : Signer σ} {other : Signer τ}
    {keys : KeyProvider} {raw : Bytes} {first second : List Event}
    (hconfig : other.config = one.config)
    (hmatches : Command.Matches stores (Command.dispatch one.config keys raw)
      (Command.dispatch one.config keys raw))
    (hwork : Workspace.Alike stores first second one.cancelPending other.cancelPending) :
    (other.receive keys raw).2.1 = (one.receive keys raw).2.1 ∧
      Alike stores (one.receive keys raw).1 (other.receive keys raw).1 ∧
      ∃ since, (one.receive keys raw).2.2 = first ++ since ∧
        (other.receive keys raw).2.2 = second ++ since := by
  have hserved := other.receive_served keys raw
  rw [hconfig] at hserved
  obtain ⟨_, after, hone, hends⟩ :=
    ((one.receive_served keys raw).and (hmatches hwork)).exists
  obtain ⟨result, after', hother, rfl, hsession, hstore, since, hfirst, hsecond⟩ :=
    (hserved.and hends).exists
  rw [hone, hother]
  cases result with
  | ok reaction =>
      cases reaction with
      | reply payload => exact ⟨rfl, ⟨rfl, hsession, rfl, hstore⟩, since, hfirst, hsecond⟩
      | confirm prompt action => exact ⟨rfl, ⟨rfl, hsession, rfl, hstore⟩, since, hfirst, hsecond⟩
  | error status =>
      refine ⟨rfl, ⟨rfl, congrArg Session.reset hsession, rfl, hstore⟩,
        since ++ [.log (.commandFailed status)], ?_, ?_⟩
      · rw [← List.append_assoc, ← hfirst]
        rfl
      · rw [← List.append_assoc, ← hsecond]
        rfl

end Signer

end TezosSigner
