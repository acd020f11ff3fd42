import TezosSigner.Proofs.Ending

/-!
# Quiet commands

A quiet command reads and logs, and does nothing else: session and store are as
they were, no key has been asked, nothing has been stored, and nothing is logged that
tells of a change. The queries are quiet, and so is everything that only makes a prompt.
-/

namespace TezosSigner

/-- What a journal tells besides the log: what was stored, and what the keys were
asked to sign. -/
def deeds (journal : List Event) : List Event :=
  journal.filter fun
    | .log _ => false
    | _ => true

@[simp] theorem deeds_nil : deeds [] = [] := rfl

@[simp] theorem deeds_append (first second : List Event) :
    deeds (first ++ second) = deeds first ++ deeds second :=
  List.filter_append first second

@[simp] theorem deeds_log (event : LogEvent) (journal : List Event) :
    deeds (.log event :: journal) = deeds journal := rfl

@[simp] theorem deeds_signing (key : KeyId) (message : Bytes) (journal : List Event) :
    deeds (.signing key message :: journal) = .signing key message :: deeds journal := rfl

@[simp] theorem deeds_stored (state : BakingState) (journal : List Event) :
    deeds (.stored state :: journal) = .stored state :: deeds journal := rfl

@[simp] theorem deeds_logs (logs : List LogEvent) : deeds (logs.map .log) = [] := by
  induction logs with
  | nil => rfl
  | cons event logs ih => rw [List.map_cons, deeds_log, ih]

/-- Whether a log record tells of a change of the stored record. -/
def LogEvent.isNotice : LogEvent → Bool
  | .markRaised .. | .marksReset _ | .installed _ | .keyAuthorized | .keyRemoved => true
  | _ => false

/-- What a journal tells of changes: the records that were stored, and what was logged about
them. -/
def entries (journal : List Event) : List Event :=
  journal.filter fun
    | .log event => event.isNotice
    | .signing _ _ => false
    | .stored _ => true

@[simp] theorem entries_nil : entries [] = [] := rfl

@[simp] theorem entries_append (first second : List Event) :
    entries (first ++ second) = entries first ++ entries second :=
  List.filter_append first second

@[simp] theorem entries_signing (key : KeyId) (message : Bytes) (journal : List Event) :
    entries (.signing key message :: journal) = entries journal := rfl

@[simp] theorem entries_stored (state : BakingState) (journal : List Event) :
    entries (.stored state :: journal) = .stored state :: entries journal := rfl

theorem entries_notice {event : LogEvent} (hevent : event.isNotice = true) (journal : List Event) :
    entries (.log event :: journal) = .log event :: entries journal :=
  List.filter_cons_of_pos hevent

theorem entries_logs {logs : List LogEvent} (hlogs : ∀ event ∈ logs, event.isNotice = false) :
    entries (logs.map .log) = [] := by
  apply List.filter_eq_nil_iff.mpr
  intro event hevent
  obtain ⟨logged, hlogged, rfl⟩ := List.mem_map.mp hevent
  exact Bool.eq_false_iff.mp (hlogs logged hlogged)

/-- Between two workspaces nothing has happened but logging, and not about a change. -/
def Workspace.Logged {σ : Type} (before after : Workspace σ) : Prop :=
  ∃ logs : List LogEvent, (∀ event ∈ logs, event.isNotice = false) ∧
    after = { before with journal := before.journal ++ logs.map .log }

namespace Workspace.Logged

variable {σ : Type} {before middle after : Workspace σ}

theorem refl (before : Workspace σ) : before.Logged before :=
  ⟨[], by simp, by rw [List.map_nil, List.append_nil]⟩

theorem log (before : Workspace σ) {logs : List LogEvent}
    (hlogs : ∀ event ∈ logs, event.isNotice = false) :
    before.Logged { before with journal := before.journal ++ logs.map .log } := ⟨logs, hlogs, rfl⟩

theorem trans (hfirst : before.Logged middle) (hsecond : middle.Logged after) :
    before.Logged after := by
  obtain ⟨first, hearlier, rfl⟩ := hfirst
  obtain ⟨second, hlater, rfl⟩ := hsecond
  refine ⟨first ++ second, fun event hevent => ?_, by rw [List.map_append, List.append_assoc]⟩
  exact (List.mem_append.mp hevent).elim (hearlier event) (hlater event)

theorem session_eq (hlogged : before.Logged after) : after.session = before.session := by
  obtain ⟨_, _, rfl⟩ := hlogged
  rfl

theorem store_eq (hlogged : before.Logged after) : after.store = before.store := by
  obtain ⟨_, _, rfl⟩ := hlogged
  rfl

theorem deeds_eq (hlogged : before.Logged after) :
    deeds after.journal = deeds before.journal := by
  obtain ⟨logs, _, rfl⟩ := hlogged
  rw [deeds_append, deeds_logs, List.append_nil]

theorem entries_eq (hlogged : before.Logged after) :
    entries after.journal = entries before.journal := by
  obtain ⟨logs, hlogs, rfl⟩ := hlogged
  rw [entries_append, entries_logs hlogs, List.append_nil]

end Workspace.Logged

namespace Command

variable {σ α β : Type}

/-- A quiet command reads and logs, and does nothing else. -/
def Quiet (command : Command σ α) : Prop :=
  ∀ before, Ends command before fun _ after => before.Logged after

theorem quiet_pure (value : α) : Quiet (pure value : Command σ α) := Workspace.Logged.refl

theorem quiet_throw (status : Status) : Quiet (throw status : Command σ α) :=
  Workspace.Logged.refl

theorem Quiet.bind {first : Command σ β} {next : β → Command σ α} (hfirst : Quiet first)
    (hnext : ∀ value, Quiet (next value)) : Quiet (first >>= next) := by
  intro before
  rw [ends_bind]
  apply (hfirst before).imp
  intro result middle hmiddle
  cases result with
  | error status => exact hmiddle
  | ok value => exact (hnext value middle).imp fun _ after hafter => hmiddle.trans hafter

theorem Quiet.ite {condition : Prop} [Decidable condition] {yes no : Command σ α}
    (hyes : Quiet yes) (hno : Quiet no) : Quiet (if condition then yes else no) := by
  split
  · exact hyes
  · exact hno

theorem quiet_ofExcept (result : Except Status α) : Quiet (ofExcept result : Command σ α) := by
  cases result with
  | ok value => exact quiet_pure value
  | error status => exact quiet_throw status

theorem quiet_require (condition : Bool) (status : Status) :
    Quiet (require condition status : Command σ Unit) :=
  (quiet_pure ()).ite (quiet_throw status)

theorem quiet_log {event : LogEvent} (hevent : event.isNotice = false) :
    Quiet (log event : Command σ Unit) :=
  fun before => Workspace.Logged.log before (List.forall_mem_singleton.mpr hevent)

/-- A record of another layout is discarded, which changes nothing that is stored. -/
theorem isNotice_of_mem_loadingLogs (state : BakingState) :
    ∀ event ∈ loadingLogs state, event.isNotice = false := by
  intro event hevent
  unfold loadingLogs at hevent
  split_ifs at hevent
  · cases hevent
  · cases List.mem_singleton.mp hevent
    rfl

variable [Store σ]

theorem quiet_loadState : Quiet (loadState : Command σ BakingState) :=
  fun before => ends_loadState.mpr (Workspace.Logged.log before (isNotice_of_mem_loadingLogs _))

section Handlers

theorem quiet_queryKey : Quiet (queryKey : Command σ Reaction) :=
  quiet_loadState.bind fun _ => quiet_pure _

theorem quiet_queryKeyWithCurve : Quiet (queryKeyWithCurve : Command σ Reaction) :=
  quiet_loadState.bind fun _ => quiet_pure _

theorem quiet_queryMainMark : Quiet (queryMainMark : Command σ Reaction) :=
  quiet_loadState.bind fun _ => quiet_pure _

theorem quiet_queryAllMarks : Quiet (queryAllMarks : Command σ Reaction) :=
  quiet_loadState.bind fun _ => quiet_pure _

variable (keys : KeyProvider)

omit [Store σ] in
theorem quiet_derive (p1 p2 : UInt8) (data : Bytes) :
    Quiet (derive keys p1 p2 data : Command σ (KeyId × PublicKey)) :=
  (quiet_require _ _).bind fun _ => (quiet_ofExcept _).bind fun _ =>
    (quiet_ofExcept _).bind fun _ => quiet_pure _

omit [Store σ] in
theorem quiet_providePublicKey (display : Bool) (p1 p2 : UInt8) (data : Bytes) :
    Quiet (providePublicKey keys display p1 p2 data : Command σ Reaction) :=
  (quiet_derive keys p1 p2 data).bind fun _ => (quiet_pure _).ite (quiet_pure _)

omit [Store σ] in
theorem quiet_authorizeBaking (p1 p2 : UInt8) (data : Bytes) :
    Quiet (authorizeBaking keys p1 p2 data : Command σ Reaction) :=
  (quiet_derive keys p1 p2 data).bind fun _ => quiet_pure _

omit [Store σ] in
theorem quiet_reset (data : Bytes) : Quiet (reset data : Command σ Reaction) :=
  (quiet_require _ _).bind fun _ => (quiet_require _ _).bind fun _ => quiet_pure _

omit [Store σ] in
theorem quiet_setup (p1 p2 : UInt8) (data : Bytes) :
    Quiet (setup keys p1 p2 data : Command σ Reaction) :=
  (quiet_require _ _).bind fun _ => (quiet_require _ _).bind fun _ =>
    (quiet_ofExcept _).bind fun _ => (quiet_ofExcept _).bind fun _ =>
      (quiet_ofExcept _).bind fun _ => quiet_pure _

omit [Store σ] in
theorem quiet_decodeGroup (publicKey : PublicKey) (allowed : AllowedOperations) (message : Bytes) :
    Quiet (decodeGroup publicKey allowed message : Command σ (Option OperationGroup)) := by
  unfold decodeGroup
  split
  next => exact quiet_pure _
  next => exact ((quiet_log rfl).bind fun _ => quiet_pure _).ite (quiet_pure _)

theorem quiet_reviewSelfDelegation (plan : SigningPlan) (message : Bytes) :
    Quiet (reviewSelfDelegation keys plan message : Command σ Reaction) := by
  refine (quiet_ofExcept _).bind fun _ => (quiet_decodeGroup _ _ _).bind fun _ =>
    quiet_loadState.bind fun _ => ?_
  dsimp only
  split
  next => exact quiet_pure _
  next => exact (quiet_log rfl).bind fun _ => quiet_throw _

omit [Store σ] in
theorem quiet_reviewUnhashed (key : KeyId) (session : Session) :
    Quiet (reviewUnhashed key session : Command σ Reaction) := by
  unfold reviewUnhashed
  split
  next => exact quiet_throw _
  next => exact (quiet_require _ _).bind fun _ => quiet_pure _

omit [Store σ] in
theorem quiet_detailedPrompt (key : KeyId) (session : Session) :
    Quiet (detailedPrompt keys key session : Command σ (Option Prompt)) := by
  unfold detailedPrompt
  split
  next =>
    exact (quiet_ofExcept _).bind fun _ => (quiet_decodeGroup _ _ _).bind fun _ => quiet_pure _
  next => exact (quiet_log rfl).bind fun _ => quiet_pure _

omit [Store σ] in
theorem quiet_reviewOperation (key : KeyId) (kind : SigningKind) (session : Session) :
    Quiet (reviewOperation keys key kind session : Command σ Reaction) := by
  refine (quiet_require _ _).bind fun _ => (quiet_detailedPrompt keys key session).bind fun _ => ?_
  split
  next => exact quiet_pure _
  next => exact (quiet_log rfl).bind fun _ => quiet_pure _

end Handlers

end Command

end TezosSigner
