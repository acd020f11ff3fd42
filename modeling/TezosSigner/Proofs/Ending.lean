import Mathlib
import TezosSigner.Signer

/-!
# How commands end

What a command does is told by a condition on how it ends: with a value or a
failure, and on which workspace. Conditions are pushed backwards through a
command, one rule for each way to build one.
-/

namespace TezosSigner

namespace Command

variable {σ α β : Type}

/-- Whatever a command ends with on a workspace meets a condition. -/
def Ends (command : Command σ α) (before : Workspace σ)
    (post : Except Status α → Workspace σ → Prop) : Prop :=
  match command before with
  | .ok value after => post (.ok value) after
  | .error status after => post (.error status) after

/-- What a command ends with on a workspace, and the workspace that it leaves. -/
def outcome (command : Command σ α) (before : Workspace σ) : Except Status α × Workspace σ :=
  match command before with
  | .ok value after => (.ok value, after)
  | .error status after => (.error status, after)

section Rules

variable {before : Workspace σ} {post other : Except Status α → Workspace σ → Prop}

theorem Ends.imp {command : Command σ α} (hends : Ends command before post)
    (himp : ∀ result after, post result after → other result after) :
    Ends command before other := by
  unfold Ends at hends ⊢
  split at hends
  next => exact himp _ _ hends
  next => exact himp _ _ hends

theorem Ends.and {command : Command σ α} (hpost : Ends command before post)
    (hother : Ends command before other) :
    Ends command before fun result after => post result after ∧ other result after := by
  unfold Ends at hpost hother ⊢
  cases hrun : command before with
  | ok value after =>
      rw [hrun] at hpost hother
      exact ⟨hpost, hother⟩
  | error status after =>
      rw [hrun] at hpost hother
      exact ⟨hpost, hother⟩

theorem Ends.ok {command : Command σ α} {value : α} {after : Workspace σ}
    (hends : Ends command before post) (hrun : command before = .ok value after) :
    post (.ok value) after := by
  rwa [Ends, hrun] at hends

theorem Ends.error {command : Command σ α} {status : Status} {after : Workspace σ}
    (hends : Ends command before post) (hrun : command before = .error status after) :
    post (.error status) after := by
  rwa [Ends, hrun] at hends

theorem Ends.exists {command : Command σ α} (hends : Ends command before post) :
    ∃ result after, post result after := by
  unfold Ends at hends
  split at hends
  next value after _ => exact ⟨.ok value, after, hends⟩
  next status after _ => exact ⟨.error status, after, hends⟩

theorem Ends.outcome {command : Command σ α} (hends : Ends command before post) :
    post (command.outcome before).1 (command.outcome before).2 := by
  unfold Ends at hends
  unfold Command.outcome
  cases hrun : command before with
  | ok value after => rwa [hrun] at hends
  | error status after => rwa [hrun] at hends

/-- How a command ends on a workspace can be told twice. -/
theorem Ends.twice {command : Command σ α}
    {post : Except Status α → Workspace σ → Except Status α → Workspace σ → Prop}
    (hends : Ends command before fun result after => post result after result after) :
    Ends command before fun result after => Ends command before (post result after) := by
  unfold Ends at hends ⊢
  cases hrun : command before with
  | ok value after =>
      rw [hrun] at hends
      exact hends
  | error status after =>
      rw [hrun] at hends
      exact hends

@[simp] theorem ends_pure (value : α) :
    Ends (pure value) before post ↔ post (.ok value) before := Iff.rfl

@[simp] theorem ends_throw (status : Status) :
    Ends (throw status) before post ↔ post (.error status) before := Iff.rfl

/-- What a sequence ends with is what its second part ends with, unless the first
part fails. -/
@[simp] theorem ends_bind (first : Command σ β) (next : β → Command σ α) :
    Ends (first >>= next) before post ↔
      Ends first before fun result middle =>
        match result with
        | .ok value => Ends (next value) middle post
        | .error status => post (.error status) middle := by
  simp only [Ends, bind, EStateM.bind]
  cases first before <;> rfl

@[simp] theorem ends_map (command : Command σ β) (f : β → α) :
    Ends (f <$> command) before post ↔
      Ends command before fun result after => post (result.map f) after := by
  simp only [Ends, Functor.map, EStateM.map]
  cases command before <;> rfl

@[simp] theorem ends_ite (condition : Prop) [Decidable condition] (yes no : Command σ α) :
    Ends (if condition then yes else no) before post ↔
      (condition → Ends yes before post) ∧ (¬ condition → Ends no before post) := by
  split <;> simp [*]

@[simp] theorem ends_ofExcept (result : Except Status α) :
    Ends (ofExcept result) before post ↔ post result before := by
  cases result <;> rfl

@[simp] theorem ends_require {post : Except Status Unit → Workspace σ → Prop}
    (condition : Bool) (status : Status) :
    Ends (require condition status) before post ↔
      (condition = true → post (.ok ()) before) ∧
        (condition = false → post (.error status) before) := by
  cases condition <;> simp [require]

@[simp] theorem ends_note {post : Except Status Unit → Workspace σ → Prop} (event : Event) :
    Ends (note event) before post ↔
      post (.ok ()) { before with journal := before.journal ++ [event] } := Iff.rfl

@[simp] theorem ends_log {post : Except Status Unit → Workspace σ → Prop} (event : LogEvent) :
    Ends (log event) before post ↔
      post (.ok ()) { before with journal := before.journal ++ [.log event] } := Iff.rfl

@[simp] theorem ends_getSession {post : Except Status Session → Workspace σ → Prop} :
    Ends getSession before post ↔ post (.ok before.session) before := Iff.rfl

@[simp] theorem ends_setSession {post : Except Status Unit → Workspace σ → Prop}
    (session : Session) :
    Ends (setSession session) before post ↔ post (.ok ()) { before with session } := Iff.rfl

@[simp] theorem ends_resetSession {post : Except Status Unit → Workspace σ → Prop} :
    Ends resetSession before post ↔
      post (.ok ()) { before with session := before.session.reset } := Iff.rfl

@[simp] theorem ends_sign {post : Except Status Signature → Workspace σ → Prop}
    (keys : KeyProvider) (key : KeyId) (message : Bytes) :
    Ends (sign keys key message) before post ↔
      post (keys.sign key message)
        { before with journal := before.journal ++ [.signing key message] } := by
  simp [sign]

variable [Store σ]

/-- What is logged about a record that is loaded: a record of another layout is noted. -/
def loadingLogs (state : BakingState) : List LogEvent :=
  if state.isCurrent then [] else [.stateDiscarded state.version]

@[simp] theorem ends_loadState {post : Except Status BakingState → Workspace σ → Prop} :
    Ends loadState before post ↔
      post (.ok (Store.load before.store).checked)
        { before with journal :=
            before.journal ++ (loadingLogs (Store.load before.store)).map .log } := by
  unfold loadState loadingLogs
  cases hcurrent : (Store.load before.store).isCurrent <;>
    simp [Ends, bind, EStateM.bind, get, getThe, MonadStateOf.get, EStateM.get, hcurrent, log, note,
      modify, modifyGet, MonadStateOf.modifyGet, EStateM.modifyGet, pure, EStateM.pure]

@[simp] theorem ends_saveState {post : Except Status Unit → Workspace σ → Prop}
    (state : BakingState) (event : LogEvent) :
    Ends (saveState state event) before post ↔
      match Store.save state before.store with
      | .ok store => post (.ok ())
          ⟨before.session, store, before.journal ++ [.stored state, .log event]⟩
      | .error status => post (.error status) before := by
  unfold saveState
  cases hsave : Store.save state before.store <;>
    simp [Ends, bind, EStateM.bind, get, getThe, MonadStateOf.get, EStateM.get, hsave, log, note,
      modify, modifyGet, MonadStateOf.modifyGet, EStateM.modifyGet, throw, throwThe,
      MonadExceptOf.throw, EStateM.throw]

end Rules

end Command

end TezosSigner
