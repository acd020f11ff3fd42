import TezosSigner.Command.Frame
import TezosSigner.Command.PublicKey
import TezosSigner.Command.Sign

/-!
# The signer

The signer receives frames from the host and answers from its user. A frame is
answered at once or shows a prompt; the user's answer then completes or drops the
action that waits for it. A frame that arrives instead of an answer drops it too.
-/

namespace TezosSigner

/-- The signer between two steps. -/
structure Signer (σ : Type) where
  config : Config
  session : Session
  pending : Option PendingAction
  store : σ
deriving DecidableEq

inductive Outcome where
  | reply (response : Response)
  /-- The prompt to be answered by the user. -/
  | prompt (prompt : Prompt)
deriving DecidableEq

namespace Command

variable {σ : Type} [Store σ]

/-- Closes a session that another instruction comes into. -/
def abandonSession (instruction : Instruction) : Command σ Unit := do
  if !instruction.isSigning && (← getSession).isOpen then
    log .sessionAbandoned
    resetSession

def run (config : Config) (keys : KeyProvider) (frame : Frame) :
    Instruction → Command σ Reaction
  | .version => return .reply config.versionReply
  | .commit => return .reply config.commitReply
  | .publicKey display => providePublicKey keys display frame.p1 frame.p2 frame.data
  | .authorizeBaking => authorizeBaking keys frame.p1 frame.p2 frame.data
  | .sign kind => takeChunk config.mode keys ⟨kind, frame.p1, frame.p2, frame.data⟩
  | .reset => reset frame.data
  | .setup => setup keys frame.p1 frame.p2 frame.data
  | .deauthorize => deauthorize frame.p1 frame.data
  | .queryKey => queryKey
  | .queryKeyWithCurve => queryKeyWithCurve
  | .queryMainMark => queryMainMark
  | .queryAllMarks => queryAllMarks
  | .hmac => hmac keys frame.p1 frame.p2 frame.data

/-- Reads a frame and carries out its instruction. -/
def dispatch (config : Config) (keys : KeyProvider) (raw : Bytes) : Command σ Reaction := do
  let frame ← ofExcept (Frame.ofBytes raw)
  let instruction ← ofExcept (Instruction.ofCode config.mode frame.instruction)
  log (.dispatched instruction frame.p1 frame.p2 frame.data.length)
  abandonSession instruction
  run config keys frame instruction

def perform (keys : KeyProvider) : PendingAction → Command σ Bytes
  | .sign plan => execute keys plan
  | .providePublicKey publicKey => return publicKey.reply
  | .authorizeBaking key publicKey => do
      commitAuthorization key
      return publicKey.reply
  | .setup setup publicKey => do
      commitSetup setup
      return publicKey.reply
  | .reset level => do
      commitReset level
      return []

end Command

namespace Signer

variable {σ : Type}

/-- A signer on a store, with nothing under way. -/
def start (config : Config) (store : σ) : Signer σ where
  config := config
  session := .blank
  pending := none
  store := store

def workspace (signer : Signer σ) : Workspace σ :=
  ⟨signer.session, signer.store, []⟩

/-- Drops the action that waits for the user, if there is one, and notes it. -/
def cancelPending (signer : Signer σ) : Workspace σ :=
  if signer.pending.isSome then
    { signer.workspace with
      session := signer.session.reset
      journal := [.log .pendingCancelled] }
  else signer.workspace

/-- Receives a frame from the host. A failed command closes the session and its reply has
no payload. -/
def receive [Store σ] (keys : KeyProvider) (raw : Bytes) (signer : Signer σ) :
    Signer σ × Outcome × List Event :=
  match Command.dispatch signer.config keys raw signer.cancelPending with
  | .ok (.reply payload) after =>
      (⟨signer.config, after.session, none, after.store⟩,
        .reply (.success payload), after.journal)
  | .ok (.confirm prompt action) after =>
      (⟨signer.config, after.session, some action, after.store⟩,
        .prompt prompt, after.journal)
  | .error status after =>
      (⟨signer.config, after.session.reset, none, after.store⟩,
        .reply (.failure status), after.journal ++ [.log (.commandFailed status)])

/-- Completes the action that waits for the user, or rejects it. -/
def settle [Store σ] (keys : KeyProvider) (approved : Bool) (action : PendingAction) :
    Command σ Bytes := do
  if approved then Command.perform keys action
  else
    Command.log .rejected
    throw .rejected

/-- Takes the user's answer. Without an action waiting for it nothing happens; otherwise the
session is closed whatever the answer leads to. -/
def answer [Store σ] (keys : KeyProvider) (approved : Bool) (signer : Signer σ) :
    Signer σ × Option Response × List Event :=
  match signer.pending with
  | none => (signer, none, [])
  | some action =>
      let finish (after : Workspace σ) : Signer σ :=
        ⟨signer.config, after.session.reset, none, after.store⟩
      match settle keys approved action signer.workspace with
      | .ok payload after => (finish after, some (.success payload), after.journal)
      | .error status after => (finish after, some (.failure status), after.journal)

end Signer

end TezosSigner
