import TezosSigner.Baking.Store
import TezosSigner.Journal
import TezosSigner.Key.Provider
import TezosSigner.Signing.Session

/-!
# Effects of commands

A command works on the session, the store and the journal, and may fail with a
status. What it did before it failed stays done.
-/

namespace TezosSigner

/-- What a command works on. -/
structure Workspace (σ : Type) where
  session : Session
  store : σ
  /-- What has left the signer so far, oldest first. -/
  journal : List Event
deriving DecidableEq

def Workspace.ofStore {σ : Type} (store : σ) : Workspace σ := ⟨.blank, store, []⟩

/-- A computation on the workspace that may fail with a status. -/
abbrev Command (σ : Type) := EStateM Status (Workspace σ)

namespace Command

variable {σ α : Type}

/-- Takes the value of a computation, or fails as it did. -/
def ofExcept : Except Status α → Command σ α
  | .ok value => pure value
  | .error status => throw status

def require (condition : Bool) (status : Status) : Command σ Unit :=
  if condition then pure () else throw status

def note (event : Event) : Command σ Unit :=
  modify fun workspace => { workspace with journal := workspace.journal ++ [event] }

def log (event : LogEvent) : Command σ Unit :=
  note (.log event)

def getSession : Command σ Session := do
  return (← get).session

def setSession (session : Session) : Command σ Unit :=
  modify fun workspace => { workspace with session }

/-- Closes the session. -/
def resetSession : Command σ Unit := do
  setSession (← getSession).reset

/-- The stored state, or a fresh one if the stored one has another layout. -/
def loadState [Store σ] : Command σ BakingState := do
  let state := Store.load (← get).store
  unless state.isCurrent do log (.stateDiscarded state.version)
  return state.checked

/-- Replaces the stored state and notes what happened. -/
def saveState [Store σ] (state : BakingState) (event : LogEvent) : Command σ Unit := do
  match Store.save state (← get).store with
  | .ok store =>
      modify fun workspace => { workspace with store }
      note (.stored state)
      log event
  | .error status => throw status

/-- Asks the keys for a signature and notes it. -/
def sign (keys : KeyProvider) (key : KeyId) (message : Bytes) : Command σ Signature := do
  note (.signing key message)
  ofExcept (keys.sign key message)

end Command

end TezosSigner
