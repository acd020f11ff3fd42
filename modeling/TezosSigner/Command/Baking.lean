import TezosSigner.Command.Action
import TezosSigner.Command.Effect
import TezosSigner.Review.Account

/-!
# Commands about the baking state

Setup, reset and authorization change the stored state after approval; a key is
removed at once. A consensus message raises the mark of its chain before it is
signed. The queries report the stored state.
-/

namespace TezosSigner.Command

variable {σ : Type} [Store σ]

/-- Checks that a key may sign a consensus message, and stores the raised mark. Nothing is
stored unless the key is the baking key and the level is safe. -/
def authorizeAndCommit (key : KeyId) (data : ConsensusData) : Command σ Unit := do
  let state ← loadState
  unless state.authorizes key do
    log .foreignKey
    throw .security
  let chain := state.chainFor data.chainId
  unless state.allows chain data.level data.isEndorsement do
    log (.levelRefused data.level chain (state.mark chain))
    throw .wrongValues
  saveState (← ofExcept (state.recordSigned data)) (.markRaised chain data.level)

def commitReset (level : UInt32) : Command σ Unit := do
  saveState ((← loadState).resetLevels level) (.marksReset level)

def commitSetup (setup : Setup) : Command σ Unit := do
  saveState ((← loadState).install setup) (.installed setup.mainChainId)

def commitAuthorization (key : KeyId) : Command σ Unit := do
  saveState ((← loadState).authorize key) .keyAuthorized

omit [Store σ] in
/-- Proposes to set both marks to a valid level. -/
def reset (data : Bytes) : Command σ Reaction := do
  require (data.length == 4) .wrongLengthForInstruction
  let level := data.toUInt32
  require (isValidLevel level) .parseError
  return .confirm (.reset level) (.reset level)

omit [Store σ] in
/-- Proposes a setup: main chain, both levels, and a path that ends the data. -/
def setup (keys : KeyProvider) (p1 p2 : UInt8) (data : Bytes) : Command σ Reaction := do
  require (p1 == 0) .wrongParam
  require (13 ≤ data.length) .wrongLengthForInstruction
  let curve ← ofExcept (Curve.ofParameter p2)
  let word (offset : Nat) := Bytes.toUInt32 ((data.drop offset).take 4)
  let path ← ofExcept (Path.ofBytes (data.drop 12))
  let setup : Setup :=
    { key := ⟨curve, path⟩, mainChainId := word 0, mainLevel := word 4, testLevel := word 8 }
  let publicKey ← ofExcept (keys.publicKey setup.key)
  return .confirm
    (.setup publicKey.address setup.mainChainId setup.mainLevel setup.testLevel)
    (.setup setup publicKey)

def deauthorize (p1 : UInt8) (data : Bytes) : Command σ Reaction := do
  require (p1 == 0) .wrongParam
  require data.isEmpty .parseError
  saveState (← loadState).deauthorize .keyRemoved
  return .reply []

/-- A key's path as it is reported; a zero stands for no key. -/
def pathReply (key : Option KeyId) : Bytes :=
  match key with
  | some key => key.path.toBytes
  | none => [0]

/-- The code of a key's curve as it is reported; no key is reported like the first curve. -/
def curveReply (key : Option KeyId) : UInt8 :=
  (key.map (·.curve.code)).getD Curve.ed25519.code

def queryKey : Command σ Reaction := do
  return .reply (pathReply (← loadState).key)

def queryKeyWithCurve : Command σ Reaction := do
  let key := (← loadState).key
  return .reply (curveReply key :: pathReply key)

def queryMainMark : Command σ Reaction := do
  return .reply (Bytes.ofUInt32 (← loadState).main.level)

def queryAllMarks : Command σ Reaction := do
  let state ← loadState
  return .reply (Bytes.ofUInt32 state.main.level ++ Bytes.ofUInt32 state.test.level
    ++ Bytes.ofUInt32 state.mainChainId)

end TezosSigner.Command
