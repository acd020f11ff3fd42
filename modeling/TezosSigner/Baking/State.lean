import TezosSigner.Consensus
import TezosSigner.Key.Id

/-!
# Baking state

A baker keeps one record between commands: the key that may sign consensus
messages, the main chain, and for the main and the test chain the highest level
signed so far. The record is always replaced as a whole.
-/

namespace TezosSigner

/-- The two chains whose levels are counted apart. -/
inductive Chain where
  | main
  | test
deriving DecidableEq, Repr

/-- The highest level signed on a chain, and whether its endorsement has been signed. -/
structure Watermark where
  level : UInt32
  hadEndorsement : Bool
deriving DecidableEq, Repr

/-- A mark at a level whose endorsement has not been signed. -/
def Watermark.atLevel (level : UInt32) : Watermark := ⟨level, false⟩

/-- What a setup installs: the key, the main chain, and the marks to start from. -/
structure Setup where
  key : KeyId
  mainChainId : UInt32
  mainLevel : UInt32
  testLevel : UInt32
deriving DecidableEq

structure BakingState where
  /-- The layout that the record was written in. -/
  version : UInt8
  /-- The main chain; zero takes every chain for the main one. -/
  mainChainId : UInt32
  main : Watermark
  test : Watermark
  /-- The one key that may sign consensus messages. -/
  key : Option KeyId
deriving DecidableEq

namespace BakingState

/-- The layout that this signer writes. -/
def currentVersion : UInt8 := 1

/-- No key, no main chain, and nothing signed. -/
def fresh : BakingState where
  version := currentVersion
  mainChainId := 0
  main := .atLevel 0
  test := .atLevel 0
  key := none

def isCurrent (state : BakingState) : Bool :=
  state.version == currentVersion

/-- The record itself, or a fresh one if it was written in another layout. -/
def checked (state : BakingState) : BakingState :=
  if state.isCurrent then state else fresh

def chainFor (state : BakingState) (chainId : UInt32) : Chain :=
  if chainId = state.mainChainId ∨ state.mainChainId = 0 then .main else .test

def mark (state : BakingState) : Chain → Watermark
  | .main => state.main
  | .test => state.test

def setMark (state : BakingState) (chain : Chain) (mark : Watermark) : BakingState :=
  match chain with
  | .main => { state with main := mark }
  | .test => { state with test := mark }

/-- Whether a key is the baking key. The empty path never is. -/
def authorizes (state : BakingState) (key : KeyId) : Bool :=
  !key.path.isEmpty && state.key == some key

/-- Whether signing a message at a level is safe: the level is valid and above the chain's
mark, or equal to it for the first endorsement at that level. -/
def allows (state : BakingState) (chain : Chain) (level : UInt32) (isEndorsement : Bool) : Bool :=
  let mark := state.mark chain
  isValidLevel level
    && (level > mark.level || level == mark.level && isEndorsement && !mark.hadEndorsement)

/-- Records a signed message: the mark of its chain never falls. -/
def recordSigned (state : BakingState) (data : ConsensusData) : Except Status BakingState :=
  if isValidLevel data.level then
    let chain := state.chainFor data.chainId
    .ok (state.setMark chain ⟨max (state.mark chain).level data.level, data.isEndorsement⟩)
  else .error .wrongValues

/-- Sets both marks to a level, whatever they were. -/
def resetLevels (state : BakingState) (level : UInt32) : BakingState :=
  { state with main := .atLevel level, test := .atLevel level }

/-- Installs a key with its main chain and starting marks. -/
def install (state : BakingState) (setup : Setup) : BakingState :=
  { state with
    key := some setup.key
    mainChainId := setup.mainChainId
    main := .atLevel setup.mainLevel
    test := .atLevel setup.testLevel }

/-- Makes a key the baking key and keeps the marks. -/
def authorize (state : BakingState) (key : KeyId) : BakingState :=
  { state with key := some key }

/-- Forgets the baking key and keeps the marks. -/
def deauthorize (state : BakingState) : BakingState :=
  { state with key := none }

end BakingState

end TezosSigner
