import TezosSigner.Command.Baking
import TezosSigner.Command.Hmac
import TezosSigner.Operation.Group
import TezosSigner.Review.Operation

/-!
# Signing commands

A message is sent in chunks. The first chunk names the key; the last one decides
what happens. A baking signer signs consensus messages at once after raising the
mark, and asks before it registers itself as a delegate; it signs nothing else. A
wallet always asks, showing the message in detail if it understands it.
-/

namespace TezosSigner

structure SigningRequest where
  kind : SigningKind
  p1 : UInt8
  p2 : UInt8
  data : Bytes

namespace SigningRequest

/-- The top bit of the first parameter marks the last chunk. -/
def isLast (request : SigningRequest) : Bool :=
  request.p1 &&& 0x80 != 0

/-- The rest of the first parameter tells the position of the chunk. -/
def position (request : SigningRequest) : UInt8 :=
  request.p1 &&& 0x7F

/-- Whether a request is one whose message a wallet hashes, and may therefore drop in part. -/
def mayFold (request : SigningRequest) (mode : Mode) : Bool :=
  mode == .wallet && request.kind != .unhashed

end SigningRequest

/-- The form of the reply: the digest alone if some chunk asked for it. -/
def Session.replyForm (session : Session) (kind : SigningKind) : ReplyForm :=
  if session.hashOnly then .hashOnly
  else if kind = .withHash then .hashAndSignature
  else .signature

/-- What a baker may sign besides consensus messages. -/
def AllowedOperations.baking : AllowedOperations :=
  .ofList [.reveal, .delegation]

namespace Command

variable {σ : Type}

def signDigest (keys : KeyProvider) (key : KeyId) (digest : Hash.Digest) :
    Command σ Signature := do
  log (.signingDigest digest)
  sign keys key digest.val

/-- Carries out a plan and gives the reply. A digest can be asked for only when the payload
is one. -/
def execute (keys : KeyProvider) (plan : SigningPlan) : Command σ Bytes := do
  match plan.payload, plan.reply with
  | .digest digest, .hashOnly => return digest.val
  | .digest digest, .hashAndSignature =>
      return digest.val ++ (← signDigest keys plan.key digest).bytes
  | .digest digest, .signature => return (← signDigest keys plan.key digest).bytes
  | .raw message, .signature => return (← sign keys plan.key message).bytes
  | .raw _, _ => throw .wrongValues

def appendChunk (mayFold : Bool) (chunk : Bytes) : Command σ Unit := do
  let session ← getSession
  match MessageBuffer.append mayFold chunk session.buffer with
  | .ok () buffer => setSession { session with buffer }
  | .error cause buffer =>
      -- A chunk that is refused may have folded the buffer.
      setSession { session with buffer }
      if cause = .messageTooLong then log .capacityExceeded
      throw .parseError

/-- Decodes an operation group, if the message is one that may be signed. -/
def decodeGroup (publicKey : PublicKey) (allowed : AllowedOperations) (message : Bytes) :
    Command σ (Option OperationGroup) := do
  match OperationGroup.ofBytes publicKey allowed message with
  | .ok group => return some group
  | .error cause =>
      if cause = .nothingToSign then log .nothingToSign
      return none

/-- Asks to register the baking key as its own delegate, and refuses any other operation. -/
def reviewSelfDelegation [Store σ] (keys : KeyProvider) (plan : SigningPlan) (message : Bytes) :
    Command σ Reaction := do
  let publicKey ← ofExcept (keys.publicKey plan.key)
  let group ← decodeGroup publicKey .baking message
  let authorized := (← loadState).authorizes plan.key
  match group.filter fun group => authorized && group.isSelfDelegation with
  | some group => return .confirm (.registerDelegate group) (.sign plan)
  | none =>
      log .operationRefused
      throw .security

/-- Ends a session of a baking signer. -/
def completeBaking [Store σ] (keys : KeyProvider) (key : KeyId) (kind : SigningKind)
    (session : Session) : Command σ Reaction := do
  match session.buffer.message? with
  | none => throw .parseError
  | some message =>
      let plan : SigningPlan :=
        { key, payload := .digest session.buffer.digest, reply := session.replyForm kind }
      match (MessageClass.ofBytes message).consensus? with
      | some data =>
          authorizeAndCommit key data
          return .reply (← execute keys plan)
      | none =>
          if message.head? = some OperationGroup.mark then
            reviewSelfDelegation keys plan message
          else throw .parseError

/-- Asks to sign a message as it is. Only an Edwards key signs messages of any length. -/
def reviewUnhashed (key : KeyId) (session : Session) : Command σ Reaction := do
  match session.buffer.message? with
  | none => throw .parseError
  | some message =>
      require (key.curve == .ed25519 || message.length == 32) .wrongLengthForInstruction
      return .confirm (.prehashed message)
        (.sign { key, payload := .raw message, reply := .signature })

/-- The detailed prompt of the session's message, if it is short enough to be decoded and has
one. -/
def detailedPrompt (keys : KeyProvider) (key : KeyId) (session : Session) :
    Command σ (Option Prompt) := do
  match session.buffer.message? with
  | some message =>
      let publicKey ← ofExcept (keys.publicKey key)
      let group ← decodeGroup publicKey .all message
      return group.bind Prompt.ofGroup?
  | none =>
      log (.tooLongToDecode session.buffer.total)
      return none

/-- Asks to sign the digest of an operation, shown in detail or else by its digest. -/
def reviewOperation (keys : KeyProvider) (key : KeyId) (kind : SigningKind)
    (session : Session) : Command σ Reaction := do
  require (session.buffer.first == some OperationGroup.mark) .parseError
  let digest := session.buffer.digest
  let plan : SigningPlan :=
    { key, payload := .digest digest, reply := session.replyForm kind }
  match ← detailedPrompt keys key session with
  | some prompt => return .confirm prompt (.sign plan)
  | none =>
      log .noDetailedReview
      return .confirm (.unrecognized digest.val) (.sign plan)

def complete [Store σ] (mode : Mode) (keys : KeyProvider) (key : KeyId) (kind : SigningKind)
    (session : Session) : Command σ Reaction :=
  match mode with
  | .baking => completeBaking keys key kind session
  | .wallet =>
      if kind = .unhashed then reviewUnhashed key session
      else reviewOperation keys key kind session

def openSession (p2 : UInt8) (data : Bytes) : Command σ Unit := do
  resetSession
  let (path, _) ← ofExcept (Path.read data)
  let curve ← ofExcept (Curve.ofParameter p2)
  setSession { (← getSession) with key := some ⟨curve, path⟩ }

/-- Notes what the position of a further chunk says. In a wallet it may ask for the digest
alone. -/
def notePosition (mode : Mode) (request : SigningRequest) : Command σ Unit := do
  if request.position = 0x03 ∧ request.mayFold mode then
    setSession { (← getSession) with hashOnly := true }
  else require (request.position == 0x01) .wrongParam

/-- Takes a further chunk, and completes the message with the last one. The session ends
with the message, whatever comes of it. -/
def continueSession [Store σ] (mode : Mode) (keys : KeyProvider) (request : SigningRequest) :
    Command σ Reaction := do
  notePosition mode request
  match (← getSession).key with
  | none => throw .wrongLengthForInstruction
  | some key =>
      appendChunk (request.mayFold mode) request.data
      if request.isLast then
        -- The session is over before the message is looked at.
        let session ← getSession
        resetSession
        complete mode keys key request.kind session
      else return .reply []

def takeChunk [Store σ] (mode : Mode) (keys : KeyProvider) (request : SigningRequest) :
    Command σ Reaction := do
  require (request.data.length ≤ Frame.maxDataLength) .wrongLengthForInstruction
  if request.position = 0x00 then
    openSession request.p2 request.data
    return .reply []
  else continueSession mode keys request

end Command

end TezosSigner
