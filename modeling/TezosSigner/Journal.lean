import TezosSigner.Baking.State
import TezosSigner.Command.Instruction
import TezosSigner.Text.Hex
import TezosSigner.Text.Numeral

/-!
# The journal

While it works, the signer notes in order what leaves it besides its answers: what
it logs, what it asks the keys to sign, and what it has stored. The texts of the log
are fixed here; the signer itself only says what happened.
-/

namespace TezosSigner

open Hash

/-- How much a log record matters. -/
inductive LogLevel where
  | debug
  | info
  | warn
deriving DecidableEq, Repr

inductive LogEvent where
  | pendingCancelled
  | commandFailed (status : Status)
  | dispatched (instruction : Instruction) (p1 p2 : UInt8) (length : Nat)
  | sessionAbandoned
  | capacityExceeded
  | tooLongToDecode (length : Nat)
  | noDetailedReview
  | nothingToSign
  | signingDigest (digest : Digest)
  | stateDiscarded (version : UInt8)
  | operationRefused
  | foreignKey
  | levelRefused (level : UInt32) (chain : Chain) (mark : Watermark)
  | rejected
  | markRaised (chain : Chain) (level : UInt32)
  | marksReset (level : UInt32)
  | installed (mainChainId : UInt32)
  | keyAuthorized
  | keyRemoved
deriving DecidableEq

/-- What leaves the signer besides its answers. Of what the keys are asked, only signatures are
noted: a public key may be derived at any time without a trace. -/
inductive Event where
  | log (event : LogEvent)
  /-- The keys were asked for a signature. -/
  | signing (key : KeyId) (message : Bytes)
  /-- The stored state was replaced. -/
  | stored (state : BakingState)
deriving DecidableEq

def Status.name : Status → String
  | .ok => "Ok"
  | .wrongParam => "WrongParam"
  | .wrongLength => "WrongLength"
  | .invalidInstruction => "InvalidInstruction"
  | .wrongLengthForInstruction => "WrongLengthForInstruction"
  | .rejected => "Rejected"
  | .parseError => "ParseError"
  | .referencedDataNotFound => "ReferencedDataNotFound"
  | .wrongValues => "WrongValues"
  | .security => "Security"
  | .hidRequired => "HidRequired"
  | .classError => "ClassError"
  | .memoryError => "MemoryError"
  | .internal code => "Internal(" ++ Text.decimal code.toNat ++ ")"

def StatusCategory.name : StatusCategory → String
  | .none => "None"
  | .framing => "Framing"
  | .parse => "Parse"
  | .authorization => "Authorization"
  | .userRejection => "UserRejection"
  | .resource => "Resource"
  | .device => "Device"

def Chain.name : Chain → String
  | .main => "Main"
  | .test => "Test"

namespace LogEvent

def boolText (value : Bool) : String :=
  if value then "true" else "false"

def recordText (name : String) (parts : List (String × String)) : String :=
  name ++ " \x7b "
    ++ String.intercalate ", " (parts.map fun (label, value) => label ++ ": " ++ value) ++ " \x7d"

/-- A byte in hexadecimal, marked as such. -/
def byteText (byte : UInt8) : String :=
  "0x" ++ Text.hex [byte]

end LogEvent

def Watermark.text (mark : Watermark) : String :=
  LogEvent.recordText "HighWatermark"
    [("highest_level", Text.decimal mark.level.toNat),
      ("had_endorsement", LogEvent.boolText mark.hadEndorsement)]

def SigningKind.name : SigningKind → String
  | .standard => "Sign"
  | .unhashed => "SignUnsafe"
  | .withHash => "SignWithHash"

def Instruction.name : Instruction → String
  | .version => "Version"
  | .authorizeBaking => "AuthorizeBaking"
  | .publicKey display =>
      LogEvent.recordText "GetPublicKey" [("display", LogEvent.boolText display)]
  | .sign kind => "Sign(" ++ kind.name ++ ")"
  | .reset => "Reset"
  | .queryKey => "QueryAuthKey"
  | .queryMainMark => "QueryMainHwm"
  | .commit => "Git"
  | .setup => "Setup"
  | .queryAllMarks => "QueryAllHwm"
  | .deauthorize => "Deauthorize"
  | .queryKeyWithCurve => "QueryAuthKeyWithCurve"
  | .hmac => "Hmac"

namespace LogEvent

/-- Changes of the stored state and rejections are informative, refusals are warnings, and
everything else helps debugging. -/
def level : LogEvent → LogLevel
  | .rejected | .markRaised .. | .marksReset _ | .installed _ | .keyAuthorized
  | .keyRemoved => .info
  | .stateDiscarded _ | .operationRefused | .foreignKey | .levelRefused .. => .warn
  | _ => .debug

def text : LogEvent → String
  | .pendingCancelled => "pending confirmation cancelled by a new command"
  | .commandFailed status =>
      "command failed: " ++ status.name ++ " (" ++ status.category.name ++ ")"
  | .dispatched instruction p1 p2 length =>
      instruction.name ++ " p1=" ++ byteText p1 ++ " p2=" ++ byteText p2
        ++ " lc=" ++ Text.decimal length
  | .sessionAbandoned => "signing session abandoned"
  | .capacityExceeded => "message exceeds 512 bytes"
  | .tooLongToDecode length => Text.decimal length ++ " byte operation too long to decode"
  | .noDetailedReview => "no detailed review for this operation, reviewing its hash"
  | .nothingToSign => "operation group without a signable operation"
  | .signingDigest digest => "signing digest " ++ Text.hex digest.val
  | .stateDiscarded version =>
      "discarding baking state with version " ++ Text.decimal version.toNat
  | .operationRefused => "refusing operation that is not a self delegation by the baking key"
  | .foreignKey => "consensus signing request for a key other than the baking key"
  | .levelRefused level chain mark =>
      "refusing level " ++ Text.decimal level.toNat ++ " on " ++ chain.name
        ++ " chain, high-water mark is " ++ mark.text
  | .rejected => "rejected by user"
  | .markRaised chain level =>
      "high-water mark on " ++ chain.name ++ " chain now " ++ Text.decimal level.toNat
  | .marksReset level => "high-water marks reset to " ++ Text.decimal level.toNat
  | .installed mainChainId =>
      "baking set up with chain " ++ Text.hex (Bytes.ofUInt32 mainChainId)
  | .keyAuthorized => "baking key authorized"
  | .keyRemoved => "baking key removed"

end LogEvent

end TezosSigner
