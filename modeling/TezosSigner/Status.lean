/-!
# Command status

Every command ends with one status. Its word closes the reply to the host, its
name and category appear in the log.
-/

namespace TezosSigner

/-- How a command ended. -/
inductive Status where
  | ok
  | wrongParam
  | wrongLength
  | invalidInstruction
  | wrongLengthForInstruction
  | rejected
  | parseError
  | referencedDataNotFound
  | wrongValues
  | security
  | hidRequired
  | classError
  | memoryError
  /-- A failure of the keys or the storage, with their own code. -/
  | internal (code : UInt16)
deriving DecidableEq, Repr

/-- What part of the signer a status speaks about. -/
inductive StatusCategory where
  | none
  | framing
  | parse
  | authorization
  | userRejection
  | resource
  | device
deriving DecidableEq, Repr

namespace Status

def code : Status → UInt16
  | .ok => 0x9000
  | .wrongParam => 0x6B00
  | .wrongLength => 0x6C00
  | .invalidInstruction => 0x6D00
  | .wrongLengthForInstruction => 0x917E
  | .rejected => 0x6985
  | .parseError => 0x9405
  | .referencedDataNotFound => 0x6A88
  | .wrongValues => 0x6A80
  | .security => 0x6982
  | .hidRequired => 0x6983
  | .classError => 0x6E00
  | .memoryError => 0x9200
  | .internal code => code

/-- The word sent to the host. Codes that begin with the hexadecimal digit 6 or 9
are sent as they are; of any other the low eleven bits go into the range of
general failures. -/
def word (status : Status) : UInt16 :=
  let group := status.code &&& 0xF000
  if group = 0x6000 ∨ group = 0x9000 then status.code
  else 0x6800 ||| (status.code &&& 0x07FF)

def category : Status → StatusCategory
  | .ok => .none
  | .classError | .wrongLength | .invalidInstruction | .wrongParam
  | .wrongLengthForInstruction => .framing
  | .parseError | .referencedDataNotFound => .parse
  | .security | .wrongValues => .authorization
  | .rejected => .userRejection
  | .memoryError => .resource
  | .hidRequired | .internal _ => .device

end Status

end TezosSigner
