import TezosSigner.Hash.Blake2b

/-!
# The message buffer

A message arrives in chunks. Every chunk is hashed as it comes, so the digest
does not depend on where the message was cut. The bytes are also kept in a memory
of fixed size as long as they fit. A message that need not be kept whole may
outgrow the memory: its complete hash blocks are then dropped, and only its digest,
its length and its first byte can still be told.
-/

namespace TezosSigner

open Hash

/-- A message under way. -/
structure MessageBuffer where
  /-- The memory for the message, zero wherever the message is not. -/
  memory : Bytes
  /-- How many bytes of memory are in use. -/
  size : Nat
  /-- The length of the message so far. A word of 32 bits has room for it until some sixteen
  million chunks have come; nothing is decided by it, it is only logged. -/
  total : Nat
  /-- The first byte of the message. -/
  first : Option UInt8
  /-- Whether part of the message has been dropped. -/
  folded : Bool
  hash : Blake2b.State 32
deriving DecidableEq

inductive AppendError where
  /-- The message has to be kept whole and does not fit any more. -/
  | messageTooLong
  /-- The chunk does not fit even behind a partial block. -/
  | chunkTooLong
deriving DecidableEq, Repr

namespace MessageBuffer

def capacity : Nat := 512

def empty : MessageBuffer where
  memory := List.replicate capacity 0
  size := 0
  total := 0
  first := none
  folded := false
  hash := .empty

def fits (buffer : MessageBuffer) (chunk : Bytes) : Bool :=
  buffer.size + chunk.length ≤ capacity

/-- Drops the complete hash blocks: the partial block behind them moves to the front, and
zeros fill the place that it leaves. -/
def fold (buffer : MessageBuffer) : MessageBuffer :=
  let kept := buffer.size % Blake2b.blockSize
  -- Without a complete block there is nothing to be dropped.
  let dropped := buffer.size - kept
  if dropped = 0 then buffer
  else
    let partialBlock := (buffer.memory.drop dropped).take kept
    { buffer with
      memory :=
        (buffer.memory.overwrite 0 partialBlock).overwrite kept (List.replicate dropped 0)
      size := kept
      folded := true }

def write (buffer : MessageBuffer) (chunk : Bytes) : MessageBuffer :=
  { buffer with
    memory := buffer.memory.overwrite buffer.size chunk
    size := buffer.size + chunk.length
    total := buffer.total + chunk.length
    first := buffer.first <|> chunk.head?
    hash := buffer.hash.absorb chunk }

/-- Appends a chunk. When it does not fit, a message that may be dropped in part is folded
first, which stays so even if the chunk is refused after all. -/
def append (mayFold : Bool) (chunk : Bytes) : EStateM AppendError MessageBuffer Unit := do
  if !(← get).fits chunk then
    if !mayFold then throw .messageTooLong
    modify fold
    if !(← get).fits chunk then throw .chunkTooLong
  modify fun buffer => buffer.write chunk

/-- The whole message, unless part of it has been dropped. -/
def message? (buffer : MessageBuffer) : Option Bytes :=
  if buffer.folded then none else some (buffer.memory.take buffer.size)

def digest (buffer : MessageBuffer) : Digest :=
  buffer.hash.digest Blake2b.size_le

def clear (buffer : MessageBuffer) : MessageBuffer :=
  { empty with memory := buffer.memory.map fun _ => 0 }

end MessageBuffer

end TezosSigner
