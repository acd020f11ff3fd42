import TezosSigner.Proofs.Buffer

/-!
# Filling a message buffer

A buffer is filled by appending chunks and emptied by clearing it, in any order and with any
failures. The message in it is what has been taken since it was last cleared. Every act keeps
buffer and message in agreement, even one that folds the buffer and fails after that.
-/

namespace TezosSigner.MessageBuffer

open Hash

/-- What can be done to a buffer. -/
inductive Act where
  | append (mayFold : Bool) (chunk : Bytes)
  | clear
deriving DecidableEq

def Act.perform : Act → EStateM AppendError MessageBuffer Unit
  | append mayFold chunk => MessageBuffer.append mayFold chunk
  | clear => modify MessageBuffer.clear

/-- What becomes of a message by an act that succeeds. -/
def Act.applied (message : Bytes) : Act → Bytes
  | append _ chunk => message ++ chunk
  | clear => []

/-- A buffer beside the message in it: the chunks taken since it was last cleared. -/
structure Filling where
  buffer : MessageBuffer
  message : Bytes

namespace Filling

/-- Behind an act, the buffer is as the act left it, and the message is another one only if the
act succeeded. -/
def after (filling : Filling) (act : Act) : Filling :=
  match act.perform filling.buffer with
  | .ok () buffer => ⟨buffer, act.applied filling.message⟩
  | .error _ buffer => ⟨buffer, filling.message⟩

/-- A new buffer on which acts have been performed in turn. -/
def ofActs (acts : List Act) : Filling :=
  acts.foldl after ⟨.empty, []⟩

/-- An act keeps the buffer in agreement with the message, whether it succeeds or fails. -/
theorem holds_after {filling : Filling} (hholds : filling.buffer.Holds filling.message)
    (act : Act) : (filling.after act).buffer.Holds (filling.after act).message := by
  unfold after
  cases act with
  | append mayFold chunk =>
      split
      next happend => exact hholds.append happend
      next happend => exact hholds.append_refused happend
  | clear =>
      change filling.buffer.clear.Holds []
      rw [hholds.clear]
      exact holds_empty

theorem holds_ofActs (acts : List Act) :
    (ofActs acts).buffer.Holds (ofActs acts).message := by
  induction acts using List.reverseRecOn with
  | nil => exact holds_empty
  | append_singleton acts act ih =>
      rw [ofActs, List.foldl_concat]
      exact holds_after ih act

/-- Chunks of limited length add up to no more than their number allows. -/
theorem length_message_le {limit : Nat} {acts : List Act}
    (hchunks : ∀ mayFold chunk, .append mayFold chunk ∈ acts → chunk.length ≤ limit) :
    (ofActs acts).message.length ≤ limit * acts.length := by
  induction acts using List.reverseRecOn with
  | nil => exact Nat.zero_le _
  | append_singleton acts act ih =>
      have hbefore := ih fun mayFold chunk hact =>
        hchunks mayFold chunk (List.mem_append_left _ hact)
      have hadded : (act.applied (ofActs acts).message).length ≤
          (ofActs acts).message.length + limit := by
        cases act with
        | append mayFold chunk =>
            rw [Act.applied, List.length_append]
            exact Nat.add_le_add_left (hchunks mayFold chunk List.mem_concat_self) _
        | clear => exact Nat.zero_le _
      rw [ofActs, List.foldl_concat, ← ofActs, List.length_append, List.length_singleton,
        Nat.mul_succ]
      unfold after
      split
      next => exact hadded.trans (Nat.add_le_add_right hbefore _)
      next => exact hbefore.trans (Nat.le_add_right _ _)

/-- The chunks that frames bring are counted in a word of 32 bits without wrapping, as long as
they are fewer than two to the twenty-fourth. -/
theorem total_lt_word {acts : List Act}
    (hchunks : ∀ mayFold chunk, .append mayFold chunk ∈ acts → chunk.length ≤ 230)
    (hcount : acts.length < 2 ^ 24) : (ofActs acts).buffer.total < 2 ^ 32 := by
  rw [(holds_ofActs acts).total]
  have hlength := length_message_le hchunks
  omega

end Filling

/-- Whatever has been done to a new buffer, the bytes in use fit into the memory and are the end of
the message, with zeros behind them. What has been dropped in front of them makes complete hash
blocks, and the buffer is folded if that is anything at all; else the message is given back whole.
Length, first byte and digest are those of the message. A chunk of a message that has to be kept
whole is refused just if the memory has no room for it, which changes nothing, and a chunk of at
most 230 bytes is never refused where the message may be dropped in part. -/
theorem buffer_represents (acts : List Act) :
    let buffer := (Filling.ofActs acts).buffer
    let message := (Filling.ofActs acts).message
    buffer.size ≤ capacity ∧ buffer.memory.length = capacity ∧
    (∃ dropped, message = dropped ++ buffer.memory.take buffer.size ∧
      Blake2b.blockSize ∣ dropped.length ∧ (buffer.folded = true ↔ dropped ≠ [])) ∧
    buffer.memory.drop buffer.size = List.replicate (capacity - buffer.size) 0 ∧
    buffer.total = message.length ∧
    buffer.message? = (if buffer.folded then none else some message) ∧
    buffer.first = message.head? ∧
    buffer.digest = blake2b256 message ∧
    ∀ chunk : Bytes,
      ((∃ cause after, append false chunk buffer = .error cause after) ↔
        capacity < buffer.size + chunk.length) ∧
      (∀ cause after, append false chunk buffer = .error cause after → after = buffer) ∧
      (chunk.length ≤ 230 → ∃ after, append true chunk buffer = .ok () after) := by
  intro buffer message
  have hholds : buffer.Holds message := Filling.holds_ofActs acts
  refine ⟨hholds.size_le_capacity, hholds.length_memory, ?_, ?_, hholds.total, hholds.message?_eq,
    hholds.first, hholds.digest_eq, fun chunk => ⟨append_kept_refused_iff, ?_, ?_⟩⟩
  · have hlength := hholds.size_le_length
    have hcount : (message.take (message.length - buffer.size)).length =
        message.length - buffer.size := List.length_take_of_le (Nat.sub_le _ _)
    refine ⟨message.take (message.length - buffer.size), ?_, ?_, ?_⟩
    · rw [hholds.take_memory, List.take_append_drop]
    · rw [hcount]
      exact Nat.dvd_of_mod_eq_zero hholds.dropped
    · rw [hholds.folded, decide_eq_true_iff, ne_eq, ← List.length_eq_zero_iff, hcount]
      omega
  · exact hholds.drop_memory 0
  · intro cause after happend
    exact eq_of_append_kept_refused happend
  · intro hchunk
    have hroom : 230 + Blake2b.blockSize ≤ capacity := by decide
    exact exists_append_folding ((Nat.add_le_add_right hchunk _).trans hroom)

end TezosSigner.MessageBuffer
