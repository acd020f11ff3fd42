import Mathlib
import TezosSigner.Signing.Buffer

/-!
# What a message buffer holds

A buffer is compared with the message that was appended to it. However the
message was cut, the bytes in use are its last ones, everything behind them is
zero, and digest, length and first byte are those of the whole message. Only
complete hash blocks are ever dropped, and only for a message that does not fit.
-/

namespace TezosSigner.MessageBuffer

open Hash

theorem fits_iff {buffer : MessageBuffer} {chunk : Bytes} :
    buffer.fits chunk = true ↔ buffer.size + chunk.length ≤ capacity :=
  decide_eq_true_iff

theorem size_fold (buffer : MessageBuffer) :
    buffer.fold.size = buffer.size % Blake2b.blockSize := by
  have hmod : buffer.size % Blake2b.blockSize ≤ buffer.size := Nat.mod_le _ _
  unfold MessageBuffer.fold
  dsimp only
  split
  next hnothing => omega
  next => rfl

/-- A buffer agrees with a message: the part still kept is the end of the
message, and what is remembered of the rest is true. -/
structure Holds (buffer : MessageBuffer) (message : Bytes) : Prop where
  size_le_length : buffer.size ≤ message.length
  size_le_capacity : buffer.size ≤ capacity
  dropped : (message.length - buffer.size) % Blake2b.blockSize = 0
  memory : buffer.memory = message.drop (message.length - buffer.size) ++
    List.replicate (capacity - buffer.size) 0
  total : buffer.total = message.length
  first : buffer.first = message.head?
  folded : buffer.folded = decide (buffer.size < message.length)
  hash : buffer.hash = Blake2b.State.empty.absorb message

theorem holds_empty : empty.Holds [] where
  size_le_length := Nat.le_refl 0
  size_le_capacity := Nat.zero_le _
  dropped := rfl
  memory := rfl
  total := rfl
  first := rfl
  folded := rfl
  hash := rfl

namespace Holds

variable {buffer : MessageBuffer} {message chunk : Bytes}

theorem length_memory (hbuffer : buffer.Holds message) : buffer.memory.length = capacity := by
  have hcapacity := hbuffer.size_le_capacity
  have hlength := hbuffer.size_le_length
  rw [hbuffer.memory]
  simp only [List.length_append, List.length_drop, List.length_replicate]
  omega

theorem length_kept (hbuffer : buffer.Holds message) :
    (message.drop (message.length - buffer.size)).length = buffer.size := by
  have hlength := hbuffer.size_le_length
  rw [List.length_drop]
  omega

/-- Memory behind the bytes in use holds nothing. -/
theorem drop_memory (hbuffer : buffer.Holds message) (count : Nat) :
    buffer.memory.drop (buffer.size + count) =
      List.replicate (capacity - (buffer.size + count)) 0 := by
  rw [hbuffer.memory, List.drop_append, List.drop_eq_nil_of_le (by rw [hbuffer.length_kept]; omega),
    List.nil_append, List.drop_replicate, hbuffer.length_kept]
  congr 1
  omega

theorem take_memory (hbuffer : buffer.Holds message) :
    buffer.memory.take buffer.size = message.drop (message.length - buffer.size) := by
  rw [hbuffer.memory, List.take_left' hbuffer.length_kept]

/-- The digest is that of the whole message, dropped or not. -/
theorem digest_eq (hbuffer : buffer.Holds message) : buffer.digest = blake2b256 message := by
  rw [digest, hbuffer.hash]
  rfl

/-- The message can be given back exactly when none of it has been dropped. -/
theorem message?_eq (hbuffer : buffer.Holds message) :
    buffer.message? = if buffer.folded then none else some message := by
  unfold message?
  split
  next => rfl
  next hfolded =>
    have hkept : buffer.size = message.length := by
      have hlength := hbuffer.size_le_length
      rw [hbuffer.folded, decide_eq_true_eq] at hfolded
      omega
    rw [hbuffer.take_memory, hkept, Nat.sub_self, List.drop_zero]

theorem write (hbuffer : buffer.Holds message) (hfits : buffer.fits chunk = true) :
    (buffer.write chunk).Holds (message ++ chunk) := by
  have hlength := hbuffer.size_le_length
  have hroom := fits_iff.mp hfits
  have hdropped : (message ++ chunk).length - (buffer.size + chunk.length) =
      message.length - buffer.size := by
    rw [List.length_append]
    omega
  refine ⟨?_, hroom, ?_, ?_, ?_, ?_, ?_, ?_⟩
  · rw [List.length_append]
    exact Nat.add_le_add_right hlength _
  · change ((message ++ chunk).length - (buffer.size + chunk.length)) % _ = 0
    rw [hdropped]
    exact hbuffer.dropped
  · change buffer.memory.overwrite buffer.size chunk =
      (message ++ chunk).drop ((message ++ chunk).length - (buffer.size + chunk.length)) ++ _
    rw [hdropped, List.drop_append_of_le_length (Nat.sub_le _ _), Bytes.overwrite,
      hbuffer.take_memory, hbuffer.drop_memory]
    rfl
  · change buffer.total + chunk.length = _
    rw [hbuffer.total, List.length_append]
  · change (buffer.first <|> chunk.head?) = _
    rw [hbuffer.first]
    cases message <;> rfl
  · change buffer.folded = decide (buffer.size + chunk.length < (message ++ chunk).length)
    rw [hbuffer.folded, List.length_append]
    congr 1
    exact propext (Nat.add_lt_add_iff_right).symm
  · change buffer.hash.absorb chunk = _
    rw [hbuffer.hash, Blake2b.State.absorb_append]

/-- Dropping complete blocks loses nothing that is told about the message. -/
theorem fold (hbuffer : buffer.Holds message) : buffer.fold.Holds message := by
  unfold MessageBuffer.fold
  dsimp only
  split
  next => exact hbuffer
  next hdrop =>
    have hlength := hbuffer.size_le_length
    have hcapacity := hbuffer.size_le_capacity
    have hmod : buffer.size % Blake2b.blockSize ≤ buffer.size := Nat.mod_le _ _
    have hblocks := Nat.div_add_mod buffer.size Blake2b.blockSize
    have hdropped := hbuffer.dropped
    generalize hkept : buffer.size % Blake2b.blockSize = kept at *
    -- The partial block is the end of the message, however much was dropped before.
    have hpartial : (buffer.memory.drop (buffer.size - kept)).take kept =
        message.drop (message.length - kept) := by
      rw [hbuffer.memory, List.drop_append_of_le_length (by rw [hbuffer.length_kept]; omega),
        List.drop_drop, List.take_append_of_le_length (by rw [List.length_drop]; omega),
        List.take_of_length_le (by rw [List.length_drop]; omega)]
      congr 1
      omega
    have hblock : (message.drop (message.length - kept)).length = kept := by
      rw [List.length_drop]
      omega
    refine ⟨?_, ?_, ?_, ?_, hbuffer.total, hbuffer.first, ?_, hbuffer.hash⟩
    · exact Nat.le_trans hmod hlength
    · exact Nat.le_trans hmod hcapacity
    · have hsplit : message.length - kept =
          message.length - buffer.size +
            Blake2b.blockSize * (buffer.size / Blake2b.blockSize) := by
        omega
      change (message.length - kept) % _ = 0
      rw [hsplit, Nat.add_mul_mod_self_left]
      exact hdropped
    -- Zeros fill the place that the blocks leave, and behind it memory was zero already.
    · have hinner : buffer.memory.overwrite 0 (message.drop (message.length - kept)) =
          message.drop (message.length - kept) ++ buffer.memory.drop kept := by
        rw [Bytes.overwrite, List.take_zero, List.nil_append, Nat.zero_add, hblock]
      have hrest := hbuffer.drop_memory 0
      rw [Nat.add_zero] at hrest
      change (buffer.memory.overwrite 0 _).overwrite kept _ =
        _ ++ List.replicate (capacity - kept) 0
      rw [hpartial, hinner, Bytes.overwrite, List.take_left' hblock, List.length_replicate,
        ← List.drop_drop, List.drop_left' hblock, List.drop_drop, Nat.add_sub_cancel' hmod, hrest,
        List.append_assoc, List.replicate_append_replicate]
      congr 2
      omega
    · exact (decide_eq_true (by change kept < message.length; omega)).symm

/-- Clearing a buffer leaves nothing of the message. -/
theorem clear (hbuffer : buffer.Holds message) : buffer.clear = empty := by
  unfold MessageBuffer.clear
  rw [List.map_const', hbuffer.length_memory]
  rfl

end Holds

/-- How a chunk is appended: as it is when it fits, else behind the partial block if the
message may be dropped in part and the chunk fits there. -/
theorem append_eq (mayFold : Bool) (chunk : Bytes) (buffer : MessageBuffer) :
    append mayFold chunk buffer =
      if buffer.fits chunk then .ok () (buffer.write chunk)
      else if mayFold then
        if buffer.fold.fits chunk then .ok () (buffer.fold.write chunk)
        else .error .chunkTooLong buffer.fold
      else .error .messageTooLong buffer := by
  cases hfits : buffer.fits chunk with
  | true => simp [append, bind, EStateM.bind, get, getThe, MonadStateOf.get, EStateM.get, hfits,
      modify, modifyGet, MonadStateOf.modifyGet, EStateM.modifyGet]
  | false =>
      cases mayFold with
      | true =>
          cases hfold : buffer.fold.fits chunk <;>
          simp [append, bind, EStateM.bind, get, getThe, MonadStateOf.get, EStateM.get, hfits,
            hfold, modify, modifyGet, MonadStateOf.modifyGet, EStateM.modifyGet, throw, throwThe,
            MonadExceptOf.throw, EStateM.throw]
      | false =>
          simp [append, bind, EStateM.bind, get, getThe, MonadStateOf.get, EStateM.get, hfits,
            throw, throwThe, MonadExceptOf.throw, EStateM.throw]

section Append

variable {buffer after : MessageBuffer} {message chunk : Bytes} {mayFold : Bool}
  {cause : AppendError}

/-- A message that has to be kept whole takes no chunk that the memory has no room for. -/
theorem append_kept_refused_iff :
    (∃ cause after, append false chunk buffer = .error cause after) ↔
      capacity < buffer.size + chunk.length := by
  rw [append_eq, ← Nat.not_le, ← fits_iff]
  split
  next hfits => simp [hfits]
  next hfull => simp [hfull]

theorem eq_of_append_kept_refused
    (happend : append false chunk buffer = .error cause after) : after = buffer := by
  rw [append_eq, if_neg Bool.false_ne_true] at happend
  split at happend
  next => cases happend
  next =>
    cases happend
    rfl

/-- Where a message may be dropped in part, all that is in the way of a chunk is a partial block. -/
theorem append_folded_refused_iff :
    (∃ cause after, append true chunk buffer = .error cause after) ↔
      capacity < buffer.size % Blake2b.blockSize + chunk.length := by
  have hmod : buffer.size % Blake2b.blockSize ≤ buffer.size := Nat.mod_le _ _
  have hfold : buffer.fold.fits chunk = true ↔
      buffer.size % Blake2b.blockSize + chunk.length ≤ capacity := by
    rw [fits_iff, size_fold]
  rw [append_eq, if_pos rfl]
  split
  next hfits =>
    have hroom := fits_iff.mp hfits
    refine iff_of_false (by simp) ?_
    omega
  next =>
    rw [← Nat.not_le, ← hfold]
    split
    next hfits => simp [hfits]
    next hfull => simp [hfull]

/-- A partial block leaves room for any chunk that a frame can carry. -/
theorem exists_append_folding (hchunk : chunk.length + Blake2b.blockSize ≤ capacity) :
    ∃ after, append true chunk buffer = .ok () after := by
  have hpartial : buffer.size % Blake2b.blockSize < Blake2b.blockSize := Nat.mod_lt _ (by decide)
  cases happend : append true chunk buffer with
  | ok _ after => exact ⟨after, rfl⟩
  | error cause after =>
      have hfull := append_folded_refused_iff.mp ⟨cause, after, happend⟩
      omega

/-- A chunk that is taken stands at the end of the message. -/
theorem Holds.append (hbuffer : buffer.Holds message)
    (happend : MessageBuffer.append mayFold chunk buffer = .ok () after) :
    after.Holds (message ++ chunk) := by
  rw [append_eq] at happend
  split at happend
  next hfits =>
    cases happend
    exact hbuffer.write hfits
  next =>
    split at happend
    next =>
      split at happend
      next hfold =>
        cases happend
        exact hbuffer.fold.write hfold
      next => cases happend
    next => cases happend

/-- A chunk that is refused leaves the message as it was. -/
theorem Holds.append_refused (hbuffer : buffer.Holds message)
    (happend : MessageBuffer.append mayFold chunk buffer = .error cause after) :
    after.Holds message := by
  rw [append_eq] at happend
  split at happend
  next => cases happend
  next =>
    split at happend
    next =>
      split at happend
      next => cases happend
      next =>
        cases happend
        exact hbuffer.fold
    next =>
      cases happend
      exact hbuffer

/-- A buffer is folded only for a chunk that does not fit as it is. -/
theorem folded_of_append (happend : append mayFold chunk buffer = .ok () after)
    (hfolded : after.folded = true) :
    buffer.folded = true ∨ capacity < buffer.size + chunk.length := by
  rw [append_eq] at happend
  split at happend
  next =>
    cases happend
    exact .inl hfolded
  next hfull => exact .inr (Nat.lt_of_not_le (fits_iff.not.mp hfull))

end Append

/-- A buffer holds a message and has dropped part of it only if it had to. -/
structure Collects (buffer : MessageBuffer) (message : Bytes) : Prop extends
    Holds buffer message where
  needed : buffer.folded = true → capacity < message.length

theorem collects_empty : empty.Collects [] := ⟨holds_empty, nofun⟩

namespace Collects

variable {buffer after : MessageBuffer} {message chunk : Bytes}

/-- A message is given back exactly if it fits into the memory. -/
theorem message?_eq (hbuffer : buffer.Collects message) :
    buffer.message? = if message.length ≤ capacity then some message else none := by
  have hcapacity := hbuffer.size_le_capacity
  have hlength := hbuffer.size_le_length
  have hneeded := hbuffer.needed
  rw [hbuffer.toHolds.message?_eq]
  rw [hbuffer.folded] at hneeded ⊢
  by_cases hdropped : buffer.size < message.length
  · have hlong := hneeded (decide_eq_true hdropped)
    rw [if_pos (decide_eq_true hdropped), if_neg (by omega)]
  · rw [if_neg (by simpa using hdropped), if_pos (by omega)]

/-- A chunk that is taken ends up at the end of the message. -/
theorem append (hbuffer : buffer.Collects message) {mayFold : Bool}
    (happend : append mayFold chunk buffer = .ok () after) : after.Collects (message ++ chunk) := by
  have hlength := hbuffer.size_le_length
  refine ⟨hbuffer.toHolds.append happend, fun hfolded => ?_⟩
  rw [List.length_append]
  rcases folded_of_append happend hfolded with hbefore | hfull
  · have hlong := hbuffer.needed hbefore
    omega
  · -- What did not fit makes the message longer than the memory.
    omega

/-- A message that fits into the memory is never refused. -/
theorem append_of_fits (hbuffer : buffer.Collects message) (mayFold : Bool)
    (hroom : (message ++ chunk).length ≤ capacity) :
    MessageBuffer.append mayFold chunk buffer = .ok () (buffer.write chunk) := by
  have hlength := hbuffer.size_le_length
  have hfits : buffer.fits chunk = true := by
    rw [List.length_append] at hroom
    exact fits_iff.mpr (by omega)
  rw [append_eq, if_pos hfits]

/-- A message that fits into the memory is kept whole. -/
theorem size_eq (hbuffer : buffer.Collects message) (hfits : message.length ≤ capacity) :
    buffer.size = message.length := by
  have hlength := hbuffer.size_le_length
  have hneeded := hbuffer.needed
  rw [hbuffer.folded, decide_eq_true_iff] at hneeded
  omega

/-- One buffer only collects a message that fits into the memory. -/
theorem eq_of_fits {other : MessageBuffer} (hbuffer : buffer.Collects message)
    (hother : other.Collects message) (hfits : message.length ≤ capacity) : other = buffer := by
  have hmemory := hbuffer.memory
  have hmemory' := hother.memory
  have hfolded := hbuffer.folded
  have hfolded' := hother.folded
  rw [hbuffer.size_eq hfits] at hmemory hfolded
  rw [hother.size_eq hfits] at hmemory' hfolded'
  obtain ⟨_, size, _, _, _, _⟩ := buffer
  obtain ⟨_, size', _, _, _, _⟩ := other
  have hsize : size' = size := (hother.size_eq hfits).trans (hbuffer.size_eq hfits).symm
  rw [MessageBuffer.mk.injEq]
  exact ⟨hmemory'.trans hmemory.symm, hsize, hother.total.trans hbuffer.total.symm,
    hother.first.trans hbuffer.first.symm, hfolded'.trans hfolded.symm,
    hother.hash.trans hbuffer.hash.symm⟩

theorem append_folding (hbuffer : buffer.Collects message)
    (hchunk : chunk.length + Blake2b.blockSize ≤ capacity) :
    ∃ after, MessageBuffer.append true chunk buffer = .ok () after ∧
      after.Collects (message ++ chunk) := by
  obtain ⟨after, happend⟩ := exists_append_folding hchunk
  exact ⟨after, happend, hbuffer.append happend⟩

end Collects

/-- The buffer of a message that fits into the memory, however it was cut. -/
def whole (message : Bytes) : MessageBuffer :=
  empty.write message

section Whole

variable {message chunk : Bytes}

theorem collects_whole (hfits : message.length ≤ capacity) : (whole message).Collects message :=
  collects_empty.append (collects_empty.append_of_fits false hfits)

theorem whole_nil : whole [] = empty :=
  collects_empty.eq_of_fits (collects_whole (Nat.zero_le _)) (Nat.zero_le _)

/-- A message that has to be kept whole grows as far as the memory goes. -/
theorem append_whole (hmessage : message.length ≤ capacity) :
    append false chunk (whole message) =
      if (message ++ chunk).length ≤ capacity then .ok () (whole (message ++ chunk))
      else .error .messageTooLong (whole message) := by
  have hcollects := collects_whole hmessage
  split
  next hfits =>
    have happend := hcollects.append_of_fits false hfits
    rw [happend, (collects_whole hfits).eq_of_fits (hcollects.append happend) hfits]
  next hlong =>
    have hfull : (whole message).fits chunk = false := by
      rw [List.length_append, ← hcollects.size_eq hmessage] at hlong
      exact decide_eq_false hlong
    rw [append_eq, hfull, if_neg Bool.false_ne_true, if_neg Bool.false_ne_true]

end Whole

end TezosSigner.MessageBuffer
