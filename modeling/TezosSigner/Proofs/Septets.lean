import TezosSigner.Proofs.RoundTrip

/-!
# Numbers of any length

A number on the wire ends with the first byte whose top bit is clear, and its digits are the low
seven bits of the bytes up to there. However many they are, the number is read as their sum in
base 128 modulo 2 ^ 64, and what comes behind it is left unread. Where no byte has a clear top
bit there is no number, and nothing is left. A number that was written is read back.
-/

namespace TezosSigner

namespace Bytes

/-- The low seven bits of the bytes are digits in base 128. -/
theorem septets_eq_sum (bytes : Bytes) :
    bytes.septets = ∑ i : Fin bytes.length, bytes[i].toNat % 128 * 128 ^ (i : ℕ) := by
  induction bytes with
  | nil => rfl
  | cons byte bytes ih =>
      have hsum := Fin.sum_univ_succ fun i : Fin (bytes.length + 1) =>
        (byte :: bytes)[i].toNat % 128 * 128 ^ (i : ℕ)
      calc septets (byte :: bytes)
          = byte.toNat % 128 + 128 * ∑ i : Fin bytes.length,
              bytes[i].toNat % 128 * 128 ^ (i : ℕ) := by rw [septets, ih]
        _ = byte.toNat % 128 * 128 ^ 0 + ∑ i : Fin bytes.length,
              bytes[i].toNat % 128 * 128 ^ ((i : ℕ) + 1) := by
            rw [Finset.mul_sum, pow_zero, mul_one]
            congr 1
            exact Finset.sum_congr rfl fun i _ => by ring
        _ = _ := hsum.symm

theorem terminated_concat {front : Bytes} {last : UInt8} (hfront : ∀ byte ∈ front, ¬ byte < 0x80)
    (hlast : last < 0x80) : (front ++ [last]).Terminated := by
  induction front with
  | nil => exact .last hlast
  | cons byte front ih =>
      obtain ⟨hbyte, hfront⟩ := List.forall_mem_cons.mp hfront
      exact .more hbyte (ih hfront)

theorem splitTerminated?_eq_none_iff {bytes : Bytes} :
    bytes.splitTerminated? = none ↔ ∀ byte ∈ bytes, ¬ byte < 0x80 := by
  induction bytes with
  | nil => exact iff_of_true rfl (List.forall_mem_nil _)
  | cons byte bytes ih =>
      rw [splitTerminated?, List.forall_mem_cons, ← ih]
      split <;> simp [*]

end Bytes

namespace Decoder

open Bytes

theorem exists_varint_iff {unread : Bytes} :
    (∃ value rest, varint unread = .ok value rest) ↔ ∃ byte ∈ unread, byte < 0x80 := by
  have hnone := @splitTerminated?_eq_none_iff unread
  rw [varint_eq]
  cases hsplit : unread.splitTerminated? with
  | none =>
      refine iff_of_false ?_ ?_
      · rintro ⟨_, _, ⟨⟩⟩
      · rintro ⟨byte, hbyte, hclear⟩
        exact hnone.mp hsplit byte hbyte hclear
  | some cut =>
      refine iff_of_true ⟨_, _, rfl⟩ ?_
      by_contra hset
      rw [hnone.mpr fun byte hbyte hclear => hset ⟨byte, hbyte, hclear⟩] at hsplit
      cases hsplit

/-- Reading a number succeeds exactly if some unread byte has its top bit clear. Then the number
ends with the first such byte, its value is the sum of its digits modulo 2 ^ 64, and just the
bytes behind it are left unread; otherwise the bytes are refused as malformed with none left
unread. Every 64-bit number is read back as it was written, whatever comes behind it. -/
theorem varint_exact :
    (∀ unread : Bytes, (∃ value rest, varint unread = .ok value rest) ↔
      ∃ byte ∈ unread, byte &&& 0x80 = 0) ∧
    (∀ (front : Bytes) (last : UInt8) (rest : Bytes), (∀ byte ∈ front, byte &&& 0x80 ≠ 0) →
      last &&& 0x80 = 0 →
      let group := front ++ [last]
      ∃ value, varint (group ++ rest) = .ok value rest ∧
        value.toNat = (∑ i : Fin group.length, group[i].toNat % 128 * 128 ^ (i : ℕ)) % 2 ^ 64) ∧
    (∀ unread : Bytes, (∀ byte ∈ unread, byte &&& 0x80 ≠ 0) →
      ∃ cause, varint unread = .error cause [] ∧ cause.status = .parseError) ∧
    ∀ (value : UInt64) (tail : Bytes), varint (Wire.varint value ++ tail) = .ok value tail := by
  simp only [ne_eq, and_top_eq_zero_iff]
  refine ⟨fun unread => ?_, fun front last rest hfront hlast => ?_, fun unread hunread => ?_,
    fun value tail => ?_⟩
  · exact exists_varint_iff
  · have hgroup := terminated_concat hfront hlast
    refine ⟨UInt64.ofNat (front ++ [last]).septets, ?_, ?_⟩
    · rw [varint_eq, splitTerminated?_append hgroup]
    · rw [UInt64.toNat_ofNat', septets_eq_sum]
  · refine ⟨.malformed, ?_, rfl⟩
    rw [varint_eq, splitTerminated?_eq_none_iff.mpr hunread]
  · obtain ⟨hterminated, hvalue⟩ := Wire.varint_reads value
    rw [varint_eq, splitTerminated?_append hterminated]
    dsimp only
    rw [hvalue, UInt64.ofNat_toNat]

/-- Of a number that is too long for a word, only the low bits are kept. -/
example : varint (List.replicate 11 0x80 ++ [0x01, 0xAA]) = .ok 0 [0xAA] := rfl

end Decoder

end TezosSigner
