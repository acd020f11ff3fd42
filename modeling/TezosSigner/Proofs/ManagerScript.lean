import Mathlib
import TezosSigner.Operation.Writer
import TezosSigner.Proofs.Literal
import TezosSigner.Proofs.Reading

/-!
# Which manager scripts are understood

The call of a manager contract is a literal byte string but for the account and the
amount in it. The forms of this module spell the four scripts out, byte by byte; the
decoder of calls reads exactly these.
-/

namespace TezosSigner.Script

open Decoder Hash

section Forms

/-- An integer literal for an amount: at most ten bytes, of which the first has a clear sign
bit and six bits of the number, for a number below 2 to the 64. Groups of zeros at its end are
no fault. -/
structure AmountForm (amount : UInt64) (digits : Bytes) : Prop where
  terminated : digits.Terminated
  length_le : digits.length ≤ 10
  positive : digits.headD 0 &&& 0x40 = 0
  value_eq : (digits.headD 0).toNat % 64 + 64 * Nat.ofDigits 128 (Bytes.sevenBits digits.tail) =
    amount.toNat

/-- The end of a transfer: push an amount, push unit, transfer. -/
inductive TransferForm (amount : UInt64) : Bytes → Prop
  | mk {digits : Bytes} (hdigits : AmountForm amount digits) :
      TransferForm amount ([0x07, 0x43, 0x03, 0x6A, 0x00] ++ digits ++ [0x03, 0x4F, 0x03, 0x4D])

/-- What the four scripts do between their common beginning and their common end. -/
inductive ActionForm : ManagerAction → Bytes → Prop
  | setDelegate (curve : Curve) (hash : KeyHash) :
      ActionForm (.setDelegate (some (.implicit curve hash)))
        ([0x07, 0x43, 0x03, 0x5D, 0x0A, 0x00, 0x00, 0x00, 0x15, curve.code] ++ hash.val
          ++ [0x03, 0x46, 0x03, 0x4E])
  | withdrawDelegate :
      ActionForm (.setDelegate none) [0x05, 0x3E, 0x03, 0x5D, 0x03, 0x4E]
  | transferToImplicit (curve : Curve) (hash : KeyHash) {amount : UInt64} {tail : Bytes}
      (htail : TransferForm amount tail) :
      ActionForm (.transfer (.implicit curve hash) amount)
        ([0x07, 0x43, 0x03, 0x5D, 0x0A, 0x00, 0x00, 0x00, 0x15, curve.code] ++ hash.val
          ++ [0x03, 0x1E] ++ tail)
  | transferToOriginated (hash : KeyHash) {amount : UInt64} {tail : Bytes}
      (htail : TransferForm amount tail) :
      ActionForm (.transfer (.originated hash) amount)
        ([0x07, 0x43, 0x03, 0x6E, 0x0A, 0x00, 0x00, 0x00, 0x16, 0x01] ++ hash.val ++ [0x00]
          ++ [0x05, 0x55, 0x03, 0x6C,
            0x02, 0x00, 0x00, 0x00, 0x15, 0x07, 0x2F, 0x02, 0x00, 0x00, 0x00, 0x09, 0x02,
            0x00, 0x00, 0x00, 0x04, 0x03, 0x4F, 0x03, 0x27, 0x02, 0x00, 0x00, 0x00, 0x00]
          ++ tail)

/-- A whole script: what it does, behind the dropped argument and the empty list of
operations, and in front of the operation that is put into the list. -/
inductive BodyForm (action : ManagerAction) : Bytes → Prop
  | mk {middle : Bytes} (hmiddle : ActionForm action middle) :
      BodyForm action ([0x03, 0x20, 0x05, 0x3D, 0x03, 0x6D] ++ middle ++ [0x03, 0x1B])

/-- The parameters of a call: the entrypoint, and the script as a sequence; both the sequence
and what is in it are preceded by their lengths. -/
inductive CallForm (action : ManagerAction) : Bytes → Prop
  | mk {body : Bytes} (hbody : BodyForm action body) :
      CallForm action (0x02 :: Wire.framed (0x02 :: Wire.framed body))

end Forms

section Reading

variable {bytes rest : Bytes}

theorem accepts_primitives (expected : List Primitive) {value : Unit} :
    Accepts (primitives expected) bytes value rest ↔
      bytes = expected.flatMap (fun primitive => Bytes.ofUInt16 primitive.word) ++ rest := by
  induction expected generalizing bytes with
  | nil => simp [primitives]
  | cons primitive expected ih =>
      simp only [primitives, accepts_bind, accepts_uint16, accepts_require, ih, beq_iff_eq]
      constructor
      · rintro ⟨_, _, rfl, _, _, ⟨rfl, rfl⟩, rfl⟩
        exact (List.append_assoc _ _ _).symm
      · rintro rfl
        exact ⟨_, _, List.append_assoc _ _ _, (), _, ⟨rfl, rfl⟩, rfl⟩

theorem accepts_bytesLiteral {α : Type} {size : Nat} (hsize : size < 2 ^ 32) {decoder : Decoder α}
    {value : α} :
    Accepts (bytesLiteral size decoder) bytes value rest ↔
      ∃ inner, inner.length = size ∧ bytes = 0x0A :: (Bytes.bigEndian 4 size ++ inner ++ rest) ∧
        Accepts decoder inner value [] := by
  simp only [bytesLiteral, accepts_bind, accepts_literal, accepts_uint32, accepts_require,
    accepts_within, beq_iff_eq]
  constructor
  · rintro ⟨_, _, rfl, word, _, rfl, _, _, ⟨rfl, rfl⟩, inner, hlength, rfl, hinner⟩
    refine ⟨inner, hlength, ?_, hinner⟩
    rw [List.append_assoc]
    rfl
  · rintro ⟨inner, hlength, rfl, hinner⟩
    have hword : (UInt32.ofNat size).toNat = size := UInt32.toNat_ofNat_of_lt' hsize
    refine ⟨(), Bytes.bigEndian 4 size ++ inner ++ rest, rfl, UInt32.ofNat size, _, ?_, (), _,
      ⟨hword, rfl⟩, inner, hlength, rfl, hinner⟩
    rw [Bytes.ofUInt32, hword, List.append_assoc]

theorem integerValue_eq (digits : Bytes) :
    integerValue digits =
      (digits.headD 0).toNat % 64 + 64 * Nat.ofDigits 128 (Bytes.sevenBits digits.tail) := by
  cases digits with
  | nil => rfl
  | cons first rest => rw [integerValue, Bytes.septets_eq_ofDigits, List.headD_cons, List.tail_cons]

theorem reads_amount : Reads amount fun value piece =>
    ∃ digits, AmountForm value digits ∧ piece = 0x00 :: digits := by
  intro bytes rest value
  constructor
  · intro hread
    obtain ⟨_, behind, hmark, _⟩ := (accepts_bind _ _).mp hread
    obtain rfl : bytes = 0x00 :: behind := (accepts_literal _).mp hmark
    rw [← decode_eq_ok_iff, decode_amount] at hread
    split at hread
    next => cases hread
    next digits unread hsplit =>
      obtain ⟨hdigits, rfl⟩ := Bytes.splitTerminated?_eq_some_iff.mp hsplit
      split at hread
      next hkept =>
        obtain ⟨hpositive, hlength, hless⟩ := hkept
        cases hread
        refine ⟨_, ⟨digits, ⟨hdigits, hlength, hpositive, ?_⟩, rfl⟩, rfl⟩
        rw [← integerValue_eq, UInt64.toNat_ofNat_of_lt' hless]
      next => cases hread
  · rintro ⟨_, ⟨digits, hdigits, rfl⟩, rfl⟩
    have hvalue : integerValue digits = value.toNat :=
      (integerValue_eq digits).trans hdigits.value_eq
    have hless : integerValue digits < 2 ^ 64 := hvalue ▸ value.toNat_lt
    rw [← decode_eq_ok_iff, List.cons_append, decode_amount,
      Bytes.splitTerminated?_append hdigits.terminated]
    dsimp only
    rw [if_pos ⟨hdigits.positive, hdigits.length_le, hless⟩, hvalue, UInt64.ofNat_toNat]

theorem reads_transferTail : Reads transferTail TransferForm := by
  intro bytes rest value
  simp only [transferTail, accepts_bind, accepts_primitives, reads_amount.accepts_iff,
    accepts_pure]
  constructor
  · rintro ⟨_, _, rfl, amount, _, ⟨_, ⟨digits, hdigits, rfl⟩, rfl⟩, _, _, rfl, rfl, rfl⟩
    refine ⟨_, .mk hdigits, ?_⟩
    simp only [List.cons_append, List.append_assoc]
    rfl
  · rintro ⟨_, ⟨hdigits⟩, rfl⟩
    refine ⟨(), _, ?_, value, _, ⟨_, ⟨_, hdigits, rfl⟩, rfl⟩, (), _, rfl, rfl, rfl⟩
    simp only [List.append_assoc]
    rfl

theorem accepts_accountAction (account : Contract) {action : ManagerAction} :
    Accepts (accountAction account) bytes action rest ↔
      action = .setDelegate (some account) ∧ bytes = [0x03, 0x46, 0x03, 0x4E] ++ rest ∨
        ∃ amount tail, action = .transfer account amount ∧ TransferForm amount tail ∧
          bytes = [0x03, 0x1E] ++ tail ++ rest := by
  simp only [accountAction, accepts_bind, accepts_uint16, accepts_ite, accepts_primitives,
    accepts_pure, accepts_malformed, reads_transferTail.accepts_iff]
  constructor
  · rintro ⟨_, _, rfl, ⟨rfl, _, _, rfl, rfl, rfl⟩ |
      ⟨_, ⟨rfl, amount, _, ⟨tail, htail, rfl⟩, rfl, rfl⟩ | ⟨_, ⟨⟩⟩⟩⟩
    · exact .inl ⟨rfl, rfl⟩
    · exact .inr ⟨amount, tail, rfl, htail, rfl⟩
  · rintro (⟨rfl, rfl⟩ | ⟨amount, tail, rfl, htail, rfl⟩)
    · exact ⟨Primitive.some.word, [0x03, 0x4E] ++ rest, rfl, .inl ⟨rfl, (), rest, rfl, rfl, rfl⟩⟩
    · exact ⟨Primitive.implicitAccount.word, tail ++ rest, rfl,
        .inr ⟨by decide, .inl ⟨rfl, amount, rest, ⟨tail, htail, rfl⟩, rfl, rfl⟩⟩⟩

theorem accepts_addressAction (destination : Contract) {action : ManagerAction} :
    Accepts (addressAction destination) bytes action rest ↔
      ∃ amount tail, action = .transfer destination amount ∧ TransferForm amount tail ∧
        bytes = [0x05, 0x55, 0x03, 0x6C] ++ failUnlessContract ++ tail ++ rest := by
  simp only [addressAction, accepts_bind, accepts_primitives, accepts_literal, accepts_pure,
    reads_transferTail.accepts_iff]
  constructor
  · rintro ⟨_, _, rfl, _, _, rfl, amount, _, ⟨tail, htail, rfl⟩, rfl, rfl⟩
    refine ⟨amount, tail, rfl, htail, ?_⟩
    simp only [List.cons_append, List.append_assoc]
    rfl
  · rintro ⟨amount, tail, rfl, htail, rfl⟩
    refine ⟨(), failUnlessContract ++ (tail ++ rest), ?_, (), tail ++ rest, rfl, amount, rest,
      ⟨tail, htail, rfl⟩, rfl, rfl⟩
    simp only [List.append_assoc]
    rfl

theorem reads_accountLiteral : Reads (bytesLiteral 21 implicitAccount) fun account piece =>
    ∃ curve hash, account = .implicit curve hash ∧
      piece = [0x0A, 0x00, 0x00, 0x00, 0x15, curve.code] ++ hash.val := by
  intro bytes rest value
  rw [accepts_bytesLiteral (by decide)]
  simp only [reads_implicitAccount.accepts_nil_iff]
  constructor
  · rintro ⟨_, _, rfl, ⟨curve, hash⟩⟩
    exact ⟨_, ⟨curve, hash, rfl, rfl⟩, by simp [Bytes.bigEndian]⟩
  · rintro ⟨_, ⟨curve, hash, rfl, rfl⟩, rfl⟩
    refine ⟨curve.code :: hash.val, ?_, by simp [Bytes.bigEndian], .implicit curve hash⟩
    rw [List.length_cons, hash.property]

theorem reads_addressLiteral : Reads (bytesLiteral 22 originatedAddress) fun account piece =>
    ∃ hash, account = .originated hash ∧
      piece = [0x0A, 0x00, 0x00, 0x00, 0x16, 0x01] ++ hash.val ++ [0x00] := by
  intro bytes rest value
  rw [accepts_bytesLiteral (by decide)]
  simp only [originatedAddress, accepts_bind, accepts_literal, accepts_sized, accepts_pure]
  constructor
  · rintro ⟨_, _, rfl, _, _, rfl, hash, _, rfl, _, _, rfl, rfl, rfl⟩
    exact ⟨_, ⟨hash, rfl, rfl⟩, by simp [Bytes.bigEndian]⟩
  · rintro ⟨_, ⟨hash, rfl, rfl⟩, rfl⟩
    refine ⟨0x01 :: (hash.val ++ [0x00]), ?_, by simp [Bytes.bigEndian], (), _, rfl, hash, _, rfl,
      (), [], rfl, rfl, rfl⟩
    rw [List.length_cons, List.length_append, hash.property]
    rfl

theorem reads_action : Reads action ActionForm := by
  intro bytes rest value
  simp only [action, accepts_bind, accepts_uint16, accepts_ite, accepts_primitives, accepts_pure,
    accepts_malformed, reads_accountLiteral.accepts_iff, reads_addressLiteral.accepts_iff,
    accepts_accountAction, accepts_addressAction]
  constructor
  · rintro ⟨_, _, rfl, ⟨rfl, _, _, rfl, ⟨rfl, _, _, ⟨_, ⟨curve, hash, rfl, rfl⟩, rfl⟩,
        ⟨rfl, rfl⟩ | ⟨amount, tail, rfl, htail, rfl⟩⟩ |
        ⟨_, ⟨rfl, _, _, ⟨_, ⟨hash, rfl, rfl⟩, rfl⟩, amount, tail, rfl, htail, rfl⟩ | ⟨_, ⟨⟩⟩⟩⟩ |
        ⟨_, ⟨rfl, _, _, rfl, rfl, rfl⟩ | ⟨_, ⟨⟩⟩⟩⟩
    · refine ⟨_, .setDelegate curve hash, ?_⟩
      simp only [List.cons_append, List.append_assoc]
      rfl
    · refine ⟨_, .transferToImplicit curve hash htail, ?_⟩
      simp only [List.cons_append, List.append_assoc]
      rfl
    · refine ⟨_, .transferToOriginated hash htail, ?_⟩
      simp only [List.cons_append, List.append_assoc]
      rfl
    · exact ⟨_, .withdrawDelegate, rfl⟩
  · rintro ⟨_, hform, rfl⟩
    cases hform with
    | setDelegate curve hash =>
        refine ⟨Primitive.push.word, _, ?_, .inl ⟨rfl, Primitive.keyHashType.word, _, rfl,
          .inl ⟨rfl, _, _, ⟨_, ⟨curve, hash, rfl, rfl⟩, rfl⟩, .inl ⟨rfl, rfl⟩⟩⟩⟩
        simp only [List.append_assoc]
        rfl
    | withdrawDelegate =>
        exact ⟨Primitive.none.word, [0x03, 0x5D, 0x03, 0x4E] ++ rest, rfl,
          .inr ⟨by decide, .inl ⟨rfl, (), rest, rfl, rfl, rfl⟩⟩⟩
    | transferToImplicit curve hash htail =>
        refine ⟨Primitive.push.word, _, ?_, .inl ⟨rfl, Primitive.keyHashType.word, _, rfl,
          .inl ⟨rfl, _, _, ⟨_, ⟨curve, hash, rfl, rfl⟩, rfl⟩, .inr ⟨_, _, rfl, htail, rfl⟩⟩⟩⟩
        simp only [List.append_assoc]
        rfl
    | transferToOriginated hash htail =>
        refine ⟨Primitive.push.word, _, ?_, .inl ⟨rfl, Primitive.addressType.word, _, rfl,
          .inr ⟨by decide, .inl ⟨rfl, _, _, ⟨_, ⟨hash, rfl, rfl⟩, rfl⟩, _, _, rfl, htail, rfl⟩⟩⟩⟩
        simp only [List.append_assoc]
        rfl

theorem reads_body : Reads body BodyForm := by
  intro bytes rest value
  simp only [body, accepts_bind, accepts_primitives, reads_action.accepts_iff, accepts_pure]
  constructor
  · rintro ⟨_, _, rfl, _, _, ⟨_, hmiddle, rfl⟩, _, _, rfl, rfl, rfl⟩
    refine ⟨_, .mk hmiddle, ?_⟩
    simp only [List.cons_append, List.append_assoc]
    rfl
  · rintro ⟨_, ⟨hmiddle⟩, rfl⟩
    refine ⟨(), _, ?_, value, _, ⟨_, hmiddle, rfl⟩, (), _, rfl, rfl, rfl⟩
    simp only [List.append_assoc]
    rfl

/-- A piece that is short enough for its length to be written stands behind a mark and that
length. -/
theorem reads_framed {α : Type} {decoder : Decoder α} {form : α → Bytes → Prop}
    (hreads : Reads decoder form)
    (hshort : ∀ {value : α} {piece : Bytes}, form value piece → piece.length < 2 ^ 32) :
    Reads (do literal [0x02]; framed decoder) fun value piece =>
      ∃ inner, form value inner ∧ piece = 0x02 :: Wire.framed inner := by
  intro bytes rest value
  simp only [accepts_bind, accepts_literal, accepts_framed, hreads.accepts_nil_iff]
  constructor
  · rintro ⟨_, _, rfl, inner, hless, rfl, hinner⟩
    exact ⟨_, ⟨inner, hinner, rfl⟩, rfl⟩
  · rintro ⟨_, ⟨inner, hinner, rfl⟩, rfl⟩
    exact ⟨(), _, rfl, inner, hshort hinner, rfl, hinner⟩

theorem ActionForm.length_le {action : ManagerAction} {middle : Bytes}
    (hmiddle : ActionForm action middle) : middle.length ≤ 80 := by
  have htransfer : ∀ {amount : UInt64} {tail : Bytes}, TransferForm amount tail →
      tail.length ≤ 19 := by
    rintro amount _ ⟨hdigits⟩
    have hlength := hdigits.length_le
    simp only [List.length_append, List.length_cons, List.length_nil]
    omega
  cases hmiddle with
  | setDelegate curve hash => simp [hash.property]
  | withdrawDelegate => decide
  | transferToImplicit curve hash htail =>
      have hlength := htransfer htail
      simp only [List.length_append, List.length_cons, List.length_nil, hash.property]
      omega
  | transferToOriginated hash htail =>
      have hlength := htransfer htail
      simp only [List.length_append, List.length_cons, List.length_nil, hash.property]
      omega

theorem BodyForm.length_le {action : ManagerAction} {body : Bytes} (hbody : BodyForm action body) :
    body.length ≤ 88 := by
  obtain ⟨hmiddle⟩ := hbody
  have hlength := hmiddle.length_le
  simp only [List.length_append, List.length_cons, List.length_nil]
  omega

theorem reads_script : Reads script fun action piece =>
    ∃ body, BodyForm action body ∧ piece = 0x02 :: Wire.framed body :=
  reads_framed reads_body fun hbody => hbody.length_le.trans_lt (by decide)

theorem reads_managerCall : Reads managerCall CallForm := by
  have hreads : Reads managerCall _ := reads_framed reads_script (by
    rintro action _ ⟨body, hbody, rfl⟩
    have hlength := hbody.length_le
    simp only [Wire.framed, List.length_cons, List.length_append, Bytes.length_bigEndian]
    omega)
  intro bytes rest value
  rw [hreads.accepts_iff]
  constructor
  · rintro ⟨_, ⟨_, ⟨body, hbody, rfl⟩, rfl⟩, rfl⟩
    exact ⟨_, .mk hbody, rfl⟩
  · rintro ⟨_, ⟨hbody⟩, rfl⟩
    exact ⟨_, ⟨_, ⟨_, hbody, rfl⟩, rfl⟩, rfl⟩

end Reading

/-- A call is understood exactly if it begins with one of the four scripts, which tells what the
contract is asked to do; what is behind the script stays unread. Everything else is refused. -/
theorem decode_managerCall (bytes : Bytes) :
    (∀ action rest, managerCall.decode bytes = .ok (action, rest) ↔
      ∃ call, CallForm action call ∧ bytes = call ++ rest) ∧
    ((managerCall.decode bytes).mapError DecodeError.status = .error .parseError ↔
      ¬ ∃ action call rest, CallForm action call ∧ bytes = call ++ rest) := by
  have hunderstood : ∀ action rest, managerCall.decode bytes = .ok (action, rest) ↔
      ∃ call, CallForm action call ∧ bytes = call ++ rest :=
    fun action rest => decode_eq_ok_iff.trans reads_managerCall.accepts_iff
  refine ⟨hunderstood, ?_⟩
  cases hdecode : managerCall.decode bytes with
  | ok read =>
      obtain ⟨action, rest⟩ := read
      obtain ⟨call, hcall⟩ := (hunderstood action rest).mp hdecode
      exact ⟨nofun, fun hnone => absurd ⟨action, call, rest, hcall⟩ hnone⟩
  | error cause =>
      refine ⟨?_, fun _ => congrArg Except.error cause.status_eq⟩
      rintro - ⟨action, call, rest, hcall⟩
      rw [(hunderstood action rest).mpr ⟨call, hcall⟩] at hdecode
      cases hdecode

end TezosSigner.Script
