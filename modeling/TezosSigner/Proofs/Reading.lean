import Mathlib
import TezosSigner.Operation.Account
import TezosSigner.Proofs.Base58
import TezosSigner.Proofs.Varint

/-!
# What decoders read

A decoder accepts a byte string with a value and with the bytes that it leaves
unread. Acceptance is told backwards through a decoder, one rule for each way to
build one. A decoder reads a form if it accepts exactly what begins with a piece
of that form, so that nothing behind the piece has a part in reading it.
-/

namespace TezosSigner

namespace Bytes

section BigEndian

theorem toNat_cons (byte : UInt8) (bytes : Bytes) :
    toNat (byte :: bytes) = byte.toNat * 256 ^ bytes.length + bytes.toNat := by
  rw [Text.toNat_eq_ofDigits, Text.toNat_eq_ofDigits, List.map_cons, Text.ofDigits, Text.ofDigits,
    List.reverse_cons, Nat.ofDigits_append, Nat.ofDigits_singleton, List.length_reverse,
    List.length_map]
  ring

theorem toNat_lt (bytes : Bytes) : bytes.toNat < 256 ^ bytes.length := by
  induction bytes with
  | nil => exact Nat.one_pos
  | cons byte bytes ih =>
      have hbyte := byte.toNat_lt
      rw [toNat_cons, List.length_cons, Nat.pow_succ]
      nlinarith

/-- A number is written by its low bytes alone. -/
theorem bigEndian_mul_add (width high low : Nat) :
    bigEndian width (high * 256 ^ width + low) = bigEndian width low := by
  induction width generalizing high with
  | zero => rfl
  | succ width ih =>
      have hsplit : high * 256 ^ (width + 1) + low = high * 256 * 256 ^ width + low := by ring
      rw [bigEndian, bigEndian, hsplit, ih, List.cons.injEq]
      refine ⟨?_, rfl⟩
      rw [Nat.pow_eq, Nat.add_comm, Nat.add_mul_div_right _ _ (by positivity)]
      apply UInt8.toNat_inj.mp
      rw [UInt8.toNat_ofNat', UInt8.toNat_ofNat']
      omega

theorem bigEndian_toNat (bytes : Bytes) : bigEndian bytes.length bytes.toNat = bytes := by
  induction bytes with
  | nil => rfl
  | cons byte bytes ih =>
      rw [List.length_cons, bigEndian, toNat_cons, bigEndian_mul_add, ih, Nat.pow_eq, Nat.add_comm,
        Nat.add_mul_div_right _ _ (by positivity), Nat.div_eq_of_lt (toNat_lt bytes), Nat.zero_add,
        UInt8.ofNat_toNat]

theorem toNat_bigEndian {width value : Nat} (hvalue : value < 256 ^ width) :
    (bigEndian width value).toNat = value := by
  induction width generalizing value with
  | zero => exact (Nat.lt_one_iff.mp hvalue).symm
  | succ width ih =>
      have hpos : 0 < 256 ^ width := by positivity
      have hhigh : value / 256 ^ width < 256 := by
        rw [Nat.pow_succ] at hvalue
        exact Nat.div_lt_of_lt_mul hvalue
      have hlow : bigEndian width value = bigEndian width (value % 256 ^ width) := by
        conv_lhs => rw [← Nat.div_add_mod' value (256 ^ width)]
        exact bigEndian_mul_add width _ _
      rw [bigEndian, toNat_cons, length_bigEndian, hlow, ih (Nat.mod_lt _ hpos), Nat.pow_eq,
        UInt8.toNat_ofNat_of_lt' hhigh, Nat.div_add_mod']

end BigEndian

section Terminated

/-- Every byte but the last one has its top bit set. -/
inductive Terminated : Bytes → Prop
  | last {byte : UInt8} (hclear : byte < 0x80) : Terminated [byte]
  | more {byte : UInt8} {rest : Bytes} (hset : ¬ byte < 0x80) (hrest : Terminated rest) :
      Terminated (byte :: rest)

/-- The low seven bits of each byte. -/
def sevenBits (bytes : Bytes) : List Nat :=
  bytes.map fun byte => byte.toNat % 128

theorem septets_eq_ofDigits (bytes : Bytes) : bytes.septets = Nat.ofDigits 128 bytes.sevenBits := by
  induction bytes with
  | nil => rfl
  | cons byte bytes ih =>
      have hcons : sevenBits (byte :: bytes) = byte.toNat % 128 :: sevenBits bytes := rfl
      rw [septets, ih, hcons, Nat.ofDigits_cons]

/-- A number in base 128 as it is written, least significant digit first. -/
abbrev Numeral := { digits : Bytes // digits.Terminated }

/-- The low 64 bits of a number. -/
def Numeral.word (numeral : Numeral) : UInt64 :=
  UInt64.ofNat (Nat.ofDigits 128 (sevenBits numeral.val))

theorem splitTerminated?_append {group : Bytes} (hgroup : group.Terminated) (rest : Bytes) :
    (group ++ rest).splitTerminated? = some (group, rest) := by
  induction hgroup with
  | last hclear => simp [splitTerminated?, hclear]
  | more hset hrest ih => simp [splitTerminated?, hset, ih]

theorem splitTerminated?_eq_some_iff {bytes group rest : Bytes} :
    bytes.splitTerminated? = some (group, rest) ↔ group.Terminated ∧ bytes = group ++ rest := by
  constructor
  · intro hsplit
    induction bytes generalizing group with
    | nil => cases hsplit
    | cons byte bytes ih =>
        rw [splitTerminated?] at hsplit
        split at hsplit
        next hclear =>
          cases hsplit
          exact ⟨.last hclear, rfl⟩
        next hset =>
          obtain ⟨⟨group, rest⟩, hsplit, hcons⟩ := Option.map_eq_some_iff.mp hsplit
          cases hcons
          obtain ⟨hgroup, rfl⟩ := ih hsplit
          exact ⟨.more hset hgroup, rfl⟩
  · rintro ⟨hgroup, rfl⟩
    exact splitTerminated?_append hgroup rest

end Terminated

end Bytes

theorem DecodeError.status_eq (cause : DecodeError) : cause.status = .parseError := by
  cases cause <;> rfl

namespace Decoder

variable {α β : Type}

/-- A decoder takes a byte string for a value and leaves the end of it unread. -/
def Accepts (decoder : Decoder α) (bytes : Bytes) (value : α) (rest : Bytes) : Prop :=
  decoder bytes = .ok value rest

theorem Accepts.unique {decoder : Decoder α} {bytes rest rest' : Bytes} {value value' : α}
    (haccepts : Accepts decoder bytes value rest) (haccepts' : Accepts decoder bytes value' rest') :
    value = value' ∧ rest = rest' := by
  have hsame := haccepts.symm.trans haccepts'
  rwa [EStateM.Result.ok.injEq] at hsame

theorem decode_eq_ok_iff {decoder : Decoder α} {bytes rest : Bytes} {value : α} :
    decoder.decode bytes = .ok (value, rest) ↔ Accepts decoder bytes value rest := by
  unfold decode Accepts
  cases decoder bytes <;> simp

section Rules

variable {bytes rest : Bytes} {value : α}

@[simp] theorem accepts_pure (given : α) :
    Accepts (pure given) bytes value rest ↔ value = given ∧ bytes = rest := by
  simp [Accepts, pure, EStateM.pure, eq_comm]

/-- The second part of a sequence goes on where the first one stops. -/
@[simp] theorem accepts_bind (first : Decoder β) (next : β → Decoder α) :
    Accepts (first >>= next) bytes value rest ↔
      ∃ read middle, Accepts first bytes read middle ∧ Accepts (next read) middle value rest := by
  simp only [Accepts, bind, EStateM.bind]
  cases first bytes <;> simp

@[simp] theorem accepts_ite (condition : Prop) [Decidable condition] (yes no : Decoder α) :
    Accepts (if condition then yes else no) bytes value rest ↔
      condition ∧ Accepts yes bytes value rest ∨ ¬ condition ∧ Accepts no bytes value rest := by
  split <;> simp [*]

@[simp] theorem accepts_throw (cause : DecodeError) :
    Accepts (throw cause) bytes value rest ↔ False := by
  constructor <;> rintro ⟨⟩

@[simp] theorem accepts_malformed : Accepts malformed bytes value rest ↔ False := by
  constructor <;> rintro ⟨⟩

@[simp] theorem accepts_require (condition : Bool) {value : Unit} :
    Accepts (require condition) bytes value rest ↔ condition = true ∧ bytes = rest := by
  cases condition <;> simp [require]

@[simp] theorem accepts_atEnd {value : Bool} :
    Accepts atEnd bytes value rest ↔ value = bytes.isEmpty ∧ bytes = rest := by
  simp [Accepts, atEnd, eq_comm]

@[simp] theorem accepts_finish {value : Unit} :
    Accepts finish bytes value rest ↔ bytes = [] ∧ rest = [] := by
  simp only [finish, accepts_bind, accepts_atEnd, accepts_require]
  constructor
  · rintro ⟨_, _, ⟨rfl, rfl⟩, hempty, rfl⟩
    have hnil := List.isEmpty_iff.mp hempty
    exact ⟨hnil, hnil⟩
  · rintro ⟨rfl, rfl⟩
    exact ⟨_, _, ⟨rfl, rfl⟩, rfl, rfl⟩

@[simp] theorem accepts_byte {value : UInt8} :
    Accepts byte bytes value rest ↔ bytes = value :: rest := by
  cases bytes <;> simp [Accepts, byte]

@[simp] theorem accepts_take (count : Nat) {value : Bytes} :
    Accepts (take count) bytes value rest ↔ value.length = count ∧ bytes = value ++ rest := by
  unfold Accepts take
  split
  next henough =>
    rw [EStateM.Result.ok.injEq]
    constructor
    · rintro ⟨rfl, rfl⟩
      exact ⟨List.length_take_of_le henough, (List.take_append_drop _ _).symm⟩
    · rintro ⟨rfl, rfl⟩
      exact ⟨List.take_left, List.drop_left⟩
  next hshort =>
    constructor
    · rintro ⟨⟩
    · rintro ⟨rfl, rfl⟩
      exact absurd (by simp) hshort

@[simp] theorem accepts_sized (size : Nat) {value : Bytes.Sized size} :
    Accepts (sized size) bytes value rest ↔ bytes = value.val ++ rest := by
  have htake : Accepts (sized size) bytes value rest ↔
      Accepts (take size) bytes value.val rest := by
    unfold Accepts sized take
    split <;> simp [Subtype.ext_iff]
  rw [htake, accepts_take, and_iff_right value.property]

/-- A number of fixed width is read off its bytes, whatever type of words holds it. -/
theorem accepts_word {width : Nat} {word : α} {ofNat : Nat → α} {toNat : α → Nat}
    (hless : ∀ word, toNat word < 256 ^ width) (hword : ∀ word, ofNat (toNat word) = word)
    (hvalue : ∀ value < 256 ^ width, toNat (ofNat value) = value) :
    Accepts (do return ofNat (← take width).toNat) bytes word rest ↔
      bytes = Bytes.bigEndian width (toNat word) ++ rest := by
  simp only [accepts_bind, accepts_take, accepts_pure]
  constructor
  · rintro ⟨front, _, ⟨rfl, rfl⟩, rfl, rfl⟩
    rw [hvalue _ front.toNat_lt, Bytes.bigEndian_toNat]
  · rintro rfl
    refine ⟨_, _, ⟨Bytes.length_bigEndian width _, rfl⟩, ?_, rfl⟩
    rw [Bytes.toNat_bigEndian (hless word), hword]

@[simp] theorem accepts_uint16 {value : UInt16} :
    Accepts uint16 bytes value rest ↔ bytes = Bytes.ofUInt16 value ++ rest :=
  accepts_word UInt16.toNat_lt (fun _ => UInt16.ofNat_toNat) fun _ => UInt16.toNat_ofNat_of_lt'

@[simp] theorem accepts_uint32 {value : UInt32} :
    Accepts uint32 bytes value rest ↔ bytes = Bytes.ofUInt32 value ++ rest :=
  accepts_word UInt32.toNat_lt (fun _ => UInt32.ofNat_toNat) fun _ => UInt32.toNat_ofNat_of_lt'

@[simp] theorem accepts_int32 {value : Int32} :
    Accepts int32 bytes value rest ↔ bytes = Bytes.ofInt32 value ++ rest := by
  simp only [int32, accepts_bind, accepts_uint32, accepts_pure, Bytes.ofInt32]
  constructor
  · rintro ⟨word, _, rfl, rfl, rfl⟩
    rw [UInt32.toUInt32_toInt32]
  · rintro rfl
    exact ⟨_, _, rfl, (Int32.toInt32_toUInt32 value).symm, rfl⟩

@[simp] theorem accepts_literal (expected : Bytes) {value : Unit} :
    Accepts (literal expected) bytes value rest ↔ bytes = expected ++ rest := by
  simp only [literal, accepts_bind, accepts_take, accepts_require, beq_iff_eq]
  constructor
  · rintro ⟨front, _, ⟨_, rfl⟩, rfl, rfl⟩
    rfl
  · rintro rfl
    exact ⟨_, _, ⟨rfl, rfl⟩, rfl, rfl⟩

/-- Inside a limit there is nothing that a decoder may leave unread. -/
@[simp] theorem accepts_within (size : Nat) (decoder : Decoder α) :
    Accepts (within size decoder) bytes value rest ↔
      ∃ inner, inner.length = size ∧ bytes = inner ++ rest ∧ Accepts decoder inner value [] := by
  simp only [within, accepts_bind, accepts_take]
  constructor
  · rintro ⟨inner, middle, ⟨hlength, rfl⟩, hinner⟩
    split at hinner
    next given hgiven =>
      obtain ⟨rfl, rfl⟩ := (accepts_pure given).mp hinner
      exact ⟨inner, hlength, rfl, decode_eq_ok_iff.mp hgiven⟩
    next => cases hinner
  · rintro ⟨inner, hlength, rfl, hinner⟩
    refine ⟨inner, rest, ⟨hlength, rfl⟩, ?_⟩
    rw [decode_eq_ok_iff.mpr hinner]
    rfl

@[simp] theorem accepts_framed (decoder : Decoder α) :
    Accepts (framed decoder) bytes value rest ↔
      ∃ inner, inner.length < 2 ^ 32 ∧ bytes = Bytes.bigEndian 4 inner.length ++ inner ++ rest ∧
        Accepts decoder inner value [] := by
  simp only [framed, accepts_bind, accepts_uint32, accepts_within]
  constructor
  · rintro ⟨size, _, rfl, inner, hlength, rfl, hinner⟩
    refine ⟨inner, hlength ▸ size.toNat_lt, ?_, hinner⟩
    rw [hlength, List.append_assoc]
    rfl
  · rintro ⟨inner, hless, rfl, hinner⟩
    have hsize : (UInt32.ofNat inner.length).toNat = inner.length := UInt32.toNat_ofNat_of_lt' hless
    refine ⟨UInt32.ofNat inner.length, _, ?_, inner, hsize.symm, rfl, hinner⟩
    rw [Bytes.ofUInt32, hsize, List.append_assoc]

end Rules

/-- A decoder reads a form if it accepts exactly what begins with a piece of that form,
and leaves what is behind the piece. -/
def Reads (decoder : Decoder α) (form : α → Bytes → Prop) : Prop :=
  ∀ (bytes rest : Bytes) (value : α), Accepts decoder bytes value rest ↔
    ∃ piece, form value piece ∧ bytes = piece ++ rest

section Reads

variable {decoder : Decoder α} {form : α → Bytes → Prop}

theorem Reads.accepts_iff (hreads : Reads decoder form) {bytes rest : Bytes} {value : α} :
    Accepts decoder bytes value rest ↔ ∃ piece, form value piece ∧ bytes = piece ++ rest :=
  hreads _ _ _

theorem Reads.accepts (hreads : Reads decoder form) {value : α} {piece : Bytes}
    (hpiece : form value piece) (rest : Bytes) : Accepts decoder (piece ++ rest) value rest :=
  hreads.accepts_iff.mpr ⟨piece, hpiece, rfl⟩

/-- What is read to the end is a piece. -/
theorem Reads.accepts_nil_iff (hreads : Reads decoder form) {value : α} {bytes : Bytes} :
    Accepts decoder bytes value [] ↔ form value bytes := by
  constructor
  · intro haccepts
    obtain ⟨piece, hpiece, hbytes⟩ := hreads.accepts_iff.mp haccepts
    rw [List.append_nil] at hbytes
    rwa [hbytes]
  · intro hpiece
    exact hreads.accepts_iff.mpr ⟨bytes, hpiece, (List.append_nil bytes).symm⟩

/-- More bytes at the end change nothing but what is left unread. -/
theorem Reads.append (hreads : Reads decoder form) {value : α} {bytes rest : Bytes}
    (haccepts : Accepts decoder bytes value rest) (more : Bytes) :
    Accepts decoder (bytes ++ more) value (rest ++ more) := by
  obtain ⟨piece, hpiece, rfl⟩ := hreads.accepts_iff.mp haccepts
  rw [List.append_assoc]
  exact hreads.accepts hpiece _

theorem reads_varint : Reads varint fun value piece =>
    ∃ numeral : Bytes.Numeral, value = numeral.word ∧ piece = numeral.val := by
  intro bytes rest value
  rw [Accepts, varint_eq]
  constructor
  · intro hread
    split at hread
    next group unread hsplit =>
      obtain ⟨hgroup, rfl⟩ := Bytes.splitTerminated?_eq_some_iff.mp hsplit
      cases hread
      refine ⟨group, ⟨⟨group, hgroup⟩, ?_, rfl⟩, rfl⟩
      rw [Bytes.septets_eq_ofDigits, Bytes.Numeral.word]
    next => cases hread
  · rintro ⟨_, ⟨numeral, rfl, rfl⟩, rfl⟩
    rw [Bytes.splitTerminated?_append numeral.property]
    dsimp only
    rw [Bytes.septets_eq_ofDigits, Bytes.Numeral.word]

end Reads

section Accounts

theorem ofCode?_eq_some_iff {code : UInt8} {curve : Curve} :
    Curve.ofCode? code = some curve ↔ code = curve.code := by
  constructor
  · intro hcurve
    unfold Curve.ofCode? at hcurve
    split_ifs at hcurve with hed hk1 hr1 <;> cases hcurve
    · exact hed
    · exact hk1
    · exact hr1
  · rintro rfl
    exact Curve.ofCode?_code curve

@[simp] theorem accepts_curve {bytes rest : Bytes} {value : Curve} :
    Accepts curve bytes value rest ↔ bytes = value.code :: rest := by
  simp only [curve, accepts_bind, accepts_byte]
  constructor
  · rintro ⟨code, _, rfl, hread⟩
    split at hread
    next found hfound =>
      obtain ⟨rfl, rfl⟩ := (accepts_pure found).mp hread
      rw [ofCode?_eq_some_iff.mp hfound]
    next => cases hread
  · rintro rfl
    refine ⟨_, _, rfl, ?_⟩
    rw [Curve.ofCode?_code]
    rfl

/-- An implicit account: the code of its curve and its hash. -/
inductive AccountForm : Contract → Bytes → Prop
  | implicit (curve : Curve) (hash : Hash.KeyHash) :
      AccountForm (.implicit curve hash) (curve.code :: hash.val)

theorem reads_implicitAccount : Reads implicitAccount AccountForm := by
  intro bytes rest value
  simp only [implicitAccount, accepts_bind, accepts_curve, accepts_sized, accepts_pure]
  constructor
  · rintro ⟨curve, _, rfl, hash, _, rfl, rfl, rfl⟩
    exact ⟨_, .implicit curve hash, rfl⟩
  · rintro ⟨_, ⟨curve, hash⟩, rfl⟩
    exact ⟨curve, _, rfl, hash, _, rfl, rfl, rfl⟩

/-- An account of either kind: an implicit one behind a zero, an originated one behind any
other byte and in front of one more byte. -/
inductive ContractForm : Contract → Bytes → Prop
  | implicit {account : Contract} {piece : Bytes} (haccount : AccountForm account piece) :
      ContractForm account (0x00 :: piece)
  | originated {kind : UInt8} (hkind : kind ≠ 0x00) (hash : Hash.KeyHash) (padding : UInt8) :
      ContractForm (.originated hash) (kind :: (hash.val ++ [padding]))

theorem reads_contract : Reads contract ContractForm := by
  intro bytes rest value
  simp only [contract, accepts_bind, accepts_byte, accepts_ite, reads_implicitAccount.accepts_iff,
    accepts_sized, accepts_pure]
  constructor
  · rintro ⟨kind, _, rfl, ⟨rfl, piece, haccount, rfl⟩ |
      ⟨hkind, hash, _, rfl, padding, _, rfl, rfl, rfl⟩⟩
    · exact ⟨_, .implicit haccount, rfl⟩
    · exact ⟨_, .originated hkind hash padding, by simp⟩
  · rintro ⟨_, haccount | ⟨hkind, hash, padding⟩, rfl⟩
    · exact ⟨_, _, rfl, .inl ⟨rfl, _, ‹_›, rfl⟩⟩
    · exact ⟨_, _, rfl, .inr ⟨hkind, hash, _, List.append_assoc _ _ _, padding, _, rfl, rfl, rfl⟩⟩

/-- An implicit account behind a byte that is zero when there is none. -/
inductive OptionalForm : Option Contract → Bytes → Prop
  | none : OptionalForm none [0x00]
  | some {flag : UInt8} {account : Contract} {piece : Bytes} (hflag : flag ≠ 0x00)
      (haccount : AccountForm account piece) : OptionalForm (some account) (flag :: piece)

theorem reads_optionalAccount : Reads optionalAccount OptionalForm := by
  intro bytes rest value
  simp only [optionalAccount, accepts_bind, accepts_byte, accepts_ite,
    reads_implicitAccount.accepts_iff, accepts_pure]
  constructor
  · rintro ⟨flag, _, rfl, ⟨rfl, rfl, rfl⟩ | ⟨hflag, account, _, ⟨piece, haccount, rfl⟩, rfl, rfl⟩⟩
    · exact ⟨_, .none, rfl⟩
    · exact ⟨_, .some hflag haccount, rfl⟩
  · rintro ⟨_, _ | ⟨hflag, haccount⟩, rfl⟩
    · exact ⟨_, _, rfl, .inl ⟨rfl, rfl, rfl⟩⟩
    · exact ⟨_, _, rfl, .inr ⟨hflag, _, _, ⟨_, haccount, rfl⟩, rfl, rfl⟩⟩

end Accounts

end Decoder

end TezosSigner
