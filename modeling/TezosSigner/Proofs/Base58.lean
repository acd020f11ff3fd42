import TezosSigner.Account
import TezosSigner.Proofs.Numeral

/-!
# Reading base-58 text back

The text of a byte string tells its value and how many zero bytes it begins with, and
these two tell the bytes. Accounts and protocols are told apart by their texts, since
each begins with the bytes that it names.
-/

namespace TezosSigner

namespace Text

theorem toNat_eq_ofDigits (bytes : Bytes) : bytes.toNat = ofDigits 256 (bytes.map UInt8.toNat) := by
  induction bytes using List.reverseRecOn with
  | nil => rfl
  | append_singleton front byte ih =>
      rw [Bytes.toNat, List.foldl_append, List.map_append, List.map_singleton,
        ofDigits_append_singleton, ← ih]
      exact Nat.add_comm _ _

/-- Behind its leading zeros a byte string is the base-256 numeral of its value. -/
theorem map_dropWhile_zero (bytes : Bytes) :
    (bytes.dropWhile (· == 0)).map UInt8.toNat = digits 256 bytes.toNat := by
  have hless : ∀ digit ∈ bytes.map UInt8.toNat, digit < 256 := by
    intro digit hdigit
    obtain ⟨byte, _, rfl⟩ := List.mem_map.mp hdigit
    exact byte.toNat_lt
  have hzero : (fun byte : UInt8 => byte == 0) = (· == 0) ∘ UInt8.toNat := by
    funext byte
    rw [Bool.eq_iff_iff, Function.comp_apply, beq_iff_eq, beq_iff_eq]
    exact UInt8.toNat_inj.symm
  rw [toNat_eq_ofDigits, digits_ofDigits (by decide) hless, List.dropWhile_map, hzero]

theorem base58Digit_idxOf : ∀ digit < 58, base58Alphabet.idxOf (base58Digit digit) = digit := by
  decide

theorem map_base58Chars (bytes : Bytes) :
    (base58Chars bytes).map base58Alphabet.idxOf =
      List.replicate (bytes.takeWhile (· == 0)).length 0 ++ digits 58 bytes.toNat := by
  rw [base58Chars, ← List.map_replicate, ← List.map_append]
  apply map_map_digits base58Digit_idxOf
  intro digit hdigit
  rcases List.mem_append.mp hdigit with hzero | hdigit
  · rw [List.eq_of_mem_replicate hzero]
    decide
  · exact lt_of_mem_digits (by decide) hdigit

theorem base58_injective : Function.Injective base58 := by
  intro first second heq
  have hdigits := map_base58Chars first
  rw [String.ofList_injective heq, map_base58Chars second] at hdigits
  -- Zeros in front add nothing to a value, so the values agree before the zeros are counted.
  have hvalue : second.toNat = first.toNat := by
    have hvalues := congrArg (ofDigits 58) hdigits
    rwa [ofDigits_replicate_append, ofDigits_replicate_append, ofDigits_digits (by decide),
      ofDigits_digits (by decide)] at hvalues
  have hzeros : (second.takeWhile (· == 0)).length = (first.takeWhile (· == 0)).length := by
    rw [hvalue] at hdigits
    have hlengths := congrArg List.length (List.append_cancel_right hdigits)
    rwa [List.length_replicate, List.length_replicate] at hlengths
  have hbehind : first.dropWhile (· == 0) = second.dropWhile (· == 0) := by
    apply List.map_injective_iff.mpr fun _ _ => UInt8.toNat_inj.mp
    rw [map_dropWhile_zero, map_dropWhile_zero, hvalue]
  rw [← replicate_append_dropWhile 0 first, ← replicate_append_dropWhile 0 second, hzeros, hbehind]

/-- The checksum plays no part in telling texts apart. -/
theorem base58Check_inj {kind payload kind' payload' : Bytes}
    (hlength : (kind ++ payload).length = (kind' ++ payload').length)
    (heq : base58Check kind payload = base58Check kind' payload') :
    kind ++ payload = kind' ++ payload' :=
  (List.append_inj (base58_injective heq) hlength).1

end Text

namespace Contract

theorem length_kindBytes (contract : Contract) : contract.kindBytes.length = 3 := by
  cases contract with
  | implicit curve hash => cases curve <;> rfl
  | originated hash => rfl

/-- The leading bytes tell the kinds of accounts apart. -/
theorem eq_of_kindBytes_eq {first second : Contract} (hkind : first.kindBytes = second.kindBytes)
    (hhash : first.hash = second.hash) : first = second := by
  cases first with
  | implicit curve hash =>
      cases second with
      | implicit curve' hash' =>
          cases hhash
          cases curve <;> cases curve' <;> first | rfl | cases hkind
      | originated hash' => cases curve <;> cases hkind
  | originated hash =>
      cases second with
      | implicit curve' hash' => cases curve' <;> cases hkind
      | originated hash' =>
          cases hhash
          rfl

theorem length_kindBytes_append_hash (contract : Contract) :
    (contract.kindBytes ++ contract.hash.val).length = 23 := by
  rw [List.length_append, contract.length_kindBytes, contract.hash.property]

theorem text_injective : Function.Injective text := by
  intro first second heq
  have hbytes := Text.base58Check_inj
    (first.length_kindBytes_append_hash.trans second.length_kindBytes_append_hash.symm) heq
  obtain ⟨hkind, hhash⟩ :=
    List.append_inj hbytes (first.length_kindBytes.trans second.length_kindBytes.symm)
  exact eq_of_kindBytes_eq hkind (Subtype.ext hhash)

/-- The word for any delegate is the text of two bytes, too few for an account. -/
theorem text_ne_any (contract : Contract) : contract.text ≠ "Any" := by
  intro heq
  have hany : Text.base58 [0x80, 0xAE] = "Any" := by decide
  have hbytes := congrArg List.length (Text.base58_injective (heq.trans hany.symm))
  rw [List.length_append, contract.length_kindBytes_append_hash] at hbytes
  change _ = 2 at hbytes
  omega

end Contract

theorem protocolText_injective {first second : Hash.Digest}
    (heq : protocolText first.val = protocolText second.val) : first = second := by
  apply Subtype.ext
  apply List.append_cancel_left
  apply Text.base58Check_inj _ heq
  rw [List.length_append, List.length_append, first.property, second.property]

end TezosSigner
