import TezosSigner.Proofs.Grammar
import TezosSigner.Review.Operation

/-!
# What a review tells about fees

A detailed review shows the sum of all fees of a group, those of its reveals included,
unless the last operation is a vote. A vote has no fee of its own, but reveals in front
of it may have one, and then the review says nothing about it.
-/

namespace TezosSigner

/-- A vote is a proposal or a ballot. -/
def OperationKind.isVote : OperationKind → Bool
  | .proposal _ _ | .ballot _ _ _ => true
  | .transaction _ _ _ | .origination _ _ _ _ _ | .delegation _ => false

namespace Prompt

variable {group : OperationGroup} {prompt : Prompt}

/-- The value under the name of a fee is the total, and a vote has no such value. -/
theorem fee_of_ofGroup? (hprompt : ofGroup? group = some prompt) :
    prompt.value? "Fee" =
      if group.operation.kind.isVote then none else some (tezText group.totalFee) := by
  unfold ofGroup? at hprompt
  cases hkind : group.operation.kind with
  | transaction amount destination manager =>
      rw [hkind] at hprompt
      cases manager with
      | none => cases hprompt; rfl
      | some action => cases action <;> cases hprompt <;> rfl
  | origination manager balance spendable delegatable delegate =>
      rw [hkind] at hprompt
      cases spendable with
      | false => cases hprompt
      | true => cases hprompt; rfl
  | delegation delegate => rw [hkind] at hprompt; cases hprompt; rfl
  | proposal period protocolHash => rw [hkind] at hprompt; cases hprompt; rfl
  | ballot period protocolHash vote => rw [hkind] at hprompt; cases hprompt; rfl

end Prompt

namespace OperationGroup

variable {key : PublicKey} {allowed : AllowedOperations} {group : OperationGroup}

/-- Votes are the operations without a fee of their own. -/
theorem KindForm.isVote_eq {tag : UInt8} {type : OperationType} {kind : OperationKind}
    {body : Bytes} (hbody : KindForm tag type kind body) :
    kind.isVote = !type.hasManagerFields := by
  cases hbody <;> rfl

/-- In front of a vote only the reveals pay. -/
theorem GroupForm.totalFee_of_vote {parts : GroupParts} (hform : GroupForm key allowed group parts)
    (hvote : group.operation.kind.isVote = true) :
    group.totalFee = (parts.reveals.map OperationParts.fee).sum := by
  have hlast : parts.last.fee = 0 := by
    cases hform.last with
    | @last type operation _ hopens htag hsource hbody =>
        have hfields : type.hasManagerFields = false := by
          rw [← Bool.not_eq_true', ← hbody.isVote_eq]
          exact hvote
        have hnone : parts.last.manager = none :=
          Option.not_isSome_iff_eq_none.mp (by rw [hopens.manager, hfields]; decide)
        rw [OperationParts.fee, hnone]
        rfl
  rw [hform.totalFee, GroupParts.operations, List.map_append, List.sum_append, List.map_singleton,
    List.sum_singleton, hlast, UInt64.add_zero]

end OperationGroup

/-- The detailed review of a group shows its total fee, if there is one, exactly unless the group
is a vote behind reveals that pay: a vote's review has no fee at all, and all that is paid in
front of it is left out. -/
theorem fee_shown_iff {key : PublicKey} {allowed : AllowedOperations} {bytes : Bytes}
    {group : OperationGroup} {prompt : Prompt}
    (hvalue : OperationGroup.ofBytes key allowed bytes = .ok group)
    (hprompt : Prompt.ofGroup? group = some prompt) :
    ((group.totalFee ≠ 0 → prompt.value? "Fee" = some (Prompt.tezText group.totalFee)) ↔
      group.operation.kind.isVote = false ∨ group.totalFee = 0) ∧
    (group.operation.kind.isVote = true → prompt.value? "Fee" = none ∧
      ∃ parts, OperationGroup.GroupForm key allowed group parts ∧ bytes = parts.toBytes ∧
        group.totalFee = (parts.reveals.map OperationGroup.OperationParts.fee).sum) := by
  have hfee := Prompt.fee_of_ofGroup? hprompt
  obtain ⟨parts, hform, hbytes⟩ := OperationGroup.ofBytes_eq_ok_iff.mp hvalue
  cases hvote : group.operation.kind.isVote with
  | false =>
      rw [hvote, if_neg Bool.false_ne_true] at hfee
      exact ⟨⟨fun _ => Or.inl rfl, fun _ _ => hfee⟩, nofun⟩
  | true =>
      rw [hvote, if_pos rfl] at hfee
      refine ⟨⟨fun hshown => Or.inr ?_, ?_⟩,
        fun _ => ⟨hfee, parts, hform, hbytes, hform.totalFee_of_vote hvote⟩⟩
      · by_contra hpaid
        cases hfee.symm.trans (hshown hpaid)
      · rintro (hnone | hfree) hpaid
        · cases hnone
        · exact absurd hfree hpaid

/-- A reveal that pays three in front of a transfer that pays five. -/
theorem fee_shown_iff_transfer :
    let key : PublicKey := .ed25519 (.fill 32 0x11)
    let reveal : Bytes := 107 :: (0x00 :: List.replicate 20 0x33 ++ [0x03, 0x01, 0x02, 0x04]
      ++ 0x00 :: List.replicate 32 0x11)
    let transfer : Bytes := 8 :: (0x01 :: List.replicate 20 0x22 ++ [0x00, 0x05, 0x01, 0x02, 0x06]
      ++ [0x2A] ++ (0x00 :: 0x01 :: List.replicate 20 0x44) ++ [0x00])
    let bytes : Bytes := 0x03 :: (List.replicate 32 0xBB ++ reveal ++ transfer)
    ∃ group prompt, OperationGroup.ofBytes key .all bytes = .ok group ∧
      Prompt.ofGroup? group = some prompt ∧ group.totalFee = 8 ∧
      prompt.value? "Fee" = some (Prompt.tezText 8) := by
  intro key reveal transfer bytes
  let group : OperationGroup := ⟨.ofKey key, 8, 10, true,
    ⟨8, .originated (.fill 20 0x22), .transaction 42 (.implicit .secp256k1 (.fill 20 0x44)) none⟩⟩
  have hvalue : OperationGroup.ofBytes key .all bytes = .ok group := rfl
  exact ⟨group, _, hvalue, rfl, rfl, (fee_shown_iff hvalue rfl).1.mpr (Or.inl rfl) (by decide)⟩

/-- A reveal that pays a thousandth of a tez in front of a ballot, and a review without a fee. -/
theorem fee_hidden_behind_ballot :
    let key : PublicKey := .ed25519 (.fill 32 0x11)
    let account : Bytes := [0x7D, 0x1C, 0x05, 0x72, 0x8F, 0xA0, 0x17, 0x91, 0x9C, 0xBA, 0x7C, 0xCF,
      0x7F, 0xF0, 0x07, 0xEA, 0xCF, 0xEE, 0x7D, 0x55]
    let reveal : Bytes := 107 :: (0x00 :: account ++ [0xE8, 0x07, 0x01, 0x02, 0x00]
      ++ 0x00 :: List.replicate 32 0x11)
    let ballot : Bytes := 6 :: (0x00 :: account ++ [0x00, 0x00, 0x00, 0x1F]
      ++ List.replicate 32 0xCD ++ [0x01])
    let bytes : Bytes := 0x03 :: (List.replicate 32 0xBB ++ reveal ++ ballot)
    ¬ ∀ group prompt, OperationGroup.ofBytes key .all bytes = .ok group →
      Prompt.ofGroup? group = some prompt → group.totalFee ≠ 0 →
        prompt.value? "Fee" = some (Prompt.tezText group.totalFee) := by
  intro key account reveal ballot bytes hshown
  let group : OperationGroup :=
    ⟨.ofKey key, 1000, 0, true, ⟨6, .ofKey key, .ballot 31 (.fill 32 0xCD) .nay⟩⟩
  have hvalue : OperationGroup.ofBytes key .all bytes = .ok group := by decide +kernel
  have hprompt : Prompt.ofGroup? group = some _ := rfl
  have hpaid := hshown group _ hvalue hprompt (by decide)
  cases (Prompt.fee_of_ofGroup? hprompt).symm.trans hpaid

end TezosSigner
