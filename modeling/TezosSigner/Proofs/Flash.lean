import TezosSigner.Proofs.Succession

/-!
# Records that flash gives back

Every record has an image in flash: what is written at the offsets stands there one field
behind the other. But an image is read back only if it is of the current layout and its
key, if there is one, has a path. Such a record is read back as it was written, and
whatever a run stores over it is such a record again.
-/

namespace TezosSigner

namespace BakingState

/-- A record that flash gives back: it is of the current layout, and its key has a path. -/
structure Storable (state : BakingState) : Prop where
  current : state.isCurrent = true
  path : ∀ key, state.key = some key → key.path.isEmpty = false

namespace Storable

variable {state : BakingState}

theorem checked_eq (hstate : state.Storable) : state.checked = state :=
  state.checked_of_isCurrent hstate.current

theorem succeeds (hstate : state.Storable) (previous : BakingState) : state.Succeeds previous :=
  ⟨hstate.current, fun key hkey => Or.inl (hstate.path key hkey)⟩

end Storable

variable {state previous : BakingState}

/-- What a run stores over such a record is such a record again. -/
theorem Succeeds.storable (hstate : state.Succeeds previous) (hprevious : previous.Storable) :
    state.Storable :=
  ⟨hstate.current, fun key hkey => (hstate.path key hkey).elim id (hprevious.path key)⟩

theorem Storable.setMark (hstate : state.Storable) (chain : Chain) (mark : Watermark) :
    (state.setMark chain mark).Storable :=
  ((hstate.succeeds state).setMark chain mark).storable hstate

theorem Storable.recordSigned (hstate : state.Storable) {data : ConsensusData}
    {after : BakingState} (hsigned : state.recordSigned data = .ok after) : after.Storable := by
  unfold BakingState.recordSigned at hsigned
  split at hsigned
  next =>
    cases hsigned
    exact hstate.setMark _ _
  next => cases hsigned

theorem Storable.deauthorize (hstate : state.Storable) : state.deauthorize.Storable :=
  (hstate.succeeds state).deauthorize.storable hstate

end BakingState

namespace FlashImage

/-! ## What is written -/

def markBytes (mark : Watermark) : Bytes :=
  Bytes.ofUInt32 mark.level ++ [Bytes.flag mark.hadEndorsement]

/-- The room for a path: its components, then zeros. -/
def pathArea (path : Path) : Bytes :=
  path.components.flatMap Bytes.ofUInt32
    ++ List.replicate (4 * (Path.capacity - path.components.length)) 0

/-- A key behind the byte that tells whether there is one. -/
def keyBytes : Option KeyId → Bytes
  | none => List.replicate 43 0
  | some key =>
      [1, key.curve.code, UInt8.ofNat key.path.components.length] ++ pathArea key.path

/-- A word that is put over zeros stands behind what is in front of them. -/
theorem putWord_zeros (front : Bytes) (word : UInt32) (room : Nat) :
    putWord front.length word (front ++ List.replicate (4 + room) 0) =
      front ++ Bytes.ofUInt32 word ++ List.replicate room 0 := by
  rw [putWord, Bytes.overwrite, List.take_left, Bytes.length_ofUInt32, ← List.drop_drop,
    List.drop_left, List.drop_replicate, Nat.add_sub_cancel_left]

theorem putWords_zeros (front : Bytes) (words : List UInt32) (room : Nat) :
    putWords front.length words (front ++ List.replicate (4 * words.length + room) 0) =
      front ++ words.flatMap Bytes.ofUInt32 ++ List.replicate room 0 := by
  induction words generalizing front with
  | nil => simp [putWords]
  | cons word words ih =>
      have hroom : 4 * (word :: words).length + room = 4 + (4 * words.length + room) := by
        rw [List.length_cons]
        omega
      have hfront : front.length + 4 = (front ++ Bytes.ofUInt32 word).length := by
        rw [List.length_append, Bytes.length_ofUInt32]
      rw [putWords, hroom, putWord_zeros, hfront, ih, List.flatMap_cons, List.append_assoc front]

/-- The writes at the offsets leave the fields one behind the other. -/
theorem val_ofState (state : BakingState) :
    (ofState state).val = [state.version] ++ Bytes.ofUInt32 state.mainChainId
      ++ markBytes state.main ++ markBytes state.test ++ keyBytes state.key := by
  let marks := [state.version] ++ Bytes.ofUInt32 state.mainChainId
    ++ markBytes state.main ++ markBytes state.test
  have hmarks : putMark 10 state.test (putMark 5 state.main (putWord 1 state.mainChainId
      ((List.replicate flashSize 0).set 0 state.version))) = marks ++ List.replicate 43 0 := rfl
  change written state = marks ++ keyBytes state.key
  unfold written
  dsimp only
  rw [hmarks]
  cases state.key with
  | none => rfl
  | some key =>
      let front := marks ++ [1, key.curve.code, UInt8.ofNat key.path.components.length]
      have hroom : 40 = 4 * key.path.components.length
          + 4 * (Path.capacity - key.path.components.length) := by
        have hlength := key.path.length_le
        rw [Path.capacity] at hlength ⊢
        omega
      change putWords front.length key.path.components (front ++ List.replicate 40 0) = _
      rw [hroom, putWords_zeros]
      simp only [front, keyBytes, pathArea, List.append_assoc]

/-! ## What is read back -/

variable (state : BakingState)

theorem wordAt_ofState :
    (ofState state).wordAt 1 = state.mainChainId ∧ (ofState state).wordAt 5 = state.main.level ∧
      (ofState state).wordAt 10 = state.test.level := by
  simp only [wordAt, val_ofState]
  exact ⟨Bytes.toUInt32_ofUInt32 _, Bytes.toUInt32_ofUInt32 _, Bytes.toUInt32_ofUInt32 _⟩

theorem fixedBytes_ofState :
    (ofState state).byteAt 0 = state.version ∧
      (ofState state).byteAt 9 = Bytes.flag state.main.hadEndorsement ∧
      (ofState state).byteAt 14 = Bytes.flag state.test.hadEndorsement := by
  simp only [byteAt, val_ofState]
  exact ⟨rfl, rfl, rfl⟩

theorem flagAt_flag {image : FlashImage} {offset : Nat} {value : Bool}
    (hbyte : image.byteAt offset = Bytes.flag value) : image.flagAt offset = .ok value := by
  rw [flagAt, hbyte]
  cases value <;> rfl

theorem markAt_ofState :
    (ofState state).markAt 5 = .ok state.main ∧ (ofState state).markAt 10 = .ok state.test := by
  obtain ⟨_, hmain, htest⟩ := wordAt_ofState state
  obtain ⟨_, hmainFlag, htestFlag⟩ := fixedBytes_ofState state
  rw [markAt, markAt, hmain, htest, flagAt_flag hmainFlag, flagAt_flag htestFlag]
  exact ⟨rfl, rfl⟩

variable {state}

/-- What stands behind the marks is the key, whatever they are. -/
theorem drop_ofState : (ofState state).val.drop 15 = keyBytes state.key := by
  rw [val_ofState]
  rfl

theorem keyByte_ofState (offset : Nat) :
    (ofState state).byteAt (15 + offset) = (keyBytes state.key).getD offset 0 := by
  rw [byteAt, List.getD_eq_getElem?_getD, ← List.getElem?_drop, drop_ofState,
    ← List.getD_eq_getElem?_getD]

theorem path_ofState {key : KeyId} (hkey : state.key = some key)
    (hpath : key.path.isEmpty = false) : (ofState state).path = .ok key.path := by
  have hfits : key.path.components.length ≤ Path.capacity := key.path.length_le
  have hcount : ((ofState state).byteAt 17).toNat = key.path.components.length := by
    rw [keyByte_ofState 2, hkey]
    exact key.path.toNat_count
  have harea : (ofState state).val.drop 18 = pathArea key.path := by
    rw [show 18 = 15 + 3 from rfl, ← List.drop_drop, drop_ofState, hkey]
    rfl
  have hsome : key.path.components ≠ [] := by
    intro hnone
    rw [Path.isEmpty, hnone] at hpath
    cases hpath
  rw [path, hcount, harea, if_pos hfits, pathArea, Bytes.take_pieces_words _ _ hfits, Path.ofList,
    dif_pos ⟨hsome, hfits⟩]

theorem key_ofState (hpath : ∀ key, state.key = some key → key.path.isEmpty = false) :
    (ofState state).key = .ok state.key := by
  have hflag : (ofState state).flagAt 15 = .ok state.key.isSome := by
    apply flagAt_flag
    rw [keyByte_ofState 0]
    cases state.key <;> rfl
  rw [key, hflag]
  cases hkey : state.key with
  | none => rfl
  | some key =>
      have hcurve : (ofState state).byteAt 16 = key.curve.code := by
        rw [keyByte_ofState 1, hkey]
        rfl
      rw [hcurve, Curve.ofCode?_code, path_ofState hkey (hpath key hkey)]
      rfl

/-- A record that flash gives back is read as it was written. -/
theorem state_ofState (hstate : state.Storable) : (ofState state).state = .ok state := by
  have hversion : state.version = BakingState.currentVersion := beq_iff_eq.mp hstate.current
  obtain ⟨hbyte, _, _⟩ := fixedBytes_ofState state
  obtain ⟨hchain, _, _⟩ := wordAt_ofState state
  obtain ⟨hmain, htest⟩ := markAt_ofState state
  rw [FlashImage.state, if_pos (hbyte.trans hversion), hchain, hmain, htest,
    key_ofState hstate.path, ← hversion]
  rfl

end FlashImage

end TezosSigner
