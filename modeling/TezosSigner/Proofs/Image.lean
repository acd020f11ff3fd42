import TezosSigner.Proofs.Flash

/-!
# What an image means

An image is read as a record if and only if it begins with the bytes that the record
takes up: what stands behind them is not looked at. A record that is written puts zeros
there. So to write what was read clears the bytes that mean nothing and keeps all others,
and no two records that flash gives back share an image.
-/

namespace TezosSigner

/-- The first pieces of a byte string are read off a longer cut of it. -/
theorem Bytes.take_pieces {size count most : Nat} (hcount : count ≤ most) (bytes : Bytes) :
    (pieces size most bytes).take count = pieces size count bytes := by
  induction count generalizing most bytes with
  | zero => rfl
  | succ count ih =>
      cases most with
      | zero => exact absurd hcount (Nat.not_succ_le_zero _)
      | succ most => rw [pieces, List.take_succ_cons, ih (Nat.le_of_succ_le_succ hcount), pieces]

/-- The codes of the curves are the numbers up to two. -/
theorem Curve.exists_code_iff (code : UInt8) : (∃ curve : Curve, code = curve.code) ↔ code ≤ 2 := by
  constructor
  · rintro ⟨curve, rfl⟩
    cases curve <;> decide
  · intro hcode
    have hcases : code = 0 ∨ code = 1 ∨ code = 2 := by
      simp only [UInt8.le_iff_toNat_le, ← UInt8.toNat_inj] at hcode ⊢
      change code.toNat ≤ 2 at hcode
      change code.toNat = 0 ∨ code.toNat = 1 ∨ code.toNat = 2
      omega
    rcases hcases with rfl | rfl | rfl
    · exact ⟨.ed25519, rfl⟩
    · exact ⟨.secp256k1, rfl⟩
    · exact ⟨.secp256r1, rfl⟩

namespace FlashImage

/-! ## The bytes that a record takes up -/

/-- A key takes up as many bytes as its path needs, and no key takes up one. -/
def keyText : Option KeyId → Bytes
  | none => [0]
  | some key => 1 :: key.curve.code :: key.path.toBytes

/-- The bytes that tell a record. -/
def text (state : BakingState) : Bytes :=
  state.version :: (Bytes.ofUInt32 state.mainChainId ++ (markBytes state.main
    ++ (markBytes state.test ++ keyText state.key)))

theorem length_keyText (key : Option KeyId) :
    (keyText key).length = 1 + key.elim 0 fun key => 2 + 4 * key.path.components.length := by
  cases key with
  | none => rfl
  | some key =>
      rw [keyText, Path.toBytes, List.length_cons, List.length_cons, List.length_cons,
        Path.length_flatMap_components, Option.elim_some]
      omega

theorem length_text (state : BakingState) :
    (text state).length = 16 + state.key.elim 0 fun key => 2 + 4 * key.path.components.length := by
  simp only [text, markBytes, List.length_cons, List.length_append, Bytes.length_ofUInt32,
    length_keyText, List.length_nil]
  omega

theorem keyBytes_eq (key : Option KeyId) :
    keyBytes key = keyText key ++ List.replicate (43 - (keyText key).length) 0 := by
  rw [length_keyText]
  cases key with
  | none => rfl
  | some key =>
      have hlength := key.path.length_le
      rw [Path.capacity] at hlength
      rw [keyBytes, pathArea, keyText, Path.toBytes, Option.elim_some, Path.capacity,
        show 43 - (1 + (2 + 4 * key.path.components.length)) =
          4 * (10 - key.path.components.length) by omega]
      rfl

/-- A record is written as its bytes, and zeros behind them. -/
theorem ofState_eq (state : BakingState) :
    (ofState state).val = text state ++ List.replicate (flashSize - (text state).length) 0 := by
  have hlength : flashSize - (text state).length = 43 - (keyText state.key).length := by
    rw [length_text, length_keyText, flashSize]
    omega
  rw [hlength]
  simp only [val_ofState, keyBytes_eq, text, List.append_assoc, List.cons_append, List.nil_append]

/-! ## Reading the bytes of an image -/

variable {image : FlashImage} {offset : Nat} {rest : Bytes}

theorem drop_eq_cons (hoffset : offset < flashSize) :
    image.val.drop offset = image.byteAt offset :: image.val.drop (offset + 1) := by
  have hlength : offset < image.val.length := hoffset.trans_eq image.property.symm
  rw [List.drop_eq_getElem_cons hlength, byteAt, List.getD_eq_getElem _ _ hlength]

theorem cons_prefix_drop_iff {byte : UInt8} (hoffset : offset < flashSize) :
    byte :: rest <+: image.val.drop offset ↔
      image.byteAt offset = byte ∧ rest <+: image.val.drop (offset + 1) := by
  rw [drop_eq_cons hoffset, List.cons_prefix_cons, eq_comm]

theorem word_prefix_drop_iff {word : UInt32} (hoffset : offset + 4 ≤ flashSize) :
    Bytes.ofUInt32 word ++ rest <+: image.val.drop offset ↔
      image.wordAt offset = word ∧ rest <+: image.val.drop (offset + 4) := by
  rw [Bytes.drop_eq_word_append (hoffset.trans_eq image.property.symm)]
  constructor
  · rintro ⟨behind, heq⟩
    rw [List.append_assoc] at heq
    obtain ⟨hword, hrest⟩ := List.append_inj heq (by simp)
    exact ⟨(Bytes.ofUInt32_injective hword).symm, behind, hrest⟩
  · rintro ⟨rfl, hrest⟩
    exact (List.prefix_append_right_inj _).mpr hrest

theorem flagAt_eq_ok_iff {value : Bool} :
    image.flagAt offset = .ok value ↔ image.byteAt offset = Bytes.flag value := by
  refine ⟨fun hread => ?_, flagAt_flag⟩
  unfold flagAt at hread
  split at hread
  next hzero =>
    cases hread
    exact hzero
  next =>
    split at hread
    next hone =>
      cases hread
      exact hone
    next => cases hread

theorem markAt_eq_ok_iff {mark : Watermark} :
    image.markAt offset = .ok mark ↔ image.wordAt offset = mark.level ∧
      image.byteAt (offset + 4) = Bytes.flag mark.hadEndorsement := by
  rw [← flagAt_eq_ok_iff, markAt]
  obtain ⟨level, hadEndorsement⟩ := mark
  cases image.flagAt (offset + 4) <;> simp [bind, Except.bind, pure, Except.pure]

/-- A path is read off an image as it is read off a command, where bytes may stand behind it. -/
theorem path_eq_ok_iff {path : Path} :
    image.path = .ok path ↔ path.isEmpty = false ∧ path.toBytes <+: image.val.drop 17 := by
  have hread : image.path = .ok path ↔
      ∃ behind, Path.read (image.val.drop 17) = .ok (path, behind) := by
    have hlength : (image.val.drop 18).length = 40 := by
      rw [List.length_drop, image.property, flashSize]
    rw [drop_eq_cons (by decide), Path.read, FlashImage.path]
    by_cases hcount : (image.byteAt 17).toNat ≤ Path.capacity
    · have hlong : ¬ (image.val.drop 18).length < 4 * (image.byteAt 17).toNat := by
        rw [Path.capacity] at hcount
        omega
      simp only [if_pos hcount, if_neg hlong, ← List.map_take, Bytes.take_pieces hcount,
        Path.ofList]
      by_cases hzero : (image.byteAt 17).toNat = 0
      · rw [dif_neg fun hpath => hpath.1 (by rw [hzero]; rfl), dif_neg fun hpath => hpath.1 hzero]
        simp
      · have hwords : ((Bytes.pieces 4 (image.byteAt 17).toNat (image.val.drop 18)).map
            Bytes.toUInt32).length = (image.byteAt 17).toNat := by simp
        rw [dif_pos ⟨fun hnone => hzero (by rw [← hwords, hnone]; rfl), hwords.trans_le hcount⟩,
          dif_pos ⟨hzero, hcount⟩]
        simp
    · rw [if_neg hcount, dif_neg fun hpath => hcount hpath.2]
      split <;> simp
  simp only [hread, Path.read_eq_ok_iff, exists_and_left, List.prefix_iff_exists_eq_append]

/-! ## An image and its record -/

theorem bind_eq_ok_iff {α β : Type} {first : Except Status β} {next : β → Except Status α}
    {value : α} :
    first >>= next = .ok value ↔ ∃ found, first = .ok found ∧ next found = .ok value := by
  cases first <;> simp [bind, Except.bind]

theorem key_eq_ok_iff {key : Option KeyId} :
    image.key = .ok key ↔ (∀ named, key = some named → named.path.isEmpty = false) ∧
      keyText key <+: image.val.drop 15 := by
  constructor
  · intro hread
    obtain ⟨found, hflag, hread⟩ := bind_eq_ok_iff.mp hread
    have hbyte := flagAt_eq_ok_iff.mp hflag
    cases found with
    | false =>
        cases hread
        exact ⟨nofun, (cons_prefix_drop_iff (by decide)).mpr ⟨hbyte, List.nil_prefix⟩⟩
    | true =>
        rw [if_pos rfl] at hread
        cases hcurve : Curve.ofCode? (image.byteAt 16) with
        | none =>
            rw [hcurve] at hread
            cases hread
        | some curve =>
            rw [hcurve] at hread
            obtain ⟨path, hpath, hread⟩ := bind_eq_ok_iff.mp hread
            cases hread
            obtain ⟨hsome, hrest⟩ := path_eq_ok_iff.mp hpath
            refine ⟨fun named hnamed => ?_, ?_⟩
            · cases hnamed
              exact hsome
            · rw [keyText, cons_prefix_drop_iff (by decide), cons_prefix_drop_iff (by decide)]
              exact ⟨hbyte, Decoder.ofCode?_eq_some_iff.mp hcurve, hrest⟩
  · rintro ⟨hpath, hprefix⟩
    cases key with
    | none =>
        rw [keyText, cons_prefix_drop_iff (by decide)] at hprefix
        have hflag : image.flagAt 15 = .ok false := flagAt_flag hprefix.1
        rw [FlashImage.key, hflag]
        rfl
    | some key =>
        rw [keyText, cons_prefix_drop_iff (by decide), cons_prefix_drop_iff (by decide)] at hprefix
        obtain ⟨hbyte, hcurve, hrest⟩ := hprefix
        have hflag : image.flagAt 15 = .ok true := flagAt_flag hbyte
        rw [FlashImage.key, hflag, hcurve, Curve.ofCode?_code,
          path_eq_ok_iff.mpr ⟨hpath key rfl, hrest⟩]
        rfl

/-- The bytes of a record stand where they are looked for. -/
theorem text_prefix_iff {state : BakingState} :
    text state <+: image.val ↔ image.byteAt 0 = state.version ∧
      image.wordAt 1 = state.mainChainId ∧ image.markAt 5 = .ok state.main ∧
      image.markAt 10 = .ok state.test ∧ keyText state.key <+: image.val.drop 15 := by
  change text state <+: image.val.drop 0 ↔ _
  simp (disch := decide) only [text, markBytes, List.append_assoc, List.cons_append,
    List.nil_append, cons_prefix_drop_iff, word_prefix_drop_iff, markAt_eq_ok_iff, and_assoc]

/-- An image is read as a record if it begins with the bytes of the record, and flash gives it
back. -/
theorem state_eq_ok_iff {state : BakingState} :
    image.state = .ok state ↔ state.Storable ∧ text state <+: image.val := by
  rw [text_prefix_iff]
  constructor
  · intro hread
    unfold FlashImage.state at hread
    split at hread
    next hversion =>
      obtain ⟨main, hmain, hread⟩ := bind_eq_ok_iff.mp hread
      obtain ⟨test, htest, hread⟩ := bind_eq_ok_iff.mp hread
      obtain ⟨key, hkey, hread⟩ := bind_eq_ok_iff.mp hread
      cases hread
      obtain ⟨hpath, htext⟩ := key_eq_ok_iff.mp hkey
      exact ⟨⟨rfl, hpath⟩, hversion, rfl, hmain, htest, htext⟩
    next => cases hread
  · rintro ⟨⟨hcurrent, hpath⟩, hversion, hchain, hmain, htest, hkey⟩
    have hlayout : state.version = BakingState.currentVersion := beq_iff_eq.mp hcurrent
    rw [FlashImage.state, if_pos (hversion.trans hlayout), hchain, hmain, htest,
      key_eq_ok_iff.mpr ⟨hpath, hkey⟩, ← hlayout]
    rfl

/-- What is loaded from flash is a record that flash gives back, or a fresh one in place of an
image that cannot be read. -/
theorem storable_load (store : FlashStore) : (Store.load store).Storable := by
  change (store.image.state.toOption.getD .fresh).Storable
  cases hread : store.image.state with
  | ok state => exact (state_eq_ok_iff.mp hread).1
  | error status =>
      refine ⟨rfl, fun key hkey => ?_⟩
      cases hkey

/-- Whatever a run stores in flash is read back as it was written. -/
instance : LawfulStore FlashStore where
  load_save {state store after} hsucceeds hsave := by
    have hstate := hsucceeds.storable (storable_load store)
    obtain ⟨_, _, broken⟩ := store
    cases broken with
    | true => cases hsave
    | false =>
        cases hsave
        change (ofState state).state.toOption.getD .fresh = state
        rw [state_ofState hstate]
        rfl
  load_setBroken _ _ := rfl

/-! ## Which images are read -/

/-- A reading that fails for no other reason than the values it finds. -/
def Refuses {α : Type} (result : Except Status α) : Prop :=
  ∀ status, result = .error status → status = .wrongValues

theorem refuses_bind {α β : Type} {first : Except Status β} {next : β → Except Status α}
    (hfirst : Refuses first) (hnext : ∀ value, Refuses (next value)) :
    Refuses (first >>= next) := by
  cases first with
  | ok value => exact hnext value
  | error status =>
      intro status' hfails
      cases hfails
      exact hfirst status rfl

theorem refuses_ite {α : Type} {condition : Prop} [Decidable condition]
    {result : Except Status α} (hresult : Refuses result) :
    Refuses (if condition then result else .error .wrongValues) := by
  split
  next => exact hresult
  next =>
    rintro _ ⟨⟩
    rfl

theorem refuses_flagAt (image : FlashImage) (offset : Nat) : Refuses (image.flagAt offset) := by
  unfold flagAt
  split
  next => exact nofun
  next => exact refuses_ite nofun

theorem refuses_markAt (image : FlashImage) (offset : Nat) : Refuses (image.markAt offset) :=
  refuses_bind (image.refuses_flagAt _) fun _ => nofun

theorem refuses_path (image : FlashImage) : Refuses image.path := by
  apply refuses_ite
  unfold Path.ofList
  split
  next => rintro _ ⟨⟩
  next =>
    rintro _ ⟨⟩
    rfl

theorem refuses_key (image : FlashImage) : Refuses image.key := by
  apply refuses_bind (image.refuses_flagAt 15)
  intro hasKey
  split
  next =>
    split
    next => exact refuses_bind image.refuses_path fun _ => nofun
    next =>
      rintro _ ⟨⟩
      rfl
  next => exact nofun

theorem refuses_state (image : FlashImage) : Refuses image.state :=
  refuses_ite <| refuses_bind (image.refuses_markAt 5) fun _ =>
    refuses_bind (image.refuses_markAt 10) fun _ => refuses_bind image.refuses_key fun _ => nofun

theorem exists_flagAt_iff :
    (∃ value, image.flagAt offset = .ok value) ↔
      image.byteAt offset = 0 ∨ image.byteAt offset = 1 := by
  simp [flagAt_eq_ok_iff, Bytes.flag]

theorem exists_markAt_iff :
    (∃ mark, image.markAt offset = .ok mark) ↔
      image.byteAt (offset + 4) = 0 ∨ image.byteAt (offset + 4) = 1 := by
  rw [← exists_flagAt_iff]
  constructor
  · rintro ⟨mark, hmark⟩
    exact ⟨_, flagAt_eq_ok_iff.mpr (markAt_eq_ok_iff.mp hmark).2⟩
  · rintro ⟨value, hvalue⟩
    exact ⟨⟨_, value⟩, markAt_eq_ok_iff.mpr ⟨rfl, flagAt_eq_ok_iff.mp hvalue⟩⟩

theorem exists_path_iff :
    (∃ path, image.path = .ok path) ↔ 1 ≤ image.byteAt 17 ∧ image.byteAt 17 ≤ 10 := by
  rw [UInt8.le_iff_toNat_le, UInt8.le_iff_toNat_le]
  constructor
  · rintro ⟨path, hread⟩
    obtain ⟨hsome, htext⟩ := path_eq_ok_iff.mp hread
    rw [Path.toBytes, cons_prefix_drop_iff (by decide)] at htext
    rw [htext.1, path.toNat_count]
    exact ⟨Nat.one_le_iff_ne_zero.mpr (Path.isEmpty_eq_false_iff.mp hsome), path.length_le⟩
  · rintro ⟨hleast, hmost⟩
    have hcount : (image.byteAt 17).toNat ≤ Path.capacity := hmost
    have hwords : (((Bytes.pieces 4 Path.capacity (image.val.drop 18)).map Bytes.toUInt32).take
        (image.byteAt 17).toNat).length = (image.byteAt 17).toNat := by
      rw [List.length_take, List.length_map, Bytes.length_pieces, min_eq_left hcount]
    rw [FlashImage.path, if_pos hcount, Path.ofList, dif_pos]
    · exact ⟨_, rfl⟩
    · rw [← List.length_pos_iff, hwords]
      exact ⟨hleast, hcount⟩

theorem exists_key_iff :
    (∃ key, image.key = .ok key) ↔ image.byteAt 15 = 0 ∨ image.byteAt 15 = 1 ∧
      image.byteAt 16 ≤ 2 ∧ 1 ≤ image.byteAt 17 ∧ image.byteAt 17 ≤ 10 := by
  constructor
  · rintro ⟨key, hread⟩
    obtain ⟨hpath, htext⟩ := key_eq_ok_iff.mp hread
    cases key with
    | none =>
        rw [keyText, cons_prefix_drop_iff (by decide)] at htext
        exact Or.inl htext.1
    | some key =>
        rw [keyText, cons_prefix_drop_iff (by decide), cons_prefix_drop_iff (by decide)] at htext
        obtain ⟨hflag, hcurve, hrest⟩ := htext
        refine Or.inr ⟨hflag, ?_, exists_path_iff.mp ⟨_, path_eq_ok_iff.mpr ⟨hpath key rfl, hrest⟩⟩⟩
        rw [hcurve]
        exact (Curve.exists_code_iff _).mp ⟨_, rfl⟩
  · rintro (hnone | ⟨hflag, hcurve, hcount⟩)
    · exact ⟨none, key_eq_ok_iff.mpr
        ⟨nofun, (cons_prefix_drop_iff (by decide)).mpr ⟨hnone, List.nil_prefix⟩⟩⟩
    · obtain ⟨curve, hcurve⟩ := (Curve.exists_code_iff _).mpr hcurve
      obtain ⟨path, hread⟩ := exists_path_iff.mpr hcount
      obtain ⟨hsome, hrest⟩ := path_eq_ok_iff.mp hread
      refine ⟨some ⟨curve, path⟩, key_eq_ok_iff.mpr ⟨fun named hnamed => ?_, ?_⟩⟩
      · cases hnamed
        exact hsome
      · rw [keyText, cons_prefix_drop_iff (by decide), cons_prefix_drop_iff (by decide)]
        exact ⟨hflag, hcurve, hrest⟩

theorem exists_state_iff :
    (∃ state, image.state = .ok state) ↔ image.byteAt 0 = BakingState.currentVersion ∧
      (∃ main, image.markAt 5 = .ok main) ∧ (∃ test, image.markAt 10 = .ok test) ∧
      ∃ key, image.key = .ok key := by
  unfold FlashImage.state
  split
  next hversion => simp [bind_eq_ok_iff, hversion, pure, Except.pure]
  next hversion => simp [hversion, throw, throwThe, MonadExceptOf.throw]

/-! ## Which bytes have a meaning -/

/-- The image of a record holds its bytes, and zeros from there on. -/
theorem byteAt_ofState (state : BakingState) (offset : Nat) :
    (ofState state).byteAt offset = (text state).getD offset 0 := by
  simp only [byteAt, ofState_eq, List.getD_eq_getElem?_getD, List.getElem?_append,
    List.getElem?_replicate]
  split
  next => rfl
  next hbehind =>
    rw [List.getElem?_eq_none (Nat.le_of_not_lt hbehind)]
    split <;> rfl

theorem byteAt_of_prefix {state : BakingState} (htext : text state <+: image.val)
    (hoffset : offset < (text state).length) :
    image.byteAt offset = (text state).getD offset 0 := by
  obtain ⟨behind, hbytes⟩ := htext
  rw [byteAt, ← hbytes, List.getD_append _ _ _ _ hoffset]

/-- How many bytes a record takes up is told by its image. -/
theorem lt_length_text_iff {state : BakingState} (htext : text state <+: image.val) :
    offset < (text state).length ↔
      offset < 16 ∨ image.byteAt 15 = 1 ∧ offset < 18 + 4 * (image.byteAt 17).toNat := by
  obtain ⟨_, _, _, _, hkey⟩ := text_prefix_iff.mp htext
  rw [length_text]
  cases hstate : state.key with
  | none =>
      rw [hstate, keyText, cons_prefix_drop_iff (by decide)] at hkey
      rw [hkey.1]
      exact (or_iff_left fun hsome => absurd hsome.1 (by decide)).symm
  | some key =>
      rw [hstate, keyText, Path.toBytes, cons_prefix_drop_iff (by decide),
        cons_prefix_drop_iff (by decide), cons_prefix_drop_iff (by decide)] at hkey
      obtain ⟨hflag, _, hcount, _⟩ := hkey
      rw [hflag, hcount, key.path.toNat_count, Option.elim_some, and_iff_right rfl]
      omega

end FlashImage

/-- Just those images are read whose version byte is one, whose two endorsement flags and key byte
are zero or one, and whose key, if there is one, has a curve code of at most two and a path of one
to ten components; all others are refused for their values. To write the record that was read
keeps every byte of the image that has a meaning and clears all others, and it is read as the same
record again. Two records of the current layout whose keys have paths share no image. -/
theorem flash_image_canonical (image : FlashImage) :
    let live (offset : Nat) : Prop :=
      offset < 16 ∨ image.byteAt 15 = 1 ∧ offset < 18 + 4 * (image.byteAt 17).toNat
    ((∃ state, image.state = .ok state) ↔
      image.byteAt 0 = 1 ∧
      (∀ offset ∈ [9, 14, 15], image.byteAt offset = 0 ∨ image.byteAt offset = 1) ∧
      (image.byteAt 15 = 1 →
        image.byteAt 16 ≤ 2 ∧ 1 ≤ image.byteAt 17 ∧ image.byteAt 17 ≤ 10)) ∧
    (∀ status, image.state = .error status → status = .wrongValues) ∧
    (∀ state, image.state = .ok state →
      (∀ offset, live offset → (FlashImage.ofState state).byteAt offset = image.byteAt offset) ∧
      (∀ offset, ¬ live offset → (FlashImage.ofState state).byteAt offset = 0) ∧
      (FlashImage.ofState state).state = .ok state) ∧
    ∀ first second : BakingState, first.isCurrent = true → second.isCurrent = true →
      (∀ key, first.key = some key → key.path.isEmpty = false) →
      (∀ key, second.key = some key → key.path.isEmpty = false) →
      FlashImage.ofState first = FlashImage.ofState second → first = second := by
  intro live
  refine ⟨?_, image.refuses_state, fun state hread => ?_, ?_⟩
  · rw [FlashImage.exists_state_iff, FlashImage.exists_markAt_iff, FlashImage.exists_markAt_iff,
      FlashImage.exists_key_iff]
    simp only [List.forall_mem_cons, List.not_mem_nil, false_imp_iff, implies_true, and_true,
      and_assoc]
    refine and_congr Iff.rfl (and_congr Iff.rfl (and_congr Iff.rfl ?_))
    constructor
    · rintro (hnone | ⟨hsome, hkey⟩)
      · exact ⟨Or.inl hnone, fun hsome => absurd (hnone.symm.trans hsome) (by decide)⟩
      · exact ⟨Or.inr hsome, fun _ => hkey⟩
    · rintro ⟨hnone | hsome, hkey⟩
      · exact Or.inl hnone
      · exact Or.inr ⟨hsome, hkey hsome⟩
  · obtain ⟨hstate, htext⟩ := FlashImage.state_eq_ok_iff.mp hread
    refine ⟨fun offset hlive => ?_, fun offset hdead => ?_, FlashImage.state_ofState hstate⟩
    · rw [FlashImage.byteAt_ofState, FlashImage.byteAt_of_prefix htext]
      exact (FlashImage.lt_length_text_iff htext).mpr hlive
    · rw [FlashImage.byteAt_ofState, List.getD_eq_default]
      exact Nat.le_of_not_lt fun hoffset => hdead ((FlashImage.lt_length_text_iff htext).mp hoffset)
  · intro first second hfirst hsecond hpath hpath' himage
    have hread := FlashImage.state_ofState ⟨hfirst, hpath⟩
    rw [himage, FlashImage.state_ofState ⟨hsecond, hpath'⟩] at hread
    cases hread
    rfl

/-- An image whose path has one component, with bytes behind it that mean nothing: it is read, and
they are cleared when it is written. If its count says eleven it is refused. -/
theorem flash_image_canonical_slack :
    let image (count : UInt8) : FlashImage :=
      ⟨[1] ++ List.replicate 14 0 ++ [1, 2, count, 0x80, 0, 0, 0] ++ List.replicate 36 0xFF, rfl⟩
    (∃ state, (image 1).state = .ok state ∧ (FlashImage.ofState state).byteAt 18 = 0x80 ∧
      (∀ offset, 22 ≤ offset → (FlashImage.ofState state).byteAt offset = 0) ∧
      (FlashImage.ofState state).state = .ok state) ∧
    (image 11).state = .error .wrongValues := by
  intro image
  obtain ⟨hreads, _, hwrites, _⟩ := flash_image_canonical (image 1)
  obtain ⟨hreads', hrefuses, _⟩ := flash_image_canonical (image 11)
  constructor
  · obtain ⟨state, hread⟩ := hreads.mpr (by decide)
    obtain ⟨hkept, hcleared, hagain⟩ := hwrites state hread
    refine ⟨state, hread, hkept 18 (by decide), fun offset hoffset => hcleared offset ?_, hagain⟩
    rintro (hfixed | ⟨_, hpath⟩)
    · omega
    · exact absurd (Nat.lt_of_lt_of_le hpath (by decide)) (Nat.not_lt_of_le hoffset)
  · cases hread : (image 11).state with
    | ok state => exact absurd (hreads'.mp ⟨state, hread⟩) (by decide)
    | error status => rw [hrefuses status hread]

end TezosSigner
