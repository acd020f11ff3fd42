import TezosSigner.Baking.State

/-!
# The flash image of the baking state

The state is kept as an image of fixed size: layout version, main chain, the two
marks with their endorsement flags, and the key with room for the longest path.
Integers are big-endian, and bytes that mean nothing are zero. Any content may be
found in flash, so reading an image may fail.
-/

namespace TezosSigner

def flashSize : Nat := 58

abbrev FlashImage := Bytes.Sized flashSize

namespace FlashImage

def putWord (offset : Nat) (word : UInt32) (record : Bytes) : Bytes :=
  record.overwrite offset (Bytes.ofUInt32 word)

def putMark (offset : Nat) (mark : Watermark) (record : Bytes) : Bytes :=
  (putWord offset mark.level record).set (offset + 4) (Bytes.flag mark.hadEndorsement)

/-- Puts words one behind the other, the first one at an offset. -/
def putWords : Nat → List UInt32 → Bytes → Bytes
  | _, [], record => record
  | offset, word :: words, record => putWords (offset + 4) words (putWord offset word record)

/-- A key stands behind the byte that tells whether there is one. -/
def putKey (key : KeyId) (record : Bytes) : Bytes :=
  let record := record.set 15 1
  let record := record.set 16 key.curve.code
  let record := record.set 17 (UInt8.ofNat key.path.components.length)
  putWords 18 key.path.components record

/-- What a state puts over zeros. -/
def written (state : BakingState) : Bytes :=
  let record := List.replicate flashSize 0
  let record := record.set 0 state.version
  let record := putWord 1 state.mainChainId record
  let record := putMark 5 state.main record
  let record := putMark 10 state.test record
  match state.key with
  | none => record
  | some key => putKey key record

theorem length_putWord {offset : Nat} {record : Bytes} (hroom : offset + 4 ≤ record.length)
    (word : UInt32) : (putWord offset word record).length = record.length := by
  apply Bytes.length_overwrite
  rw [Bytes.ofUInt32, Bytes.length_bigEndian]
  exact hroom

theorem length_putWords {offset : Nat} {words : List UInt32} {record : Bytes}
    (hroom : offset + 4 * words.length ≤ record.length) :
    (putWords offset words record).length = record.length := by
  induction words generalizing offset record with
  | nil => rfl
  | cons word words ih =>
      rw [List.length_cons] at hroom
      have hword := length_putWord (show offset + 4 ≤ record.length by omega) word
      rw [putWords, ih (by rw [hword]; omega), hword]

theorem length_written (state : BakingState) : (written state).length = flashSize := by
  have hlength : ∀ chain main test, (putMark 10 test (putMark 5 main (putWord 1 chain
      ((List.replicate flashSize 0).set 0 state.version)))).length = flashSize := by
    intros
    rfl
  unfold written
  dsimp only
  split
  next => exact hlength _ _ _
  next key _ =>
    have hpath := key.path.length_le
    rw [Path.capacity] at hpath
    rw [putKey, length_putWords]
    · rw [List.length_set, List.length_set, List.length_set, hlength]
    · rw [List.length_set, List.length_set, List.length_set, hlength, flashSize]
      omega

def ofState (state : BakingState) : FlashImage :=
  ⟨written state, length_written state⟩

/-- The image that holds nothing but the current layout version. -/
def blank : FlashImage :=
  ⟨BakingState.currentVersion :: List.replicate 57 0, by decide⟩

def byteAt (image : FlashImage) (offset : Nat) : UInt8 :=
  image.val.getD offset 0

def wordAt (image : FlashImage) (offset : Nat) : UInt32 :=
  Bytes.toUInt32 ((image.val.drop offset).take 4)

/-- The flag at an offset, which has to be zero or one. -/
def flagAt (image : FlashImage) (offset : Nat) : Except Status Bool :=
  if image.byteAt offset = 0 then .ok false
  else if image.byteAt offset = 1 then .ok true
  else .error .wrongValues

def markAt (image : FlashImage) (offset : Nat) : Except Status Watermark := do
  return ⟨image.wordAt offset, ← image.flagAt (offset + 4)⟩

/-- The path of the key: as many components as its count byte says. -/
def path (image : FlashImage) : Except Status Path :=
  let area := (Bytes.pieces 4 Path.capacity (image.val.drop 18)).map Bytes.toUInt32
  let count := (image.byteAt 17).toNat
  if count ≤ Path.capacity then Path.ofList (area.take count) else .error .wrongValues

/-- The key, if the image says that there is one. -/
def key (image : FlashImage) : Except Status (Option KeyId) := do
  if ← image.flagAt 15 then
    match Curve.ofCode? (image.byteAt 16) with
    | some curve => return some ⟨curve, ← image.path⟩
    | none => throw .wrongValues
  else return none

def state (image : FlashImage) : Except Status BakingState := do
  if image.byteAt 0 = BakingState.currentVersion then
    return {
      version := BakingState.currentVersion
      mainChainId := image.wordAt 1
      main := ← image.markAt 5
      test := ← image.markAt 10
      key := ← image.key }
  else throw .wrongValues

end FlashImage

end TezosSigner
