import TezosSigner.Key.Id
import TezosSigner.Proofs.Reading

/-!
# Paths on the wire

A word is read back from its four bytes, and four bytes are written back as they were
read. So what is read as a path is just what a path that is not empty is written as,
with any bytes behind it, and a path has one written form.
-/

namespace TezosSigner

namespace Bytes

@[simp] theorem length_ofUInt32 (word : UInt32) : (ofUInt32 word).length = 4 :=
  length_bigEndian 4 _

theorem toUInt32_ofUInt32 (word : UInt32) : toUInt32 (ofUInt32 word) = word := by
  rw [toUInt32, ofUInt32, toNat_bigEndian word.toNat_lt, UInt32.ofNat_toNat]

theorem ofUInt32_toUInt32 {bytes : Bytes} (hlength : bytes.length = 4) :
    ofUInt32 (toUInt32 bytes) = bytes := by
  have hless : bytes.toNat < 256 ^ 4 := hlength ▸ toNat_lt bytes
  rw [ofUInt32, toUInt32, UInt32.toNat_ofNat_of_lt' hless, ← hlength, bigEndian_toNat]

theorem ofUInt32_injective : Function.Injective ofUInt32 :=
  Function.LeftInverse.injective toUInt32_ofUInt32

/-- A word is cut off in front of what follows it. -/
theorem drop_eq_word_append {bytes : Bytes} {offset : Nat} (hlength : offset + 4 ≤ bytes.length) :
    bytes.drop offset =
      ofUInt32 (toUInt32 ((bytes.drop offset).take 4)) ++ bytes.drop (offset + 4) := by
  rw [ofUInt32_toUInt32, ← List.drop_drop, List.take_append_drop]
  rw [List.length_take, List.length_drop]
  omega

/-- Words are read back from pieces of their own length, whatever comes behind them. -/
theorem take_pieces_words (words : List UInt32) (rest : Bytes) {count : Nat}
    (hcount : words.length ≤ count) :
    ((pieces 4 count (words.flatMap ofUInt32 ++ rest)).map toUInt32).take words.length = words := by
  induction words generalizing count with
  | nil => rfl
  | cons word words ih =>
      cases count with
      | zero => exact absurd hcount (Nat.not_succ_le_zero _)
      | succ count =>
          rw [List.flatMap_cons, List.append_assoc, pieces, List.take_left' (length_ofUInt32 word),
            List.drop_left' (length_ofUInt32 word), List.map_cons, List.length_cons,
            List.take_succ_cons, toUInt32_ofUInt32, ih (Nat.le_of_succ_le_succ hcount)]

/-- Pieces that are read as words are written back. -/
theorem flatMap_pieces {count : Nat} {bytes : Bytes} (hlength : 4 * count ≤ bytes.length) :
    ((pieces 4 count bytes).map toUInt32).flatMap ofUInt32 = bytes.take (4 * count) := by
  induction count generalizing bytes with
  | zero => rfl
  | succ count ih =>
      have hpiece : (bytes.take 4).length = 4 := by
        rw [List.length_take]
        omega
      have hrest : 4 * count ≤ (bytes.drop 4).length := by
        rw [List.length_drop]
        omega
      rw [pieces, List.map_cons, List.flatMap_cons, ofUInt32_toUInt32 hpiece, ih hrest,
        Nat.mul_succ, Nat.add_comm, List.take_add]

end Bytes

namespace Path

variable {path : Path} {bytes rest : Bytes}

theorem isEmpty_eq_false_iff : path.isEmpty = false ↔ path.components.length ≠ 0 := by
  rw [isEmpty, List.isEmpty_eq_false_iff, ne_eq, ne_eq, List.length_eq_zero_iff]

/-- The count byte tells the number of components. -/
theorem toNat_count (path : Path) :
    (UInt8.ofNat path.components.length).toNat = path.components.length :=
  UInt8.toNat_ofNat_of_lt' (Nat.lt_of_le_of_lt path.length_le (by decide))

theorem length_flatMap_components (path : Path) :
    (path.components.flatMap Bytes.ofUInt32).length = 4 * path.components.length := by
  rw [List.length_flatMap, List.map_congr_left fun word _ => Bytes.length_ofUInt32 word,
    List.map_const', List.sum_replicate, smul_eq_mul, Nat.mul_comm]

/-- A path is read from its written form and from nothing else, and the bytes behind it play
no part. -/
theorem read_eq_ok_iff :
    read bytes = .ok (path, rest) ↔ path.isEmpty = false ∧ bytes = path.toBytes ++ rest := by
  constructor
  · intro hread
    cases bytes with
    | nil => cases hread
    | cons count bytes =>
        rw [read] at hread
        split_ifs at hread with hshort hcount
        cases hread
        rw [isEmpty_eq_false_iff, toBytes, List.length_map, Bytes.length_pieces,
          Bytes.flatMap_pieces (Nat.le_of_not_lt hshort), UInt8.ofNat_toNat, List.cons_append,
          List.take_append_drop]
        exact ⟨hcount.1, rfl⟩
  · rintro ⟨hpath, rfl⟩
    have hsome := isEmpty_eq_false_iff.mp hpath
    have hlength := path.length_flatMap_components
    have hlong : ¬ (path.components.flatMap Bytes.ofUInt32 ++ rest).length <
        4 * path.components.length := by
      rw [List.length_append, hlength]
      omega
    have hwords : (Bytes.pieces 4 path.components.length
        (path.components.flatMap Bytes.ofUInt32 ++ rest)).map Bytes.toUInt32 = path.components := by
      have htake := Bytes.take_pieces_words path.components rest (Nat.le_refl _)
      rwa [List.take_of_length_le (by rw [List.length_map, Bytes.length_pieces])] at htake
    simp only [toBytes, List.cons_append, read, toNat_count, if_neg hlong,
      dif_pos (And.intro hsome path.length_le), hwords, List.drop_left' hlength]

/-- A path that takes up a whole byte string is its written form. -/
theorem ofBytes_eq_ok_iff :
    ofBytes bytes = .ok path ↔ path.isEmpty = false ∧ bytes = path.toBytes := by
  rw [← List.append_nil path.toBytes, ← read_eq_ok_iff, ofBytes]
  split
  next found hread =>
    rw [hread]
    simp
  next found byte behind hread =>
    rw [hread]
    simp
  next status hread =>
    rw [hread]
    simp

end Path

/-- A command's parameter is read as the curve whose code it is. -/
theorem Curve.ofParameter_eq_ok_iff {parameter : UInt8} {curve : Curve} :
    Curve.ofParameter parameter = .ok curve ↔ parameter = curve.code := by
  rw [← Decoder.ofCode?_eq_some_iff, ofParameter]
  cases ofCode? parameter <;> simp

/-- A command names a key by the code of its curve and the written form of its path. -/
theorem KeyId.read_eq_ok_iff {parameter : UInt8} {data rest : Bytes} {key : KeyId} :
    KeyId.read parameter data = .ok (key, rest) ↔
      parameter = key.curve.code ∧ key.path.isEmpty = false ∧ data = key.path.toBytes ++ rest := by
  rw [← Path.read_eq_ok_iff, ← Curve.ofParameter_eq_ok_iff]
  obtain ⟨curve, path⟩ := key
  cases hcurve : Curve.ofParameter parameter with
  | error status => simp [read, hcurve, bind, Except.bind]
  | ok found =>
      cases hpath : Path.read data with
      | error status => simp [read, hcurve, hpath, bind, Except.bind]
      | ok named =>
          obtain ⟨named, behind⟩ := named
          simp [read, hcurve, hpath, bind, Except.bind, pure, Except.pure, and_assoc]

end TezosSigner
