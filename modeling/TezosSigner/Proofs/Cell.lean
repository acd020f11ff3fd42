import TezosSigner.Proofs.Path

/-!
# Paths in memory

In memory a path is a count and ten words, and two paths are equal if their counts and all their
words are. A path is made of a list of components or of its written form, by putting words over
zeros one after the other. Either way the words behind the components stay zero, so paths are
equal in memory just if they have the same components, which is what their written forms tell.
-/

namespace TezosSigner

/-- A path as it is kept in memory. -/
structure PathCell where
  count : UInt8
  words : List UInt32
  length_words : words.length = Path.capacity
deriving DecidableEq

namespace PathCell

/-- Puts words over others one after the other, as long as there are both. -/
def overwrite : List UInt32 → List UInt32 → List UInt32
  | _ :: words, word :: front => word :: overwrite words front
  | words, _ => words

theorem overwrite_eq (words front : List UInt32) :
    overwrite words front = front.take words.length ++ words.drop front.length := by
  induction words generalizing front with
  | nil => cases front <;> rfl
  | cons _ words ih =>
      cases front with
      | nil => rfl
      | cons word front =>
          rw [overwrite, ih, List.length_cons, List.take_succ_cons, List.length_cons,
            List.drop_succ_cons, List.cons_append]

/-- No path has a count like that. -/
theorem refused_iff {count : ℕ} :
    (count = 0 ∨ Path.capacity < count) ↔ ¬ (count ≠ 0 ∧ count ≤ Path.capacity) := by
  omega

/-- A count, and words put over zeros. -/
def holding (count : UInt8) (front : List UInt32) : PathCell where
  count := count
  words := overwrite (List.replicate Path.capacity 0) front
  length_words := by
    rw [overwrite_eq, List.length_append, List.length_take, List.length_drop, List.length_replicate]
    omega

/-- The path of a list of components. -/
def ofList (components : List UInt32) : Except Status PathCell :=
  if components.length = 0 ∨ Path.capacity < components.length then .error .wrongValues
  else .ok (holding (UInt8.ofNat components.length) components)

/-- Reads a path and returns it with the number of bytes that it takes up. -/
def read : Bytes → Except Status (PathCell × ℕ)
  | [] => .error .wrongLengthForInstruction
  | count :: rest =>
      let size := 1 + 4 * count.toNat
      if (count :: rest).length < size then .error .wrongLengthForInstruction
      else if count.toNat = 0 ∨ Path.capacity < count.toNat then .error .wrongValues
      else .ok (holding count ((Bytes.pieces 4 count.toNat rest).map Bytes.toUInt32), size)

end PathCell

namespace Path

variable {path : Path} {data : Bytes} {status : Status}

/-- A path's components in memory, behind their count. -/
def cell (path : Path) : PathCell :=
  .holding (UInt8.ofNat path.components.length) path.components

theorem words_cell (path : Path) :
    path.cell.words =
      path.components ++ List.replicate (capacity - path.components.length) 0 := by
  have hlength := path.length_le
  refine (PathCell.overwrite_eq _ _).trans ?_
  rw [List.length_replicate, List.take_of_length_le hlength, List.drop_replicate]

/-- Paths that are equal in memory have the same components. -/
theorem cell_injective : Function.Injective cell := by
  intro first second heq
  have hcount : first.components.length = second.components.length := by
    rw [← first.toNat_count, ← second.toNat_count]
    exact congrArg (fun cell => cell.count.toNat) heq
  have hwords := congrArg PathCell.words heq
  rw [words_cell, words_cell] at hwords
  have hcomponents := (List.append_inj hwords hcount).1
  rwa [Path.mk.injEq]

/-- A path that is not empty is made of its components. -/
theorem ofList_eq_ok_iff {components : List UInt32} :
    ofList components = .ok path ↔ path.isEmpty = false ∧ path.components = components := by
  rw [isEmpty, List.isEmpty_eq_false_iff]
  unfold ofList
  split
  next hcomponents =>
    constructor
    · intro hpath
      cases hpath
      exact ⟨hcomponents.1, rfl⟩
    · rintro ⟨_, rfl⟩
      rfl
  next hcomponents =>
    constructor
    · intro hpath
      cases hpath
    · rintro ⟨hpath, rfl⟩
      exact absurd ⟨hpath, path.length_le⟩ hcomponents

theorem cell_ofList (components : List UInt32) :
    PathCell.ofList components = (ofList components).map cell := by
  rw [PathCell.ofList, ofList]
  simp only [PathCell.refused_iff]
  simp only [ne_eq, List.length_eq_zero_iff]
  by_cases hcomponents : ¬ components = [] ∧ components.length ≤ capacity
  · rw [if_neg (not_not.mpr hcomponents), dif_pos hcomponents]
    rfl
  · rw [if_pos hcomponents, dif_neg hcomponents]
    rfl

theorem cell_read (data : Bytes) :
    PathCell.read data =
      (read data).map fun (path, rest) => (path.cell, data.length - rest.length) := by
  cases data with
  | nil => rfl
  | cons count rest =>
      have hless : (count :: rest).length < 1 + 4 * count.toNat ↔
          rest.length < 4 * count.toNat := by
        rw [List.length_cons]
        omega
      rw [PathCell.read, read]
      simp only [PathCell.refused_iff, hless]
      by_cases hshort : rest.length < 4 * count.toNat
      · rw [if_pos hshort, if_pos hshort]
        rfl
      · rw [if_neg hshort, if_neg hshort]
        by_cases hcount : count.toNat ≠ 0 ∧ count.toNat ≤ capacity
        · have hlength : ((Bytes.pieces 4 count.toNat rest).map Bytes.toUInt32).length =
              count.toNat := by
            rw [List.length_map, Bytes.length_pieces]
          have hsize : (count :: rest).length - (rest.drop (4 * count.toNat)).length =
              1 + 4 * count.toNat := by
            rw [List.length_cons, List.length_drop]
            omega
          rw [if_neg (not_not.mpr hcount), dif_pos hcount, Except.map, cell, hlength, hsize,
            UInt8.ofNat_toNat]
        · rw [if_pos hcount, dif_neg hcount]
          rfl

/-- Reading fails for want of bytes before it fails for a count that no path has. -/
theorem read_eq_error_iff :
    read data = .error status ↔
      status = .wrongLengthForInstruction ∧
        (data = [] ∨ data.length < 1 + 4 * (data.headD 0).toNat) ∨
      status = .wrongValues ∧ data ≠ [] ∧ 1 + 4 * (data.headD 0).toNat ≤ data.length ∧
        ((data.headD 0).toNat = 0 ∨ capacity < (data.headD 0).toNat) := by
  cases data with
  | nil => simp [read, eq_comm]
  | cons count rest =>
      rw [read, List.headD_cons, List.length_cons]
      split_ifs with hshort hcount
      · have hmissing : rest.length + 1 < 1 + 4 * count.toNat := by omega
        constructor
        · rintro ⟨⟩
          exact .inl ⟨rfl, .inr hmissing⟩
        · rintro (⟨rfl, _⟩ | ⟨_, _, hlong, _⟩)
          · rfl
          · omega
      · constructor
        · rintro ⟨⟩
        · rintro (⟨_, hnil | hmissing⟩ | ⟨_, _, _, hwrong⟩)
          · cases hnil
          · omega
          · omega
      · have hwrong : count.toNat = 0 ∨ capacity < count.toNat := by omega
        constructor
        · rintro ⟨⟩
          exact .inr ⟨rfl, List.cons_ne_nil _ _, by omega, hwrong⟩
        · rintro (⟨_, hnil | hmissing⟩ | ⟨rfl, _⟩)
          · cases hnil
          · omega
          · rfl

theorem ofBytes_eq_error_iff :
    ofBytes data = .error status ↔ read data = .error status ∨
      status = .wrongLength ∧ ∃ path rest, read data = .ok (path, rest) ∧ rest ≠ [] := by
  rw [ofBytes]
  split
  next found hread => simp [hread]
  next found byte rest hread => simp [hread, eq_comm]
  next cause hread => simp [hread]

end Path

/-- Every list of one to ten components makes a path, and what is written of it is read back,
whatever comes behind. Conversely, what is read as a path is what is written of it, at the front
of the data, and its components make the same path. Reading fails for want of bytes if the data
has not as many as its first byte asks for, and else for a value if that byte asks for none or for
too many; a path that is to take up the whole data also fails if anything comes behind it. In
memory a path made either way is a count and its components in front of zeros, which no other
path is. -/
theorem path_round_trips :
    (∀ components : List UInt32, components ≠ [] → components.length ≤ Path.capacity →
      ∃ path, Path.ofList components = .ok path ∧ path.components = components ∧
        path.toBytes = UInt8.ofNat components.length :: components.flatMap Bytes.ofUInt32 ∧
        ∀ tail, Path.read (path.toBytes ++ tail) = .ok (path, tail)) ∧
    (∀ data path rest, Path.read data = .ok (path, rest) →
      path.toBytes.length ≤ data.length ∧ data.take path.toBytes.length = path.toBytes ∧
      data.drop path.toBytes.length = rest ∧ Path.ofList path.components = .ok path) ∧
    (∀ data path, Path.ofBytes data = .ok path ↔
      Path.ofList path.components = .ok path ∧ data = path.toBytes) ∧
    (∀ data status, Path.read data = .error status ↔
      status = .wrongLengthForInstruction ∧
        (data = [] ∨ data.length < 1 + 4 * (data.headD 0).toNat) ∨
      status = .wrongValues ∧ data ≠ [] ∧ 1 + 4 * (data.headD 0).toNat ≤ data.length ∧
        ((data.headD 0).toNat = 0 ∨ Path.capacity < (data.headD 0).toNat)) ∧
    (∀ data status, Path.ofBytes data = .error status ↔ Path.read data = .error status ∨
      status = .wrongLength ∧ ∃ path rest, Path.read data = .ok (path, rest) ∧ rest ≠ []) ∧
    (∀ components, PathCell.ofList components = (Path.ofList components).map Path.cell) ∧
    (∀ data, PathCell.read data =
      (Path.read data).map fun (path, rest) => (path.cell, data.length - rest.length)) ∧
    (∀ path : Path, path.cell.words =
      path.components ++ List.replicate (Path.capacity - path.components.length) 0) ∧
    Function.Injective Path.cell := by
  refine ⟨fun components hsome hlength => ?_, fun data path rest hread => ?_,
    fun data path => ?_, fun data status => Path.read_eq_error_iff,
    fun data status => Path.ofBytes_eq_error_iff, Path.cell_ofList, Path.cell_read,
    Path.words_cell, Path.cell_injective⟩
  · have hpath : Path.ofList components = .ok ⟨components, hlength⟩ := dif_pos ⟨hsome, hlength⟩
    have hempty := (Path.ofList_eq_ok_iff.mp hpath).1
    exact ⟨_, hpath, rfl, rfl, fun tail => Path.read_eq_ok_iff.mpr ⟨hempty, rfl⟩⟩
  · obtain ⟨hempty, rfl⟩ := Path.read_eq_ok_iff.mp hread
    refine ⟨?_, List.take_left, List.drop_left, Path.ofList_eq_ok_iff.mpr ⟨hempty, rfl⟩⟩
    rw [List.length_append]
    exact Nat.le_add_right _ _
  · rw [Path.ofBytes_eq_ok_iff, Path.ofList_eq_ok_iff, and_iff_left rfl]

end TezosSigner
