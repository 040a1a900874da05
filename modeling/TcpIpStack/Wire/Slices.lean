/-
# Slices at 64-bit positions

`slice` of `src/src/bytes.cpp` and `slice_int` of `src/include/utils.h` as the machine
computes them.  Positions are of type `size_t`, and the test of the bounds adds two of
them modulo `2^64`.  Where the sum goes around, the test can pass and the call reads
outside the buffer; where it does not, the call is the one of `Wire/Bytes`.

`slice(index)` passes `size() - index` on to `slice(index, length)`.  Past the end this
difference is negative, the sum is `size()` again, and the test never fails.
-/

import TcpIpStack.Wire.Bytes

namespace TcpIpStack

/-- A `std::vector` of octets, which holds fewer than `2^63` of them. -/
structure Buffer where
  octets : Bytes
  length_lt : octets.length < 2 ^ 63

/-- What becomes of a call. -/
inductive Access (α : Type)
  | returns (value : α)
  | throws (what : String)
  /-- The test has passed for positions outside the buffer, and a range is built from them that
  the standard does not define; a library may throw its own exception, or read. -/
  | undefined
deriving DecidableEq

/-- A call that returns or throws. -/
def Access.of {α : Type} : Except String α → Access α
  | .ok value => returns value
  | .error what => throws what

theorem Access.of_ne_undefined {α : Type} (result : Except String α) : .undefined ≠ of result := by
  cases result <;> nofun

/-- The types `slice_int` is used at. -/
inductive IntType
  | uint8
  | uint16
  | uint32
  | uint64

/-- `sizeof` -/
def IntType.size : IntType → UInt64
  | uint8 => 1
  | uint16 => 2
  | uint32 => 4
  | uint64 => 8

theorem IntType.size_bounds (type : IntType) : 0 < type.size.toNat ∧ type.size.toNat ≤ 8 := by
  cases type <;> decide

namespace Buffer

variable (b : Buffer)

/-- `size` -/
def size : UInt64 := UInt64.ofNat b.octets.length

/-- The octets from `begin() + first` up to `begin() + last`. -/
def copy (first last : UInt64) : Access Bytes :=
  if first ≤ last ∧ last ≤ b.size then
    .returns ((b.octets.drop first.toNat).take (last - first).toNat)
  else .undefined

/-- `slice(index, length)` -/
def slice (index length : UInt64) : Access Bytes :=
  if b.size < index + length then .throws "Bytes index out of range"
  else b.copy index (index + length)

/-- `slice(index)` -/
def sliceFrom (index : UInt64) : Access Bytes := b.slice index (b.size - index)

/-- The loop of `slice_int` for an integer of `width` octets; `operator[]` does not check the
position. -/
def readInt (width : ℕ) : ℕ → UInt64 → ℕ → Access ℕ
  | 0, _, result => .returns result
  | turns + 1, position, result =>
    match b.octets[position.toNat]? with
    | none => .undefined
    | some octet => readInt width turns (position + 1) ((result * 256 + octet.toNat) % 256 ^ width)

/-- `slice_int` -/
def sliceInt (type : IntType) (index : UInt64) : Access ℕ :=
  if b.size < index + type.size then .throws "slice_int out of range"
  else b.readInt type.size.toNat type.size.toNat index 0

/-- The sum of a position and a length goes around, and passes the test. -/
def GoesAround (index length : UInt64) : Prop :=
  2 ^ 64 ≤ index.toNat + length.toNat ∧ index.toNat + length.toNat ≤ 2 ^ 64 + b.octets.length

variable {b}

theorem toNat_size : b.size.toNat = b.octets.length :=
  UInt64.toNat_ofNat_of_lt' (b.length_lt.trans (by decide))

variable {index length : UInt64}

theorem size_lt_add_iff (h : ¬ b.GoesAround index length) :
    b.size < index + length ↔ b.octets.length < index.toNat + length.toNat := by
  have hb := b.length_lt
  unfold GoesAround at h
  rw [UInt64.lt_iff_toNat_lt, toNat_size, UInt64.toNat_add]
  have := index.toNat_lt
  have := length.toNat_lt
  omega

theorem not_size_lt_add (h : b.GoesAround index length) :
    ¬ b.size < index + length ∧ (index + length).toNat < index.toNat := by
  obtain ⟨hlow, hhigh⟩ := h
  rw [UInt64.lt_iff_toNat_lt, toNat_size, UInt64.toNat_add]
  have := index.toNat_lt
  have := length.toNat_lt
  omega

/-- Octets that are in the buffer are read as the integer they spell. -/
theorem readInt_eq {width turns : ℕ} {position : UInt64} {result : ℕ}
    (hread : position.toNat + turns ≤ b.octets.length) (hresult : result < 256 ^ width) :
    b.readInt width turns position result = .returns ((result * 256 ^ turns +
      BigEndian.value ((b.octets.drop position.toNat).take turns)) % 256 ^ width) := by
  induction turns generalizing position result with
  | zero => simp [readInt, BigEndian.value, Nat.mod_eq_of_lt hresult]
  | succ turns ih =>
    have hlt : position.toNat < b.octets.length := by omega
    have hnext : (position + 1).toNat = position.toNat + 1 := by
      have hb := b.length_lt
      rw [UInt64.toNat_add, UInt64.toNat_one]
      omega
    rw [readInt, List.getElem?_eq_getElem hlt, List.drop_eq_getElem_cons hlt, List.take_succ_cons]
    dsimp only
    rw [ih (by omega) (Nat.mod_lt _ (by positivity)), hnext, BigEndian.value]
    have hrest : ((b.octets.drop (position.toNat + 1)).take turns).length = turns := by
      rw [List.length_take, List.length_drop]
      omega
    rw [hrest, Nat.add_mod, Nat.mul_mod, Nat.mod_mod, ← Nat.mul_mod, ← Nat.add_mod]
    ring_nf

theorem slice_eq (h : ¬ b.GoesAround index length) :
    b.slice index length = .of (TcpIpStack.slice b.octets index.toNat length.toNat) := by
  unfold slice TcpIpStack.slice
  by_cases hlt : b.size < index + length
  · rw [if_pos hlt, if_pos ((size_lt_add_iff h).1 hlt), Access.of]
  · have hle := mt (size_lt_add_iff h).2 hlt
    have hsum : (index + length).toNat = index.toNat + length.toNat := by
      have := b.length_lt
      rw [UInt64.toNat_add]
      omega
    have hcopy : index ≤ index + length ∧ index + length ≤ b.size :=
      ⟨UInt64.le_iff_toNat_le.2 (by omega), UInt64.not_lt.1 hlt⟩
    rw [if_neg hlt, if_neg hle, copy, if_pos hcopy, add_sub_cancel_left, Access.of]

theorem slice_of_goesAround (h : b.GoesAround index length) : b.slice index length = .undefined := by
  obtain ⟨htest, hlt⟩ := not_size_lt_add h
  rw [slice, if_neg htest, copy, if_neg fun hcopy => Nat.not_le.2 hlt (UInt64.le_iff_toNat_le.1 hcopy.1)]

/-- The difference that `slice(index)` passes on goes around exactly past the end. -/
theorem goesAround_sub_iff : b.GoesAround index (b.size - index) ↔ b.octets.length < index.toNat := by
  have hb := b.length_lt
  have hindex := index.toNat_lt
  unfold GoesAround
  rw [UInt64.toNat_sub, toNat_size]
  omega

theorem sliceInt_eq {type : IntType} (h : ¬ b.GoesAround index type.size) :
    b.sliceInt type index = .of (TcpIpStack.sliceInt type.size.toNat b.octets index.toNat) := by
  unfold sliceInt TcpIpStack.sliceInt
  by_cases hlt : b.size < index + type.size
  · rw [if_pos hlt, if_pos ((size_lt_add_iff h).1 hlt), Access.of]
  · have hle := mt (size_lt_add_iff h).2 hlt
    rw [if_neg hlt, if_neg hle, readInt_eq (Nat.not_lt.1 hle) (by positivity), Nat.zero_mul, Nat.zero_add]
    have hvalue := BigEndian.value_lt ((b.octets.drop index.toNat).take type.size.toNat)
    rw [List.length_take, List.length_drop, Nat.min_eq_left (by omega)] at hvalue
    rw [Nat.mod_eq_of_lt hvalue, Access.of]

theorem sliceInt_of_goesAround {type : IntType} (h : b.GoesAround index type.size) :
    b.sliceInt type index = .undefined := by
  -- only the last positions of the address space go around, and the first read is at one
  have hpast : b.octets.length ≤ index.toNat := by
    have := b.length_lt
    have := type.size_bounds
    obtain ⟨hlow, -⟩ := h
    omega
  obtain ⟨turns, hturns⟩ := Nat.exists_eq_succ_of_ne_zero type.size_bounds.1.ne'
  rw [sliceInt, if_neg (not_size_lt_add h).1, hturns, readInt, List.getElem?_eq_none hpast]

/-- **A slice is exact or throws if and only if its sum does not go around**, which for
`slice(index)` is that the position is not past the end. -/
theorem slices_exact_iff (b : Buffer) (index length : UInt64) (type : IntType) :
    (b.slice index length = .of (TcpIpStack.slice b.octets index.toNat length.toNat) ↔
      ¬ b.GoesAround index length) ∧
    (b.sliceFrom index = .of (TcpIpStack.sliceFrom b.octets index.toNat) ↔
      index.toNat ≤ b.octets.length) ∧
    (b.sliceInt type index = .of (TcpIpStack.sliceInt type.size.toNat b.octets index.toNat) ↔
      ¬ b.GoesAround index type.size) := by
  refine ⟨⟨fun heq haround => ?_, slice_eq⟩, ⟨fun heq => ?_, fun hle => ?_⟩,
    ⟨fun heq haround => ?_, sliceInt_eq⟩⟩
  · exact Access.of_ne_undefined _ ((slice_of_goesAround haround).symm.trans heq)
  · by_contra hlt
    exact Access.of_ne_undefined _
      ((slice_of_goesAround (goesAround_sub_iff.2 (Nat.not_le.1 hlt))).symm.trans heq)
  · have hsize : (b.size - index).toNat = b.octets.length - index.toNat := by
      rw [UInt64.toNat_sub_of_le _ _ (UInt64.le_iff_toNat_le.2 (toNat_size.symm ▸ hle)), toNat_size]
    rw [sliceFrom, slice_eq (mt goesAround_sub_iff.1 (Nat.not_lt.2 hle)), TcpIpStack.sliceFrom, hsize]
  · exact Access.of_ne_undefined _ ((sliceInt_of_goesAround haround).symm.trans heq)

/-- Three octets, and reads inside them. -/
theorem slices_inside_three_octets :
    (⟨[1, 2, 3], by decide⟩ : Buffer).slice 1 2 = .returns [2, 3] ∧
      (⟨[1, 2, 3], by decide⟩ : Buffer).sliceFrom 3 = .returns [] ∧
      (⟨[1, 2, 3], by decide⟩ : Buffer).sliceInt .uint16 1 = .returns 515 := by
  obtain ⟨hslice, hfrom, hint⟩ := slices_exact_iff ⟨[1, 2, 3], by decide⟩ 1 2 .uint16
  obtain ⟨-, hend, -⟩ := slices_exact_iff ⟨[1, 2, 3], by decide⟩ 3 2 .uint16
  exact ⟨hslice.2 (fun h => absurd h.1 (by decide)), hend.2 (by decide),
    hint.2 (fun h => absurd h.1 (by decide))⟩

/-- Past the end `slice(index)` is not refused by the test of the bounds, and neither are sums
that go around. -/
theorem slices_outside_three_octets :
    (⟨[1, 2, 3], by decide⟩ : Buffer).sliceFrom 5 = .undefined ∧
      (⟨[1, 2, 3], by decide⟩ : Buffer).slice 0xFFFFFFFFFFFFFFFF 2 = .undefined ∧
      (⟨[1, 2, 3], by decide⟩ : Buffer).sliceInt .uint16 0xFFFFFFFFFFFFFFFF = .undefined := by
  decide

end Buffer

end TcpIpStack
