/-
# Byte strings

`src/include/bytes.h`: `Bytes` is a `std::vector` of octets.  It is a list here.
`slice` and `slice_int` throw past the end of the buffer, and so does everything
that parses with them: a parser returns the text of the exception instead of a
value.  Positions are natural numbers; the sums of positions that the source
computes in `size_t` stay far below `2^64` in all of its parsers.

The integers of a protocol header are written and read big-endian
(`append_int`, `int_to_bytes` and `slice_int` in `src/include/utils.h`).
-/

import TcpIpStack.Lib.BigEndian

namespace TcpIpStack

/-- A buffer of octets. -/
abbrev Bytes := List UInt8

/-- `slice(index, length)`. -/
def slice (data : Bytes) (index length : ℕ) : Except String Bytes :=
  if data.length < index + length then .error "Bytes index out of range"
  else .ok ((data.drop index).take length)

/-- `slice(index)`. -/
def sliceFrom (data : Bytes) (index : ℕ) : Except String Bytes :=
  slice data index (data.length - index)

/-- The octets `slice_int` reads for an integer of `width` octets. -/
def sliceInt (width : ℕ) (data : Bytes) (index : ℕ) : Except String ℕ :=
  if data.length < index + width then .error "slice_int out of range"
  else .ok (BigEndian.value ((data.drop index).take width))

/-- `slice_int<uint8_t>`. -/
def sliceInt8 (data : Bytes) (index : ℕ) : Except String UInt8 :=
  (sliceInt 1 data index).map UInt8.ofNat

/-- `slice_int<uint16_t>`. -/
def sliceInt16 (data : Bytes) (index : ℕ) : Except String UInt16 :=
  (sliceInt 2 data index).map UInt16.ofNat

/-- `slice_int<uint32_t>`. -/
def sliceInt32 (data : Bytes) (index : ℕ) : Except String UInt32 :=
  (sliceInt 4 data index).map UInt32.ofNat

/-- `int_to_bytes<uint16_t>`, which is also what `append_int` appends. -/
def intToBytes16 (v : UInt16) : Bytes := BigEndian.bytes 2 v.toNat

/-- `int_to_bytes<uint32_t>`. -/
def intToBytes32 (v : UInt32) : Bytes := BigEndian.bytes 4 v.toNat

@[simp] theorem length_intToBytes16 (v : UInt16) : (intToBytes16 v).length = 2 :=
  BigEndian.length_bytes ..

@[simp] theorem length_intToBytes32 (v : UInt32) : (intToBytes32 v).length = 4 :=
  BigEndian.length_bytes ..

@[simp] theorem value_intToBytes16 (v : UInt16) : BigEndian.value (intToBytes16 v) = v.toNat := by
  rw [intToBytes16, BigEndian.value_bytes]
  exact Nat.mod_eq_of_lt v.toNat_lt

@[simp] theorem value_intToBytes32 (v : UInt32) : BigEndian.value (intToBytes32 v) = v.toNat := by
  rw [intToBytes32, BigEndian.value_bytes]
  exact Nat.mod_eq_of_lt v.toNat_lt

/-! ### What a parser has read -/

theorem bind_eq_ok {α β : Type} {x : Except String α} {f : α → Except String β} {b : β} :
    (x >>= f) = .ok b ↔ ∃ a, x = .ok a ∧ f a = .ok b := by
  constructor
  · intro h
    cases x with
    | error e => cases h
    | ok a => exact ⟨a, rfl, h⟩
  · rintro ⟨a, rfl, h⟩
    exact h

theorem ite_throw_eq_ok {α β : Type} {p : Prop} [Decidable p] {e : String} {f : α → Except String β}
    {x : Except String β} {b : β} : (if p then throw e >>= f else x) = .ok b ↔ ¬ p ∧ x = .ok b := by
  by_cases hp : p
  · rw [if_pos hp]
    exact ⟨nofun, fun h => absurd hp h.1⟩
  · rw [if_neg hp, and_iff_right hp]

theorem take_add_drop (data : Bytes) (index m n : ℕ) :
    (data.drop index).take (m + n) = (data.drop index).take m ++ (data.drop (index + m)).take n := by
  rw [List.take_add, List.drop_drop]

theorem take_of_sliceInt {width index n : ℕ} {data : Bytes} (h : sliceInt width data index = .ok n) :
    (data.drop index).take width = BigEndian.bytes width n ∧ n < 256 ^ width := by
  unfold sliceInt at h
  split_ifs at h with hlength
  cases h
  have hwidth : ((data.drop index).take width).length = width := by
    rw [List.length_take, List.length_drop]
    omega
  have hbytes := BigEndian.bytes_value ((data.drop index).take width)
  have hlt := BigEndian.value_lt ((data.drop index).take width)
  rw [hwidth] at hbytes hlt
  exact ⟨hbytes.symm, hlt⟩

theorem take_of_sliceInt8 {data : Bytes} {index : ℕ} {b : UInt8} (h : sliceInt8 data index = .ok b) :
    (data.drop index).take 1 = [b] := by
  cases hn : sliceInt 1 data index with
  | error e => simp [sliceInt8, hn, Except.map] at h
  | ok n =>
    rw [sliceInt8, hn] at h
    cases h
    obtain ⟨htake, -⟩ := take_of_sliceInt hn
    rw [htake, BigEndian.bytes, BigEndian.bytes, Nat.pow_zero, Nat.div_one]

theorem take_of_sliceInt16 {data : Bytes} {index : ℕ} {v : UInt16} (h : sliceInt16 data index = .ok v) :
    (data.drop index).take 2 = intToBytes16 v := by
  cases hn : sliceInt 2 data index with
  | error e => simp [sliceInt16, hn, Except.map] at h
  | ok n =>
    rw [sliceInt16, hn] at h
    cases h
    obtain ⟨htake, hlt⟩ := take_of_sliceInt hn
    have hmod : n % 2 ^ 16 = n := Nat.mod_eq_of_lt hlt
    rw [htake, intToBytes16, UInt16.toNat_ofNat', hmod]

/-! ### Reading what was written

Every layer writes its fields one after the other.  A read skips the fields in
front of it, one at a time, and finds its own. -/

section Read

variable (width index length : ℕ) (b : UInt8) (v : UInt16) (w : UInt32) (rest : Bytes)

theorem sliceInt_append (front : Bytes) :
    sliceInt width (front ++ rest) (index + front.length) = sliceInt width rest index := by
  unfold sliceInt
  rw [List.length_append, Nat.add_comm index, ← List.drop_drop, List.drop_left]
  simp only [Nat.add_assoc, Nat.add_lt_add_iff_left]

theorem slice_append (front : Bytes) :
    slice (front ++ rest) (index + front.length) length = slice rest index length := by
  unfold slice
  rw [List.length_append, Nat.add_comm index, ← List.drop_drop, List.drop_left]
  simp only [Nat.add_assoc, Nat.add_lt_add_iff_left]

@[simp] theorem sliceInt_cons_succ : sliceInt width (b :: rest) (index + 1) = sliceInt width rest index :=
  sliceInt_append width index rest [b]

@[simp] theorem sliceInt_int16_append :
    sliceInt width (intToBytes16 v ++ rest) (index + 2) = sliceInt width rest index := by
  rw [← length_intToBytes16 v, sliceInt_append]

@[simp] theorem sliceInt_int32_append :
    sliceInt width (intToBytes32 w ++ rest) (index + 4) = sliceInt width rest index := by
  rw [← length_intToBytes32 w, sliceInt_append]

@[simp] theorem slice_cons_succ : slice (b :: rest) (index + 1) length = slice rest index length :=
  slice_append index length rest [b]

@[simp] theorem slice_int16_append :
    slice (intToBytes16 v ++ rest) (index + 2) length = slice rest index length := by
  rw [← length_intToBytes16 v, slice_append]

@[simp] theorem slice_int32_append :
    slice (intToBytes32 w ++ rest) (index + 4) length = slice rest index length := by
  rw [← length_intToBytes32 w, slice_append]

theorem sliceInt_bytes_append (n : ℕ) (h : n < 256 ^ width) :
    sliceInt width (BigEndian.bytes width n ++ rest) 0 = .ok n := by
  have htake : (BigEndian.bytes width n ++ rest).take width = BigEndian.bytes width n := by
    rw [List.take_append_of_le_length (by simp), List.take_of_length_le (by simp)]
  rw [sliceInt, if_neg (by simp), List.drop_zero, htake, BigEndian.value_bytes, Nat.mod_eq_of_lt h]

@[simp] theorem sliceInt_cons_zero : sliceInt 1 (b :: rest) 0 = .ok b.toNat := by
  simp [sliceInt, BigEndian.value]

@[simp] theorem sliceInt_int16_append_zero : sliceInt 2 (intToBytes16 v ++ rest) 0 = .ok v.toNat :=
  sliceInt_bytes_append _ _ _ v.toNat_lt

@[simp] theorem sliceInt_int32_append_zero : sliceInt 4 (intToBytes32 w ++ rest) 0 = .ok w.toNat :=
  sliceInt_bytes_append _ _ _ w.toNat_lt

@[simp] theorem sliceInt_int16_append_high : sliceInt 1 (intToBytes16 v ++ rest) 0 = .ok (v.toNat / 256) := by
  have hv : v.toNat < 65536 := v.toNat_lt
  simp only [intToBytes16, BigEndian.bytes, List.cons_append, sliceInt_cons_zero, UInt8.toNat_ofNat',
    Nat.pow_one, Nat.reducePow]
  rw [Nat.mod_eq_of_lt (by omega)]

@[simp] theorem slice_all : slice rest 0 rest.length = .ok rest := by
  rw [slice, if_neg (by simp), List.drop_zero, List.take_length]

theorem sliceFrom_append (front : Bytes) : sliceFrom (front ++ rest) front.length = .ok rest := by
  rw [sliceFrom, List.length_append, Nat.add_sub_cancel_left]
  have h := slice_append 0 rest.length rest front
  rw [Nat.zero_add] at h
  rw [h, slice_all]

theorem eq_drop_of_sliceFrom {data result : Bytes} {index : ℕ} (h : sliceFrom data index = .ok result) :
    result = data.drop index := by
  unfold sliceFrom slice at h
  split_ifs at h
  rw [← Except.ok.inj h, ← List.length_drop, List.take_length]

@[simp] theorem ok_bind {α β : Type} (a : α) (f : α → Except String β) : (Except.ok a >>= f) = f a := rfl

@[simp] theorem map_ok {α β : Type} (a : α) (f : α → β) :
    (Except.ok a : Except String α).map f = .ok (f a) := rfl

end Read

end TcpIpStack
