import Mathlib.Data.List.GetD
import SuperpositionAccounts.Borsh.Format

/-!
# Words, byte strings and memory

Words are 256-bit numbers, written in big-endian order. Memory is a function
from positions to bytes. A part of a byte string is filled with zeros where the
string ends early, as the machine does for calldata and code.
-/

namespace Evm

abbrev Word := BitVec 256

/-- The number that a byte string writes. -/
def Word.ofBytes (bytes : List UInt8) : Word :=
  BitVec.ofNat 256 (Borsh.ofLeBytes bytes.reverse)

def Word.toBytes (word : Word) : List UInt8 :=
  (Borsh.leBytes 32 word.toNat).reverse

/-- The address in the low 20 bytes of a word. -/
def Word.address (word : Word) : Bytes 20 :=
  ⟨word.toBytes.drop 12, by simp [toBytes]⟩

/-- A part of a byte string, filled with zeros. -/
def slice (bytes : List UInt8) (offset length : ℕ) : List UInt8 :=
  (List.range length).map fun index => bytes.getD (offset + index) 0

abbrev Memory := ℕ → UInt8

namespace Memory

def empty : Memory :=
  fun _ => 0

def read (memory : Memory) (offset length : ℕ) : List UInt8 :=
  (List.range length).map fun index => memory (offset + index)

def write (memory : Memory) (offset : ℕ) (bytes : List UInt8) : Memory :=
  fun index =>
    if offset ≤ index ∧ index < offset + bytes.length then bytes.getD (index - offset) 0
    else memory index

end Memory

/-! ### Parts of byte strings -/

@[simp]
theorem length_slice (bytes : List UInt8) (offset length : ℕ) :
    (slice bytes offset length).length = length := by
  simp [slice]

theorem slice_eq_take_drop {bytes : List UInt8} {offset length : ℕ}
    (inside : offset + length ≤ bytes.length) :
    slice bytes offset length = (bytes.drop offset).take length := by
  apply List.ext_getElem
  · simp
    omega
  · intro index bound _
    rw [length_slice] at bound
    simp only [slice, List.getElem_map, List.getElem_range, List.getElem_take,
      List.getElem_drop]
    exact List.getD_eq_getElem _ _ (by omega)

theorem slice_add (bytes : List UInt8) (offset first second : ℕ) :
    slice bytes offset (first + second) =
      slice bytes offset first ++ slice bytes (offset + first) second := by
  simp [slice, List.range_add, Nat.add_assoc]

theorem slice_to_end (bytes : List UInt8) (offset : ℕ) :
    slice bytes offset (bytes.length - offset) = bytes.drop offset := by
  by_cases inside : offset ≤ bytes.length
  · rw [slice_eq_take_drop (by omega), ← List.length_drop, List.take_length]
  · rw [List.drop_eq_nil_of_le (by omega), Nat.sub_eq_zero_of_le (by omega)]
    rfl

theorem slice_middle {before middle after : List UInt8} {offset length : ℕ}
    (starts : before.length = offset) (long : middle.length = length) :
    slice (before ++ (middle ++ after)) offset length = middle := by
  rw [slice_eq_take_drop (by simp; omega), List.drop_left' starts, List.take_left' long]

theorem slice_drop (bytes : List UInt8) (start offset length : ℕ) :
    slice (bytes.drop start) offset length = slice bytes (start + offset) length := by
  simp [slice, Nat.add_assoc]

theorem slice_take (bytes : List UInt8) (length : ℕ) :
    slice (bytes.take length) 0 length = slice bytes 0 length := by
  apply List.map_congr_left
  intro index member
  have bound := List.mem_range.mp member
  rw [Nat.zero_add, List.getD_eq_getElem?_getD, List.getD_eq_getElem?_getD,
    List.getElem?_take_of_lt bound]

theorem slice_zero_length (bytes : List UInt8) : slice bytes 0 bytes.length = bytes := by
  simp [slice_eq_take_drop]

/-! ### Words and their bytes -/

namespace Word

@[simp]
theorem length_toBytes (word : Word) : word.toBytes.length = 32 := by
  simp [toBytes]

theorem toNat_ofBytes {bytes : List UInt8} (short : bytes.length ≤ 32) :
    (ofBytes bytes).toNat = Borsh.ofLeBytes bytes.reverse := by
  have bound := Borsh.ofLeBytes_lt bytes.reverse
  rw [List.length_reverse] at bound
  have fits : 256 ^ bytes.length ≤ 256 ^ 32 := Nat.pow_le_pow_right (by omega) short
  rw [ofBytes, BitVec.toNat_ofNat, Nat.mod_eq_of_lt]
  exact lt_of_lt_of_le bound fits

theorem ofBytes_toBytes (word : Word) : ofBytes word.toBytes = word := by
  apply BitVec.eq_of_toNat_eq
  rw [toNat_ofBytes (by simp), toBytes, List.reverse_reverse, Borsh.ofLeBytes_leBytes]
  exact Nat.mod_eq_of_lt word.isLt

theorem toBytes_ofBytes {bytes : List UInt8} (short : bytes.length ≤ 32) :
    (ofBytes bytes).toBytes = List.replicate (32 - bytes.length) 0 ++ bytes := by
  have padded : (List.replicate (32 - bytes.length) 0 ++ bytes).reverse.length = 32 := by
    simp
    omega
  have back := Borsh.leBytes_ofLeBytes (List.replicate (32 - bytes.length) 0 ++ bytes).reverse
  rw [padded, List.reverse_append, List.reverse_replicate,
    Borsh.ofLeBytes_append_zeros] at back
  rw [toBytes, toNat_ofBytes short, back]
  simp

theorem ofBytes_inj {left right : List UInt8} (sameLength : left.length = right.length)
    (short : left.length ≤ 32) : ofBytes left = ofBytes right ↔ left = right := by
  constructor
  · intro same
    have bytes := congrArg toBytes same
    rw [toBytes_ofBytes short, toBytes_ofBytes (sameLength ▸ short), sameLength] at bytes
    exact List.append_cancel_left bytes
  · rintro rfl
    rfl

/-- Shifting a word to the right drops its last bytes. -/
theorem ofBytes_append_shiftRight {high low : List UInt8}
    (short : (high ++ low).length ≤ 32) :
    ofBytes (high ++ low) >>> (8 * low.length) = ofBytes high := by
  have bound := Borsh.ofLeBytes_lt low.reverse
  rw [List.length_reverse] at bound
  rw [List.length_append] at short
  have power : 2 ^ (8 * low.length) = 256 ^ low.length := by
    rw [pow_mul]
    norm_num
  apply BitVec.eq_of_toNat_eq
  rw [BitVec.toNat_ushiftRight, toNat_ofBytes (by rw [List.length_append]; omega),
    toNat_ofBytes (by omega), List.reverse_append, Borsh.ofLeBytes_append, List.length_reverse,
    Nat.shiftRight_eq_div_pow, power]
  rw [Nat.add_mul_div_left _ _ (Nat.pow_pos (by omega)), Nat.div_eq_of_lt bound, Nat.zero_add]

/-- Storing a word stores its bytes. -/
theorem slice_toBytes (word : Word) : slice word.toBytes 0 32 = word.toBytes := by
  have whole := slice_zero_length word.toBytes
  rwa [length_toBytes] at whole

theorem address_ofBytes (address : Bytes 20) : (ofBytes address.toList).address = address := by
  apply List.Vector.eq
  change (ofBytes address.toList).toBytes.drop 12 = address.toList
  rw [toBytes_ofBytes (by simp)]
  simp

end Word

/-! ### Reading what was written -/

namespace Memory

@[simp]
theorem length_read (memory : Memory) (offset length : ℕ) :
    (memory.read offset length).length = length := by
  simp [read]

theorem write_nil (memory : Memory) (offset : ℕ) : memory.write offset [] = memory := by
  funext index
  rw [write, if_neg]
  simp

theorem read_add (memory : Memory) (offset first second : ℕ) :
    memory.read offset (first + second) =
      memory.read offset first ++ memory.read (offset + first) second := by
  simp [read, List.range_add, Nat.add_assoc]

theorem read_write_inside (memory : Memory) {offset start length : ℕ} {bytes : List UInt8}
    (inside : start + length ≤ bytes.length) :
    (memory.write offset bytes).read (offset + start) length = slice bytes start length := by
  apply List.map_congr_left
  intro index member
  have bound := List.mem_range.mp member
  rw [write, if_pos (by omega)]
  congr 1
  omega

theorem read_write_end (memory : Memory) {offset start length : ℕ} {bytes : List UInt8}
    (ends : start + length = bytes.length) :
    (memory.write offset bytes).read (offset + start) length = bytes.drop start := by
  rw [memory.read_write_inside (by omega), slice_eq_take_drop (by omega)]
  exact List.take_of_length_le (by simp; omega)

theorem read_write_self (memory : Memory) (offset : ℕ) {length : ℕ} {bytes : List UInt8}
    (sized : bytes.length = length) : (memory.write offset bytes).read offset length = bytes := by
  have inside : 0 + length ≤ bytes.length := by omega
  calc (memory.write offset bytes).read (offset + 0) length
    _ = slice bytes 0 length := memory.read_write_inside inside
    _ = bytes := by rw [← sized, slice_zero_length]

theorem read_write_apart (memory : Memory) {offset start length : ℕ} {bytes : List UInt8}
    (apart : start + length ≤ offset ∨ offset + bytes.length ≤ start) :
    (memory.write offset bytes).read start length = memory.read start length := by
  apply List.map_congr_left
  intro index member
  have bound := List.mem_range.mp member
  rw [write, if_neg (by omega)]

theorem read_write_empty (offset length : ℕ) (bytes : List UInt8) :
    (empty.write offset bytes).read offset length = slice bytes 0 length := by
  apply List.map_congr_left
  intro index member
  simp only [write]
  split
  · congr 1
    omega
  · rename_i outside
    rw [List.getD_eq_default _ _ (by omega)]
    rfl

end Memory

end Evm
