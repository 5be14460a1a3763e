import Mathlib.Data.Vector.Basic
import Mathlib.Logic.Equiv.Prod
import Mathlib.Tactic.Ring

/-!
# The Borsh format

This file gives the Borsh rules as lawful instances of one class. A type is
given by the bytes of its values and by a reader that takes a value off the
front of a byte string and leaves the rest. The single law
`deserialize_eq_some_iff` says that the reader succeeds exactly on the strings
that start with an encoding. Read from right to left it is the round trip; read
from left to right it says that no value has a second encoding, so a reader that
re-encodes what it read recovers the bytes it was given.

Structures are read field by field in declaration order and are transported
from products with `ofEquiv`. Sequences carry their length bound, since the
format writes the element count in four bytes.
-/

/-- A byte string of fixed length. -/
abbrev Bytes (length : ℕ) := List.Vector UInt8 length

/-- A type with a Borsh encoding. -/
class Borsh (α : Type) where
  /-- The bytes of a value. -/
  toVec : α → List UInt8
  /-- Read one value, leaving the unread bytes. -/
  deserialize : List UInt8 → Option (α × List UInt8)
  /-- The reader accepts exactly the strings that start with an encoding. -/
  deserialize_eq_some_iff (bytes : List UInt8) (value : α) (rest : List UInt8) :
    deserialize bytes = some (value, rest) ↔ bytes = toVec value ++ rest

namespace Borsh

variable {α β : Type}

section Laws

variable [Borsh α]

@[simp]
theorem deserialize_toVec_append (value : α) (rest : List UInt8) :
    deserialize (toVec value ++ rest) = some (value, rest) :=
  (deserialize_eq_some_iff _ _ _).mpr rfl

@[simp]
theorem deserialize_toVec (value : α) :
    deserialize (toVec value) = some (value, []) := by
  simpa using deserialize_toVec_append value []

theorem eq_toVec_append_of_deserialize {bytes rest : List UInt8} {value : α}
    (accepted : deserialize bytes = some (value, rest)) : bytes = toVec value ++ rest :=
  (deserialize_eq_some_iff _ _ _).mp accepted

/-- No encoding is a proper start of another one, so what follows an encoding is determined. -/
theorem toVec_append_inj {left right : α} {leftRest rightRest : List UInt8}
    (same : toVec left ++ leftRest = toVec right ++ rightRest) :
    left = right ∧ leftRest = rightRest := by
  have accepted := deserialize_toVec_append left leftRest
  rw [same, deserialize_toVec_append] at accepted
  simp only [Option.some.injEq, Prod.mk.injEq] at accepted
  exact ⟨accepted.1.symm, accepted.2.symm⟩

theorem toVec_injective : Function.Injective (toVec : α → List UInt8) := by
  intro left right same
  have padded : toVec left ++ [] = toVec right ++ [] := by rw [same]
  exact (toVec_append_inj padded).1

end Laws

/-! ### Transport and products -/

/-- Encode a type through an equivalent one. -/
@[reducible]
def ofEquiv [Borsh β] (equiv : α ≃ β) : Borsh α where
  toVec value := toVec (equiv value)
  deserialize bytes := (deserialize bytes).map fun (value, rest) => (equiv.symm value, rest)
  deserialize_eq_some_iff bytes value rest := by
    rw [← deserialize_eq_some_iff, Option.map_eq_some_iff]
    constructor
    · rintro ⟨⟨read, unread⟩, accepted, same⟩
      simp only [Prod.mk.injEq, Equiv.symm_apply_eq] at same
      rw [accepted, same.1, same.2]
    · intro accepted
      exact ⟨_, accepted, by simp⟩

instance [Borsh α] [Borsh β] : Borsh (α × β) where
  toVec pair := toVec pair.1 ++ toVec pair.2
  deserialize bytes := do
    let (first, bytes) ← deserialize bytes
    let (second, bytes) ← deserialize bytes
    some ((first, second), bytes)
  deserialize_eq_some_iff bytes pair rest := by
    constructor
    · intro accepted
      simp only [Option.bind_eq_bind, Option.bind_eq_some_iff, Option.some.injEq,
        Prod.mk.injEq] at accepted
      obtain ⟨⟨first, middle⟩, firstRead, ⟨second, final⟩, secondRead, rfl, rfl⟩ := accepted
      have afterFirst : middle = toVec second ++ final := eq_toVec_append_of_deserialize secondRead
      rw [eq_toVec_append_of_deserialize firstRead, afterFirst, List.append_assoc]
    · rintro rfl
      simp [List.append_assoc]

@[simp]
theorem toVec_prod [Borsh α] [Borsh β] (first : α) (second : β) :
    toVec (first, second) = toVec first ++ toVec second :=
  rfl

/-! ### Bytes, byte arrays and integers -/

instance : Borsh UInt8 where
  toVec byte := [byte]
  deserialize
    | [] => none
    | byte :: rest => some (byte, rest)
  deserialize_eq_some_iff bytes value rest := by
    cases bytes <;> simp

@[simp]
theorem toVec_byte (byte : UInt8) : toVec byte = [byte] :=
  rfl

@[simp]
theorem flatMap_toVec_byte (bytes : List UInt8) : bytes.flatMap toVec = bytes := by
  induction bytes with
  | nil => rfl
  | cons byte rest ih => rw [List.flatMap_cons, ih, toVec_byte, List.singleton_append]

/-- A byte array has no header: its length is part of its type. -/
instance {length : ℕ} : Borsh (Bytes length) where
  toVec array := array.toList
  deserialize bytes :=
    if enough : length ≤ bytes.length then
      some (⟨bytes.take length, by simpa using enough⟩, bytes.drop length)
    else none
  deserialize_eq_some_iff bytes value rest := by
    constructor
    · intro accepted
      split at accepted
      · have parts := Prod.mk.inj (Option.some.inj accepted)
        rw [← parts.1, ← parts.2]
        exact (List.take_append_drop length bytes).symm
      · cases accepted
    · rintro rfl
      have enough : length ≤ (value.toList ++ rest).length := by simp
      rw [dif_pos enough]
      have taken : (value.toList ++ rest).take length = value.toList :=
        List.take_left' value.toList_length
      have dropped : (value.toList ++ rest).drop length = rest :=
        List.drop_left' value.toList_length
      congr 2
      exact Subtype.ext taken

@[simp]
theorem toVec_bytes {length : ℕ} (array : Bytes length) : toVec array = array.toList :=
  rfl

/-- The `width` low bytes of a number, lowest first. -/
def leBytes : ℕ → ℕ → List UInt8
  | 0, _ => []
  | width + 1, number => UInt8.ofNat number :: leBytes width (number / 256)

/-- The number whose bytes are given lowest first. -/
def ofLeBytes : List UInt8 → ℕ
  | [] => 0
  | byte :: rest => byte.toNat + 256 * ofLeBytes rest

@[simp]
theorem length_leBytes (width number : ℕ) : (leBytes width number).length = width := by
  induction width generalizing number with
  | zero => rfl
  | succ width ih => simp [leBytes, ih]

theorem ofLeBytes_leBytes (width number : ℕ) :
    ofLeBytes (leBytes width number) = number % 256 ^ width := by
  induction width generalizing number with
  | zero => simp [leBytes, ofLeBytes, Nat.mod_one]
  | succ width ih =>
      rw [leBytes, ofLeBytes, ih, UInt8.toNat_ofNat', pow_succ' 256, Nat.mod_mul]

theorem leBytes_ofLeBytes (bytes : List UInt8) :
    leBytes bytes.length (ofLeBytes bytes) = bytes := by
  induction bytes with
  | nil => rfl
  | cons byte rest ih =>
      have low : UInt8.ofNat (byte.toNat + 256 * ofLeBytes rest) = byte := by
        rw [← UInt8.ofNat_mod_size, show 2 ^ 8 = 256 by rfl, Nat.add_mul_mod_self_left]
        simp
      have high : (byte.toNat + 256 * ofLeBytes rest) / 256 = ofLeBytes rest := by
        have := byte.toNat_lt
        omega
      rw [List.length_cons, ofLeBytes, leBytes, low, high, ih]

theorem ofLeBytes_lt (bytes : List UInt8) : ofLeBytes bytes < 256 ^ bytes.length := by
  induction bytes with
  | nil => simp [ofLeBytes]
  | cons byte rest ih =>
      have := byte.toNat_lt
      rw [ofLeBytes, List.length_cons, pow_succ]
      omega

theorem ofLeBytes_append (low high : List UInt8) :
    ofLeBytes (low ++ high) = ofLeBytes low + 256 ^ low.length * ofLeBytes high := by
  induction low with
  | nil => simp [ofLeBytes]
  | cons byte rest ih =>
      simp only [List.cons_append, ofLeBytes, ih, List.length_cons]
      ring

theorem ofLeBytes_replicate_zero (count : ℕ) : ofLeBytes (List.replicate count 0) = 0 := by
  induction count with
  | zero => rfl
  | succ count ih => simp [List.replicate_succ, ofLeBytes, ih]

theorem ofLeBytes_append_zeros (bytes : List UInt8) (count : ℕ) :
    ofLeBytes (bytes ++ List.replicate count 0) = ofLeBytes bytes := by
  simp [ofLeBytes_append, ofLeBytes_replicate_zero]

end Borsh

namespace Bytes

/-- The big-endian bytes of a number, as many as the length asks for. -/
def ofNat (length number : ℕ) : Bytes length :=
  ⟨(Borsh.leBytes length number).reverse, by simp⟩

/-- The number a byte string writes in big-endian order. -/
def toNat {length : ℕ} (bytes : Bytes length) : ℕ :=
  Borsh.ofLeBytes bytes.toList.reverse

theorem toNat_ofNat (length number : ℕ) :
    (ofNat length number).toNat = number % 256 ^ length := by
  change Borsh.ofLeBytes (Borsh.leBytes length number).reverse.reverse = _
  rw [List.reverse_reverse, Borsh.ofLeBytes_leBytes]

theorem toNat_injective {length : ℕ} : Function.Injective (toNat : Bytes length → ℕ) := by
  intro left right same
  apply List.Vector.eq
  apply List.reverse_injective
  have leftBack := Borsh.leBytes_ofLeBytes left.toList.reverse
  have rightBack := Borsh.leBytes_ofLeBytes right.toList.reverse
  rw [List.length_reverse, List.Vector.toList_length] at leftBack rightBack
  rw [← leftBack, ← rightBack]
  exact congrArg (Borsh.leBytes length) same

end Bytes

namespace Borsh

variable {α : Type}

/-- Eight bytes and the 64-bit integers they write. -/
def uint64Equiv : UInt64 ≃ Bytes 8 where
  toFun number := ⟨leBytes 8 number.toNat, length_leBytes _ _⟩
  invFun array := UInt64.ofNat (ofLeBytes array.toList)
  left_inv number := by
    apply UInt64.toNat_inj.mp
    simp [List.Vector.toList, ofLeBytes_leBytes]
  right_inv array := by
    apply List.Vector.eq
    have bound := ofLeBytes_lt array.toList
    have back := leBytes_ofLeBytes array.toList
    rw [List.Vector.toList_length] at bound back
    have small : ofLeBytes array.toList < 2 ^ 64 := bound
    change leBytes 8 (UInt64.ofNat (ofLeBytes array.toList)).toNat = array.toList
    rw [UInt64.toNat_ofNat', Nat.mod_eq_of_lt small, back]

instance : Borsh UInt64 :=
  ofEquiv uint64Equiv

@[simp]
theorem length_toVec_uint64 (number : UInt64) : (toVec number).length = 8 :=
  length_leBytes _ _

/-! ### Options -/

/-- An option is a tag byte, zero or one, before the value if there is one. -/
instance [Borsh α] : Borsh (Option α) where
  toVec
    | none => [0]
    | some value => 1 :: toVec value
  deserialize
    | [] => none
    | tag :: bytes =>
        if tag = 0 then some (none, bytes)
        else if tag = 1 then (deserialize bytes).map fun (value, rest) => (some value, rest)
        else none
  deserialize_eq_some_iff bytes value rest := by
    cases bytes with
    | nil => cases value <;> simp
    | cons tag bytes =>
        by_cases isNone : tag = 0
        · cases value <;> simp [isNone]
        by_cases isSome : tag = 1
        · subst isSome
          cases value with
          | none => simp
          | some value =>
              simp only [reduceIte, List.cons_append, List.cons.injEq, true_and,
                ← deserialize_eq_some_iff]
              simp
        · cases value <;> simp [isNone, isSome]

@[simp]
theorem toVec_none [Borsh α] : toVec (none : Option α) = [0] :=
  rfl

@[simp]
theorem toVec_some [Borsh α] (value : α) : toVec (some value) = 1 :: toVec value :=
  rfl

end Borsh

/-! ### Sequences -/

/-- A sequence short enough for its element count to fit the four bytes the format gives it. -/
structure Vec (α : Type) where
  /-- The elements in order. -/
  toList : List α
  /-- The count fits in 32 bits. -/
  length_lt : toList.length < 2 ^ 32
deriving DecidableEq

namespace Vec

variable {α β : Type}

@[ext]
theorem ext {left right : Vec α} (same : left.toList = right.toList) : left = right := by
  cases left
  cases right
  simp_all

/-- The empty sequence. -/
def empty : Vec α :=
  ⟨[], Nat.two_pow_pos 32⟩

instance : Inhabited (Vec α) :=
  ⟨empty⟩

/-- The sequence of one element. -/
def singleton (value : α) : Vec α :=
  ⟨[value], by simp⟩

/-- Apply a function to every element. -/
def map (f : α → β) (values : Vec α) : Vec β :=
  ⟨values.toList.map f, by simpa using values.length_lt⟩

@[simp]
theorem toList_empty : (empty : Vec α).toList = [] :=
  rfl

@[simp]
theorem toList_singleton (value : α) : (singleton value).toList = [value] :=
  rfl

@[simp]
theorem toList_map (f : α → β) (values : Vec α) : (values.map f).toList = values.toList.map f :=
  rfl

end Vec

namespace Borsh

variable {α : Type} [Borsh α]

/-- Read a given number of values. -/
def readMany : ℕ → List UInt8 → Option (List α × List UInt8)
  | 0, bytes => some ([], bytes)
  | count + 1, bytes => do
      let (value, bytes) ← deserialize bytes
      let (values, bytes) ← readMany count bytes
      some (value :: values, bytes)

theorem readMany_eq_some_iff (count : ℕ) (bytes : List UInt8) (values : List α)
    (rest : List UInt8) :
    readMany count bytes = some (values, rest) ↔
      values.length = count ∧ bytes = values.flatMap toVec ++ rest := by
  induction count generalizing bytes values rest with
  | zero =>
      cases values with
      | nil => simp [readMany]
      | cons value values => simp [readMany]
  | succ count ih =>
      simp only [readMany, Option.bind_eq_bind, Option.bind_eq_some_iff, Prod.exists,
        deserialize_eq_some_iff, ih, Option.some.injEq, Prod.mk.injEq]
      cases values with
      | nil => simp
      | cons value values =>
          constructor
          · rintro ⟨_, _, rfl, _, _, ⟨length, rfl⟩, same, rfl⟩
            simp only [List.cons.injEq] at same
            rw [← same.1, ← same.2]
            simp [length, List.append_assoc]
          · rintro ⟨length, rfl⟩
            exact ⟨value, _, by simp [List.append_assoc], values, rest,
              ⟨by simpa using length, rfl⟩, rfl, rfl⟩

/-- A sequence is its element count in four bytes, then its elements. -/
instance : Borsh (Vec α) where
  toVec values := leBytes 4 values.toList.length ++ values.toList.flatMap toVec
  deserialize bytes := do
    let (count, bytes) ← deserialize (α := Bytes 4) bytes
    let (values, bytes) ← readMany (ofLeBytes count.toList) bytes
    if short : values.length < 2 ^ 32 then some (⟨values, short⟩, bytes) else none
  deserialize_eq_some_iff bytes value rest := by
    simp only [Option.bind_eq_bind, Option.bind_eq_some_iff, Prod.exists,
      deserialize_eq_some_iff, readMany_eq_some_iff, toVec_bytes]
    constructor
    · rintro ⟨count, _, rfl, values, _, ⟨length, rfl⟩, kept⟩
      split at kept
      · simp only [Option.some.injEq, Prod.mk.injEq] at kept
        have back := leBytes_ofLeBytes count.toList
        rw [List.Vector.toList_length, ← length] at back
        rw [← kept.1, ← kept.2, List.append_assoc]
        change _ = leBytes 4 values.length ++ _
        rw [back]
      · cases kept
    · rintro rfl
      have short : value.toList.length < 256 ^ 4 := value.length_lt
      refine ⟨⟨leBytes 4 value.toList.length, length_leBytes _ _⟩, _,
        by rw [List.append_assoc]; rfl, value.toList, rest, ⟨?_, rfl⟩, ?_⟩
      · change _ = ofLeBytes (leBytes 4 value.toList.length)
        rw [ofLeBytes_leBytes, Nat.mod_eq_of_lt short]
      · rw [dif_pos value.length_lt]

theorem toVec_vec (values : Vec α) :
    toVec values = leBytes 4 values.toList.length ++ values.toList.flatMap toVec :=
  rfl

end Borsh
