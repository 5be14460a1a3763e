import Mathlib.Data.List.Induction
import Mathlib.Data.Nat.Digits.Defs
import SuperpositionAccounts.Wire.Go

/-!
# Texts in the server

The server receives addresses, byte strings and amounts as texts. This file
models the library functions it reads them with: `hex.Decode` and
`hex.DecodeString`, `common.IsHexAddress` and `common.HexToAddress`,
`big.Int.SetString` with base ten and `big.Int.Bytes`, and Go's `copy` into a
fixed array.

A Go function ends with a result, with an error it returns, with a panic, or with
the whole server, and these are kept apart. Go's texts are bytes; since every function here gives
up at the first byte that is not ASCII, a text is a string of characters.
-/

namespace SuperpositionAccounts

namespace Go

/-! ### How a Go function ends -/

/-- A function that gives no result returned an error, panicked, or ended the server with
`log.Fatalf`. -/
inductive Fault where
  | err (text : String)
  | panic (text : String)
  | fatal (text : String)
deriving DecidableEq

abbrev Result (α : Type) := Except Fault α

namespace Result

variable {α : Type}

/-- Return an error with this text. -/
def errorf (text : String) : Result α :=
  .error (.err text)

/-- Return the error with a text before it. Everything else passes through. -/
def wrap (note : String) : Result α → Result α
  | .error (.err text) => errorf (note ++ text)
  | other => other

/-- A result of a function that cannot panic. -/
def lift : Except String α → Result α
  | .ok value => .ok value
  | .error text => errorf text

/-- The function gave a result. -/
def Succeeds (result : Result α) : Prop :=
  ∃ value, result = .ok value

/-- The function returned an error. -/
def Errs (result : Result α) : Prop :=
  ∃ text, result = errorf text

@[simp]
theorem wrap_ok (note : String) (value : α) : wrap note (.ok value) = .ok value :=
  rfl

theorem ok_of_wrap_eq_ok {note : String} {result : Result α} {value : α}
    (wrapped : wrap note result = .ok value) : result = .ok value := by
  cases result with
  | ok _ => exact wrapped
  | error fault => cases fault <;> cases wrapped

theorem eq_ok_of_lift {outcome : Except String α} {value : α}
    (lifted : lift outcome = .ok value) : outcome = .ok value := by
  cases outcome with
  | ok given =>
      cases lifted
      rfl
  | error text => cases lifted

/-- A sequence that gives a result has come to its last part. -/
theorem bind_eq_ok {β : Type} {first : Result β} {after : β → Result α} {value : α}
    (given : (first >>= after) = .ok value) :
    ∃ middle, first = .ok middle ∧ after middle = .ok value := by
  cases first with
  | ok middle => exact ⟨middle, rfl, given⟩
  | error fault => cases given

/-- A test that returns an error was passed. -/
theorem guard_eq_ok {condition : Prop} [Decidable condition] {text : String}
    {after : Unit → Result α} {value : α}
    (given : (if condition then errorf text >>= after else after ()) = .ok value) :
    ¬condition ∧ after () = .ok value := by
  split at given
  · cases given
  · rename_i passed
    exact ⟨passed, given⟩

@[simp]
theorem not_errs_ok (value : α) : ¬Errs (.ok value : Result α) := by
  rintro ⟨text, returned⟩
  cases returned

@[simp]
theorem not_errs_panic (text : String) : ¬Errs (.error (.panic text) : Result α) := by
  rintro ⟨other, returned⟩
  cases returned

@[simp]
theorem errs_errorf (text : String) : Errs (errorf text : Result α) :=
  ⟨text, rfl⟩

end Result

open Result

/-! ### Hexadecimal texts -/

/-- The value of a hexadecimal digit of either case. -/
def hexValue (c : Char) : Option ℕ :=
  if '0' ≤ c ∧ c ≤ '9' then some (c.toNat - 48)
  else if 'a' ≤ c ∧ c ≤ 'f' then some (c.toNat - 87)
  else if 'A' ≤ c ∧ c ≤ 'F' then some (c.toNat - 55)
  else none

/-- The first byte of a character in UTF-8, which is the byte the decoder complains about. -/
def leadByte (c : Char) : ℕ :=
  if c.toNat < 0x80 then c.toNat
  else if c.toNat < 0x800 then 0xc0 + c.toNat / 0x40
  else if c.toNat < 0x10000 then 0xe0 + c.toNat / 0x1000
  else 0xf0 + c.toNat / 0x40000

/-- The byte as the format `%#U` prints it: its code, and the character if it is printable. -/
def formatByte (byte : ℕ) : String :=
  let digits := [byte / 16, byte % 16].map fun digit => (Nat.digitChar digit).toUpper
  let code := "U+00" ++ String.ofList digits
  if byte < 0x20 ∨ byte = 0x7f then code
  else code ++ " '" ++ String.ofList [Char.ofNat byte] ++ "'"

def invalidByteError (c : Char) : String :=
  "encoding/hex: invalid byte: " ++ formatByte (leadByte c)

def errLength : String :=
  "encoding/hex: odd length hex string"

/-- Go's `hex.Decode` from position `index` of a destination with `room` bytes: a pair of digits
beyond the room is an index out of range. -/
def hexDecode (room index : ℕ) : List Char → Result (List UInt8)
  | [] => .ok []
  | [last] =>
    match hexValue last with
    | none => errorf (invalidByteError last)
    | some _ => errorf errLength
  | high :: low :: rest =>
    match hexValue high, hexValue low with
    | none, _ => errorf (invalidByteError high)
    | some _, none => errorf (invalidByteError low)
    | some a, some b =>
      if index < room then do
        let bytes ← hexDecode room (index + 1) rest
        return UInt8.ofNat (16 * a + b) :: bytes
      else
        .error (.panic ("runtime error: index out of range [" ++ toString index ++
          "] with length " ++ toString room))

/-- Go's `hex.DecodeString`, whose destination has a byte for each pair. -/
def hexDecodeString (text : String) : Result (List UInt8) :=
  hexDecode (text.toList.length / 2) 0 text.toList

/-- Bytes as the characters with the same codes. -/
def ofAscii (bytes : List UInt8) : List Char :=
  bytes.map fun byte => Char.ofNat byte.toNat

/-- Go's `hex.EncodeToString`. -/
def hexEncodeToString (bytes : List UInt8) : String :=
  hexText bytes

/-- Go's `strings.ToLower`, on ASCII texts. -/
def toLower (text : String) : String :=
  String.ofList (text.toList.map Char.toLower)

theorem hexValue_hexDigit {digit : ℕ} (small : digit < 16) :
    hexValue (Char.ofNat (hexDigit digit).toNat) = some digit := by
  have each : ∀ digit : Fin 16,
      hexValue (Char.ofNat (hexDigit digit.val).toNat) = some digit.val := by decide
  exact each ⟨digit, small⟩

theorem hexValue_high (byte : UInt8) :
    hexValue (Char.ofNat (hexDigit (byte.toNat / 16)).toNat) = some (byte.toNat / 16) := by
  have bound := byte.toNat_lt
  exact hexValue_hexDigit (by omega)

theorem hexValue_low (byte : UInt8) :
    hexValue (Char.ofNat (hexDigit (byte.toNat % 16)).toNat) = some (byte.toNat % 16) :=
  hexValue_hexDigit (Nat.mod_lt _ (by decide))

theorem ofNat_sixteen (byte : UInt8) :
    UInt8.ofNat (16 * (byte.toNat / 16) + byte.toNat % 16) = byte := by
  rw [Nat.div_add_mod]
  exact UInt8.ofNat_toNat

/-- Go's `strings.TrimPrefix` with the text `0x`. -/
def trim0x : List Char → List Char
  | '0' :: 'x' :: rest => rest
  | text => text

/-- A text of hexadecimal digits for an array of a fixed length, with an optional `0x`. -/
def strToBytes (length : ℕ) (text : String) : Result (Bytes length) := do
  let bytes ← wrap "decode str: " (hexDecode length 0 (trim0x text.toList))
  if exact : bytes.length = length then
    let array : Bytes length := ⟨bytes, exact⟩
    return array
  else
    errorf ("decode str len: " ++ toString bytes.length)

def strToBytes8 (text : String) : Result (Bytes 8) :=
  strToBytes 8 text

/-- The empty text is the zero address. -/
def strToAddr (text : String) : Result Address :=
  if text = "" then .ok default else strToBytes 20 text

def strToBytes32 (text : String) : Result U :=
  strToBytes 32 text

/-! ### Addresses -/

/-- go-ethereum takes an upper-case mark as well. -/
def strip0x : List Char → List Char
  | '0' :: 'x' :: rest => rest
  | '0' :: 'X' :: rest => rest
  | text => text

/-- Go-ethereum's `common.IsHexAddress`. -/
def isHexAddress (text : String) : Bool :=
  let digits := strip0x text.toList
  digits.length = 40 && digits.all fun c => (hexValue c).isSome

/-- An address has no colon in it. -/
theorem colon_not_mem {text : String} (accepted : isHexAddress text = true) :
    ':' ∉ text.toList := by
  simp only [isHexAddress, Bool.and_eq_true, List.all_eq_true] at accepted
  have digits : ':' ∉ strip0x text.toList := fun member =>
    absurd (accepted.2 ':' member) (by decide)
  intro member
  unfold strip0x at digits
  split at digits
  · rename_i spelled
    simp [spelled, digits] at member
  · rename_i spelled
    simp [spelled, digits] at member
  · exact digits member

/-- Go-ethereum's `common.Hex2Bytes`: what was decoded before the first error. -/
def hex2Bytes : List Char → List UInt8
  | high :: low :: rest =>
    match hexValue high, hexValue low with
    | some a, some b => UInt8.ofNat (16 * a + b) :: hex2Bytes rest
    | _, _ => []
  | _ => []

/-- Go-ethereum's `common.FromHex`. -/
def fromHex (text : List Char) : List UInt8 :=
  let digits := strip0x text
  hex2Bytes (if digits.length % 2 = 1 then '0' :: digits else digits)

/-- Go-ethereum's `common.BytesToAddress`: the last 20 bytes, with zeros before them. -/
def bytesToAddress (bytes : List UInt8) : Address :=
  ⟨(List.replicate 20 0 ++ bytes).drop bytes.length, by
    rw [List.length_drop, List.length_append, List.length_replicate, Nat.add_sub_cancel]⟩

def hexToAddress (text : String) : Address :=
  bytesToAddress (fromHex text.toList)

/-- `strings.ToLower(addr.String())`: the text of an address has a checksum only in the case of
its letters, which lowering removes. -/
def lowerAddr (addr : Address) : String :=
  String.ofList ('0' :: 'x' :: ofAscii (hexEncode addr.toList))

theorem hex2Bytes_hexEncode (bytes : List UInt8) :
    hex2Bytes (ofAscii (hexEncode bytes)) = bytes := by
  induction bytes with
  | nil => rfl
  | cons byte rest ih =>
      change hex2Bytes (Char.ofNat (hexDigit (byte.toNat / 16)).toNat ::
        Char.ofNat (hexDigit (byte.toNat % 16)).toNat :: ofAscii (hexEncode rest)) = _
      rw [hex2Bytes, hexValue_high, hexValue_low]
      simp only
      rw [ih, ofNat_sixteen]

theorem bytesToAddress_toList (addr : Address) : bytesToAddress addr.toList = addr := by
  apply List.Vector.eq
  change (List.replicate 20 0 ++ addr.toList).drop addr.toList.length = addr.toList
  rw [List.drop_left' (by simp)]

/-- The lowered text of an address reads back as the address. -/
theorem hexToAddress_lowerAddr (addr : Address) : hexToAddress (lowerAddr addr) = addr := by
  have even : (ofAscii (hexEncode addr.toList)).length % 2 ≠ 1 := by
    simp [ofAscii, length_hexEncode]
  have read : fromHex (lowerAddr addr).toList = addr.toList := by
    simp only [lowerAddr, String.toList_ofList, fromHex, strip0x]
    rw [if_neg even, hex2Bytes_hexEncode]
  rw [hexToAddress, read, bytesToAddress_toList]

theorem lowerAddr_injective : Function.Injective lowerAddr :=
  Function.LeftInverse.injective hexToAddress_lowerAddr

/-! ### Decimal texts -/

/-- Read digits after `value`, until a character that is none. -/
def parseDigits (value : ℕ) : List Char → Option ℕ
  | [] => some value
  | c :: rest => if c.isDigit then parseDigits (10 * value + (c.toNat - 48)) rest else none

/-- A number has at least one digit. -/
def parseNat : List Char → Option ℕ
  | [] => none
  | c :: rest => parseDigits 0 (c :: rest)

/-- Go's `new(big.Int).SetString(text, 10)`. -/
def setString (text : String) : Option ℤ :=
  match text.toList with
  | '+' :: digits => (parseNat digits).map fun number : ℕ => (number : ℤ)
  | '-' :: digits => (parseNat digits).map fun number : ℕ => -(number : ℤ)
  | digits => (parseNat digits).map fun number : ℕ => (number : ℤ)

/-- A decimal numeral is an optional sign and at least one digit. -/
def Numeral (text : String) (value : ℤ) : Prop :=
  ∃ digits : List ℕ, digits ≠ [] ∧ (∀ digit ∈ digits, digit < 10) ∧
    ((text.toList = digits.map Nat.digitChar ∨ text.toList = '+' :: digits.map Nat.digitChar) ∧
        value = (Nat.ofDigits 10 digits.reverse : ℕ) ∨
      text.toList = '-' :: digits.map Nat.digitChar ∧
        value = -(Nat.ofDigits 10 digits.reverse : ℕ))

theorem isDigit_digitChar {digit : ℕ} (small : digit < 10) :
    (Nat.digitChar digit).isDigit = true ∧ (Nat.digitChar digit).toNat - 48 = digit := by
  have each : ∀ digit : Fin 10, (Nat.digitChar digit.val).isDigit = true ∧
      (Nat.digitChar digit.val).toNat - 48 = digit.val := by decide
  exact each ⟨digit, small⟩

theorem eq_digitChar {c : Char} (digit : c.isDigit = true) :
    c.toNat - 48 < 10 ∧ c = Nat.digitChar (c.toNat - 48) := by
  simp only [Char.isDigit, Bool.and_eq_true, decide_eq_true_eq] at digit
  rcases digit with ⟨low, high⟩
  have lowNat : 48 ≤ c.toNat := low
  have highNat : c.toNat ≤ 57 := high
  refine ⟨by omega, ?_⟩
  have each : ∀ code : Fin 10, Char.ofNat (48 + code.val) = Nat.digitChar code.val := by decide
  have same := each ⟨c.toNat - 48, by omega⟩
  rw [← same]
  simp only
  rw [Nat.add_sub_cancel' lowNat, Char.ofNat_toNat]

theorem parseDigits_eq_some_iff (text : List Char) (value number : ℕ) :
    parseDigits value text = some number ↔
      ∃ digits : List ℕ, (∀ digit ∈ digits, digit < 10) ∧ text = digits.map Nat.digitChar ∧
        number = value * 10 ^ digits.length + Nat.ofDigits 10 digits.reverse := by
  induction text generalizing value with
  | nil =>
      simp only [parseDigits, Option.some.injEq]
      constructor
      · rintro rfl
        exact ⟨[], by simp⟩
      · rintro ⟨digits, _, empty, total⟩
        rw [eq_comm, List.map_eq_nil_iff] at empty
        subst empty
        simpa using total.symm
  | cons c rest ih =>
      rw [parseDigits]
      split
      · rename_i digit
        rcases eq_digitChar digit with ⟨small, spelled⟩
        rw [ih]
        constructor
        · rintro ⟨digits, smalls, rfl, total⟩
          refine ⟨(c.toNat - 48) :: digits, ?_, ?_, ?_⟩
          · simpa using ⟨small, smalls⟩
          · rw [List.map_cons, ← spelled]
          · rw [total, List.reverse_cons, Nat.ofDigits_append, List.length_cons,
              List.length_reverse, Nat.ofDigits_singleton]
            ring
        · rintro ⟨digits, smalls, text, total⟩
          cases digits with
          | nil => simp at text
          | cons first others =>
              simp only [List.map_cons, List.cons.injEq] at text
              rcases text with ⟨rfl, rfl⟩
              have firstSmall := smalls first (by simp)
              rw [(isDigit_digitChar firstSmall).2]
              refine ⟨others, fun digit member => smalls digit (by simp [member]), rfl, ?_⟩
              rw [total, List.reverse_cons, Nat.ofDigits_append, List.length_cons,
                List.length_reverse, Nat.ofDigits_singleton]
              ring
      · rename_i notDigit
        constructor
        · intro parsed
          cases parsed
        · rintro ⟨digits, smalls, text, _⟩
          cases digits with
          | nil => simp at text
          | cons first others =>
              simp only [List.map_cons, List.cons.injEq] at text
              rw [text.1] at notDigit
              exact absurd (isDigit_digitChar (smalls first (by simp))).1 notDigit

theorem parseNat_eq_some_iff (text : List Char) (number : ℕ) :
    parseNat text = some number ↔
      ∃ digits : List ℕ, digits ≠ [] ∧ (∀ digit ∈ digits, digit < 10) ∧
        text = digits.map Nat.digitChar ∧ number = Nat.ofDigits 10 digits.reverse := by
  cases text with
  | nil =>
      simp only [parseNat, reduceCtorEq, false_iff, not_exists]
      rintro digits ⟨nonempty, _, empty, _⟩
      exact nonempty (List.map_eq_nil_iff.mp empty.symm)
  | cons c rest =>
      rw [parseNat, parseDigits_eq_some_iff]
      simp only [zero_mul, zero_add]
      constructor
      · rintro ⟨digits, smalls, text, total⟩
        refine ⟨digits, ?_, smalls, text, total⟩
        rintro rfl
        cases text
      · rintro ⟨digits, _, smalls, text, total⟩
        exact ⟨digits, smalls, text, total⟩

/-- A sign is no digit. -/
theorem digitChar_ne_sign {digit : ℕ} (small : digit < 10) :
    Nat.digitChar digit ≠ '+' ∧ Nat.digitChar digit ≠ '-' := by
  have each : ∀ digit : Fin 10, Nat.digitChar digit.val ≠ '+' ∧
      Nat.digitChar digit.val ≠ '-' := by decide
  exact each ⟨digit, small⟩

theorem not_digits_of_sign {sign : Char} (isSign : sign = '+' ∨ sign = '-') {rest : List Char}
    {digits : List ℕ} (smalls : ∀ digit ∈ digits, digit < 10) :
    sign :: rest ≠ digits.map Nat.digitChar := by
  intro text
  cases digits with
  | nil => simp at text
  | cons first others =>
      simp only [List.map_cons, List.cons.injEq] at text
      have apart := digitChar_ne_sign (smalls first (by simp))
      rcases isSign with rfl | rfl
      · exact apart.1 text.1.symm
      · exact apart.2 text.1.symm

/-- `SetString` accepts the decimal numerals and gives their values. -/
theorem setString_eq_some_iff (text : String) (value : ℤ) :
    setString text = some value ↔ Numeral text value := by
  unfold setString Numeral
  split
  · rename_i rest spelled
    simp only [Option.map_eq_some_iff, parseNat_eq_some_iff, spelled]
    constructor
    · rintro ⟨number, ⟨digits, nonempty, smalls, rfl, rfl⟩, rfl⟩
      exact ⟨digits, nonempty, smalls, .inl ⟨.inr rfl, rfl⟩⟩
    · rintro ⟨digits, nonempty, smalls, ⟨plain | plus, rfl⟩ | ⟨minus, _⟩⟩
      · exact absurd plain (not_digits_of_sign (.inl rfl) smalls)
      · exact ⟨_, ⟨digits, nonempty, smalls, (List.cons.inj plus).2, rfl⟩, rfl⟩
      · exact absurd (List.cons.inj minus).1 (by decide)
  · rename_i rest spelled
    simp only [Option.map_eq_some_iff, parseNat_eq_some_iff, spelled]
    constructor
    · rintro ⟨number, ⟨digits, nonempty, smalls, rfl, rfl⟩, rfl⟩
      exact ⟨digits, nonempty, smalls, .inr ⟨rfl, rfl⟩⟩
    · rintro ⟨digits, nonempty, smalls, ⟨plain | plus, rfl⟩ | ⟨minus, rfl⟩⟩
      · exact absurd plain (not_digits_of_sign (.inr rfl) smalls)
      · exact absurd (List.cons.inj plus).1 (by decide)
      · exact ⟨_, ⟨digits, nonempty, smalls, (List.cons.inj minus).2, rfl⟩, rfl⟩
  · rename_i noPlus noMinus
    simp only [Option.map_eq_some_iff, parseNat_eq_some_iff]
    constructor
    · rintro ⟨number, ⟨digits, nonempty, smalls, text, rfl⟩, rfl⟩
      exact ⟨digits, nonempty, smalls, .inl ⟨.inl text, rfl⟩⟩
    · rintro ⟨digits, nonempty, smalls, ⟨plain | plus, rfl⟩ | ⟨minus, _⟩⟩
      · exact ⟨_, ⟨digits, nonempty, smalls, plain, rfl⟩, rfl⟩
      · exact absurd plus (noPlus _)
      · exact absurd minus (noMinus _)

theorem numeral_unique {text : String} {value other : ℤ} (numeral : Numeral text value)
    (same : Numeral text other) : value = other := by
  rw [← setString_eq_some_iff] at numeral same
  rw [numeral] at same
  exact Option.some.inj same

/-! ### The bytes of an integer -/

/-- How many bytes a number needs. -/
def byteLength (number : ℕ) : ℕ :=
  if number = 0 then 0 else number.log2 / 8 + 1

theorem byteLength_le_iff (number count : ℕ) :
    byteLength number ≤ count ↔ number < 256 ^ count := by
  unfold byteLength
  split
  · rename_i zero
    simp [zero]
  · rename_i nonzero
    have bits := Nat.log2_lt (k := 8 * count) nonzero
    rw [show (256 : ℕ) ^ count = 2 ^ (8 * count) from (pow_mul 2 8 count).symm]
    omega

/-- Go's `big.Int.Bytes`: the absolute value in big-endian order, without leading zeros. -/
def bigBytes (number : ℤ) : List UInt8 :=
  (Borsh.leBytes (byteLength number.natAbs) number.natAbs).reverse

@[simp]
theorem length_bigBytes (number : ℤ) : (bigBytes number).length = byteLength number.natAbs := by
  simp [bigBytes]

/-- Go's `copy(array[low:], src)` into an array of zeros. -/
def copyAt {length : ℕ} (low : ℕ) (src : List UInt8) : Result (Bytes length) :=
  if low ≤ length then
    .ok ⟨(List.replicate low 0 ++ src ++ List.replicate length 0).take length, by
      simp only [List.length_take, List.length_append, List.length_replicate]
      omega⟩
  else
    .error (.panic ("runtime error: slice bounds out of range [" ++ toString low ++ ":" ++
      toString length ++ "]"))

/-- A number in its own bytes with zeros before them is the number in the array's bytes. -/
theorem toList_ofNat_eq {length number : ℕ} (fits : number < 256 ^ length) :
    (Bytes.ofNat length number).toList =
      List.replicate (length - byteLength number) 0 ++ bigBytes number := by
  have short := (byteLength_le_iff number length).mpr fits
  have own := (byteLength_le_iff number (byteLength number)).mp (Nat.le_refl _)
  have padded := Borsh.leBytes_ofLeBytes
    (Borsh.leBytes (byteLength number) number ++ List.replicate (length - byteLength number) 0)
  rw [Borsh.ofLeBytes_append_zeros, Borsh.ofLeBytes_leBytes, Nat.mod_eq_of_lt own,
    List.length_append, Borsh.length_leBytes, List.length_replicate,
    Nat.add_sub_cancel' short] at padded
  change (Borsh.leBytes length number).reverse = _
  rw [padded, List.reverse_append, List.reverse_replicate]
  rfl

/-- Copying the bytes of a number to the end of an array writes the number. -/
theorem copyAt_bigBytes {length number : ℕ} (fits : number < 256 ^ length) :
    copyAt (length - (bigBytes number).length) (bigBytes number) =
      .ok (Bytes.ofNat length number) := by
  have short := (byteLength_le_iff number length).mpr fits
  have whole := toList_ofNat_eq fits
  rw [copyAt, if_pos (Nat.sub_le _ _)]
  refine congrArg Except.ok (List.Vector.eq _ _ ?_)
  rw [whole]
  simp only [length_bigBytes, Int.natAbs_natCast]
  exact List.take_left' (by simp [Nat.sub_add_cancel short])

end Go

end SuperpositionAccounts
