import SuperpositionAccounts.Server.Accepted

/-!
# What hexadecimal texts denote

A text of hexadecimal digits of either case denotes bytes, and the number that
these bytes write. The three parsers of `lib/convertor/convertor.go` give the
bytes of the texts in their grammar. They are meant to return an error on all
others, by a check of the length that comes after the decoding. A text with the
digits of one byte too many does not get that far.
-/

namespace SuperpositionAccounts

namespace Go

open Result

/-! ### Bytes -/

/-- The text is two digits, of either case, for each of the bytes. -/
inductive Spells : List Char → List UInt8 → Prop where
  | nil : Spells [] []
  | cons {high low : Char} {text : List Char} {byte : UInt8} {bytes : List UInt8}
      (highDigit : hexValue high = some (byte.toNat / 16))
      (lowDigit : hexValue low = some (byte.toNat % 16)) (rest : Spells text bytes) :
      Spells (high :: low :: text) (byte :: bytes)

theorem length_of_spells {text : List Char} {bytes : List UInt8} (spelled : Spells text bytes) :
    text.length = 2 * bytes.length := by
  induction spelled with
  | nil => rfl
  | cons _ _ _ ih =>
      simp only [List.length_cons]
      omega

theorem hexValue_lt {c : Char} {digit : ℕ} (spelled : hexValue c = some digit) : digit < 16 := by
  have ranges (low high : Char) (offset : ℕ) (inside : low ≤ c ∧ c ≤ high)
      (small : high.toNat - offset < 16) : c.toNat - offset < 16 := by
    have upper : c.toNat ≤ high.toNat := inside.2
    omega
  unfold hexValue at spelled
  split at spelled
  · rename_i inside
    cases spelled
    exact ranges _ _ 48 inside (by decide)
  · split at spelled
    · rename_i inside
      cases spelled
      exact ranges _ _ 87 inside (by decide)
    · split at spelled
      · rename_i inside
        cases spelled
        exact ranges _ _ 55 inside (by decide)
      · cases spelled

theorem toNat_ofNat_digits {a b : ℕ} (high : a < 16) (low : b < 16) :
    (UInt8.ofNat (16 * a + b)).toNat = 16 * a + b := by
  rw [UInt8.toNat_ofNat', Nat.mod_eq_of_lt (by omega)]

/-- The decoder gives the bytes that are spelled, if there is room for them. -/
theorem hexDecode_eq_ok_iff {room : ℕ} (text : List Char) :
    ∀ {index : ℕ} {bytes : List UInt8}, index ≤ room →
      (hexDecode room index text = .ok bytes ↔
        Spells text bytes ∧ index + bytes.length ≤ room) := by
  induction text using List.twoStepInduction with
  | nil =>
      intro index bytes inside
      constructor
      · intro decoded
        cases decoded
        exact ⟨.nil, inside⟩
      · rintro ⟨spelled, _⟩
        cases spelled
        rfl
  | singleton last =>
      intro index bytes inside
      constructor
      · intro decoded
        unfold hexDecode at decoded
        split at decoded <;> cases decoded
      · rintro ⟨spelled, _⟩
        cases spelled
  | cons_cons high low rest ih _ =>
      intro index bytes inside
      constructor
      · intro decoded
        unfold hexDecode at decoded
        split at decoded
        · cases decoded
        · cases decoded
        · rename_i a b highDigit lowDigit
          split at decoded
          · rename_i more
            cases others : hexDecode room (index + 1) rest with
            | error fault =>
                rw [others] at decoded
                cases decoded
            | ok tail =>
                rw [others] at decoded
                cases decoded
                rcases (ih (Nat.succ_le_of_lt more)).mp others with ⟨spelled, fits⟩
                have value := toNat_ofNat_digits (hexValue_lt highDigit) (hexValue_lt lowDigit)
                have small := hexValue_lt lowDigit
                refine ⟨.cons ?_ ?_ spelled, ?_⟩
                · rw [value, highDigit]
                  congr 1
                  omega
                · rw [value, lowDigit]
                  congr 1
                  omega
                · rw [List.length_cons]
                  omega
          · cases decoded
      · rintro ⟨spelled, fits⟩
        cases spelled with
        | @cons _ _ _ byte tail highDigit lowDigit others =>
            rw [List.length_cons] at fits
            have more : index < room := by omega
            have decoded := (ih (Nat.succ_le_of_lt more)).mpr ⟨others, by omega⟩
            rw [hexDecode, highDigit, lowDigit]
            simp only
            rw [if_pos more, decoded, ofNat_sixteen]
            rfl

/-! ### The parsers -/

/-- The bytes an array is written with, after at most one `0x`. -/
def Denotes {length : ℕ} (text : String) (bytes : Bytes length) : Prop :=
  Spells (trim0x text.toList) bytes.toList

/-- The address a text is for: the empty text is for the zero address. -/
def DenotesAddr (text : String) (addr : Address) : Prop :=
  text = "" ∧ addr = Bytes.ofNat 20 0 ∨ Denotes text addr

theorem strToBytes_eq_ok_iff {length : ℕ} (text : String) (bytes : Bytes length) :
    strToBytes length text = .ok bytes ↔ Denotes text bytes := by
  have decodes (list : List UInt8) : hexDecode length 0 (trim0x text.toList) = .ok list ↔
      Spells (trim0x text.toList) list ∧ 0 + list.length ≤ length :=
    hexDecode_eq_ok_iff _ (Nat.zero_le length)
  unfold strToBytes Denotes
  constructor
  · intro parsed
    cases decoded : hexDecode length 0 (trim0x text.toList) with
    | error fault =>
        rw [decoded] at parsed
        cases fault <;> cases parsed
    | ok list =>
        rw [decoded] at parsed
        simp only [wrap_ok, bind, Except.bind] at parsed
        split at parsed
        · cases parsed
          exact ((decodes list).mp decoded).1
        · cases parsed
  · intro spelled
    have fits : 0 + bytes.toList.length ≤ length := by simp
    rw [(decodes bytes.toList).mpr ⟨spelled, fits⟩]
    simp only [wrap_ok, bind, Except.bind]
    rw [dif_pos bytes.toList_length]
    rfl

theorem strToAddr_eq_ok_iff (text : String) (addr : Address) :
    strToAddr text = .ok addr ↔ DenotesAddr text addr := by
  unfold strToAddr DenotesAddr
  split
  · rename_i empty
    subst empty
    have zero : (default : Address) = Bytes.ofNat 20 0 := by decide
    have nothing : ¬Denotes "" addr := by
      intro spelled
      cases addr with
      | mk list sized =>
          cases list with
          | nil => cases sized
          | cons byte rest => cases spelled
    simp only [true_and, nothing, or_false, zero]
    constructor
    · intro same
      exact (Except.ok.inj same).symm
    · intro same
      rw [same]
  · rename_i nonempty
    simp only [nonempty, false_and, false_or]
    exact strToBytes_eq_ok_iff text addr

section Follows

variable {α : Type} {parse : String → Result α} {grammar : String → Prop}
  {denotes : String → α → Prop} {text : String}

/-- A parser gives what a text of its grammar denotes and returns an error on another text. -/
def Follows (parse : String → Result α) (grammar : String → Prop) (denotes : String → α → Prop)
    (text : String) : Prop :=
  (grammar text → ∃ value, denotes text value ∧ parse text = .ok value) ∧
    (¬grammar text → Errs (parse text))

/-- A parser that accepts exactly its grammar goes wrong only by a panic. -/
theorem follows_iff (accepts : Succeeds (parse text) ↔ grammar text)
    (gives : ∀ value, parse text = .ok value ↔ denotes text value) :
    Follows parse grammar denotes text ↔ ¬Panics (parse text) := by
  constructor
  · rintro ⟨given, refused⟩ ⟨notGiven, notRefused⟩
    exact notRefused (refused fun inGrammar => notGiven (accepts.mpr inGrammar))
  · intro calm
    constructor
    · intro inGrammar
      rcases accepts.mpr inGrammar with ⟨value, parsed⟩
      exact ⟨value, (gives value).mp parsed, parsed⟩
    · intro outside
      by_contra notRefused
      exact calm ⟨fun given => outside (accepts.mp given), notRefused⟩

end Follows

/-- The parsers follow their grammars on every text that does not start with the digits of more
than an array. -/
theorem parsers_follow_grammar_iff (text : String) :
    (Follows strToBytes8 (HexText 8) Denotes text ↔ ¬Overlong 8 text) ∧
      (Follows strToAddr AddrText DenotesAddr text ↔ ¬Overlong 20 text) ∧
      (Follows strToBytes32 (HexText 32) Denotes text ↔ ¬Overlong 32 text) := by
  refine ⟨?_, ?_, ?_⟩
  · rw [← panics_strToBytes_iff]
    exact follows_iff (succeeds_strToBytes_iff 8 text) (strToBytes_eq_ok_iff text)
  · rw [← panics_strToAddr_iff]
    exact follows_iff (succeeds_strToAddr_iff text) (strToAddr_eq_ok_iff text)
  · rw [← panics_strToBytes_iff]
    exact follows_iff (succeeds_strToBytes_iff 32 text) (strToBytes_eq_ok_iff text)

/-- Nine bytes do not fit into eight, and the write of the ninth is out of range. -/
theorem overlong_outcome_panics :
    strToBytes8 "0x010203040506070809" =
        .error (.panic "runtime error: index out of range [8] with length 8") ∧
      ¬Follows strToBytes8 (HexText 8) Denotes "0x010203040506070809" := by
  have broken : strToBytes8 "0x010203040506070809" =
      .error (.panic "runtime error: index out of range [8] with length 8") := by decide +kernel
  refine ⟨broken, ?_⟩
  rintro ⟨_, refused⟩
  have outside : ¬HexText 8 "0x010203040506070809" := by
    rintro ⟨sized, _⟩
    revert sized
    decide +kernel
  have errs := refused outside
  rw [broken] at errs
  exact not_errs_panic _ errs

end Go

end SuperpositionAccounts
