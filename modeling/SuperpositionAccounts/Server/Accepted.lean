import SuperpositionAccounts.Server.ClientNonce

/-!
# What the server accepts

The texts that the functions reading a request accept, and those they panic on.
A text of hexadecimal digits is accepted if it has two digits for every byte, and
one with more is an index out of range as soon as the array is full. The results
say this of each part of a request and of the whole, so that later a condition on
a request can be stated without running the code.
-/

namespace SuperpositionAccounts

namespace Go

open Result

/-! ### Outcomes of a sequence -/

namespace Result

variable {α β : Type}

/-- The function panicked: it gave neither a result nor an error. -/
def Panics (result : Result α) : Prop :=
  ¬Succeeds result ∧ ¬Errs result

@[simp]
theorem succeeds_ok (value : α) : Succeeds (.ok value : Result α) :=
  ⟨value, rfl⟩

@[simp]
theorem not_succeeds_error (fault : Fault) : ¬Succeeds (.error fault : Result α) := by
  rintro ⟨value, given⟩
  cases given

@[simp]
theorem not_succeeds_errorf (text : String) : ¬Succeeds (errorf text : Result α) :=
  not_succeeds_error _

@[simp]
theorem not_panics_ok (value : α) : ¬Panics (.ok value : Result α) :=
  fun broken => broken.1 (succeeds_ok value)

@[simp]
theorem not_panics_errorf (text : String) : ¬Panics (errorf text : Result α) :=
  fun broken => broken.2 (errs_errorf text)

@[simp]
theorem panics_panic (text : String) : Panics (.error (.panic text) : Result α) :=
  ⟨not_succeeds_error _, not_errs_panic text⟩

theorem succeeds_bind {first : Result β} {after : β → Result α} :
    Succeeds (first >>= after) ↔ ∃ value, first = .ok value ∧ Succeeds (after value) := by
  cases first with
  | ok value => simp [bind, Except.bind]
  | error fault => simp [bind, Except.bind]

theorem panics_bind {first : Result β} {after : β → Result α} :
    Panics (first >>= after) ↔
      Panics first ∨ ∃ value, first = .ok value ∧ Panics (after value) := by
  cases first with
  | ok value => simp [bind, Except.bind]
  | error fault => simp [bind, Except.bind, Panics, Errs, errorf]

@[simp]
theorem succeeds_wrap {note : String} {result : Result α} :
    Succeeds (wrap note result) ↔ Succeeds result := by
  cases result with
  | ok value => rfl
  | error fault => cases fault <;> simp [wrap]

@[simp]
theorem panics_wrap {note : String} {result : Result α} :
    Panics (wrap note result) ↔ Panics result := by
  cases result with
  | ok value => rfl
  | error fault => cases fault <;> simp [wrap, Panics, Errs, errorf]

/-- A test that returns an error. -/
theorem succeeds_guard {condition : Prop} [Decidable condition] {text : String}
    {after : Unit → Result α} :
    Succeeds (if condition then errorf text >>= after else after ()) ↔
      ¬condition ∧ Succeeds (after ()) := by
  split
  · rename_i failed
    simp [failed, succeeds_bind, errorf]
  · rename_i passed
    simp [passed]

theorem panics_guard {condition : Prop} [Decidable condition] {text : String}
    {after : Unit → Result α} :
    Panics (if condition then errorf text >>= after else after ()) ↔
      ¬condition ∧ Panics (after ()) := by
  split
  · rename_i failed
    simp only [failed, not_true, false_and, iff_false]
    exact not_panics_errorf text
  · rename_i passed
    simp [passed]

end Result

/-! ### Hexadecimal texts -/

/-- The characters are hexadecimal digits. -/
def AllHex (text : List Char) : Prop :=
  ∀ c ∈ text, (hexValue c).isSome = true

@[simp]
theorem allHex_nil : AllHex [] := by
  simp [AllHex]

@[simp]
theorem allHex_cons {c : Char} {rest : List Char} :
    AllHex (c :: rest) ↔ (hexValue c).isSome = true ∧ AllHex rest := by
  simp [AllHex]

/-- One byte for each pair of digits. -/
theorem length_hexDecode {room : ℕ} (text : List Char) :
    ∀ {index : ℕ} {bytes : List UInt8}, hexDecode room index text = .ok bytes →
      text.length = 2 * bytes.length := by
  induction text using List.twoStepInduction with
  | nil =>
      intro index bytes decoded
      cases decoded
      rfl
  | singleton last =>
      intro index bytes decoded
      unfold hexDecode at decoded
      split at decoded <;> cases decoded
  | cons_cons high low rest ih _ =>
      intro index bytes decoded
      unfold hexDecode at decoded
      split at decoded
      · cases decoded
      · cases decoded
      · split at decoded
        · cases others : hexDecode room (index + 1) rest with
          | error fault =>
              rw [others] at decoded
              cases decoded
          | ok tail =>
              rw [others] at decoded
              cases decoded
              have counted := ih others
              simp only [List.length_cons]
              omega
        · cases decoded

/-- The digits of the byte at the position, and of all after it, fill the room exactly or less. -/
theorem succeeds_hexDecode_iff {room : ℕ} (text : List Char) :
    ∀ {index : ℕ}, index ≤ room → (Succeeds (hexDecode room index text) ↔
      text.length % 2 = 0 ∧ AllHex text ∧ index + text.length / 2 ≤ room) := by
  induction text using List.twoStepInduction with
  | nil =>
      intro index inside
      simp [hexDecode, inside]
  | singleton last =>
      intro index inside
      unfold hexDecode
      split <;> simp
  | cons_cons high low rest ih _ =>
      intro index inside
      unfold hexDecode
      cases highValue : hexValue high with
      | none => simp [highValue]
      | some a =>
          cases lowValue : hexValue low with
          | none => simp [lowValue]
          | some b =>
              simp only [allHex_cons, highValue, lowValue, Option.isSome_some, true_and,
                List.length_cons]
              split
              · rename_i room
                rw [succeeds_bind]
                have others := ih (Nat.succ_le_of_lt room)
                simp only [pure, Except.pure, succeeds_ok, and_true]
                change Succeeds _ ↔ _
                rw [others]
                refine and_congr (by omega) (and_congr_right fun _ => by omega)
              · simp only [not_succeeds_error, false_iff, not_and]
                omega

/-- The pairs of digits go beyond the room. -/
theorem panics_hexDecode_iff {room : ℕ} (text : List Char) :
    ∀ {index : ℕ}, index ≤ room → (Panics (hexDecode room index text) ↔
      2 * (room - index + 1) ≤ text.length ∧ AllHex (text.take (2 * (room - index + 1)))) := by
  induction text using List.twoStepInduction with
  | nil =>
      intro index inside
      simp [hexDecode]
  | singleton last =>
      intro index inside
      simp only [List.length_singleton]
      unfold hexDecode
      split <;> simp <;> omega
  | cons_cons high low rest ih _ =>
      intro index inside
      have pairs : 2 * (room - index + 1) = 2 * (room - index) + 2 := by omega
      unfold hexDecode
      rw [pairs]
      simp only [List.take_succ_cons, allHex_cons, List.length_cons, Nat.add_le_add_iff_right]
      cases highValue : hexValue high with
      | none => simp
      | some a =>
          cases lowValue : hexValue low with
          | none => simp
          | some b =>
              simp only [Option.isSome_some, true_and]
              split
              · rename_i more
                have others := ih (Nat.succ_le_of_lt more)
                have shifted : room - (index + 1) + 1 = room - index := by omega
                rw [shifted] at others
                rw [panics_bind, others]
                simp [pure, Except.pure]
              · rename_i full
                have none : room - index = 0 := by omega
                simp [none]

/-- The text is the digits of an array, with an optional `0x`. -/
def HexText (length : ℕ) (text : String) : Prop :=
  (trim0x text.toList).length = 2 * length ∧ AllHex (trim0x text.toList)

/-- The text starts with the digits of more than an array. -/
def Overlong (length : ℕ) (text : String) : Prop :=
  2 * (length + 1) ≤ (trim0x text.toList).length ∧
    AllHex ((trim0x text.toList).take (2 * (length + 1)))

theorem succeeds_strToBytes_iff (length : ℕ) (text : String) :
    Succeeds (strToBytes length text) ↔ HexText length text := by
  have decodes := succeeds_hexDecode_iff (trim0x text.toList) (Nat.zero_le length)
  unfold strToBytes HexText
  rw [succeeds_bind]
  constructor
  · rintro ⟨bytes, wrapped, sized⟩
    have decoded := ok_of_wrap_eq_ok wrapped
    split at sized
    · rename_i exact_
      have counted := length_hexDecode _ decoded
      exact ⟨by omega, (decodes.mp ⟨bytes, decoded⟩).2.1⟩
    · exact absurd sized (not_succeeds_errorf _)
  · rintro ⟨sized, digits⟩
    rcases decodes.mpr ⟨by omega, digits, by omega⟩ with ⟨bytes, decoded⟩
    have counted := length_hexDecode _ decoded
    refine ⟨bytes, by rw [decoded]; rfl, ?_⟩
    rw [dif_pos (by omega)]
    exact succeeds_ok _

theorem panics_strToBytes_iff (length : ℕ) (text : String) :
    Panics (strToBytes length text) ↔ Overlong length text := by
  have overflows := panics_hexDecode_iff (trim0x text.toList) (Nat.zero_le length)
  rw [Nat.sub_zero] at overflows
  unfold strToBytes Overlong
  rw [panics_bind, panics_wrap, overflows]
  constructor
  · rintro (long | ⟨bytes, _, ends⟩)
    · exact long
    · split at ends
      · exact absurd ends (not_panics_ok _)
      · exact absurd ends (not_panics_errorf _)
  · exact .inl

/-- The text of an address: empty, or the digits of one. -/
def AddrText (text : String) : Prop :=
  text = "" ∨ HexText 20 text

theorem succeeds_strToAddr_iff (text : String) : Succeeds (strToAddr text) ↔ AddrText text := by
  unfold strToAddr AddrText
  split
  · rename_i empty
    simp [empty]
  · rename_i nonempty
    simp [nonempty, succeeds_strToBytes_iff]

theorem panics_strToAddr_iff (text : String) : Panics (strToAddr text) ↔ Overlong 20 text := by
  unfold strToAddr
  split
  · rename_i empty
    subst empty
    simp [Overlong, trim0x]
  · exact panics_strToBytes_iff 20 text

theorem succeeds_copyAt {length low : ℕ} (inside : low ≤ length) (src : List UInt8) :
    Succeeds (copyAt low src : Result (Bytes length)) :=
  ⟨_, if_pos inside⟩

theorem succeeds_parseAmount_iff (amount : String) :
    Succeeds (parseAmount amount) ↔
      ∃ value : ℤ, Numeral amount value ∧ value.natAbs < 2 ^ 256 := by
  simp only [← setString_eq_some_iff, parseAmount]
  cases spelled : setString amount with
  | none => simp
  | some value =>
      have size := byteLength_le_iff value.natAbs 32
      simp only [length_bigBytes, Option.some.injEq, exists_eq_left']
      split
      · simp only [not_succeeds_errorf, false_iff]
        omega
      · have copied := succeeds_copyAt (Nat.sub_le 32 (byteLength value.natAbs)) (bigBytes value)
        simp only [copied, true_iff]
        omega

theorem succeeds_copyMsTs_iff (msTs : String) :
    Succeeds (copyMsTs msTs) ↔ ∃ value : ℤ, Numeral msTs value := by
  simp only [← setString_eq_some_iff, copyMsTs]
  cases spelled : setString msTs with
  | none => simp
  | some value => simp [succeeds_copyAt (Nat.zero_le 16)]

/-! ### Requests -/

variable {Asset : Type}

/-- A value of `v`, as a signed number. -/
def ByteRange (v : Int32) : Prop :=
  ¬(v < 0 ∨ 255 < v)

def Model.Permit.WellFormed (permit : Model.Permit) : Prop :=
  ¬permit.deadline < 0 ∧ ByteRange permit.permitV ∧ HexText 32 permit.permitR ∧
    HexText 32 permit.permitS

def Model.Mint.WellFormed (mint : Model.Mint) : Prop :=
  HexText 8 mint.outcome ∧
    (∃ value : ℤ, Numeral mint.amount value ∧ value.natAbs < 2 ^ 256) ∧
    AddrText mint.market ∧ AddrText mint.referrer ∧ (∃ value : ℤ, Numeral mint.msTs value) ∧
    ∀ permit, mint.permit = some permit → permit.WellFormed

def Model.CreateAccount.WellFormed (createAccount : Model.CreateAccount) : Prop :=
  AddrText createAccount.eoaAddr ∧
    (∀ authority, createAccount.authority = some authority → AddrText authority) ∧
    ByteRange createAccount.sigV ∧ HexText 32 createAccount.sigR ∧ HexText 32 createAccount.sigS

/-- A sequence whose later parts do not depend on the values of the earlier ones. -/
theorem succeeds_seq {α β : Type} {first : Result β} {after : β → Result α} {passed holds : Prop}
    (passes : Succeeds first ↔ passed) (rest : ∀ value, Succeeds (after value) ↔ holds) :
    Succeeds (first >>= after) ↔ passed ∧ holds := by
  rw [succeeds_bind, ← passes]
  constructor
  · rintro ⟨value, given, continued⟩
    exact ⟨⟨value, given⟩, (rest value).mp continued⟩
  · rintro ⟨⟨value, given⟩, held⟩
    exact ⟨value, given, (rest value).mpr held⟩

/-- The last part of a sequence. -/
theorem succeeds_last {α β : Type} {first : Result β} {result : β → α} {passed : Prop}
    (passes : Succeeds first ↔ passed) :
    Succeeds (first >>= fun value => pure (result value)) ↔ passed :=
  (succeeds_seq passes fun value => iff_true_intro (succeeds_ok (result value))).trans
    (iff_of_eq (and_true _))

theorem succeeds_newPermitGraph_iff (asset : Asset) (deadline : UInt64) (permitV : Int32)
    (permitR permitS : String) :
    Succeeds (newPermitGraph asset deadline permitV permitR permitS) ↔
      ByteRange permitV ∧ HexText 32 permitR ∧ HexText 32 permitS := by
  unfold newPermitGraph
  refine succeeds_guard.trans (and_congr_right fun _ => ?_)
  refine succeeds_seq (succeeds_wrap.trans (succeeds_strToBytes_iff 32 permitR)) fun r => ?_
  exact succeeds_last (succeeds_wrap.trans (succeeds_strToBytes_iff 32 permitS))

theorem succeeds_parsePermit_iff (asset : Asset) (permit : Option Model.Permit) :
    Succeeds (parsePermit asset permit) ↔ ∀ given, permit = some given → given.WellFormed := by
  cases permit with
  | none => simp [parsePermit]
  | some permit =>
      simp only [Option.some.injEq, forall_eq']
      unfold parsePermit
      refine succeeds_guard.trans (and_congr_right fun _ => ?_)
      exact succeeds_last (succeeds_wrap.trans (succeeds_newPermitGraph_iff _ _ _ _ _))

theorem succeeds_parseAuthority_iff (authority : Option String) :
    Succeeds (parseAuthority authority) ↔ ∀ given, authority = some given → AddrText given := by
  cases authority with
  | none => simp [parseAuthority]
  | some text =>
      simp only [Option.some.injEq, forall_eq']
      exact succeeds_last (succeeds_wrap.trans (succeeds_strToAddr_iff text))

/-- An account creation is built from the well-formed requests. -/
theorem succeeds_createAccount_iff (pubKey : Bytes 32) (createAccount : Model.CreateAccount) :
    Succeeds (createAccountToFreshBackwardsGraph pubKey createAccount : Result (Untagged Asset)) ↔
      createAccount.WellFormed := by
  unfold createAccountToFreshBackwardsGraph
  refine succeeds_seq (succeeds_wrap.trans (succeeds_strToAddr_iff _)) fun eoa => ?_
  refine succeeds_seq (succeeds_parseAuthority_iff _) fun authority => ?_
  refine succeeds_guard.trans (and_congr_right fun _ => ?_)
  refine succeeds_seq (succeeds_wrap.trans (succeeds_strToBytes_iff 32 _)) fun r => ?_
  exact succeeds_last (succeeds_wrap.trans (succeeds_strToBytes_iff 32 _))

/-- A mint is signed for the well-formed requests. -/
theorem succeeds_mint_iff [AssetRegistry Asset] {prog : Program} (answers : prog.Answers)
    (sum512 : List UInt8 → Bytes 64) (asset : Asset) (mint : Model.Mint) (recipient : Address) :
    Succeeds (createSolveArgsSigArgsMintGraph sum512 prog asset mint.market mint.outcome
      mint.amount mint.referrer recipient mint.permit mint.msTs) ↔ mint.WellFormed := by
  unfold createSolveArgsSigArgsMintGraph
  refine succeeds_seq (succeeds_wrap.trans (succeeds_strToBytes_iff 8 _)) fun o => ?_
  refine succeeds_seq (succeeds_parseAmount_iff _) fun a => ?_
  refine succeeds_seq (succeeds_wrap.trans (succeeds_strToAddr_iff _)) fun m => ?_
  refine succeeds_seq (succeeds_wrap.trans (succeeds_strToAddr_iff _)) fun ref => ?_
  refine succeeds_seq (succeeds_copyMsTs_iff _) fun msTs => ?_
  have signs (p : Option (Permit Asset)) : Succeeds (Result.lift
      (createSolveArgsSigArgsMint sum512 prog asset m o a ref recipient p msTs)) := by
    rcases createSolveArgsSigArgs_ok sum512 asset answers m a (newMint o a ref recipient) p msTs
      with ⟨signed, made, _⟩
    exact ⟨signed, by simp [createSolveArgsSigArgsMint, made, Result.lift]⟩
  exact (succeeds_seq (succeeds_parsePermit_iff asset _) fun p => iff_true_intro (signs p)).trans
    (iff_of_eq (and_true _))

/-- Hence it is tagged onto a creation. -/
theorem succeeds_tag_iff [AssetRegistry Asset] {prog : Program} (answers : prog.Answers)
    (sum512 : List UInt8 → Bytes 64) (fresh : Untagged Asset) (asset : Asset) (mint : Model.Mint)
    (recipient : Address) :
    Succeeds (tagFreshBackwardsWithMintGraph sum512 prog fresh asset mint.market mint.outcome
      mint.amount mint.referrer recipient mint.permit mint.msTs) ↔ mint.WellFormed :=
  succeeds_last (succeeds_mint_iff answers sum512 asset mint recipient)

/-! ### Panics -/

/-- Checks in the order they are made, each with what passes it and what breaks the function. -/
def Unbroken : List (Prop × Prop) → Prop
  | [] => True
  | (passes, breaks) :: rest => ¬breaks ∧ (passes → Unbroken rest)

theorem not_panics_seq {α β : Type} {first : Result β} {after : β → Result α}
    {passed breaks : Prop} {checks : List (Prop × Prop)} (passes : Succeeds first ↔ passed)
    (overflows : Panics first ↔ breaks) (rest : ∀ value, ¬Panics (after value) ↔ Unbroken checks) :
    ¬Panics (first >>= after) ↔ Unbroken ((passed, breaks) :: checks) := by
  rw [panics_bind, Unbroken, not_or, ← passes, ← overflows]
  refine and_congr_right fun _ => ?_
  constructor
  · rintro calm ⟨value, given⟩
    exact (rest value).mp fun broken => calm ⟨value, given, broken⟩
  · rintro calm ⟨value, given, broken⟩
    exact (rest value).mpr (calm ⟨value, given⟩) broken

theorem not_panics_guard {α : Type} {condition : Prop} [Decidable condition] {text : String}
    {after : Unit → Result α} {checks : List (Prop × Prop)}
    (rest : ¬Panics (after ()) ↔ Unbroken checks) :
    ¬Panics (if condition then errorf text >>= after else after ()) ↔
      Unbroken ((¬condition, False) :: checks) := by
  rw [panics_guard, Unbroken, ← rest]
  simp

/-- The checks of `CreateAccountToFreshBackwardsGraph`. -/
def Model.CreateAccount.checks (createAccount : Model.CreateAccount) : List (Prop × Prop) :=
  [(AddrText createAccount.eoaAddr, Overlong 20 createAccount.eoaAddr),
    (∀ authority, createAccount.authority = some authority → AddrText authority,
      ∃ authority, createAccount.authority = some authority ∧ Overlong 20 authority),
    (ByteRange createAccount.sigV, False),
    (HexText 32 createAccount.sigR, Overlong 32 createAccount.sigR),
    (HexText 32 createAccount.sigS, Overlong 32 createAccount.sigS)]

theorem panics_parseAuthority_iff (authority : Option String) :
    Panics (parseAuthority authority) ↔ ∃ given, authority = some given ∧ Overlong 20 given := by
  cases authority with
  | none => simp [parseAuthority]
  | some text =>
      simp only [Option.some.injEq, exists_eq_left', parseAuthority]
      rw [panics_bind, panics_wrap, panics_strToAddr_iff]
      simp [pure, Except.pure]

theorem not_panics_createAccount_iff (pubKey : Bytes 32) (createAccount : Model.CreateAccount) :
    ¬Panics (createAccountToFreshBackwardsGraph pubKey createAccount :
      Result (Untagged Asset)) ↔ Unbroken createAccount.checks := by
  unfold createAccountToFreshBackwardsGraph Model.CreateAccount.checks
  refine not_panics_seq (succeeds_wrap.trans (succeeds_strToAddr_iff _))
    (panics_wrap.trans (panics_strToAddr_iff _)) fun eoa => ?_
  refine not_panics_seq (succeeds_parseAuthority_iff _) (panics_parseAuthority_iff _)
    fun authority => ?_
  refine not_panics_guard ?_
  refine not_panics_seq (succeeds_wrap.trans (succeeds_strToBytes_iff 32 _))
    (panics_wrap.trans (panics_strToBytes_iff 32 _)) fun r => ?_
  refine not_panics_seq (succeeds_wrap.trans (succeeds_strToBytes_iff 32 _))
    (panics_wrap.trans (panics_strToBytes_iff 32 _)) fun s => ?_
  exact iff_of_true (not_panics_ok _) trivial

/-- A mint whose amount is no number is refused before anything after the amount is read, and
panics only on its outcome. -/
theorem not_panics_tag_iff [AssetRegistry Asset] (prog : Program) (sum512 : List UInt8 → Bytes 64)
    (fresh : Untagged Asset) (asset : Asset) (mint : Model.Mint) (recipient : Address)
    (unread : ∀ value, ¬Numeral mint.amount value) :
    ¬Panics (tagFreshBackwardsWithMintGraph sum512 prog fresh asset mint.market mint.outcome
      mint.amount mint.referrer recipient mint.permit mint.msTs) ↔ ¬Overlong 8 mint.outcome := by
  have refused : parseAmount mint.amount = errorf ("amount: " ++ mint.amount) := by
    cases spelled : setString mint.amount with
    | none => simp [parseAmount, spelled]
    | some value => exact absurd ((setString_eq_some_iff _ _).mp spelled) (unread value)
  have calm : Panics (strToBytes8 mint.outcome) ↔ Overlong 8 mint.outcome :=
    panics_strToBytes_iff 8 _
  rw [tagFreshBackwardsWithMintGraph, createSolveArgsSigArgsMintGraph, refused, not_iff_not,
    panics_bind, panics_bind, panics_wrap, calm]
  constructor
  · rintro ((long | ⟨o, _, broken⟩) | ⟨m, _, broken⟩)
    · exact long
    · exact absurd broken (not_panics_errorf _)
    · exact absurd broken (not_panics_ok _)
  · exact fun long => .inl (.inl long)

end Go

end SuperpositionAccounts
