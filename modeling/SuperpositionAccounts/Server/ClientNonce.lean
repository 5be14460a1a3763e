import SuperpositionAccounts.Server.Convertor

/-!
# The client's nonce

A client sends its nonce as a decimal text. The command line tool writes such a
number as 16 big-endian bytes, and this file compares what the three functions of
the server make of every text with that.

Copying to the front of the array is right for zero and for numbers that need all
16 bytes; shorter numbers are multiplied by a power of 256, and negative or longer
ones are accepted. The offset for 32 bytes is beyond the array for numbers of less
than 16 bytes, which panics, and leaves nothing of a number of 16 bytes.
-/

namespace SuperpositionAccounts

namespace Go

open Result

variable {Asset : Type}

/-- The reading takes the numeral of a number below `2 ^ 128` to the 16 bytes of the number, and
refuses every other text with an error. -/
def EncodesNonce (read : String → Result (Bytes 16)) (text : String) : Prop :=
  (∀ number : ℕ, Numeral text number → number < 2 ^ 128 →
      read text = .ok (Bytes.ofNat 16 number)) ∧
    ((∀ number : ℕ, Numeral text number → 2 ^ 128 ≤ number) → (read text).Errs)

section Readings

variable {read : String → Result (Bytes 16)} {text : String} {value : ℤ}

theorem encodesNonce_of_not_numeral (spelled : setString text = none) (refused : (read text).Errs) :
    EncodesNonce read text := by
  refine ⟨fun number numeral => ?_, fun _ => refused⟩
  rw [← setString_eq_some_iff, spelled] at numeral
  cases numeral

theorem encodesNonce_iff (spelled : setString text = some value) :
    EncodesNonce read text ↔
      (∀ number : ℕ, value = number → number < 2 ^ 128 →
          read text = .ok (Bytes.ofNat 16 number)) ∧
        ((∀ number : ℕ, value = number → 2 ^ 128 ≤ number) → (read text).Errs) := by
  unfold EncodesNonce
  simp only [← setString_eq_some_iff, spelled, Option.some.injEq]

theorem copyAt_zero_ok (length : ℕ) (src : List UInt8) :
    ∃ array : Bytes length, copyAt 0 src = .ok array ∧
      array.toList = (src ++ List.replicate length 0).take length := by
  refine ⟨_, if_pos (Nat.zero_le _), ?_⟩
  rfl

/-- A number copied to the front of the array is multiplied by 256 for each byte it leaves. -/
theorem toNat_copied {number : ℕ} {array : Bytes 16} (fits : number < 2 ^ 128)
    (copied : array.toList = (bigBytes number ++ List.replicate 16 0).take 16) :
    array.toNat = number * 256 ^ (16 - byteLength number) := by
  have short : byteLength number ≤ 16 := (byteLength_le_iff number 16).mpr fits
  have own := (byteLength_le_iff number (byteLength number)).mp (Nat.le_refl _)
  have front : (bigBytes number ++ List.replicate 16 0).take 16 =
      bigBytes number ++ List.replicate (16 - byteLength number) 0 := by
    rw [List.take_append, List.take_of_length_le (by simpa using short), List.take_replicate]
    simp
  rw [Bytes.toNat, copied, front, List.reverse_append, List.reverse_replicate,
    Borsh.ofLeBytes_append, Borsh.ofLeBytes_replicate_zero]
  simp only [bigBytes, List.reverse_reverse, Int.natAbs_natCast, Borsh.ofLeBytes_leBytes,
    Nat.mod_eq_of_lt own, List.length_replicate]
  ring

theorem toNat_ofNat_nonce {number : ℕ} (fits : number < 2 ^ 128) :
    (Bytes.ofNat 16 number).toNat = number := by
  rw [Bytes.toNat_ofNat]
  exact Nat.mod_eq_of_lt fits

/-- Copying to the front writes the number only if it is zero or needs every byte. -/
theorem copyAt_zero_eq_iff {number : ℕ} (fits : number < 2 ^ 128) :
    copyAt 0 (bigBytes number) = .ok (Bytes.ofNat 16 number) ↔
      number = 0 ∨ 2 ^ 120 ≤ number := by
  rcases copyAt_zero_ok 16 (bigBytes number) with ⟨array, copied, front⟩
  have shifted := toNat_copied fits front
  have needs := byteLength_le_iff number 15
  rw [copied, Except.ok.injEq, ← Bytes.toNat_injective.eq_iff, shifted, toNat_ofNat_nonce fits]
  constructor
  · intro same
    by_contra other
    push Not at other
    have short := needs.mpr other.2
    have grows : 256 ^ 1 ≤ 256 ^ (16 - byteLength number) :=
      Nat.pow_le_pow_right (by decide) (by omega)
    have positive := Nat.pos_of_ne_zero other.1
    nlinarith
  · rintro (rfl | large)
    · simp
    · have full : byteLength number = 16 := by
        have atMost := (byteLength_le_iff number 16).mpr fits
        have longer : ¬byteLength number ≤ 15 := fun short => absurd (needs.mp short) (by omega)
        omega
      simp [full]

/-- The reading of `CreateSolveArgsSigArgsMintGraph` on every text. -/
theorem copyMsTs_encodesNonce_iff (text : String) :
    EncodesNonce copyMsTs text ↔
      ∀ value : ℤ, Numeral text value → value = 0 ∨ 2 ^ 120 ≤ value ∧ value < 2 ^ 128 := by
  simp only [← setString_eq_some_iff]
  cases spelled : setString text with
  | none =>
      have refused : (copyMsTs text).Errs := by simp [copyMsTs, spelled]
      simp [encodesNonce_of_not_numeral spelled refused]
  | some value =>
      rcases copyAt_zero_ok 16 (bigBytes value) with ⟨array, copied, _⟩
      have copies : copyMsTs text = copyAt 0 (bigBytes value) := by simp [copyMsTs, spelled]
      rw [encodesNonce_iff spelled, copies]
      simp only [Option.some.injEq, forall_eq']
      constructor
      · rintro ⟨encodes, refuses⟩
        by_cases inRange : 0 ≤ value ∧ value < 2 ^ 128
        · lift value to ℕ using inRange.1
          have fits : value < 2 ^ 128 := by exact_mod_cast inRange.2
          rcases (copyAt_zero_eq_iff fits).mp (encodes value rfl fits) with rfl | large
          · exact .inl rfl
          · exact .inr ⟨by exact_mod_cast large, inRange.2⟩
        · have refused := refuses (by rintro number rfl; omega)
          rw [copied] at refused
          exact absurd refused (not_errs_ok array)
      · intro right
        refine ⟨?_, ?_⟩
        · rintro number rfl fits
          refine (copyAt_zero_eq_iff fits).mpr ?_
          omega
        · intro outside
          lift value to ℕ using (by omega) with number
          have beyond := outside number rfl
          omega

/-- The offset for 32 bytes leaves no room for a number of 16 bytes and is beyond the array for
a shorter one. -/
theorem copyAt_pad_ne {number : ℕ} (fits : number < 2 ^ 128) :
    copyAt (32 - (bigBytes number).length) (bigBytes number) ≠ .ok (Bytes.ofNat 16 number) := by
  have short : byteLength number ≤ 16 := (byteLength_le_iff number 16).mpr fits
  rw [copyAt, length_bigBytes, Int.natAbs_natCast]
  split
  · rename_i inside
    have full : byteLength number = 16 := by omega
    intro same
    have zero := congrArg (fun array => array.toNat) (Except.ok.inj same)
    simp only [full, toNat_ofNat_nonce fits] at zero
    have none : number = 0 := zero.symm
    subst none
    exact absurd full (by decide)
  · intro same
    cases same

theorem not_errs_copyAt {length low : ℕ} (src : List UInt8) :
    ¬(copyAt low src : Result (Bytes length)).Errs := by
  unfold copyAt
  split
  · exact not_errs_ok _
  · exact not_errs_panic _

/-- The reading of the other two functions on every text. -/
theorem padMsTs_encodesNonce_iff (text : String) :
    EncodesNonce padMsTs text ↔ ∀ value : ℤ, Numeral text value → 2 ^ 256 ≤ value.natAbs := by
  simp only [← setString_eq_some_iff]
  cases spelled : setString text with
  | none =>
      have refused : (padMsTs text).Errs := by simp [padMsTs, spelled]
      simp [encodesNonce_of_not_numeral spelled refused]
  | some value =>
      have size := byteLength_le_iff value.natAbs 32
      rw [encodesNonce_iff spelled]
      simp only [padMsTs, spelled, Option.some.injEq, forall_eq', length_bigBytes]
      split
      · rename_i long
        have huge : 2 ^ 256 ≤ value.natAbs := by
          by_contra small
          exact absurd (size.mpr (by omega)) (by omega)
        simp only [huge, errs_errorf, implies_true, and_true, iff_true]
        rintro number rfl fits
        simp only [Int.natAbs_natCast] at huge
        omega
      · rename_i short
        have small : value.natAbs < 2 ^ 256 := size.mp (by omega)
        refine ⟨?_, fun huge => absurd small (by omega)⟩
        rintro ⟨encodes, refuses⟩
        by_cases inRange : 0 ≤ value ∧ value < 2 ^ 128
        · lift value to ℕ using inRange.1
          have fits : value < 2 ^ 128 := by exact_mod_cast inRange.2
          have encoded := encodes value rfl fits
          rw [← length_bigBytes] at encoded
          exact absurd encoded (copyAt_pad_ne fits)
        · have refused := refuses (by rintro number rfl; omega)
          exact absurd refused (not_errs_copyAt _)

end Readings

/-! ### The three functions -/

/-- The function puts the 16 bytes of the number in the arguments it signs when the text is the
numeral of a number below `2 ^ 128`, and returns an error for every other text. -/
def ReadsNonce (build : String → Result (SolveArgsSigArgs Asset)) (text : String) : Prop :=
  (∀ number : ℕ, Numeral text number → number < 2 ^ 128 →
      ∃ signed, build text = .ok signed ∧ signed.args.msTs = Bytes.ofNat 16 number) ∧
    ((∀ number : ℕ, Numeral text number → 2 ^ 128 ≤ number) → (build text).Errs)

/-- The function succeeds with the nonce that the reading gives, and fails as the reading does. -/
def Carries (build : String → Result (SolveArgsSigArgs Asset))
    (read : String → Result (Bytes 16)) : Prop :=
  ∀ text, match read text with
    | .ok nonce => ∃ signed, build text = .ok signed ∧ signed.args.msTs = nonce
    | .error fault => build text = .error fault

theorem Carries.readsNonce_iff {build : String → Result (SolveArgsSigArgs Asset)}
    {read : String → Result (Bytes 16)} (carries : Carries build read) (text : String) :
    ReadsNonce build text ↔ EncodesNonce read text := by
  have carried := carries text
  unfold ReadsNonce EncodesNonce
  cases given : read text with
  | error fault =>
      simp only [given] at carried
      simp [carried, Errs, errorf]
  | ok nonce =>
      simp only [given] at carried
      rcases carried with ⟨signed, made, rfl⟩
      simp [made]

/-- The inputs of `CreateSolveArgsSigArgsMintGraph` besides the nonce. -/
structure MintInputs where
  market : String
  outcome : String
  amount : String
  referrer : String
  recipient : Address
  permit : Option Model.Permit

/-- The inputs of `CreateSolveArgsSigArgsGraph` besides the nonce. -/
structure SolveInputs where
  target : String
  amount : String
  cd : Vec UInt8
  permit : Option Model.Permit

/-- The inputs of `CreatePayoffForOtherArgsGraph` besides the nonce. -/
structure ClaimInputs where
  claimantHelper : Address
  eoa : Address
  markets : Pools String

def MintInputs.Valid (inputs : MintInputs) (asset : Asset) : Prop :=
  Succeeds (strToBytes8 inputs.outcome) ∧ Succeeds (parseAmount inputs.amount) ∧
    Succeeds (strToAddr inputs.market) ∧ Succeeds (strToAddr inputs.referrer) ∧
    Succeeds (parsePermit asset inputs.permit)

def SolveInputs.Valid (inputs : SolveInputs) (asset : Asset) : Prop :=
  Succeeds (parseAmount inputs.amount) ∧ Succeeds (strToAddr inputs.target) ∧
    Succeeds (parsePermit asset inputs.permit)

def ClaimInputs.Valid (inputs : ClaimInputs) : Prop :=
  Succeeds (parseMarkets inputs.markets.val)

/-- The signing program prints a signature for whatever it is given. -/
def Program.Answers (prog : Program) : Prop :=
  ∀ text, ∃ output, prog text = .ok output

section Functions

variable [AssetRegistry Asset] (sum512 : List UInt8 → Bytes 64) (prog : Program) (asset : Asset)

def MintInputs.build (inputs : MintInputs) (msTs : String) : Result (SolveArgsSigArgs Asset) :=
  createSolveArgsSigArgsMintGraph sum512 prog asset inputs.market inputs.outcome inputs.amount
    inputs.referrer inputs.recipient inputs.permit msTs

def SolveInputs.build (inputs : SolveInputs) (msTs : String) : Result (SolveArgsSigArgs Asset) :=
  createSolveArgsSigArgsGraph sum512 prog asset inputs.target inputs.amount inputs.cd
    inputs.permit msTs

def ClaimInputs.build (inputs : ClaimInputs) (msTs : String) : Result (SolveArgsSigArgs Asset) :=
  createPayoffForOtherArgsGraph sum512 prog inputs.claimantHelper inputs.eoa inputs.markets msTs

variable {prog}

omit [AssetRegistry Asset] in
theorem invokeDalekph_ok (answers : prog.Answers) (encoded : List UInt8) :
    ∃ sig, invokeDalekph sum512 prog encoded = .ok sig := by
  rcases answers (hexEncode (sum512 encoded).toList) with ⟨output, printed⟩
  exact ⟨copySig output, by simp [invokeDalekph, printed]⟩

theorem createSolveArgsSigArgs_ok (answers : prog.Answers) (target : Bytes 20) (amount : Bytes 32)
    (cd : Vec UInt8) (permit : Option (Permit Asset)) (msTs : Bytes 16) :
    ∃ signed, createSolveArgsSigArgs sum512 prog asset target amount cd permit msTs = .ok signed ∧
      signed.args.msTs = msTs := by
  simp only [createSolveArgsSigArgs]
  generalize Value.serialize _ = encoded
  rcases invokeDalekph_ok sum512 answers encoded with ⟨sig, printed⟩
  rw [printed]
  exact ⟨_, rfl, rfl⟩

theorem createSolveArgsSigArgsNoToken_ok (answers : prog.Answers) (target : Bytes 20)
    (cd : Vec UInt8) (msTs : Bytes 16) :
    ∃ signed : SolveArgsSigArgs Asset,
      createSolveArgsSigArgsNoToken sum512 prog target cd msTs = .ok signed ∧
        signed.args.msTs = msTs := by
  simp only [createSolveArgsSigArgsNoToken]
  generalize Value.serialize _ = encoded
  rcases invokeDalekph_ok sum512 answers encoded with ⟨sig, printed⟩
  rw [printed]
  exact ⟨_, rfl, rfl⟩

theorem MintInputs.carries (answers : prog.Answers) {inputs : MintInputs}
    (valid : inputs.Valid asset) : Carries (inputs.build sum512 prog asset) copyMsTs := by
  rcases valid with ⟨⟨o, outcome⟩, ⟨a, amount⟩, ⟨m, market⟩, ⟨ref, referrer⟩, ⟨p, permit⟩⟩
  intro text
  cases given : copyMsTs text with
  | error fault =>
      simp [MintInputs.build, createSolveArgsSigArgsMintGraph, outcome, amount, market, referrer,
        given, bind, Except.bind]
  | ok nonce =>
      rcases createSolveArgsSigArgs_ok sum512 asset answers m a
        (newMint o a ref inputs.recipient) p nonce with ⟨signed, made, same⟩
      refine ⟨signed, ?_, same⟩
      simp [MintInputs.build, createSolveArgsSigArgsMintGraph, createSolveArgsSigArgsMint, outcome,
        amount, market, referrer, permit, given, made, bind, Except.bind, Result.lift]

theorem SolveInputs.carries (answers : prog.Answers) {inputs : SolveInputs}
    (valid : inputs.Valid asset) : Carries (inputs.build sum512 prog asset) padMsTs := by
  rcases valid with ⟨⟨a, amount⟩, ⟨m, target⟩, ⟨p, permit⟩⟩
  intro text
  cases given : padMsTs text with
  | error fault =>
      simp [SolveInputs.build, createSolveArgsSigArgsGraph, amount, given, bind, Except.bind]
  | ok nonce =>
      rcases createSolveArgsSigArgs_ok sum512 asset answers m a inputs.cd p nonce with
        ⟨signed, made, same⟩
      refine ⟨signed, ?_, same⟩
      simp [SolveInputs.build, createSolveArgsSigArgsGraph, amount, target, permit, given, made,
        bind, Except.bind, Result.lift]

theorem ClaimInputs.carries (answers : prog.Answers) {inputs : ClaimInputs}
    (valid : inputs.Valid) :
    Carries (inputs.build sum512 prog : String → Result (SolveArgsSigArgs Asset)) padMsTs := by
  rcases valid with ⟨addrs, markets⟩
  intro text
  cases given : padMsTs text with
  | error fault =>
      simp [ClaimInputs.build, createPayoffForOtherArgsGraph, given, bind, Except.bind]
  | ok nonce =>
      have fits : 100 + 32 * addrs.val.length < 2 ^ 32 := by
        rw [addrs.property]
        exact inputs.markets.property
      have cooperative : ∃ signed : SolveArgsSigArgs Asset,
          createSolveArgsSigArgsNoToken sum512 prog inputs.claimantHelper
            (newPayoffForOther ⟨addrs.val, fits⟩ inputs.eoa) nonce = .ok signed ∧
            signed.args.msTs = nonce :=
        createSolveArgsSigArgsNoToken_ok sum512 answers _ _ _
      rcases cooperative with ⟨signed, made, same⟩
      refine ⟨signed, ?_, same⟩
      simp [ClaimInputs.build, createPayoffForOtherArgsGraph, createPayoffForOtherArgs, markets,
        given, made, bind, Except.bind, Result.lift]

variable {asset}

/-- Which texts each of the three functions reads as its nonce, and that all three read a text
right only if it is no numeral at all. -/
theorem client_nonce_read_iff (answers : prog.Answers) {mint : MintInputs} {solve : SolveInputs}
    {claim : ClaimInputs} (mintValid : mint.Valid asset) (solveValid : solve.Valid asset)
    (claimValid : claim.Valid) (text : String) :
    (ReadsNonce (mint.build sum512 prog asset) text ↔
        ∀ value : ℤ, Numeral text value → value = 0 ∨ 2 ^ 120 ≤ value ∧ value < 2 ^ 128) ∧
      (ReadsNonce (solve.build sum512 prog asset) text ↔
        ∀ value : ℤ, Numeral text value → 2 ^ 256 ≤ value.natAbs) ∧
      (ReadsNonce (claim.build sum512 prog : String → Result (SolveArgsSigArgs Asset)) text ↔
        ∀ value : ℤ, Numeral text value → 2 ^ 256 ≤ value.natAbs) ∧
      (ReadsNonce (mint.build sum512 prog asset) text ∧
          ReadsNonce (solve.build sum512 prog asset) text ∧
          ReadsNonce (claim.build sum512 prog : String → Result (SolveArgsSigArgs Asset)) text ↔
        ∀ value : ℤ, ¬Numeral text value) := by
  have minted := (MintInputs.carries sum512 asset answers mintValid).readsNonce_iff text
  have solved := (SolveInputs.carries sum512 asset answers solveValid).readsNonce_iff text
  have claims : Carries (claim.build sum512 prog : String → Result (SolveArgsSigArgs Asset))
      padMsTs := ClaimInputs.carries sum512 answers claimValid
  have claimed := claims.readsNonce_iff text
  rw [minted, solved, claimed, copyMsTs_encodesNonce_iff, padMsTs_encodesNonce_iff]
  refine ⟨Iff.rfl, Iff.rfl, Iff.rfl, ?_⟩
  constructor
  · rintro ⟨small, huge, _⟩ value numeral
    have low := small value numeral
    have high := huge value numeral
    omega
  · intro none
    exact ⟨fun value numeral => absurd numeral (none value),
      fun value numeral => absurd numeral (none value),
      fun value numeral => absurd numeral (none value)⟩

end Functions

/-! ### Known answers: one unit of USDC, and the claim of one market -/

def nonceMint : MintInputs where
  market := "0x1111111111111111111111111111111111111111"
  outcome := "0x0102030405060708"
  amount := "1000000"
  referrer := ""
  recipient := Bytes.ofNat 20 0x2222222222222222222222222222222222222222
  permit := none

def nonceSolve : SolveInputs where
  target := "0x1111111111111111111111111111111111111111"
  amount := "1000000"
  cd := Vec.empty
  permit := none

def nonceClaim : ClaimInputs where
  claimantHelper := Bytes.ofNat 20 0x3333333333333333333333333333333333333333
  eoa := Bytes.ofNat 20 0x2222222222222222222222222222222222222222
  markets := ⟨["0x1111111111111111111111111111111111111111"], by decide⟩

/-- The encoding of the mint with the number 1 at the front of its nonce. -/
def noncePreimage : Bytes 245 :=
  Bytes.ofNat 245 0x00000000010000000000000000000000000000000000000000000000000000000000000000000f4240000000000000000000000000000000000000000000000000000000000000000011111111111111111111111111111111111111118400000000000147010203040506070800000000000000000000000000000000000000000000000000000000000000000000000000000000000000000000000000000000000f42400000000000000000000000000000000000000000000000000000000000000000000000000000000000000000222222222222222222222222222222222222222201000000000000000000000000000000

def nonceDigest : Bytes 64 :=
  Bytes.ofNat 64 0x04cffcab3be7af3eb6168685fb6dd3bb187e6e0fe94892d9ea8a81c22f1df93aff5445e26a00313fa15a959b1977a96755d4c69be2e2411a7455e31cf4257c25

/-- SHA-512 on the encoding of the mint. -/
def nonceSum512 (preimage : List UInt8) : Bytes 64 :=
  if preimage = noncePreimage.toList then nonceDigest else Bytes.ofNat 64 0

/-- The signing program with the key of 32 bytes 7, on the digest of the mint. -/
def nonceProgram : Program := fun text =>
  .ok (if text = hexEncode nonceDigest.toList then
    (Bytes.ofNat 64 0xbe323bfa6e75e176f0b235b447756d8c786d2600e714c7bbc92e29c3fa036241c8ba4068b841aca7fd72ba592c72c9ff396f76e5ded1fe756e0fa7cd3d616d04).toList else [])

theorem nonceProgram_answers : nonceProgram.Answers :=
  fun _ => ⟨_, rfl⟩

/-- The numbers 1 and 256 get the same nonce in a mint, and the number 1 panics elsewhere. -/
theorem client_nonce_misread :
    ((nonceMint.build nonceSum512 nonceProgram KnownAsset.usdc "1").map fun signed =>
        signed.args.msTs) = .ok (Bytes.ofNat 16 (256 ^ 15)) ∧
      ((nonceMint.build nonceSum512 nonceProgram KnownAsset.usdc "256").map fun signed =>
        signed.args.msTs) = .ok (Bytes.ofNat 16 (256 ^ 15)) ∧
      ((nonceSolve.build nonceSum512 nonceProgram KnownAsset.usdc "1").map fun signed =>
        signed.args.msTs) =
          .error (.panic "runtime error: slice bounds out of range [31:16]") ∧
      (((nonceClaim.build nonceSum512 nonceProgram "1" :
        Result (SolveArgsSigArgs KnownAsset)).map fun signed => signed.args.msTs) =
          .error (.panic "runtime error: slice bounds out of range [31:16]")) := by
  decide

theorem nonceMint_valid : nonceMint.Valid KnownAsset.usdc :=
  ⟨⟨_, rfl⟩, ⟨_, rfl⟩, ⟨_, rfl⟩, ⟨_, rfl⟩, ⟨_, rfl⟩⟩

theorem nonceSolve_valid : nonceSolve.Valid KnownAsset.usdc :=
  ⟨⟨_, rfl⟩, ⟨_, rfl⟩, ⟨_, rfl⟩⟩

theorem nonceClaim_valid : nonceClaim.Valid :=
  ⟨_, rfl⟩

/-- A text that is no numeral is refused by all three. -/
theorem client_nonce_read_known :
    ReadsNonce (nonceMint.build nonceSum512 nonceProgram KnownAsset.usdc) "0x1" ∧
      ReadsNonce (nonceSolve.build nonceSum512 nonceProgram KnownAsset.usdc) "0x1" ∧
      ReadsNonce (nonceClaim.build nonceSum512 nonceProgram :
        String → Result (SolveArgsSigArgs KnownAsset)) "0x1" := by
  have answers : nonceProgram.Answers := fun _ => ⟨_, rfl⟩
  have characterised := client_nonce_read_iff nonceSum512 answers nonceMint_valid
    nonceSolve_valid nonceClaim_valid "0x1"
  refine characterised.2.2.2.mpr fun value numeral => ?_
  rw [← setString_eq_some_iff] at numeral
  have refused : setString "0x1" = none := by decide
  rw [refused] at numeral
  cases numeral

end Go

end SuperpositionAccounts
