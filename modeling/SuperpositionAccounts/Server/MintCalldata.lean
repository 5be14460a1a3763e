import SuperpositionAccounts.Server.Accepted

/-!
# The calldata and the amount of a mint

`UnpackMint` of `lib/ninelives/ninelives.go` is the inverse that the fuzz test of
`NewMint` uses. It cuts addresses from the front of their words, where the
padding is, and writes both to the referrer.

The amount of a mint is a decimal text that is read as an integer with a sign. It
is written twice into what the server signs: as the amount to take and as a word
of the calldata. Both are written from the absolute value.
-/

namespace SuperpositionAccounts

namespace Go

open Result

/-! ### Calldata -/

/-- Go's `copy` to the front of an array. -/
def copyOver {length : ℕ} (array : Bytes length) (src : List UInt8) : Bytes length :=
  ⟨src.take length ++ array.toList.drop src.length, by
    rw [List.length_append, List.length_take, List.length_drop, List.Vector.toList_length]
    omega⟩

/-- Calldata of a mint for testing and reproduction purposes. -/
def unpackMint (cd : List UInt8) : Result (Bytes 8 × U × Address × Address) :=
  if cd.length ≠ 4 + 32 * 4 then
    errorf ("bad mint cd: " ++ toString cd.length)
  else
    let outcome := copyOver default (((cd.drop 4).take 32).take (32 - 8))
    let value := copyOver default ((cd.drop (4 + 32)).take 32)
    let referrer := copyOver default (((cd.drop (4 + 32 * 2)).take 32).take (32 - 20))
    -- the word of the recipient is copied to the referrer too
    let referrer := copyOver referrer (((cd.drop (4 + 32 * 3)).take 32).take (32 - 20))
    .ok (outcome, value, referrer, default)

theorem copyOver_eq {length : ℕ} (array bytes : Bytes length) (rest : List UInt8) :
    copyOver array (bytes.toList ++ rest) = bytes := by
  apply List.Vector.eq
  change (bytes.toList ++ rest).take length ++ array.toList.drop (bytes.toList ++ rest).length = _
  rw [List.take_left' bytes.toList_length, List.drop_of_length_le (by simp), List.append_nil]

/-- Zeros copied over zeros. -/
theorem copyOver_zeros {length count : ℕ} {array : Bytes length} (fits : count ≤ length)
    (zeros : array.toList = List.replicate length 0) :
    copyOver array (List.replicate count 0) = array := by
  apply List.Vector.eq
  change (List.replicate count 0).take length ++
    array.toList.drop (List.replicate count (0 : UInt8)).length = array.toList
  rw [zeros, List.length_replicate, List.drop_replicate, List.take_replicate,
    List.replicate_append_replicate]
  congr 1
  omega

/-- The four words after the selector. -/
theorem words_newMint (outcome : Bytes 8) (value : U) (referrer recipient : Address) :
    let cd := (newMint outcome value referrer recipient).toList
    (cd.drop 4).take 32 = outcome.toList ++ List.replicate 24 0 ∧
      (cd.drop (4 + 32)).take 32 = value.toList ∧
      (cd.drop (4 + 32 * 2)).take 32 = List.replicate 12 0 ++ referrer.toList ∧
      (cd.drop (4 + 32 * 3)).take 32 = List.replicate 12 0 ++ recipient.toList := by
  intro cd
  have whole : cd = [0x00, 0x00, 0x01, 0x47] ++ ((outcome.toList ++ List.replicate 24 0) ++
      (value.toList ++ ((List.replicate 12 0 ++ referrer.toList) ++
        (List.replicate 12 0 ++ recipient.toList)))) := by
    simp [cd, newMint, abiAddress]
  have first : (outcome.toList ++ List.replicate 24 0).length = 32 := by simp
  have second : value.toList.length = 32 := by simp
  have third : (List.replicate 12 0 ++ referrer.toList).length = 32 := by simp
  have fourth : (List.replicate 12 0 ++ recipient.toList).length = 32 := by simp
  have afterSelector : cd.drop 4 = (outcome.toList ++ List.replicate 24 0) ++
      (value.toList ++ ((List.replicate 12 0 ++ referrer.toList) ++
        (List.replicate 12 0 ++ recipient.toList))) := by
    rw [whole]
    rfl
  refine ⟨?_, ?_, ?_, ?_⟩
  · rw [afterSelector, List.take_left' first]
  · rw [← List.drop_drop, afterSelector, List.drop_left' first, List.take_left' second]
  · rw [show 4 + 32 * 2 = 4 + 32 + 32 by rfl, ← List.drop_drop, ← List.drop_drop, afterSelector,
      List.drop_left' first, List.drop_left' second, List.take_left' third]
  · rw [show 4 + 32 * 3 = 4 + 32 + 32 + 32 by rfl, ← List.drop_drop, ← List.drop_drop,
      ← List.drop_drop, afterSelector, List.drop_left' first, List.drop_left' second,
      List.drop_left' third, List.take_of_length_le (by simp)]

theorem unpackMint_newMint (outcome : Bytes 8) (value : U) (referrer recipient : Address) :
    unpackMint (newMint outcome value referrer recipient).toList =
      .ok (outcome, value, Bytes.ofNat 20 0, Bytes.ofNat 20 0) := by
  rcases words_newMint outcome value referrer recipient with ⟨first, second, third, fourth⟩
  have sized : (newMint outcome value referrer recipient).toList.length = 4 + 32 * 4 := by
    simp [newMint, abiAddress]
  have zeros : (default : Address).toList = List.replicate 20 0 := by decide
  have zero : (default : Address) = Bytes.ofNat 20 0 := by decide
  have padding (addr : Address) : (List.replicate 12 0 ++ addr.toList).take (32 - 20) =
      List.replicate 12 (0 : UInt8) := List.take_left' (by simp)
  have cut : (outcome.toList ++ List.replicate 24 (0 : UInt8)).take (32 - 8) =
      outcome.toList ++ List.replicate 16 0 := by
    rw [List.take_append, List.take_of_length_le (by simp)]
    simp
  have wholeValue : copyOver default value.toList = value := by
    have copied := copyOver_eq default value []
    rwa [List.append_nil] at copied
  rw [unpackMint, if_neg (not_not.mpr sized), first, second, third, fourth, cut, padding, padding]
  dsimp only
  rw [copyOver_eq, wholeValue, copyOver_zeros (by decide) zeros, copyOver_zeros (by decide) zeros,
    zero]

/-- Only zero addresses are read back. -/
theorem mint_calldata_read_back_iff (outcome : Bytes 8) (value : U) (referrer recipient : Address) :
    unpackMint (newMint outcome value referrer recipient).toList =
        .ok (outcome, value, referrer, recipient) ↔
      referrer = Bytes.ofNat 20 0 ∧ recipient = Bytes.ofNat 20 0 := by
  rw [unpackMint_newMint]
  constructor
  · intro same
    simp only [Except.ok.injEq, Prod.mk.injEq] at same
    exact ⟨same.2.2.1.symm, same.2.2.2.symm⟩
  · rintro ⟨rfl, rfl⟩
    rfl

/-- A referrer and a recipient are lost. -/
theorem mint_addresses_lost :
    unpackMint (newMint (Bytes.ofNat 8 0x0102030405060708) (Bytes.ofNat 32 1000000)
        (Bytes.ofNat 20 0x1111111111111111111111111111111111111111)
        (Bytes.ofNat 20 0x2222222222222222222222222222222222222222)).toList =
      .ok (Bytes.ofNat 8 0x0102030405060708, Bytes.ofNat 32 1000000, Bytes.ofNat 20 0,
        Bytes.ofNat 20 0) := by
  decide +kernel

/-! ### The amount -/

variable {Asset : Type}

/-- A request is well formed up to its amount. -/
def Model.Mint.FormedElsewhere (mint : Model.Mint) : Prop :=
  HexText 8 mint.outcome ∧ AddrText mint.market ∧ AddrText mint.referrer ∧
    (∃ value : ℤ, Numeral mint.msTs value) ∧ ∀ permit, mint.permit = some permit → permit.WellFormed

/-- The `uint256` in the calldata of a mint. -/
def valueWord (cd : List UInt8) : ℕ :=
  Borsh.ofLeBytes ((cd.drop (4 + 32)).take 32).reverse

/-- What is signed for an amount: nothing unless it is the numeral of a 256-bit number, and then
this number is both taken and passed on. -/
structure SignsAmount (amount : String) (result : Result (SolveArgsSigArgs Asset)) : Prop where
  accepted : Succeeds result ↔ ∃ value : ℤ, Numeral amount value ∧ 0 ≤ value ∧ value < 2 ^ 256
  taken : ∀ {value : ℤ} {signed : SolveArgsSigArgs Asset}, Numeral amount value →
    result = .ok signed →
      signed.args.fromArgs.toList.map (fun fromArgs => (fromArgs.toTake.toNat : ℤ)) = [value] ∧
        (valueWord signed.args.cd.toList : ℤ) = value

theorem parseAmount_eq {amount : String} {value : ℤ} {a : U} (numeral : Numeral amount value)
    (parsed : parseAmount amount = .ok a) : a.toNat = value.natAbs := by
  rw [parseAmount, (setString_eq_some_iff _ _).mpr numeral] at parsed
  simp only at parsed
  split at parsed
  · cases parsed
  · rename_i short
    rw [length_bigBytes, Nat.not_lt, byteLength_le_iff] at short
    have written : copyAt (32 - (bigBytes value).length) (bigBytes value) =
        .ok (Bytes.ofNat 32 value.natAbs) := copyAt_bigBytes short
    rw [written] at parsed
    cases parsed
    change Borsh.ofLeBytes (Borsh.leBytes 32 value.natAbs).reverse.reverse = _
    rw [List.reverse_reverse, Borsh.ofLeBytes_leBytes, Nat.mod_eq_of_lt short]

theorem valueWord_newMint (outcome : Bytes 8) (value : U) (referrer recipient : Address) :
    valueWord (newMint outcome value referrer recipient).toList = value.toNat := by
  rw [valueWord, (words_newMint outcome value referrer recipient).2.1]
  rfl

variable [AssetRegistry Asset]

/-- The arguments that are signed for a mint. -/
theorem createSolveArgsSigArgs_args {sum512 : List UInt8 → Bytes 64} {prog : Program}
    {asset : Asset} {target : Bytes 20} {amount : Bytes 32} {cd : Vec UInt8}
    {permit : Option (Permit Asset)} {msTs : Bytes 16} {signed : SolveArgsSigArgs Asset}
    (made : createSolveArgsSigArgs sum512 prog asset target amount cd permit msTs = .ok signed) :
    signed.args.fromArgs.toList = [⟨asset, amount, default⟩] ∧ signed.args.cd = cd := by
  simp only [createSolveArgsSigArgs, bind, Except.bind] at made
  split at made
  · cases made
  · cases made
    exact ⟨rfl, rfl⟩

/-- A mint that was signed takes and passes on the amount that was read. -/
theorem amount_of_signed {sum512 : List UInt8 → Bytes 64} {prog : Program} {asset : Asset}
    {mint : Model.Mint} {recipient : Address} {signed : SolveArgsSigArgs Asset}
    (made : createSolveArgsSigArgsMintGraph sum512 prog asset mint.market mint.outcome mint.amount
      mint.referrer recipient mint.permit mint.msTs = .ok signed) :
    ∃ a : U, parseAmount mint.amount = .ok a ∧
      signed.args.fromArgs.toList = [⟨asset, a, default⟩] ∧
      valueWord signed.args.cd.toList = a.toNat := by
  unfold createSolveArgsSigArgsMintGraph at made
  rcases bind_eq_ok made with ⟨o, _, made⟩
  rcases bind_eq_ok made with ⟨a, amount, made⟩
  rcases bind_eq_ok made with ⟨m, _, made⟩
  rcases bind_eq_ok made with ⟨ref, _, made⟩
  rcases bind_eq_ok made with ⟨msTs, _, made⟩
  rcases bind_eq_ok made with ⟨p, _, made⟩
  rcases createSolveArgsSigArgs_args (eq_ok_of_lift made) with ⟨fromArgs, cd⟩
  refine ⟨a, amount, fromArgs, ?_⟩
  rw [cd]
  exact valueWord_newMint o a ref recipient

/-- The amount that is signed is the requested one, unless that is negative. -/
theorem signed_amount_iff {prog : Program} (answers : prog.Answers)
    (sum512 : List UInt8 → Bytes 64) (asset : Asset) (mint : Model.Mint) (recipient : Address)
    (formed : mint.FormedElsewhere) :
    SignsAmount mint.amount (createSolveArgsSigArgsMintGraph sum512 prog asset mint.market
        mint.outcome mint.amount mint.referrer recipient mint.permit mint.msTs) ↔
      ¬∃ value : ℤ, Numeral mint.amount value ∧ value < 0 ∧ -2 ^ 256 < value := by
  rcases formed with ⟨outcome, market, referrer, msTs, permit⟩
  have succeeds := succeeds_mint_iff answers sum512 asset mint recipient
  have amountOnly : mint.WellFormed ↔
      ∃ value : ℤ, Numeral mint.amount value ∧ value.natAbs < 2 ^ 256 :=
    ⟨fun formed => formed.2.1, fun amount => ⟨outcome, amount, market, referrer, msTs, permit⟩⟩
  rw [amountOnly] at succeeds
  constructor
  · rintro ⟨accepted, _⟩ ⟨value, numeral, negative, large⟩
    rcases accepted.mp (succeeds.mpr ⟨value, numeral, by omega⟩) with ⟨other, same, positive, _⟩
    have unique := numeral_unique numeral same
    omega
  · intro nonnegative
    have sign {value : ℤ} (numeral : Numeral mint.amount value) (small : value.natAbs < 2 ^ 256) :
        0 ≤ value := by
      by_contra negative
      exact nonnegative ⟨value, numeral, by omega, by omega⟩
    constructor
    · rw [succeeds]
      constructor
      · rintro ⟨value, numeral, small⟩
        have positive := sign numeral small
        exact ⟨value, numeral, positive, by omega⟩
      · rintro ⟨value, numeral, positive, small⟩
        exact ⟨value, numeral, by omega⟩
    · intro value signed numeral made
      rcases amount_of_signed made with ⟨a, parsed, fromArgs, word⟩
      have absolute := parseAmount_eq numeral parsed
      have positive : 0 ≤ value := by
        rcases succeeds.mp ⟨signed, made⟩ with ⟨other, same, small⟩
        have unique := numeral_unique numeral same
        rw [unique]
        exact sign same small
      refine ⟨?_, ?_⟩
      · simp only [fromArgs, List.map_cons, List.map_nil, absolute]
        rw [Int.natAbs_of_nonneg positive]
      · rw [word, absolute, Int.natAbs_of_nonneg positive]

namespace Known

def mintOf (amount : String) : Model.Mint where
  market := nonceMint.market
  outcome := nonceMint.outcome
  amount
  permit := none
  referrer := nonceMint.referrer
  msTs := "1"

def signedMint (amount : String) : Result (SolveArgsSigArgs KnownAsset) :=
  createSolveArgsSigArgsMintGraph nonceSum512 nonceProgram KnownAsset.usdc (mintOf amount).market
    (mintOf amount).outcome (mintOf amount).amount (mintOf amount).referrer nonceMint.recipient
    (mintOf amount).permit (mintOf amount).msTs

theorem mintOf_formed (amount : String) : (mintOf amount).FormedElsewhere := by
  have outcome : HexText 8 nonceMint.outcome :=
    (succeeds_strToBytes_iff 8 _).mp ⟨Bytes.ofNat 8 0x0102030405060708, by decide⟩
  have market : AddrText nonceMint.market :=
    (succeeds_strToAddr_iff _).mp
      ⟨Bytes.ofNat 20 0x1111111111111111111111111111111111111111, by decide⟩
  have one : Numeral "1" 1 := (setString_eq_some_iff _ _).mp (by decide)
  exact ⟨outcome, market, .inl rfl, ⟨1, one⟩, nofun⟩

end Known

/-- A million is taken for a mint of minus a million. -/
theorem negative_amount_signed :
    ((Known.signedMint "-1000000").map fun signed =>
        (signed.args.fromArgs.toList.map fun fromArgs => fromArgs.toTake.toNat,
          valueWord signed.args.cd.toList)) = .ok ([1000000], 1000000) ∧
      Numeral "-1000000" (-1000000) ∧
      ¬SignsAmount "-1000000" (Known.signedMint "-1000000") := by
  have numeral : Numeral "-1000000" (-1000000) := (setString_eq_some_iff _ _).mp (by decide)
  refine ⟨by decide +kernel, numeral, ?_⟩
  rintro ⟨accepted, _⟩
  rcases accepted.mp ⟨_, rfl⟩ with ⟨value, same, positive, _⟩
  have unique := numeral_unique numeral same
  omega

theorem signed_amount_known :
    SignsAmount "1000000" (Known.signedMint "1000000") := by
  apply (signed_amount_iff nonceProgram_answers nonceSum512 KnownAsset.usdc
    (Known.mintOf "1000000") nonceMint.recipient (Known.mintOf_formed "1000000")).mpr
  rintro ⟨value, numeral, negative, _⟩
  have positive : Numeral "1000000" 1000000 := (setString_eq_some_iff _ _).mp (by decide)
  have unique := numeral_unique positive numeral
  omega

end Go

end SuperpositionAccounts
