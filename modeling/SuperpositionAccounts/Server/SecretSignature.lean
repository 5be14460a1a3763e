import SuperpositionAccounts.Server.HexTexts
import SuperpositionAccounts.Server.Sessions

/-!
# The signature of a request for a secret

`RequestSecret` reads the two numbers of a signature from hexadecimal texts of any
length. It compares the number that the text of `s` denotes with half of the
order of the curve, so that a signature cannot be turned into a second one. The
signature it then recovers the signer from is filled by copies: a shorter text is
padded on the right and a longer one is cut.
-/

namespace SuperpositionAccounts

namespace Go

open Threads Result SuperpositionAccounts.Go.Action

/-! ### Numbers -/

/-- The number a hexadecimal text denotes. -/
def hexNumber (text : List Char) : ℕ :=
  text.foldl (fun number c => 16 * number + (hexValue c).getD 0) 0

/-- The number that bytes denote, the first one being the highest. -/
def bigNumber (bytes : List UInt8) : ℕ :=
  Borsh.ofLeBytes bytes.reverse

theorem bigNumber_append (high low : List UInt8) :
    bigNumber (high ++ low) = 256 ^ low.length * bigNumber high + bigNumber low := by
  rw [bigNumber, List.reverse_append, Borsh.ofLeBytes_append, List.length_reverse, Nat.add_comm]
  rfl

theorem bigNumber_zeros (count : ℕ) : bigNumber (List.replicate count 0) = 0 := by
  rw [bigNumber, List.reverse_replicate, Borsh.ofLeBytes_replicate_zero]

theorem foldl_hexNumber {text : List Char} {bytes : List UInt8} (spelled : Spells text bytes)
    (number : ℕ) :
    text.foldl (fun number c => 16 * number + (hexValue c).getD 0) number =
      256 ^ bytes.length * number + bigNumber bytes := by
  induction spelled generalizing number with
  | nil => simp [bigNumber, Borsh.ofLeBytes]
  | @cons high low text byte bytes highDigit lowDigit _ ih =>
      have split := bigNumber_append [byte] bytes
      have single : bigNumber [byte] = byte.toNat := by simp [bigNumber, Borsh.ofLeBytes]
      rw [List.singleton_append, single] at split
      rw [List.foldl_cons, List.foldl_cons, ih, split, highDigit, lowDigit, Option.getD_some,
        Option.getD_some, List.length_cons, pow_succ]
      have digits : 16 * (16 * number + byte.toNat / 16) + byte.toNat % 16 =
          256 * number + byte.toNat := by omega
      rw [digits]
      ring

theorem hexNumber_eq {text : List Char} {bytes : List UInt8} (spelled : Spells text bytes) :
    hexNumber text = bigNumber bytes := by
  rw [hexNumber, foldl_hexNumber spelled 0, Nat.mul_zero, Nat.zero_add]

/-- A copy into 32 bytes keeps the number of 32 bytes, and zero. -/
theorem toNat_copy32_iff (bytes : List UInt8) :
    (copy32 bytes).toNat = bigNumber bytes ↔ bytes.length = 32 ∨ bigNumber bytes = 0 := by
  change bigNumber ((bytes ++ List.replicate 32 0).take 32) = _ ↔ _
  rcases Nat.lt_or_ge 32 bytes.length with long | short
  · -- the number loses its last bytes
    have cut : (bytes ++ List.replicate 32 0).take 32 = bytes.take 32 :=
      List.take_append_of_le_length (by omega)
    have split := bigNumber_append (bytes.take 32) (bytes.drop 32)
    rw [List.take_append_drop, List.length_drop] at split
    have weight : 2 ≤ 256 ^ (bytes.length - 32) := by
      have least := Nat.pow_le_pow_right (show 0 < 256 by decide)
        (show 1 ≤ bytes.length - 32 by omega)
      omega
    have grows := Nat.mul_le_mul_right (bigNumber (bytes.take 32)) weight
    rw [cut]
    constructor
    · intro same
      right
      omega
    · rintro (exact_ | zero)
      · omega
      · have front : bigNumber (bytes.take 32) ≤ bigNumber bytes := by omega
        omega
  · -- the number is multiplied by the room that is left
    have padded : (bytes ++ List.replicate 32 0).take 32 =
        bytes ++ List.replicate (32 - bytes.length) 0 := by
      rw [List.take_append, List.take_of_length_le short, List.take_replicate]
      congr 2
      omega
    rw [padded, bigNumber_append, bigNumber_zeros, List.length_replicate, Nat.add_zero]
    constructor
    · intro same
      by_contra other
      rw [not_or] at other
      have least := Nat.pow_le_pow_right (show 0 < 256 by decide)
        (show 1 ≤ 32 - bytes.length by omega)
      have grows := Nat.mul_le_mul_right (bigNumber bytes) least
      omega
    · rintro (exact_ | zero)
      · rw [exact_, Nat.sub_self, pow_zero, Nat.one_mul]
      · rw [zero, Nat.mul_zero]

/-! ### The signature that is passed -/

variable {Asset : Type}

/-- The part of `RequestSecret` before the recovery of the signer, with the signature it is given. -/
def secretSignature (eoaAddr : String) (sigV : Int32) (sigR sigS : String) :
    Result (Bytes 65) := do
  if !isHexAddress eoaAddr then
    errorf "decoding address"
  let rBytes ← wrap "decoding r: " (hexDecodeString sigR)
  let sBytes ← wrap "decoding s: " (hexDecodeString sigS)
  if secpMaxS < bigNumber sBytes then
    errorf "s malleable"
  if sigV < 0 ∨ 255 < sigV then
    errorf "decoding v: too large"
  return secretSig rBytes sBytes sigV

/-- The part of `RequestSecret` from the recovery of the signer on. -/
def confirmSecret (env : Env Asset) (r : Resolver) (eoa : Address) (nonce : Int32)
    (dryrun : Option Bool) (sig : Bytes 65) : Action Data := do
  let expAddr ← check "recover pubkey: " (env.sigToAddr
    (env.keccak256 (secretPreimage r.accPubKey nonce)) sig)
  if eoa ≠ expAddr then
    err ("bad derivation: " ++ env.addrString eoa ++ ", expected: " ++ env.addrString expAddr)
  checkCode env r eoa
  let secret ← perform .randRead
  let secretX := hexEncodeToString secret.toList
  if !isDryrun dryrun then
    match ← perform (.insertNonceSecret (lowerAddr eoa) secretX nonce) with
    | .error _ => err "error inserting secret"
    | .ok () => pure ()
  return .text secretX

theorem requestSecret_eq (env : Env Asset) (r : Resolver) (eoaAddr : String) (nonce sigV : Int32)
    (sigR sigS : String) (dryrun : Option Bool) :
    requestSecret env r eoaAddr nonce sigV sigR sigS dryrun =
      ofResult (secretSignature eoaAddr sigV sigR sigS) >>=
        confirmSecret env r (hexToAddress eoaAddr) nonce dryrun := by
  unfold requestSecret secretSignature
  by_cases accepted : isHexAddress eoaAddr = true
  · simp only [accepted, Bool.not_true, Bool.false_eq_true, if_false]
    cases wrap "decoding r: " (hexDecodeString sigR) with
    | error fault => rfl
    | ok rBytes =>
        cases wrap "decoding s: " (hexDecodeString sigS) with
        | error fault => rfl
        | ok sBytes =>
            dsimp only [bind, Except.bind, Proc.bind, ofResult, Proc.ofExcept]
            by_cases high : secpMaxS < bigNumber sBytes
            · rw [if_pos high, if_pos (by exact high)]
              rfl
            · rw [if_neg high, if_neg (by exact high)]
              by_cases large : sigV < 0 ∨ 255 < sigV
              · rw [if_pos large, if_pos large]
                rfl
              · rw [if_neg large, if_neg large]
                change _ = confirmSecret env r (hexToAddress eoaAddr) nonce dryrun
                  (secretSig rBytes sBytes sigV)
                unfold confirmSecret
                congr 1
                funext expAddr
                by_cases same : hexToAddress eoaAddr ≠ expAddr
                · rw [if_pos same]
                  dsimp only
                  rw [if_pos same]
                  rfl
                · rw [if_neg same]
                  dsimp only
                  rw [if_neg same]
                  dsimp only [bind]
                  congr 1
                  funext _
                  congr 1
                  funext secret
                  by_cases dry : (!isDryrun dryrun) = true
                  · rw [if_pos dry, if_pos dry]
                    congr 1
                    funext result
                    rcases result with text | ⟨⟨⟩⟩
                    · rfl
                    · rfl
                  · rw [if_neg dry, if_neg dry]
  · simp only [accepted, Bool.not_false, if_true]
    rfl

/-- The numbers of a recoverable signature. -/
def rOf (sig : Bytes 65) : ℕ :=
  bigNumber (sig.toList.take 32)

def sOf (sig : Bytes 65) : ℕ :=
  bigNumber ((sig.toList.drop 32).take 32)

def recoveryId (sig : Bytes 65) : ℕ :=
  bigNumber (sig.toList.drop 64)

theorem rOf_secretSig (rBytes sBytes : List UInt8) (sigV : Int32) :
    rOf (secretSig rBytes sBytes sigV) = (copy32 rBytes).toNat := by
  change bigNumber (((copy32 rBytes).toList ++ (copy32 sBytes).toList ++ _).take 32) = _
  rw [List.append_assoc, List.take_left' (copy32 rBytes).toList_length]
  rfl

theorem sOf_secretSig (rBytes sBytes : List UInt8) (sigV : Int32) :
    sOf (secretSig rBytes sBytes sigV) = (copy32 sBytes).toNat := by
  change bigNumber ((((copy32 rBytes).toList ++ (copy32 sBytes).toList ++ _).drop 32).take 32) = _
  rw [List.append_assoc, List.drop_left' (copy32 rBytes).toList_length,
    List.take_left' (copy32 sBytes).toList_length]
  rfl

theorem hexDecodeString_eq_ok {text : String} {bytes : List UInt8}
    (decoded : hexDecodeString text = .ok bytes) : Spells text.toList bytes :=
  ((hexDecode_eq_ok_iff _ (Nat.zero_le _)).mp decoded).1

/-- What a request that comes to the recovery was made of. -/
theorem secretSignature_eq_ok {eoaAddr : String} {sigV : Int32} {sigR sigS : String}
    {sig : Bytes 65} (reached : secretSignature eoaAddr sigV sigR sigS = .ok sig) :
    ∃ rBytes sBytes, Spells sigR.toList rBytes ∧ Spells sigS.toList sBytes ∧
      bigNumber sBytes ≤ secpMaxS ∧ sig = secretSig rBytes sBytes sigV := by
  unfold secretSignature at reached
  rcases guard_eq_ok reached with ⟨_, reached⟩
  rcases bind_eq_ok reached with ⟨rBytes, rDecoded, reached⟩
  rcases bind_eq_ok reached with ⟨sBytes, sDecoded, reached⟩
  rcases guard_eq_ok reached with ⟨low, reached⟩
  rcases guard_eq_ok reached with ⟨_, reached⟩
  cases reached
  exact ⟨rBytes, sBytes, hexDecodeString_eq_ok (ok_of_wrap_eq_ok rDecoded),
    hexDecodeString_eq_ok (ok_of_wrap_eq_ok sDecoded), Nat.le_of_not_lt low, rfl⟩

/-- The signature has the numbers that the texts denote, and `s` is in the lower half. -/
def Checked (sigR sigS : String) (sig : Bytes 65) : Prop :=
  rOf sig = hexNumber sigR.toList ∧ sOf sig = hexNumber sigS.toList ∧ sOf sig ≤ secpMaxS

/-- The text is 64 digits, or denotes zero. -/
def Fills (text : String) : Prop :=
  text.toList.length = 64 ∨ hexNumber text.toList = 0

theorem toNat_copy32_iff_fills {text : String} {bytes : List UInt8}
    (spelled : Spells text.toList bytes) :
    (copy32 bytes).toNat = hexNumber text.toList ↔ Fills text := by
  have counted := length_of_spells spelled
  rw [hexNumber_eq spelled, toNat_copy32_iff, Fills, hexNumber_eq spelled]
  apply or_congr_left
  omega

theorem checked_iff {eoaAddr : String} {sigV : Int32} {sigR sigS : String} {sig : Bytes 65}
    (reached : secretSignature eoaAddr sigV sigR sigS = .ok sig) :
    Checked sigR sigS sig ↔ Fills sigR ∧ Fills sigS := by
  rcases secretSignature_eq_ok reached with ⟨rBytes, sBytes, rSpelled, sSpelled, low, rfl⟩
  rw [Checked, rOf_secretSig, sOf_secretSig, toNat_copy32_iff_fills rSpelled,
    ← toNat_copy32_iff_fills sSpelled]
  apply and_congr_right
  intro _
  rw [and_iff_left_iff_imp]
  intro same
  rw [same, hexNumber_eq sSpelled]
  exact low

/-- What is documented of the recovery of a signer. The number `r`, with the bit of the recovery id
that says whether it was reduced, is a point of the curve up to its sign. So for one digest and one
signer `s` is determined up to its sign modulo the order. -/
def RecoversUpToSign (sigToAddr : Bytes 32 → Bytes 65 → Except String Address) : Prop :=
  ∀ {digest : Bytes 32} {sig other : Bytes 65} {signer : Address}, rOf sig = rOf other →
    recoveryId sig / 2 = recoveryId other / 2 → sigToAddr digest sig = .ok signer →
    sigToAddr digest other = .ok signer →
      sOf sig = sOf other ∨ sOf sig + sOf other = 2 * secpMaxS + 1

/-- The signature that `RequestSecret` recovers the signer from is the one it checked exactly if
both texts fill their numbers, and then no second `s` is accepted. -/
theorem secret_signature_checked_iff (env : Env Asset) (r : Resolver) (nonce : Int32)
    (dryrun : Option Bool) :
    (∀ eoaAddr sigV sigR sigS,
      requestSecret env r eoaAddr nonce sigV sigR sigS dryrun =
          ofResult (secretSignature eoaAddr sigV sigR sigS) >>=
            confirmSecret env r (hexToAddress eoaAddr) nonce dryrun ∧
        ∀ sig, secretSignature eoaAddr sigV sigR sigS = .ok sig →
          (Checked sigR sigS sig ↔ Fills sigR ∧ Fills sigS)) ∧
      (RecoversUpToSign env.sigToAddr →
        ∀ {eoaAddr sigV sigR sigS sig}, secretSignature eoaAddr sigV sigR sigS = .ok sig →
          Fills sigR → Fills sigS →
        ∀ {otherAddr otherV otherR otherS other},
          secretSignature otherAddr otherV otherR otherS = .ok other →
          Fills otherR → Fills otherS →
        ∀ {digest signer}, env.sigToAddr digest sig = .ok signer →
          env.sigToAddr digest other = .ok signer → rOf sig = rOf other →
          recoveryId sig / 2 = recoveryId other / 2 → sOf sig = sOf other) := by
  refine ⟨?_, ?_⟩
  · intro eoaAddr sigV sigR sigS
    refine ⟨requestSecret_eq env r eoaAddr nonce sigV sigR sigS dryrun, ?_⟩
    intro sig reached
    exact checked_iff reached
  · intro recovers _ _ _ _ sig reached rFills sFills _ _ _ _ other otherReached otherRFills
      otherSFills digest signer recovered otherRecovered sameR sameBit
    have low := ((checked_iff reached).mpr ⟨rFills, sFills⟩).2.2
    have otherLow := ((checked_iff otherReached).mpr ⟨otherRFills, otherSFills⟩).2.2
    rcases recovers sameR sameBit recovered otherRecovered with same | opposite
    · exact same
    · omega

/-! ### Two signatures of one owner -/

namespace Known

def ownerText : String :=
  "0x9d8a62f656a8d1615c1294fd71e9cfb3e4855a4f"

/-- The digest for the nonce 264, and what the owner signed it with. -/
def malleableDigest : Bytes 32 :=
  Bytes.ofNat 32 0x91b8f7ea00974bac9f87345f8ec207a8ee8f2e48f79a6c5456dcb3f063a570b3

def rText : String :=
  "95abb409831142afe066f53b2a3d4ef8f2619245f8c64f00c667cea16153caa1"

def sText : String :=
  "44ff6d4b034ab2423fb7414de5a33c7d137145b60dfadfc2f58bf16bab7cd541"

/-- The order minus `s` ends in a zero byte, which is left out. -/
def oppositeText : String :=
  "bb0092b4fcb54dbdc048beb21a5cc381a73d9730a14dc078ca466d2124b96c"

def signature : Bytes 65 :=
  Bytes.ofNat 65 (0x95abb409831142afe066f53b2a3d4ef8f2619245f8c64f00c667cea16153caa1 * 256 ^ 33 +
    0x44ff6d4b034ab2423fb7414de5a33c7d137145b60dfadfc2f58bf16bab7cd541 * 256 + 1)

def opposite : Bytes 65 :=
  Bytes.ofNat 65 (0x95abb409831142afe066f53b2a3d4ef8f2619245f8c64f00c667cea16153caa1 * 256 ^ 33 +
    0xbb0092b4fcb54dbdc048beb21a5cc381a73d9730a14dc078ca466d2124b96c00 * 256)

/-- The libraries on the two requests. -/
def malleableEnv : Env KnownAsset :=
  { Known.env with
    keccak256 := fun preimage =>
      if preimage = secretPreimage knownKey 264 then malleableDigest else Bytes.ofNat 32 0
    sigToAddr := fun digest sig =>
      if digest = malleableDigest ∧ (sig = signature ∨ sig = opposite) then .ok owner
      else .error "recovery failed" }

/-- What the server computes on the two requests. -/
theorem signatures_read :
    secretSignature ownerText 28 rText sText = .ok signature ∧
      secretSignature ownerText 27 rText oppositeText = .ok opposite ∧
      malleableEnv.keccak256 (secretPreimage resolver.accPubKey 264) = malleableDigest ∧
      malleableEnv.sigToAddr malleableDigest signature = .ok owner ∧
      malleableEnv.sigToAddr malleableDigest opposite = .ok owner ∧
      rOf signature = rOf opposite ∧ sOf signature ≠ sOf opposite ∧
      secpMaxS < sOf opposite ∧ sOf signature + sOf opposite = 2 * secpMaxS + 1 := by
  decide +kernel

end Known

/-- A request with the opposite of `s` passes the test, since its text is one byte short. -/
theorem opposite_s_accepted :
    secretSignature Known.ownerText 28 Known.rText Known.sText = .ok Known.signature ∧
      secretSignature Known.ownerText 27 Known.rText Known.oppositeText = .ok Known.opposite ∧
      Known.malleableEnv.keccak256 (secretPreimage Known.resolver.accPubKey 264) =
        Known.malleableDigest ∧
      Known.malleableEnv.sigToAddr Known.malleableDigest Known.signature = .ok Known.owner ∧
      Known.malleableEnv.sigToAddr Known.malleableDigest Known.opposite = .ok Known.owner ∧
      rOf Known.signature = rOf Known.opposite ∧ sOf Known.signature ≠ sOf Known.opposite ∧
      secpMaxS < sOf Known.opposite ∧
      ¬Checked Known.rText Known.oppositeText Known.opposite := by
  rcases Known.signatures_read with ⟨read, otherRead, hashed, recovered, otherRecovered, sameR,
    differs, high, _⟩
  refine ⟨read, otherRead, hashed, recovered, otherRecovered, sameR, differs, high, ?_⟩
  rintro ⟨_, _, low⟩
  omega

theorem malleableEnv_recovers : RecoversUpToSign Known.malleableEnv.sigToAddr := by
  rcases Known.signatures_read with ⟨_, _, _, _, _, _, _, _, sum⟩
  have known {digest : Bytes 32} {sig : Bytes 65} {signer : Address}
      (recovered : Known.malleableEnv.sigToAddr digest sig = .ok signer) :
      sig = Known.signature ∨ sig = Known.opposite := by
    change (if _ then _ else _) = _ at recovered
    split at recovered
    · rename_i valid
      exact valid.2
    · cases recovered
  intro digest sig other signer _ _ recovered otherRecovered
  rcases known recovered with rfl | rfl <;> rcases known otherRecovered with rfl | rfl
  · exact .inl rfl
  · exact .inr sum
  · exact .inr (by omega)
  · exact .inl rfl

/-- What the owner signed is checked, and no other `s` is accepted with it. -/
theorem secret_signature_checked_known :
    Checked Known.rText Known.sText Known.signature ∧
      ∀ {otherAddr otherV otherS other},
        secretSignature otherAddr otherV Known.rText otherS = .ok other → Fills otherS →
        Known.malleableEnv.sigToAddr Known.malleableDigest other = .ok Known.owner →
        rOf Known.signature = rOf other → recoveryId Known.signature / 2 = recoveryId other / 2 →
          sOf Known.signature = sOf other := by
  rcases Known.signatures_read with ⟨reached, _, _, recovered, _⟩
  have rFills : Fills Known.rText := .inl (by decide +kernel)
  have sFills : Fills Known.sText := .inl (by decide +kernel)
  rcases secret_signature_checked_iff Known.malleableEnv Known.resolver 264 none with
    ⟨checks, unique⟩
  refine ⟨((checks Known.ownerText 28 Known.rText Known.sText).2 _ reached).mpr ⟨rFills, sFills⟩,
    ?_⟩
  intro _ _ _ other otherReached otherFills otherRecovered sameR sameBit
  exact unique malleableEnv_recovers reached rFills sFills otherReached rFills otherFills recovered
    otherRecovered sameR sameBit

end Go

end SuperpositionAccounts
