import SuperpositionAccounts.Wire.Go

/-!
# Signing on the server and checking on chain

`lib/convertor/convertor.go` builds the signed requests: it encodes the inner
value, hashes it with SHA-512, passes the digest in hexadecimal to a signing
program and copies what the program prints into the signature. The contract
decodes the request, encodes the inner value again and verifies the signature
over the hash of that. Both hash the same bytes.
-/

namespace SuperpositionAccounts

namespace Go

variable {Asset : Type} [AssetRegistry Asset]

/-- The signing program: its output, or its output and error when it fails. -/
abbrev Program := List UInt8 → Except (String × String) (List UInt8)

/-- Go's `copy` into a signature: output beyond 64 bytes is dropped, missing bytes stay zero. -/
def copySig (output : List UInt8) : Bytes 64 :=
  ⟨(output ++ List.replicate 64 0).take 64, by simp⟩

/-- Sign encoded arguments with the signing program. -/
def invokeDalekph (sum512 : List UInt8 → Bytes 64) (prog : Program) (encoded : List UInt8) :
    Except String (Bytes 64) :=
  match prog (hexEncode (sum512 encoded).toList) with
  | .ok output => .ok (copySig output)
  | .error (output, err) => .error ("invoking dalekph: " ++ output ++ ", " ++ err)

section Requests

variable [Inhabited Asset] (sum512 : List UInt8 → Bytes 64) (prog : Program)

def createSolveV2 (args : Vec (SolveArgs Asset)) (permitOwner transferOwner : Bytes 20) :
    Except String (Args Asset) := do
  let solveArgs : SolveV2Args Asset := { args, permitOwner, transferOwner }
  let sig ← invokeDalekph sum512 prog solveArgs.reflect.serialize
  return { (default : Args Asset) with enum := 4, solveV2 := { args := solveArgs, sig } }

def createSolveV3 (args : Vec (SolveArgs Asset)) (gasToken : Asset) (gasTokenAmt : UInt64) :
    Except String (Args Asset) := do
  let solveArgs : SolveV3Args Asset := { args, gasToken, gasTokenAmt, gasTokenPermit := none }
  let sig ← invokeDalekph sum512 prog solveArgs.reflect.serialize
  return { (default : Args Asset) with enum := 9, solveV3 := { args := solveArgs, sig } }

end Requests

section Solves

variable (sum512 : List UInt8 → Bytes 64) (prog : Program)

def createSolveArgsSigArgs (asset : Asset) (target : Bytes 20) (amount : Bytes 32)
    (cd : Vec UInt8) (permit : Option (Permit Asset)) (msTs : Bytes 16) :
    Except String (SolveArgsSigArgs Asset) := do
  let solveArgs : SolveArgs Asset :=
    { permit := match permit with
        | some permit => Vec.singleton permit
        | none => Vec.empty
      fromArgs := Vec.singleton { asset, toTake := amount, maxUnspent := default }
      target, cd, msTs }
  let sig ← invokeDalekph sum512 prog solveArgs.reflect.serialize
  return { sig, args := solveArgs }

def createSolveArgsSigArgsNoToken (target : Bytes 20) (cd : Vec UInt8) (msTs : Bytes 16) :
    Except String (SolveArgsSigArgs Asset) := do
  let solveArgs : SolveArgs Asset :=
    { permit := Vec.empty, fromArgs := Vec.empty, target, cd, msTs }
  let sig ← invokeDalekph sum512 prog solveArgs.reflect.serialize
  return { sig, args := solveArgs }

end Solves

/-- The signing program signs every digest it is given with the key. -/
def Program.SignsWith (prog : Program) (precompiles : Precompiles) (key : U) : Prop :=
  ∀ (digest : Bytes 64) (output : List UInt8), prog (hexEncode digest.toList) = .ok output →
    precompiles.edphverifyPost digest key (copySig output) = true

section Verification

variable {precompiles : Precompiles} {prog : Program} {key : U}

theorem edphverifyPre_of_invokeDalekph (signs : prog.SignsWith precompiles key)
    {encoded : List UInt8} {sig : Bytes 64}
    (signed : invokeDalekph precompiles.sha512 prog encoded = .ok sig) :
    precompiles.edphverifyPre encoded key sig = true := by
  simp only [invokeDalekph] at signed
  split at signed
  · rename_i output printed
    cases signed
    exact signs _ _ printed
  · cases signed

/-- A known request reaches the contract as the request it stands for, with nothing left over. -/
theorem Args.deserialize_serialize {args : Args Asset} (known : args.enum ≤ 10) :
    ∃ bytes decoded, args.serialize = some bytes ∧ args.toRust = some decoded ∧
      Borsh.deserialize bytes = some (decoded, []) := by
  rcases Args.serialize_eq_toVec known with ⟨decoded, translated, written⟩
  exact ⟨_, decoded, written, translated, Borsh.deserialize_toVec decoded⟩

/-- What the contract finds in a request whose inner value is `inner`: it decodes with nothing
left over, and the signature passes the check over the re-encoded inner value. -/
def VerifiesAs {α : Type} [Borsh α] (precompiles : Precompiles) (key : U) (sent : Args Asset)
    (build : α → Sig → SuperpositionAccounts.Args Asset) (inner : α) : Prop :=
  ∃ bytes sig, sent.serialize = some bytes ∧
    Borsh.deserialize bytes = some (build inner sig, []) ∧
    precompiles.edphverifyPre (Borsh.toVec inner) key sig = true

theorem createSolveV2_verifies [Inhabited Asset] (signs : prog.SignsWith precompiles key)
    {args : Vec (SolveArgs Asset)} {permitOwner transferOwner : Bytes 20} {sent : Args Asset}
    (made : createSolveV2 precompiles.sha512 prog args permitOwner transferOwner = .ok sent) :
    VerifiesAs precompiles key sent .solveV2
      { args := args.map SolveArgs.toRust, permitOwner, transferOwner } := by
  simp only [createSolveV2, bind, Except.bind] at made
  split at made
  · cases made
  · rename_i sig signed
    have known : sent.enum ≤ 10 := by
      cases made
      exact (by decide : (4 : UInt8) ≤ 10)
    rcases Args.deserialize_serialize known with ⟨bytes, decoded, written, translated, read⟩
    cases made
    cases translated
    refine ⟨bytes, sig, written, read, ?_⟩
    have verified := edphverifyPre_of_invokeDalekph signs signed
    rw [SolveV2Args.serialize_reflect] at verified
    exact verified

theorem createSolveV3_verifies [Inhabited Asset] (signs : prog.SignsWith precompiles key)
    {args : Vec (SolveArgs Asset)} {gasToken : Asset} {gasTokenAmt : UInt64} {sent : Args Asset}
    (made : createSolveV3 precompiles.sha512 prog args gasToken gasTokenAmt = .ok sent) :
    VerifiesAs precompiles key sent .solveV3
      { args := args.map SolveArgs.toRust, gasToken, gasTokenAmt, gasTokenPermit := none } := by
  simp only [createSolveV3, bind, Except.bind] at made
  split at made
  · cases made
  · rename_i sig signed
    have known : sent.enum ≤ 10 := by
      cases made
      exact (by decide : (9 : UInt8) ≤ 10)
    rcases Args.deserialize_serialize known with ⟨bytes, decoded, written, translated, read⟩
    cases made
    cases translated
    refine ⟨bytes, sig, written, read, ?_⟩
    have verified := edphverifyPre_of_invokeDalekph signs signed
    rw [SolveV3Args.serialize_reflect] at verified
    exact verified

/-- A signed solve passes the check the contract makes for each element of a `Solve`. -/
theorem createSolveArgsSigArgs_verifies (signs : prog.SignsWith precompiles key)
    {asset : Asset} {target : Bytes 20} {amount : Bytes 32} {cd : Vec UInt8}
    {permit : Option (Permit Asset)} {msTs : Bytes 16} {signed : SolveArgsSigArgs Asset}
    (made : createSolveArgsSigArgs precompiles.sha512 prog asset target amount cd permit msTs =
      .ok signed) :
    precompiles.edphverifyPre (Borsh.toVec signed.toRust.args) key signed.toRust.sig = true := by
  simp only [createSolveArgsSigArgs, bind, Except.bind] at made
  split at made
  · cases made
  · rename_i sig printed
    cases made
    have verified := edphverifyPre_of_invokeDalekph signs printed
    rw [SolveArgs.serialize_reflect] at verified
    exact verified

theorem createSolveArgsSigArgsNoToken_verifies (signs : prog.SignsWith precompiles key)
    {target : Bytes 20} {cd : Vec UInt8} {msTs : Bytes 16} {signed : SolveArgsSigArgs Asset}
    (made : createSolveArgsSigArgsNoToken precompiles.sha512 prog target cd msTs = .ok signed) :
    precompiles.edphverifyPre (Borsh.toVec signed.toRust.args) key signed.toRust.sig = true := by
  simp only [createSolveArgsSigArgsNoToken, bind, Except.bind] at made
  split at made
  · cases made
  · rename_i sig printed
    cases made
    have verified := edphverifyPre_of_invokeDalekph signs printed
    rw [SolveArgs.serialize_reflect] at verified
    exact verified

end Verification

/-- The server and the contract agree on the wire format: every request with a known tag is
decoded by the contract to the request it stands for, the bytes hashed before signing are those
the contract hashes, and so the requests the server builds pass the contract's check. -/
theorem go_and_rust_agree (Asset : Type) [AssetRegistry Asset] [Inhabited Asset] :
    (∀ args : Args Asset, args.enum ≤ 10 →
      ∃ bytes decoded, args.serialize = some bytes ∧ args.toRust = some decoded ∧
        Borsh.deserialize bytes = some (decoded, [])) ∧
      ((∀ args : SolveArgs Asset, args.reflect.serialize = Borsh.toVec args.toRust) ∧
        (∀ args : SolveV2Args Asset, args.reflect.serialize = Borsh.toVec args.toRust) ∧
        (∀ args : SolveV3Args Asset, args.reflect.serialize = Borsh.toVec args.toRust)) ∧
      ∀ (precompiles : Precompiles) (prog : Program) (key : U), prog.SignsWith precompiles key →
        (∀ (asset : Asset) (target : Bytes 20) (amount : Bytes 32) (cd : Vec UInt8)
          (permit : Option (Permit Asset)) (msTs : Bytes 16) (signed : SolveArgsSigArgs Asset),
          createSolveArgsSigArgs precompiles.sha512 prog asset target amount cd permit msTs =
            .ok signed →
          precompiles.edphverifyPre (Borsh.toVec signed.toRust.args) key signed.toRust.sig =
            true) ∧
        (∀ (target : Bytes 20) (cd : Vec UInt8) (msTs : Bytes 16)
          (signed : SolveArgsSigArgs Asset),
          createSolveArgsSigArgsNoToken precompiles.sha512 prog target cd msTs = .ok signed →
          precompiles.edphverifyPre (Borsh.toVec signed.toRust.args) key signed.toRust.sig =
            true) ∧
        (∀ (args : Vec (SolveArgs Asset)) (permitOwner transferOwner : Bytes 20)
          (sent : Args Asset),
          createSolveV2 precompiles.sha512 prog args permitOwner transferOwner = .ok sent →
          VerifiesAs precompiles key sent .solveV2
            { args := args.map SolveArgs.toRust, permitOwner, transferOwner }) ∧
        ∀ (args : Vec (SolveArgs Asset)) (gasToken : Asset) (gasTokenAmt : UInt64)
          (sent : Args Asset),
          createSolveV3 precompiles.sha512 prog args gasToken gasTokenAmt = .ok sent →
          VerifiesAs precompiles key sent .solveV3
            { args := args.map SolveArgs.toRust, gasToken, gasTokenAmt,
              gasTokenPermit := none } := by
  refine ⟨fun args known => Args.deserialize_serialize known,
    ⟨SolveArgs.serialize_reflect, SolveV2Args.serialize_reflect, SolveV3Args.serialize_reflect⟩, ?_⟩
  intro precompiles prog key signs
  exact ⟨fun _ _ _ _ _ _ _ made => createSolveArgsSigArgs_verifies signs made,
    fun _ _ _ _ made => createSolveArgsSigArgsNoToken_verifies signs made,
    fun _ _ _ _ made => createSolveV2_verifies signs made,
    fun _ _ _ _ made => createSolveV3_verifies signs made⟩

/-! ### A known answer: a `SolveV2` of one item, signed with the key of 32 bytes 7 -/

def knownKey : U :=
  Bytes.ofNat 32 0xea4a6c63e29c520abef5507b132ec5f9954776aebebe7b92421eea691446d22c

/-- An item that takes one USDC with a permit. -/
def knownSolve : SolveArgs KnownAsset where
  permit := Vec.singleton
    { asset := .usdc
      deadline := 1700003600
      v := 27
      r := Bytes.ofNat 32 0x1111111111111111111111111111111111111111111111111111111111111111
      s := Bytes.ofNat 32 0x2222222222222222222222222222222222222222222222222222222222222222 }
  fromArgs := Vec.singleton
    { asset := .usdc
      toTake := Bytes.ofNat 32 1000000
      maxUnspent := Bytes.ofNat 32 0 }
  target := Bytes.ofNat 20 0x3333333333333333333333333333333333333333
  cd := Vec.singleton 0xd0
  msTs := Bytes.ofNat 16 1

def knownSolveV2 : SolveV2Args KnownAsset where
  args := Vec.singleton knownSolve
  permitOwner := Bytes.ofNat 20 0x0101010101010101010101010101010101010101
  transferOwner := Bytes.ofNat 20 0x0202020202020202020202020202020202020202

def knownDigest : Bytes 64 :=
  Bytes.ofNat 64 0xe1ebff05dd8cc4bf43d8223bf29c92fddeb2a7cb96609d3a6af2bd2a6c313c3257e6b3b6d751391343236a222756e646419b50c53b6897ec6df9ac1887eee4ca

def knownSig : Sig :=
  Bytes.ofNat 64 0x817523e1bf810249fca5c927b2b5ec0172061cebb1a0940a656a0c40a52a2333e47333ede3e83c67103b0c34a520872796dc2382e224439c58662ec4548a320a

/-- SHA-512 and Ed25519ph verification on the inputs of the known answer. -/
def knownPrecompiles : Precompiles where
  sha512 preimage :=
    if preimage = knownSolveV2.reflect.serialize then knownDigest else Bytes.ofNat 64 0
  edphverifyPost digest key sig := decide (digest = knownDigest ∧ key = knownKey ∧ sig = knownSig)

def knownProgram : Program := fun text =>
  if text = hexEncode knownDigest.toList then .ok knownSig.toList
  else .error ("", "exit status 1")

theorem copySig_toList (sig : Bytes 64) : copySig sig.toList = sig := by
  apply List.Vector.eq
  exact List.take_left' sig.toList_length

theorem knownProgram_signsWith : knownProgram.SignsWith knownPrecompiles knownKey := by
  intro digest output printed
  simp only [knownProgram] at printed
  split at printed
  · rename_i sameText
    cases printed
    have sameDigest : digest = knownDigest := List.Vector.eq _ _ (hexEncode_injective sameText)
    simp [knownPrecompiles, sameDigest, copySig_toList]
  · cases printed

theorem known_solveV2_verifies :
    ∃ sent : Args KnownAsset,
      createSolveV2 knownPrecompiles.sha512 knownProgram (Vec.singleton knownSolve)
        knownSolveV2.permitOwner knownSolveV2.transferOwner = .ok sent ∧
      VerifiesAs knownPrecompiles knownKey sent .solveV2
        { args := (Vec.singleton knownSolve).map SolveArgs.toRust
          permitOwner := knownSolveV2.permitOwner
          transferOwner := knownSolveV2.transferOwner } := by
  have agree := (go_and_rust_agree KnownAsset).2.2 _ _ _ knownProgram_signsWith
  have hashed : knownPrecompiles.sha512 knownSolveV2.reflect.serialize = knownDigest := by
    simp only [knownPrecompiles, if_true]
  have printed : knownProgram (hexEncode knownDigest.toList) = .ok knownSig.toList := by
    simp only [knownProgram, if_true]
  have made : createSolveV2 knownPrecompiles.sha512 knownProgram (Vec.singleton knownSolve)
      knownSolveV2.permitOwner knownSolveV2.transferOwner =
        .ok { (default : Args KnownAsset) with
          enum := 4, solveV2 := { args := knownSolveV2, sig := copySig knownSig.toList } } := by
    unfold createSolveV2 invokeDalekph
    rw [show (SolveV2Args.mk (Vec.singleton knownSolve) knownSolveV2.permitOwner
      knownSolveV2.transferOwner) = knownSolveV2 from rfl]
    simp only [hashed, printed]
    rfl
  exact ⟨_, made, agree.2.2.1 _ _ _ _ made⟩

end Go

end SuperpositionAccounts
