import SuperpositionAccounts.Borsh.Format

/-!
# Wire types of the accounts contract

The request types of `superposition_libaccounts/src/lib.rs` with their Borsh
encodings. A structure is encoded field by field in declaration order and a
variant of `Args` by one tag byte before its fields.

The table of assets comes from another crate. The wire format only relies on an
asset being written as one byte, and execution on the address it has on a
network, so the table is a class with these two facts.
-/

namespace SuperpositionAccounts

/-- A 256-bit word, as its 32 big-endian bytes. -/
abbrev U := Bytes 32

/-- An address of the chain. -/
abbrev Address := Bytes 20

/-- An Ed25519 signature. -/
abbrev Sig := Bytes 64

/-- Bytes that are cut or filled up with zeros to a word. -/
theorem length_take_padded (bytes : List UInt8) :
    ((bytes ++ List.replicate 32 0).take 32).length = 32 := by
  simp

def asciiText (bytes : List UInt8) : String :=
  String.ofList (bytes.map fun byte => Char.ofNat byte.toNat)

def asciiBytes (text : String) : List UInt8 :=
  text.toList.map fun char => UInt8.ofNat char.toNat

/-- A hexadecimal digit as a lower-case ASCII character. -/
def hexDigit (digit : ℕ) : UInt8 :=
  if digit < 10 then UInt8.ofNat (48 + digit) else UInt8.ofNat (87 + digit)

/-- The lower-case hexadecimal text of a byte string, without prefix. -/
def hexEncode (bytes : List UInt8) : List UInt8 :=
  bytes.flatMap fun byte => [hexDigit (byte.toNat / 16), hexDigit (byte.toNat % 16)]

def hexText (bytes : List UInt8) : String :=
  asciiText (hexEncode bytes)

theorem hexDigit_inj {left right : ℕ} (leftSmall : left < 16) (rightSmall : right < 16)
    (same : hexDigit left = hexDigit right) : left = right := by
  have distinct : ∀ left right : Fin 16,
      hexDigit left.val = hexDigit right.val → left = right := by decide
  exact congrArg Fin.val (distinct ⟨left, leftSmall⟩ ⟨right, rightSmall⟩ same)

theorem length_hexEncode (bytes : List UInt8) : (hexEncode bytes).length = 2 * bytes.length := by
  induction bytes with
  | nil => rfl
  | cons byte rest ih =>
      simp only [hexEncode, List.flatMap_cons, List.length_append, List.length_cons,
        List.length_nil] at ih ⊢
      omega

theorem hexEncode_injective : Function.Injective hexEncode := by
  intro left
  induction left with
  | nil =>
      intro right same
      cases right with
      | nil => rfl
      | cons byte rest => simp [hexEncode] at same
  | cons leftByte leftRest ih =>
      intro right same
      cases right with
      | nil => simp [hexEncode] at same
      | cons rightByte rightRest =>
          simp only [hexEncode, List.flatMap_cons, List.cons_append, List.nil_append,
            List.cons.injEq] at same
          rcases same with ⟨highSame, lowSame, restSame⟩
          have leftBound := leftByte.toNat_lt
          have rightBound := rightByte.toNat_lt
          have high := hexDigit_inj (by omega) (by omega) highSame
          have low := hexDigit_inj (by omega) (by omega) lowSame
          have byteSame : leftByte = rightByte := UInt8.toNat_inj.mp (by omega)
          rw [byteSame, ih restSame]

theorem asciiText_injective : Function.Injective asciiText := by
  have each : ∀ code : Fin 256, (Char.ofNat code.val).toNat = code.val := by decide +kernel
  intro left right same
  refine List.map_injective_iff.mpr (fun leftByte rightByte sameChar => ?_)
    (String.ofList_inj.mp same)
  have codes := congrArg Char.toNat sameChar
  rw [each ⟨leftByte.toNat, leftByte.toNat_lt⟩, each ⟨rightByte.toNat, rightByte.toNat_lt⟩] at codes
  exact UInt8.toNat_inj.mp codes

theorem hexText_injective : Function.Injective hexText :=
  asciiText_injective.comp hexEncode_injective

theorem hexText_append (left right : List UInt8) :
    hexText (left ++ right) = hexText left ++ hexText right := by
  simp [hexText, asciiText, hexEncode]

/-- The networks the contract is built for. -/
inductive Network where
  | arbitrum
  | robinhood
  | robinhoodTestnet
deriving DecidableEq, Repr

/-- The hash and signature precompiles of the chain. -/
structure Precompiles where
  sha512 : List UInt8 → Bytes 64
  /-- Verify an Ed25519ph signature over a digest. -/
  edphverifyPost : Bytes 64 → U → Sig → Bool

/-- Verify an Ed25519ph signature over a message, which is hashed first. -/
def Precompiles.edphverifyPre (precompiles : Precompiles) (preimage : List UInt8) (key : U)
    (sig : Sig) : Bool :=
  precompiles.edphverifyPost (precompiles.sha512 preimage) key sig

/-- The table of assets: one byte on the wire, an address on each network that has the asset. -/
class AssetRegistry (Asset : Type) extends Borsh Asset where
  /-- The byte of an asset. -/
  id : Asset → UInt8
  /-- An asset is written as its byte alone. -/
  toVec_eq (asset : Asset) : toVec asset = [id asset]
  /-- The token contract of an asset on a network, if the network has it. -/
  addr : Asset → Network → Option Address
  /-- The name shown in messages. -/
  display : Asset → String

namespace AssetRegistry

variable {Asset : Type} [AssetRegistry Asset]

theorem id_injective : Function.Injective (id : Asset → UInt8) := by
  intro left right same
  apply Borsh.toVec_injective
  rw [toVec_eq, toVec_eq, same]

instance : DecidableEq Asset := fun left right =>
  decidable_of_iff (id left = id right) id_injective.eq_iff

end AssetRegistry

variable {Asset : Type}

/-- An EIP-2612 permit. -/
structure Permit (Asset : Type) where
  asset : Asset
  deadline : UInt64
  v : UInt8
  r : U
  s : U
deriving DecidableEq

/-- An amount of an asset to pull before a solve. -/
structure FromArgs (Asset : Type) where
  asset : Asset
  toTake : U
  maxUnspent : U
deriving DecidableEq

structure SolveArgs (Asset : Type) where
  permit : Vec (Permit Asset)
  fromArgs : Vec (FromArgs Asset)
  target : Address
  cd : Vec UInt8
  msTs : Bytes 16
deriving DecidableEq

structure SolveArgsSigArgs (Asset : Type) where
  sig : Sig
  args : SolveArgs Asset
deriving DecidableEq

structure SolveV2Args (Asset : Type) where
  args : Vec (SolveArgs Asset)
  /-- Owner of the permit blob that was generated. -/
  permitOwner : Address
  /-- Owner of the transferFrom that pulls the tokens. -/
  transferOwner : Address
deriving DecidableEq

/-- A permit without the token field, for transfers. -/
structure TransferPermit where
  deadline : UInt64
  v : UInt8
  r : U
  s : U
deriving DecidableEq

structure Transfer (Asset : Type) where
  fromAddr : Address
  asset : Asset
  recipient : Address
  amt : U
  permit : Option TransferPermit
deriving DecidableEq

structure TransferOnlyArgs (Asset : Type) where
  args : Vec (Transfer Asset)
  msTs : Bytes 16
deriving DecidableEq

structure StatementArgs where
  msg : Vec UInt8
  msTs : Bytes 6
deriving DecidableEq

structure SolveV3Args (Asset : Type) where
  args : Vec (SolveArgs Asset)
  /-- The asset gas is paid in. -/
  gasToken : Asset
  gasTokenAmt : UInt64
  gasTokenPermit : Option (Permit Asset)
deriving DecidableEq

/-- The requests an account accepts. -/
inductive Args (Asset : Type) where
  | freshBackwards (key : U) (eoaAddr : Address) (v : UInt8) (r s : U)
      (solveArgs : Vec (SolveArgsSigArgs Asset)) (authority : Option Address)
  | solve (args : Vec (SolveArgsSigArgs Asset))
  | version
  | authority
  | solveV2 (args : SolveV2Args Asset) (sig : Sig)
  | transferOnly (args : TransferOnlyArgs Asset) (sig : Sig)
  | statement (args : StatementArgs) (sig : Sig)
  | owner
  | ed25519Key
  | solveV3 (args : SolveV3Args Asset) (sig : Sig)
  | assetsVersion
deriving DecidableEq

/-! ### Encodings of the structures -/

section Structures

variable [Borsh Asset]

instance : Borsh (Permit Asset) :=
  Borsh.ofEquiv (β := Asset × UInt64 × UInt8 × U × U)
    { toFun := fun ⟨asset, deadline, v, r, s⟩ => (asset, deadline, v, r, s)
      invFun := fun (asset, deadline, v, r, s) => ⟨asset, deadline, v, r, s⟩
      left_inv := fun _ => rfl
      right_inv := fun _ => rfl }

instance : Borsh (FromArgs Asset) :=
  Borsh.ofEquiv (β := Asset × U × U)
    { toFun := fun ⟨asset, toTake, maxUnspent⟩ => (asset, toTake, maxUnspent)
      invFun := fun (asset, toTake, maxUnspent) => ⟨asset, toTake, maxUnspent⟩
      left_inv := fun _ => rfl
      right_inv := fun _ => rfl }

instance : Borsh (SolveArgs Asset) :=
  Borsh.ofEquiv (β := Vec (Permit Asset) × Vec (FromArgs Asset) × Address × Vec UInt8 × Bytes 16)
    { toFun := fun ⟨permit, fromArgs, target, cd, msTs⟩ => (permit, fromArgs, target, cd, msTs)
      invFun := fun (permit, fromArgs, target, cd, msTs) => ⟨permit, fromArgs, target, cd, msTs⟩
      left_inv := fun _ => rfl
      right_inv := fun _ => rfl }

instance : Borsh (SolveArgsSigArgs Asset) :=
  Borsh.ofEquiv (β := Sig × SolveArgs Asset)
    { toFun := fun ⟨sig, args⟩ => (sig, args)
      invFun := fun (sig, args) => ⟨sig, args⟩
      left_inv := fun _ => rfl
      right_inv := fun _ => rfl }

instance : Borsh (SolveV2Args Asset) :=
  Borsh.ofEquiv (β := Vec (SolveArgs Asset) × Address × Address)
    { toFun := fun ⟨args, permitOwner, transferOwner⟩ => (args, permitOwner, transferOwner)
      invFun := fun (args, permitOwner, transferOwner) => ⟨args, permitOwner, transferOwner⟩
      left_inv := fun _ => rfl
      right_inv := fun _ => rfl }

instance : Borsh TransferPermit :=
  Borsh.ofEquiv (β := UInt64 × UInt8 × U × U)
    { toFun := fun ⟨deadline, v, r, s⟩ => (deadline, v, r, s)
      invFun := fun (deadline, v, r, s) => ⟨deadline, v, r, s⟩
      left_inv := fun _ => rfl
      right_inv := fun _ => rfl }

instance : Borsh (Transfer Asset) :=
  Borsh.ofEquiv (β := Address × Asset × Address × U × Option TransferPermit)
    { toFun := fun ⟨fromAddr, asset, recipient, amt, permit⟩ =>
        (fromAddr, asset, recipient, amt, permit)
      invFun := fun (fromAddr, asset, recipient, amt, permit) =>
        ⟨fromAddr, asset, recipient, amt, permit⟩
      left_inv := fun _ => rfl
      right_inv := fun _ => rfl }

instance : Borsh (TransferOnlyArgs Asset) :=
  Borsh.ofEquiv (β := Vec (Transfer Asset) × Bytes 16)
    { toFun := fun ⟨args, msTs⟩ => (args, msTs)
      invFun := fun (args, msTs) => ⟨args, msTs⟩
      left_inv := fun _ => rfl
      right_inv := fun _ => rfl }

instance : Borsh StatementArgs :=
  Borsh.ofEquiv (β := Vec UInt8 × Bytes 6)
    { toFun := fun ⟨msg, msTs⟩ => (msg, msTs)
      invFun := fun (msg, msTs) => ⟨msg, msTs⟩
      left_inv := fun _ => rfl
      right_inv := fun _ => rfl }

instance : Borsh (SolveV3Args Asset) :=
  Borsh.ofEquiv (β := Vec (SolveArgs Asset) × Asset × UInt64 × Option (Permit Asset))
    { toFun := fun ⟨args, gasToken, gasTokenAmt, gasTokenPermit⟩ =>
        (args, gasToken, gasTokenAmt, gasTokenPermit)
      invFun := fun (args, gasToken, gasTokenAmt, gasTokenPermit) =>
        ⟨args, gasToken, gasTokenAmt, gasTokenPermit⟩
      left_inv := fun _ => rfl
      right_inv := fun _ => rfl }

end Structures

/-! ### The assets the tests of the source name -/

/-- USDC, ARB and WETH are the first three assets of the table. -/
inductive KnownAsset where
  | usdc
  | arb
  | weth
deriving Inhabited

namespace KnownAsset

/-- The one-byte ids, as the tests of the wire format fix them. -/
def byte : KnownAsset → UInt8
  | usdc => 0
  | arb => 1
  | weth => 2

def read : List UInt8 → Option (KnownAsset × List UInt8)
  | 0 :: rest => some (usdc, rest)
  | 1 :: rest => some (arb, rest)
  | 2 :: rest => some (weth, rest)
  | _ => none

theorem read_eq_some_iff (bytes : List UInt8) (asset : KnownAsset) (rest : List UInt8) :
    read bytes = some (asset, rest) ↔ bytes = [asset.byte] ++ rest := by
  constructor
  · intro accepted
    unfold read at accepted
    split at accepted <;> cases accepted <;> rfl
  · rintro rfl
    cases asset <;> rfl

/-- The token contract of USDC on Arbitrum is the one the contract tests use. -/
instance : AssetRegistry KnownAsset where
  toVec asset := [asset.byte]
  deserialize := read
  deserialize_eq_some_iff := read_eq_some_iff
  id := byte
  toVec_eq _ := rfl
  addr
    | usdc, .arbitrum => some (Bytes.ofNat 20 0xaf88d065e77c8cc2239327c5edb3a432268e5831)
    | _, _ => none
  display
    | usdc => "USDC"
    | arb => "ARB"
    | weth => "WETH"

end KnownAsset

end SuperpositionAccounts
