import SuperpositionAccounts.Server.Text
import SuperpositionAccounts.Wire.Signing

/-!
# Requests of the front end to signed arguments

The functions of `lib/convertor/convertor.go` that end in `Graph` read the texts
of a GraphQL request and build the signed arguments from them. They are modelled
with their checks in the order of the source and with the texts of their errors.
The calldata is that of `lib/ninelives/ninelives.go`.

Three of the functions read the client's nonce, `ms_ts`. One copies the bytes of
the number to the front of the 16-byte array; the other two compute the place of
a number in 32 bytes and use it in the array of 16.
-/

namespace SuperpositionAccounts

namespace Go

/-! ### The inputs of the GraphQL schema -/

namespace Model

structure Permit where
  deadline : Int32
  permitV : Int32
  permitR : String
  permitS : String

structure Mint where
  market : String
  outcome : String
  amount : String
  permit : Option Permit
  referrer : String
  /-- The millisecond timestamp for making sure this isn't doubled up somehow. -/
  msTs : String

structure CreateAccount where
  eoaAddr : String
  sigV : Int32
  sigR : String
  sigS : String
  authority : Option String

end Model

/-! ### Calldata -/

/-- A word that holds an address. -/
def abiAddress (addr : Address) : List UInt8 :=
  List.replicate 12 0 ++ addr.toList

/-- The calldata of `mint8A059B6E(bytes8,uint256,address,address)`. -/
def newMint (outcome : Bytes 8) (value : U) (referrer recipient : Address) : Vec UInt8 :=
  ⟨[0x00, 0x00, 0x01, 0x47] ++ (outcome.toList ++ List.replicate 24 0) ++ value.toList ++
    abiAddress referrer ++ abiAddress recipient, by simp [abiAddress]⟩

/-- Lists whose calldata fits the four bytes the wire format has for its length. -/
abbrev Pools (α : Type) :=
  {pools : List α // 100 + 32 * pools.length < 2 ^ 32}

/-- The calldata of `payoffForOther(address[],address)`: the offset of the array, the recipient,
and the array with its length. -/
def newPayoffForOther (pools : Pools Address) (recipient : Address) : Vec UInt8 :=
  ⟨[0x37, 0x55, 0xac, 0x7d] ++ (Bytes.ofNat 32 64).toList ++ abiAddress recipient ++
    (Bytes.ofNat 32 pools.val.length).toList ++ pools.val.flatMap abiAddress, by
      have fits := pools.property
      simp [abiAddress]
      omega⟩

/-! ### Parts of the requests -/

open Result

variable {Asset : Type}

/-- The amount of a request: a decimal number of at most 32 bytes. -/
def parseAmount (amount : String) : Result U :=
  match setString amount with
  | none => errorf ("amount: " ++ amount)
  | some number =>
    if 32 < (bigBytes number).length then errorf ("too huge amount: " ++ amount)
    else copyAt (32 - (bigBytes number).length) (bigBytes number)

/-- The nonce as `CreateSolveArgsSigArgsMintGraph` reads it. -/
def copyMsTs (msTs : String) : Result (Bytes 16) :=
  match setString msTs with
  | none => errorf ("ms ts: " ++ msTs)
  | some number => copyAt 0 (bigBytes number)

/-- The nonce as `CreateSolveArgsSigArgsGraph` and `CreatePayoffForOtherArgsGraph` read it. -/
def padMsTs (msTs : String) : Result (Bytes 16) :=
  match setString msTs with
  | none => errorf ("ms ts: " ++ msTs)
  | some number =>
    if 32 < (bigBytes number).length then
      errorf ("ms ts too large: " ++ toString (bigBytes number).length)
    else copyAt (32 - (bigBytes number).length) (bigBytes number)

def newPermitGraph (asset : Asset) (deadline : UInt64) (permitV : Int32)
    (permitR permitS : String) : Result (Permit Asset) := do
  if permitV < 0 ∨ 255 < permitV then errorf "v exceeds"
  let r ← wrap "permit r: " (strToBytes32 permitR)
  let s ← wrap "permit s: " (strToBytes32 permitS)
  return { asset, deadline, v := UInt8.ofNat permitV.toInt.toNat, r, s }

/-- The permit of a request, if it has one. -/
def parsePermit (asset : Asset) : Option Model.Permit → Result (Option (Permit Asset))
  | none => .ok none
  | some permit => do
    if permit.deadline < 0 then errorf "negative deadline"
    let parsed ← wrap "permit: " (newPermitGraph asset (UInt64.ofNat permit.deadline.toInt.toNat)
      permit.permitV permit.permitR permit.permitS)
    return some parsed

/-- An account creation before a solve is tagged onto it. -/
abbrev Untagged (Asset : Type) :=
  {fresh : FreshBackwards Asset // fresh.solveArgs = Vec.empty}

def createAccountToFreshBackwards (pubKey : Bytes 32) (eoa : Address) (v : UInt8) (r s : U)
    (authority : Option Address) : Untagged Asset :=
  ⟨{ key := pubKey, eoaAddr := eoa, v, r, s, solveArgs := Vec.empty, authority }, rfl⟩

/-- The authority of a request, if it names one. -/
def parseAuthority : Option String → Result (Option Address)
  | none => .ok none
  | some text => do
    let addr ← wrap "authority: " (strToAddr text)
    return some addr

def createAccountToFreshBackwardsGraph (pubKey : Bytes 32) (createAccount : Model.CreateAccount) :
    Result (Untagged Asset) := do
  let eoa ← wrap "eoa: " (strToAddr createAccount.eoaAddr)
  let authority ← parseAuthority createAccount.authority
  if createAccount.sigV < 0 ∨ 255 < createAccount.sigV then errorf "v exceeds"
  let r ← wrap "r: " (strToBytes32 createAccount.sigR)
  let s ← wrap "s: " (strToBytes32 createAccount.sigS)
  return createAccountToFreshBackwards pubKey eoa
    (UInt8.ofNat createAccount.sigV.toInt.toNat) r s authority

/-! ### Signed arguments -/

section Signed

variable [AssetRegistry Asset] (sum512 : List UInt8 → Bytes 64) (prog : Program)

def createSolveArgsSigArgsGraph (asset : Asset) (target amount : String) (cd : Vec UInt8)
    (permit : Option Model.Permit) (msTs : String) : Result (SolveArgsSigArgs Asset) := do
  let a ← parseAmount amount
  let msTs ← padMsTs msTs
  let m ← wrap "addr: " (strToAddr target)
  let p ← parsePermit asset permit
  lift (createSolveArgsSigArgs sum512 prog asset m a cd p msTs)

def createSolveArgsSigArgsMint (asset : Asset) (market : Address) (outcome : Bytes 8) (amount : U)
    (referrer recipient : Address) (permit : Option (Permit Asset)) (msTs : Bytes 16) :
    Except String (SolveArgsSigArgs Asset) :=
  createSolveArgsSigArgs sum512 prog asset market amount
    (newMint outcome amount referrer recipient) permit msTs

def createSolveArgsSigArgsMintGraph (asset : Asset) (market outcome amount referrer : String)
    (recipient : Address) (permit : Option Model.Permit) (msTs : String) :
    Result (SolveArgsSigArgs Asset) := do
  let o ← wrap "outcome: " (strToBytes8 outcome)
  let a ← parseAmount amount
  let m ← wrap "market: " (strToAddr market)
  let ref ← wrap "referrer: " (strToAddr referrer)
  let msTs ← copyMsTs msTs
  let p ← parsePermit asset permit
  lift (createSolveArgsSigArgsMint sum512 prog asset m o a ref recipient p msTs)

def createPayoffForOtherArgs (claimantHelper eoa : Address) (markets : Pools Address)
    (msTs : Bytes 16) : Except String (SolveArgsSigArgs Asset) :=
  createSolveArgsSigArgsNoToken sum512 prog claimantHelper (newPayoffForOther markets eoa) msTs

/-- The loop over the markets of a claim. -/
def parseMarkets : (markets : List String) →
    Result {addrs : List Address // addrs.length = markets.length}
  | [] => .ok ⟨[], rfl⟩
  | m :: rest =>
    if isHexAddress m then do
      let addrs ← parseMarkets rest
      return ⟨hexToAddress m :: addrs.val, congrArg (· + 1) addrs.property⟩
    else
      errorf ("bad address: " ++ m)

def createPayoffForOtherArgsGraph (claimantHelper eoa : Address) (markets : Pools String)
    (msTs : String) : Result (SolveArgsSigArgs Asset) := do
  let msTs ← padMsTs msTs
  let addrs ← parseMarkets markets.val
  lift (createPayoffForOtherArgs sum512 prog claimantHelper eoa
    ⟨addrs.val, by rw [addrs.property]; exact markets.property⟩ msTs)

/-- The solve is appended to a creation that has none. -/
def tagFreshBackwardsWithMintGraph (f : Untagged Asset) (asset : Asset)
    (market outcome amount referrer : String) (recipient : Address)
    (permit : Option Model.Permit) (msTs : String) : Result (FreshBackwards Asset) := do
  let m ← createSolveArgsSigArgsMintGraph sum512 prog asset market outcome amount referrer
    recipient permit msTs
  return { f.val with solveArgs := Vec.singleton m }

end Signed

end Go

end SuperpositionAccounts
