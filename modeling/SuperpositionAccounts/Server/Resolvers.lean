import Mathlib.Data.List.Infix
import SuperpositionAccounts.Server.Operations

/-!
# Requests of the server

The code that serves a request: the middleware of `main.go`, the mutations of
`graph/schema.resolvers.go`, and `client.Send` of `lib/client/client.go`. Each is
a process over the operations of the database and the node, in the order of the
source and with its texts. Logging is left out.

A panic of a mutation is recovered by the GraphQL handler, which goes on with the
next one. `log.Fatalf` ends the server; the other requests of a run may stop at
any point, so a run in which they go on covers the runs in which they do not.
-/

namespace SuperpositionAccounts

namespace Go

open Threads Result

abbrev PrivateKey := Bytes 32

/-- The libraries and programs the server uses. -/
structure Env (Asset : Type) where
  usdc : Asset
  sum512 : List UInt8 → Bytes 64
  progDalek : Program
  keccak256 : List UInt8 → Bytes 32
  /-- `crypto.SigToPub` and `crypto.PubkeyToAddress`. -/
  sigToAddr : Bytes 32 → Bytes 65 → Except String Address
  hexToECDSA : String → Except String PrivateKey
  /-- The address of a private key. -/
  keyAddr : PrivateKey → Address
  signTx : PrivateKey → Tx → Except String (Bytes 65)
  txHash : SignedTx → Bytes 32
  /-- The text of an address, with the checksum in the case of its letters. -/
  addrString : Address → String
  /-- The text of an account creation in the format `%+v`. -/
  freshString : FreshBackwards Asset → String
  /-- Thirty percent of a gas limit, in floating point. -/
  thirtyPercent : UInt64 → UInt64

/-- The settings of the server. -/
structure Resolver where
  chainId : ℕ
  minimumAmount : ℤ
  accountsFactoryAddr : Address
  claimantHelperAddr : Address
  safetyRouterAddr : Address
  accPubKey : Bytes 32
  urlAlarm : String
  featureClaimDisabled : Bool
  featureMintDisabled : Bool
  featureCheckCode : Bool
  adminSecret : String

/-- The code of a request. -/
abbrev Action (α : Type) := Proc operations Fault α

namespace Action

variable {α : Type}

/-- One operation. -/
def perform (op : Op) : Action op.Result :=
  Proc.call (I := operations) op

def err (text : String) : Action α :=
  .fail (.err text)

def panics (text : String) : Action α :=
  .fail (.panic text)

/-- A computation of the convertor. -/
def ofResult (result : Result α) : Action α :=
  Proc.ofExcept result

/-- Return the error of an operation with a text before it. -/
def check (note : String) : Except String α → Action α
  | .ok value => pure value
  | .error text => err (note ++ text)

/-- End the server with the error of an action. -/
def orFatal (note : String) (action : Action α) : Action α := do
  match ← Proc.attempt action with
  | .ok value => pure value
  | .error (.err text) => .fail (.fatal (note ++ text))
  | .error other => .fail other

end Action

open SuperpositionAccounts.Go.Action

def isDryrun (dryrun : Option Bool) : Bool :=
  dryrun.getD false

/-- Errors that are expected at the end of a market. -/
def isIgnorable (err : String) : Bool :=
  ["res: 99090e", "ERC20: transfer amount exceeds balance", "res: 990995"].any fun text =>
    decide (text.toList <:+: err.toList)

/-- Post to the alarm. The response of a failed post is nil, and closing its body panics. -/
def activateSoftAlarm (url text : String) : Action Unit := do
  if url ≠ "" then
    if !(← perform (.postAlarm text)) then
      panics "runtime error: invalid memory address or nil pointer dereference"

/-- Keep a record of a transaction. An error is only logged. -/
def trackTx (eoaS txHash : String) (gasLimit : UInt64) (desc : String) : Action Unit := do
  let _ ← perform (.insertExecuted eoaS txHash gasLimit desc)

/-- The text of a hash. -/
def hashHex (hash : Bytes 32) : String :=
  "0x" ++ hexEncodeToString hash.toList

section Server

variable {Asset : Type} [AssetRegistry Asset] [Inhabited Asset] (env : Env Asset) (r : Resolver)

/-! ### Addresses of accounts -/

def makeMetamorphicBeaconProxyHash (factory : Address) : Bytes 32 :=
  let front : Bytes 35 :=
    Bytes.ofNat 35 0x60738060093d393df35f3560e01c638fd3ab801461001357610036565b60205f5f5f73
  let back : Bytes 69 := Bytes.ofNat 69
    0x5afa5f51610059565b7f360894a13ba1a3210667c828492db98dca3e2076cc3735a920a3ca505d382bbc545b365f5f375f365f5f935af43d5f5f3e3d5f8261007157fd5bf3
  env.keccak256 (front.toList ++ factory.toList ++ back.toList)

def getClientAddr (factory eoa : Address) : Address :=
  let salt := env.keccak256 eoa.toList
  let hash := env.keccak256 (0xff :: factory.toList ++ salt.toList ++
    (makeMetamorphicBeaconProxyHash env factory).toList)
  bytesToAddress (hash.toList.drop 12)

/-! ### Sending -/

def pickPrivateKey : Action (PrivateKey × Address) := do
  let (id, now) ← check "calling function: " (← perform .selectKey)
  match ← check "calling function: " (← perform (.updateKey id now)) with
  | none => err ("calling function: sql: Scan error on column index 0, " ++
      "name \"accounts_get_private_key_2\": converting NULL to string is unsupported")
  | some text =>
    let key ← check "hex to ecdsa: " (env.hexToECDSA text)
    return (key, env.keyAddr key)

/-- Send calldata, through the router or not. -/
def send (addrSafetyRouter : Address) (useSafetyRouter : Bool) (chainId : ℕ)
    (privateKey : PrivateKey) (sender dest : Address) (b_ : List UInt8) (eth : Option ℕ)
    (dryrun : Bool) : Action (SignedTx × UInt64) := do
  let eth := eth.getD 0
  let target := if useSafetyRouter then addrSafetyRouter else dest
  let b := if useSafetyRouter then List.replicate 12 0 ++ dest.toList ++ b_ else b_
  let gasLimit ← check ("estimate gas: to: " ++ hexText dest.toList ++ ", from: " ++
    hexText sender.toList ++ ", data " ++ hexText b ++ ", ")
    (← perform (.estimateGas ⟨sender, target, b, eth⟩))
  let gasLimit := gasLimit + env.thirtyPercent gasLimit
  let baseFee ← check "header: " (← perform .headerBaseFee)
  let gasTipCap ← check "gas tip cap: " (← perform .suggestGasTipCap)
  let nonce ← check "nonce: " (← perform (.pendingNonceAt sender))
  let baseTx : Tx :=
    { chainId, nonce, gasFeeCap := gasTipCap + baseFee * 2, gasTipCap, gas := gasLimit
      value := eth, data := b, target }
  let signature ← check "signed: " (env.signTx privateKey baseTx)
  let signed : SignedTx := ⟨baseTx, env.keyAddr privateKey, signature⟩
  if dryrun then
    let _ ← check "dryrun simulate: " (← perform (.callContract ⟨sender, target, b, 0⟩))
  else
    check "send transaction: " (← perform (.sendTransaction signed))
  return (signed, gasLimit)

def sendArguments (addrSafetyRouter : Address) (useSafetyRouter : Bool) (chainId : ℕ)
    (privateKey : PrivateKey) (sender dest : Address) (args : Args Asset) (dryrun : Bool) :
    Action (SignedTx × UInt64) := do
  match args.serialize with
  | none => err "serialising borsh: complex enum too large"
  | some b => send env addrSafetyRouter useSafetyRouter chainId privateKey sender dest b none dryrun

/-! ### Mutations -/

/-- What a mutation returns. -/
inductive Data where
  | created (hash secret : String)
  | text (text : String)
deriving DecidableEq

/-- A request that creates an account. -/
def freshArgs (fresh : FreshBackwards Asset) : Args Asset :=
  { (default : Args Asset) with enum := 0, freshBackwards := fresh }

/-- The part of `CreateAccountExec` after the arguments were built: send them and keep a secret. -/
def executeCreation (eoa : Address) (f : FreshBackwards Asset) (dryrun : Option Bool) :
    Action Data := do
  let (privKey, sender) ← orFatal "error picking private key: " (pickPrivateKey env)
  match ← Proc.attempt (sendArguments env r.safetyRouterAddr false r.chainId privKey sender
      r.accountsFactoryAddr (freshArgs f) (isDryrun dryrun)) with
  | .error (.err text) =>
    if !isIgnorable text then
      activateSoftAlarm r.urlAlarm ("create account exec, user address: " ++ env.addrString eoa ++
        ", sender: " ++ env.addrString sender ++ ", contract: " ++
        env.addrString r.accountsFactoryAddr ++ ", err: " ++ text)
    err ("send arguments: fresh backwards " ++ env.freshString f ++ ": " ++ text)
  | .error fault => .fail fault
  | .ok (signed, gasLimit) =>
    let secret ← perform .randRead
    let secretX := hexEncodeToString secret.toList
    if !isDryrun dryrun then
      match ← perform (.insertSecret (lowerAddr eoa) secretX) with
      | .error _ => err "error inserting secret"
      | .ok () =>
        trackTx (lowerAddr eoa) (hashHex (env.txHash signed)) gasLimit "create account"
    return .created (hashHex (env.txHash signed)) secretX

def createAccountExec (createAccount : Model.CreateAccount) (mint : Option Model.Mint)
    (dryrun : Option Bool) : Action Data := do
  let untagged ← ofResult (wrap "create account: "
    (createAccountToFreshBackwardsGraph r.accPubKey createAccount))
  if !isHexAddress createAccount.eoaAddr then
    err "not eoa address"
  let eoa := hexToAddress createAccount.eoaAddr
  match mint with
  | none => executeCreation env r eoa untagged.val dryrun
  | some mint =>
    let f ← ofResult (wrap "mint tagging: "
      (tagFreshBackwardsWithMintGraph env.sum512 env.progDalek untagged env.usdc mint.market
        mint.outcome mint.amount mint.referrer eoa mint.permit mint.msTs))
    executeCreation env r eoa f dryrun

/-- Half of the order of the curve. -/
def secpMaxS : ℕ :=
  57896044618658097711785492504343953926418782139537452191302581570759080747168

/-- Go's `copy` into 32 bytes of zeros. -/
def copy32 (src : List UInt8) : Bytes 32 :=
  ⟨(src ++ List.replicate 32 0).take 32, length_take_padded src⟩

/-- The bytes a secret is requested with a signature over. -/
def secretPreimage (accPubKey : Bytes 32) (nonce : Int32) : List UInt8 :=
  asciiBytes "\x19Ethereum Signed Message:\n72" ++ hexEncode accPubKey.toList ++
    hexEncode (Bytes.ofNat 4 nonce.toUInt32.toNat).toList

/-- A recoverable signature; Ethereum's values of `v` are brought to those of the curve. -/
def secretSig (rBytes sBytes : List UInt8) (sigV : Int32) : Bytes 65 :=
  let v := UInt8.ofNat sigV.toInt.toNat
  ⟨(copy32 rBytes).toList ++ (copy32 sBytes).toList ++ [if v = 27 ∨ v = 28 then v - 27 else v],
    by simp⟩

/-- The part of `RequestSecret` that looks for the account on the chain. -/
def checkCode (eoa : Address) : Action Unit := do
  if r.featureCheckCode then
    match ← perform (.codeAt (getClientAddr env r.accountsFactoryAddr eoa)) with
    | .error _ => err "acc addr searching error"
    | .ok [] => err "account has no code"
    | .ok _ => pure ()

def requestSecret (eoaAddr : String) (nonce sigV : Int32) (sigR sigS : String)
    (dryrun : Option Bool) : Action Data := do
  if !isHexAddress eoaAddr then
    err "decoding address"
  let eoa := hexToAddress eoaAddr
  let rBytes ← ofResult (wrap "decoding r: " (hexDecodeString sigR))
  let sBytes ← ofResult (wrap "decoding s: " (hexDecodeString sigS))
  if secpMaxS < Borsh.ofLeBytes sBytes.reverse then
    err "s malleable"
  if sigV < 0 ∨ 255 < sigV then
    err "decoding v: too large"
  let expAddr ← check "recover pubkey: " (env.sigToAddr
    (env.keccak256 (secretPreimage r.accPubKey nonce)) (secretSig rBytes sBytes sigV))
  if eoa ≠ expAddr then
    err ("bad derivation: " ++ env.addrString eoa ++ ", expected: " ++ env.addrString expAddr)
  checkCode env r eoa
  let secret ← perform .randRead
  let secretX := hexEncodeToString secret.toList
  if !isDryrun dryrun then
    match ← perform (.insertNonceSecret (lowerAddr eoa) secretX nonce) with
    | .error _ => err "error inserting secret"
    | .ok () => pure ()
  return .text secretX

/-- The comparison of `NinelivesMint` with the minimum. A text that is no number leaves a nil
pointer, which the comparison follows. -/
def checkMinimum (amount : String) : Action Unit := do
  match setString amount with
  | none => panics "runtime error: invalid memory address or nil pointer dereference"
  | some amt =>
    if amt < r.minimumAmount then
      err ("below the minimum amount (" ++ toString amt ++ ")")

def ninelivesMint (ctx : Context) (mint : Model.Mint) (dryrun : Option Bool) : Action Data := do
  if r.featureMintDisabled then
    err "mint disabled"
  checkMinimum r mint.amount
  if !ctx.authed then
    err "not authed in the handler"
  match ctx.eoa with
  | none => err "bad eoa address"
  | some eoa =>
    let clientAddr := getClientAddr env r.accountsFactoryAddr eoa
    let (privKey, sender) ← orFatal "picking private key: " (pickPrivateKey env)
    match createSolveArgsSigArgsMintGraph env.sum512 env.progDalek env.usdc mint.market
        mint.outcome mint.amount mint.referrer eoa mint.permit mint.msTs with
    | .error (.err text) =>
      if !isIgnorable text then
        activateSoftAlarm r.urlAlarm ("mint, market: " ++ mint.market ++ ", outcome: " ++
          mint.outcome ++ ", user address: " ++ env.addrString eoa ++ ", sender: " ++
          env.addrString sender ++ ", err: " ++ text)
      err ("error creating solve args: " ++ text)
    | .error fault => .fail fault
    | .ok f =>
      let solveV2 ← check "error creating solve v2 args: "
        (createSolveV2 env.sum512 env.progDalek (Vec.singleton f.args) eoa eoa)
      match ← Proc.attempt (sendArguments env r.safetyRouterAddr true r.chainId privKey sender
          clientAddr solveV2 (isDryrun dryrun)) with
      | .error (.err text) =>
        if !isIgnorable text then
          activateSoftAlarm r.urlAlarm ("mint send, market: " ++ mint.market ++ ", outcome: " ++
            mint.outcome ++ ", user address: " ++ env.addrString eoa ++ ", sender: " ++
            env.addrString sender ++ ", err: " ++ text)
        err ("last error sending: " ++ text)
      | .error fault => .fail fault
      | .ok (signed, gasLimit) =>
        if !isDryrun dryrun then
          trackTx (env.addrString eoa) (hashHex (env.txHash signed)) gasLimit "mint"
        return .text (hashHex (env.txHash signed))

def claimRewards (ctx : Context) (markets : Pools String) (msTs : String)
    (dryrun : Option Bool) : Action Data := do
  if r.featureClaimDisabled then
    err "claim is disabled"
  if !ctx.authed then
    err "not authed in the handler for claim rewards"
  match ctx.eoa with
  | none => err "bad eoa address"
  | some eoa =>
    let clientAddr := getClientAddr env r.accountsFactoryAddr eoa
    let (privKey, sender) ← orFatal "picking private key: " (pickPrivateKey env)
    let f : SolveArgsSigArgs Asset ← ofResult (wrap "error creating solve args: "
      (createPayoffForOtherArgsGraph env.sum512 env.progDalek r.claimantHelperAddr eoa markets
        msTs))
    let solveV2 ← check "error creating solve v2 args: "
      (createSolveV2 env.sum512 env.progDalek (Vec.singleton f.args) eoa eoa)
    match ← Proc.attempt (sendArguments env r.safetyRouterAddr true r.chainId privKey sender
        clientAddr solveV2 (isDryrun dryrun)) with
    | .error (.err text) =>
      activateSoftAlarm r.urlAlarm ("claim, user address: " ++ env.addrString eoa ++
        ", sender: " ++ env.addrString sender ++ ", contract: " ++
        env.addrString r.accountsFactoryAddr ++ ", err: " ++ text)
      err ("last error sending: " ++ text)
    | .error fault => .fail fault
    | .ok (signed, gasLimit) =>
      if !isDryrun dryrun then
        trackTx (env.addrString eoa) (hashHex (env.txHash signed)) gasLimit "claim rewards"
      return .text (hashHex (env.txHash signed))

inductive Mutation where
  | createAccountExec (createAccount : Model.CreateAccount) (mint : Option Model.Mint)
      (dryrun : Option Bool)
  | requestSecret (eoaAddr : String) (nonce sigV : Int32) (sigR sigS : String)
      (dryrun : Option Bool)
  | ninelivesMint (mint : Model.Mint) (dryrun : Option Bool)
  | claimRewards (markets : Pools String) (msTs : String) (dryrun : Option Bool)

def resolve (ctx : Context) : Mutation → Action Data
  | .createAccountExec createAccount mint dryrun =>
      createAccountExec env r createAccount mint dryrun
  | .requestSecret eoaAddr nonce sigV sigR sigS dryrun =>
    requestSecret env r eoaAddr nonce sigV sigR sigS dryrun
  | .ninelivesMint mint dryrun => ninelivesMint env r ctx mint dryrun
  | .claimRewards markets msTs dryrun => claimRewards env r ctx markets msTs dryrun

/-! ### Requests -/

/-- The mutations of a request run one after another, whatever happens to each. -/
def resolveAll (ctx : Context) : List Mutation → Action (List (Result Data))
  | [] => pure []
  | mutation :: rest => do
    match ← Proc.attempt (resolve env r ctx mutation) with
    | .error (.fatal text) => .fail (.fatal text)
    | outcome =>
      let outcomes ← resolveAll ctx rest
      return outcome :: outcomes

/-- A request, with the mutations of its body. A header is its bytes, read as characters. -/
structure Request where
  method : String
  authorization : String
  mutations : List Mutation

inductive Response where
  | status (code : ℕ)
  | graph (outcomes : List (Result Data))

/-- The GraphQL handler. -/
def serveGraph (ctx : Context) (mutations : List Mutation) : Action Response := do
  perform (.handle ctx)
  return .graph (← resolveAll env r ctx mutations)

/-- The middleware in front of the GraphQL handler. -/
def serveHTTP (request : Request) : Action Response := do
  if request.method = "OPTIONS" then
    return .status 204
  else if request.authorization = "" then
    serveGraph env r .background request.mutations
  else if request.authorization = r.adminSecret then
    serveGraph env r { Context.background with isAdmin := true } request.mutations
  else
    match request.authorization.toList.splitOn ':' with
    | [eoaText, secretText] =>
      let eoaPreferred_ := String.ofList eoaText
      let bearer := String.ofList secretText
      if !isHexAddress eoaPreferred_ then
        return .status 400
      else
        let eoaPreferred := lowerAddr (hexToAddress eoaPreferred_)
        match hexDecodeString bearer with
        | .error _ => return .status 400
        | .ok _ =>
          match ← perform (.countSecrets eoaPreferred (toLower bearer)) with
          | .error text =>
            .fail (.fatal ("error scanning secrets, snowflake: snowflake: " ++ text))
          | .ok 0 => return .status 401
          | .ok _ =>
            serveGraph env r
              { Context.background with authed := true, eoa := some (hexToAddress eoaPreferred) }
              request.mutations
    | _ => return .status 400

end Server

end Go

end SuperpositionAccounts
