import SuperpositionAccounts.Account.Storage
import SuperpositionAccounts.Wire.Canonical

/-!
# The entrypoint of an account

The entry functions of `superposition_libaccounts` and the dispatcher of
`contract/src/main.rs`, as programs over the storage of one account. What the
contract takes from the SDK and cannot be read here is a parameter: the
precompiles, `read_words!`, the recovery of an Ethereum signer, the hash of a
sign-up message, the code of a beacon proxy and how a word is printed.
-/

namespace SuperpositionAccounts

open CallTree

/-- What the contract relies on outside of itself. -/
structure Platform where
  precompiles : Precompiles
  keccak256 : List UInt8 → U
  ecrecoverPost : U → UInt8 → U → U → Option Address
  /-- The four words after the selector of a migration, or the text of an error. -/
  readWords : List UInt8 → Except String (U × U × U × U)
  /-- The creation code of a proxy whose implementation is asked of the given beacon. -/
  makeMetamorphicEvmfnBeaconProxy : Address → List UInt8
  display : U → String
  /-- The text of the error on a request that cannot be read. -/
  deserializeError : List UInt8 → String

/-- The constants a build of the contract fixes. -/
structure Imm where
  network : Network
  clearinghouse : Address

variable {Asset : Type} [AssetRegistry Asset]

/-! ### Solving -/

/-- `asset.addr(network).unwrap()`. -/
def tokenAddr (imm : Imm) (asset : Asset) : Contract Address :=
  Prog.unwrap (.panic "called `Option::unwrap()` on a `None` value")
    (AssetRegistry.addr asset imm.network)

def usePermit (imm : Imm) (self permitOwner : Address) (permit : Permit Asset) :
    Contract Unit := do
  let token ← tokenAddr imm permit.asset
  callOrRevert (.permit token permitOwner self U.max (U.ofUInt64 permit.deadline) permit.v
    permit.r permit.s)

def takeFrom (imm : Imm) (self transferOwner target : Address) (fromArgs : FromArgs Asset) :
    Contract Unit := do
  let token ← tokenAddr imm fromArgs.asset
  callOrRevert (.transferFrom token transferOwner self fromArgs.toTake)
  callOrRevert (.approve token target fromArgs.toTake)

/-- Ask the authority, if one is set, about the code of the target. -/
def checkAuthority (target : Address) : Contract Unit := do
  let authorityAddr ← Prog.sload .authority
  if authorityAddr.isSome then
    let codeHash ← Prog.request (.codeHash target)
    let verdict ← Prog.request (.allowed authorityAddr.addr codeHash.word)
    assert verdict.ok ("not allowed: " ++ hexText codeHash.word.toList)

def callTarget (target : Address) (cd : List UInt8) : Contract Unit := do
  let reply ← Prog.request (.call target cd)
  assert reply.ok ("error calling: " ++ hexText target.toList ++ ", cd: " ++ hexText cd ++
    match reply.data with
    | some data => ", res: " ++ hexText data
    | none => ", no res")

def checkUnspent (platform : Platform) (imm : Imm) (self : Address)
    (fromArgs : FromArgs Asset) : Contract Unit := do
  let token ← tokenAddr imm fromArgs.asset
  let reply ← Prog.request (.balanceOf token self)
  Prog.require reply.ok (.bubble reply.data)
  assert (decide (fromArgs.maxUnspent.toNat ≤ reply.word.toNat))
    ("max unspent exceeds: " ++ platform.display fromArgs.maxUnspent ++ ", " ++
      platform.display reply.word)

/-- One pass of the loop of `entry_solve`. -/
def solveItem (platform : Platform) (imm : Imm) (self permitOwner transferOwner : Address)
    (args : SolveArgs Asset) : Contract Unit := do
  exchange (.timestamps (U.ofBytes args.msTs))
  args.permit.toList.forM (usePermit imm self permitOwner)
  args.fromArgs.toList.forM (takeFrom imm self transferOwner args.target)
  checkAuthority args.target
  callTarget args.target args.cd.toList
  args.fromArgs.toList.forM (checkUnspent platform imm self)

def entrySolve (platform : Platform) (imm : Imm) (self : Address)
    (args : List (SolveArgs Asset)) (permitOwner transferOwner : Address) :
    Contract (List UInt8) := do
  args.forM (solveItem platform imm self permitOwner transferOwner)
  return []

/-- Check a signature over the Borsh bytes of a value. -/
def assertSigned {Signed : Type} [Borsh Signed] (platform : Platform) (value : Signed) (key : U)
    (sig : Sig) : Contract Unit :=
  assert (platform.precompiles.edphverifyPre (Borsh.toVec value) key sig)
    "assertion failed: edphverify_pre(&borsh::to_vec(&args).unwrap(), ed_owner, sig.0)"

def entrySolveV1 (platform : Platform) (imm : Imm) (self : Address)
    (args : List (SolveArgsSigArgs Asset)) : Contract (List UInt8) := do
  let edOwner ← Prog.sload (.ed25519Slot U.zero)
  args.forM fun item => assertSigned platform item.args edOwner item.sig
  let ethOwner ← Prog.sload .ethereumOwner
  entrySolve platform imm self (args.map (·.args)) ethOwner.addr ethOwner.addr

def entrySolveV2 (platform : Platform) (imm : Imm) (self : Address) (args : SolveV2Args Asset)
    (sig : Sig) : Contract (List UInt8) := do
  let edOwner ← Prog.sload (.ed25519Slot U.zero)
  assertSigned platform args edOwner sig
  entrySolve platform imm self args.args.toList args.permitOwner args.transferOwner

def useGasPermit (self ethOwner gasTokenAddr : Address) (gasToken : Asset) :
    Option (Permit Asset) → Contract Unit
  | none => return ()
  | some permit => do
      assert (gasToken = permit.asset) ("gas token " ++ AssetRegistry.display gasToken ++
        " different from " ++ AssetRegistry.display permit.asset)
      callOrRevert (.permit gasTokenAddr ethOwner self U.max (U.ofUInt64 permit.deadline)
        permit.v permit.r permit.s)

def entrySolveV3 (platform : Platform) (imm : Imm) (self : Address) (args : SolveV3Args Asset)
    (sig : Sig) : Contract (List UInt8) := do
  let edOwner ← Prog.sload (.ed25519Slot U.zero)
  assertSigned platform args edOwner sig
  let ethOwner ← Prog.sload .ethereumOwner
  let gasTokenAddr ← tokenAddr imm args.gasToken
  useGasPermit self ethOwner.addr gasTokenAddr args.gasToken args.gasTokenPermit
  callOrRevert (.transferFrom gasTokenAddr ethOwner.addr imm.clearinghouse
    (U.ofUInt64 args.gasTokenAmt))
  Prog.mark (.charged gasTokenAddr ethOwner.addr args.gasTokenAmt)
  entrySolve platform imm self args.args.toList ethOwner.addr ethOwner.addr

/-! ### Transfers and statements -/

def useTransferPermit (self fromAddr token : Address) : Option TransferPermit → Contract Unit
  | none => return ()
  | some permit =>
      callOrRevert (.permit token fromAddr self U.max (U.ofUInt64 permit.deadline) permit.v
        permit.r permit.s)

/-- One pass of the loop of `entry_transfer_only`. -/
def transferItem (imm : Imm) (self : Address) (transfer : Transfer Asset) : Contract Unit := do
  let token ← tokenAddr imm transfer.asset
  useTransferPermit self transfer.fromAddr token transfer.permit
  callOrRevert (.transferFrom token transfer.fromAddr transfer.recipient transfer.amt)

def entryTransferOnly (platform : Platform) (imm : Imm) (self : Address)
    (args : TransferOnlyArgs Asset) (sig : Sig) : Contract (List UInt8) := do
  let edOwner ← Prog.sload (.ed25519Slot U.zero)
  assertSigned platform args edOwner sig
  assert (!args.args.toList.isEmpty) "no arguments"
  exchange (.timestamps (U.ofBytes args.msTs))
  args.args.toList.forM (transferItem imm self)
  return []

def statementSha512 (platform : Platform) (args : StatementArgs) (contractAddr : Address) :
    Bytes 64 :=
  platform.precompiles.sha512 (asciiBytes "Superposition Accounts statement for " ++
    hexEncode contractAddr.toList ++ Borsh.toVec args)

def entryStatement (platform : Platform) (self : Address) (args : StatementArgs) (sig : Sig) :
    Contract (List UInt8) := do
  let edOwner ← Prog.sload (.ed25519Slot U.zero)
  assert (platform.precompiles.edphverifyPost (statementSha512 platform args self) edOwner sig)
    "assertion failed: edphverify_post(hash, storage::ed25519_slot::get(&U::ZERO), sig.0)"
  exchange (.timestamps (U.ofBytes args.msTs))
  return []

/-! ### Migration and creation -/

/-- Migration level 0: set up the owner. Returns whether this is the first migration. -/
def migrateLevelZero (migrationLevel edKey evmOwner : U) : Contract Bool :=
  if migrationLevel = U.zero then do
    assert edKey.isSome "assertion failed: ed_key.is_some()"
    assert evmOwner.isSome "assertion failed: evm_owner.is_some()"
    Prog.sstore (.ed25519Slot U.zero) edKey
    Prog.sstore .ed25519Count U.one
    Prog.sstore .ethereumOwner evmOwner
    return true
  else
    return false

/-- Migration level 1: set up the authority. -/
def migrateLevelOne (migrationLevel implAddr authorityAddr : U) : Contract Unit :=
  if migrationLevel.toNat ≤ U.one.toNat then do
    assert implAddr.isSome "assertion failed: impl_addr.is_some()"
    Prog.sstore .authority authorityAddr
  else
    return ()

def checkMigrator (sender : Address) (isFirstTime : Bool) : Contract Unit :=
  if isFirstTime then
    return ()
  else do
    let owner ← Prog.sload .ethereumOwner
    assert (owner.addr = sender) "bad migrator"

def entryMigrate (sender : Address) (edKey evmOwner implAddr authorityAddr : U) :
    Contract (List UInt8) := do
  assert implAddr.isSome "assertion failed: impl_addr.is_some()"
  let migrationLevel ← Prog.sload .version
  let isFirstTime ← migrateLevelZero migrationLevel edKey evmOwner
  migrateLevelOne migrationLevel implAddr authorityAddr
  -- the sender is checked after the writes, which a revert takes back
  checkMigrator sender isFirstTime
  Prog.sstore .slotImpl implAddr
  Prog.sstore .version U.two
  return []

/-- The digest an Ethereum owner signs to have an account created. -/
def makePreimage (platform : Platform) (pubKey : U) (authority : Address) : U :=
  platform.keccak256 (0x19 :: asciiBytes "Ethereum Signed Message:\n153" ++
    asciiBytes "New Superposition account: " ++ hexEncode pubKey.toList ++
    asciiBytes ", authority contract: " ++ hexEncode authority.toList)

def entryFreshBackwards (platform : Platform) (self : Address) (pubKey : U) (eoaAddr : Address)
    (v : UInt8) (r s : U) (solveArgs : Vec (SolveArgsSigArgs Asset))
    (authority : Option Address) : Contract (List UInt8) := do
  assert pubKey.isSome "assertion failed: pub_key.is_some()"
  assert (eoaAddr ≠ Bytes.ofNat 20 0) "assertion failed: eoa_addr.0 != [0u8; 20]"
  let authority := authority.getD (Bytes.ofNat 20 0)
  let msgDigest := makePreimage platform pubKey authority
  let signer ← Prog.unwrap (.panic "called `Option::unwrap()` on a `None` value")
    (platform.ecrecoverPost msgDigest v r s)
  assert (eoaAddr = signer) "assertion `left == right` failed"
  let implAddr ← Prog.sload .slotImpl
  assert implAddr.isSome "not proxy"
  let created ← Prog.request
    (.create2 (platform.makeMetamorphicEvmfnBeaconProxy self) eoaAddr.toList)
  assert created.ok "called `Option::unwrap()` on a `None` value"
  let proxy := created.word.addr
  let migration ← Prog.request (.call proxy (selMigrate ++ pubKey.toList ++
    (U.ofBytes eoaAddr).toList ++ implAddr.toList ++ (U.ofBytes authority).toList))
  assert migration.ok "bad migration"
  if !solveArgs.toList.isEmpty then
    callOrRevert (.call proxy (Borsh.toVec (Args.solve solveArgs)))
  return (U.ofBytes proxy).toList

/-! ### Dispatch -/

/-- `write_word` of a storage slot. -/
def readSlot (slot : Slot) : Contract (List UInt8) := do
  let word ← Prog.sload slot
  return word.toList

def entry (platform : Platform) (imm : Imm) (self : Address) :
    Args Asset → Contract (List UInt8)
  | .freshBackwards key eoaAddr v r s solveArgs authority =>
      entryFreshBackwards platform self key eoaAddr v r s solveArgs authority
  | .solve args => reentrancyGuard do
      Prog.mark (.started .solve)
      entrySolveV1 platform imm self args.toList
  | .version => readSlot .version
  | .authority => readSlot .authority
  | .solveV2 args sig => reentrancyGuard do
      Prog.mark (.started .solveV2)
      entrySolveV2 platform imm self args sig
  | .transferOnly args sig => reentrancyGuard do
      Prog.mark (.started .transferOnly)
      entryTransferOnly platform imm self args sig
  | .statement args sig => entryStatement platform self args sig
  | .owner => readSlot .ethereumOwner
  | .ed25519Key => readSlot (.ed25519Slot U.zero)
  -- this arm is not guarded
  | .solveV3 args sig => do
      Prog.mark (.started .solveV3)
      entrySolveV3 platform imm self args sig
  | .assetsVersion => panic "not yet implemented"

/-- What calldata asks of the contract. -/
inductive Request (Asset : Type) where
  /-- Empty calldata: the implementation, for beacon proxies. -/
  | beacon
  | migrate (edKey evmOwner implAddr authorityAddr : U)
  | args (args : Args Asset)

/-- How `user_entrypoint` reads calldata. Bytes after a request are ignored. -/
def readRequest (platform : Platform) (calldata : List UInt8) :
    Except String (Request Asset) :=
  if calldata.length = 0 then
    .ok .beacon
  else if 4 < calldata.length ∧ calldata.take 4 = selMigrate then
    match platform.readWords (calldata.drop 4) with
    | .ok (edKey, evmOwner, implAddr, authorityAddr) =>
        .ok (.migrate edKey evmOwner implAddr authorityAddr)
    | .error message => .error message
  else
    match Borsh.deserialize calldata with
    | some (args, _) => .ok (.args args)
    | none => .error ("weird: " ++ hexText calldata ++ ": err: " ++
        platform.deserializeError calldata)

/-- Serve a request that could be read. -/
def serve (platform : Platform) (imm : Imm) (self sender : Address) :
    Request Asset → Contract (List UInt8)
  | .beacon => readSlot .slotImpl
  | .migrate edKey evmOwner implAddr authorityAddr =>
      entryMigrate sender edKey evmOwner implAddr authorityAddr
  | .args args => entry platform imm self args

def userEntrypoint (Asset : Type) [AssetRegistry Asset] (platform : Platform)
    (network : Network) (self : Address) (call : Call) : Contract (List UInt8) :=
  let imm : Imm := ⟨network, Bytes.ofNat 20 0⟩
  match (readRequest platform call.calldata : Except String (Request Asset)) with
  | .ok request => serve platform imm self call.sender request
  | .error message => panic message

/-! ### Accounts on a chain -/

/-- What the caller of an account sees of its outcome. -/
def replyOf : Except Revert (List UInt8) → Reply
  | .ok output =>
      ⟨true, ⟨(output ++ List.replicate 32 0).take 32, length_take_padded output⟩, some output, []⟩
  | .error (.bubble data) => ⟨false, U.zero, data, []⟩
  | .error _ => ⟨false, U.zero, none, []⟩

/-- A chain where every account runs this contract. Which queries call an account, and which are
answered from outside, is left open. -/
def accounts (Asset : Type) [AssetRegistry Asset] (platform : Platform) (network : Network)
    (callee : (Address → Slot → U) → Frame accountSignature → Query → Option (Address × Call)) :
    System accountSignature where
  program := userEntrypoint Asset platform network
  callee := callee
  relay := replyOf
  failed reply := !reply.ok
  static
    | .allowed _ _ => true
    | _ => false
  halt := .halted

end SuperpositionAccounts
