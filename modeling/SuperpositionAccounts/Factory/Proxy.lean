import SuperpositionAccounts.Account.Entry
import SuperpositionAccounts.CallTree.Relocation

/-!
# The factory behind `UpgradeableProxy.sol`

The factory is a proxy in front of the account contract: the constructor in
Solidity writes its storage and the contract in Rust reads it, called by
delegation. Both see 256-bit slots here. The named slots of `storage.rs` get
their positions from the counter of the `storage!` macro and from functions of
the SDK.

What a foreign implementation does, when the admin installs one, is up to the
outside: its answer says what it wrote.
-/

namespace SuperpositionAccounts

open CallTree

/-- What the positions of slots take from the SDK. -/
structure SlotFunctions where
  slotMap : U → U → U
  constSlotOffCurve : List UInt8 → U
  /-- The slot of the lock of `reentrancy_guard_const_keccak` with a key. -/
  lockSlot : List UInt8 → U

/-- The position of a slot of `storage.rs`. -/
def Slot.position (slots : SlotFunctions) : Slot → U
  | .wasCreated => Bytes.ofNat 32 0
  | .ed25519Count => Bytes.ofNat 32 1
  | .ed25519Slot slot => slots.slotMap (Bytes.ofNat 32 2) slot
  | .ethereumOwner => Bytes.ofNat 32 3
  | .timestamps ms => slots.slotMap (Bytes.ofNat 32 4) ms
  | .version => Bytes.ofNat 32 5
  | .authority => Bytes.ofNat 32 6
  | .slotImpl => slots.constSlotOffCurve (asciiBytes "eip1967.proxy.implementation")
  | .reentrancy => slots.lockSlot (asciiBytes "superposition.accounts")

/-- Contracts over 256-bit slots. -/
abbrev flatSignature : Signature :=
  accountSignature.withSlot U

/-- The factory and what surrounds it. -/
structure Deployment where
  factory : Address
  network : Network
  platform : Platform
  slots : SlotFunctions
  /-- Whether the code of an address is the account contract. -/
  runsAccount : Address → Bool
  /-- `abi.decode(msg.data[4:], (address, bytes))`. -/
  decodeUpgrade : List UInt8 → Option (Address × List UInt8)
  /-- The contracts at all other addresses. -/
  others : Address → Call → Prog flatSignature (List UInt8)
  callee : (Address → U → U) → Frame flatSignature → Query → Option (Address × Call)

namespace Deployment

variable (deployment : Deployment)

/-- `bytes32(uint256(keccak256(text)) - 1)`. -/
def offCurve (text : String) : U :=
  Bytes.ofNat 32 ((deployment.platform.keccak256 (asciiBytes text)).toNat - 1)

def slotImpl : U :=
  deployment.offCurve "eip1967.proxy.implementation"

def slotAdmin : U :=
  deployment.offCurve "eip1967.proxy.admin"

/-- The slots the constructor sets, in its order, with their words. -/
def constructed (impl admin : Address) (publicKey : U) : List (U × U) :=
  [(deployment.slotImpl, U.ofBytes impl),
    (deployment.slotAdmin, U.ofBytes admin),
    -- `wasCreated` and `ed25519Count`
    (Bytes.ofNat 32 0, U.one),
    (Bytes.ofNat 32 1, U.one),
    -- `correctEdSlot`
    (deployment.platform.keccak256 ((Bytes.ofNat 32 2).toList ++ (Bytes.ofNat 32 0).toList),
      publicKey),
    -- `ethereumOwner` and `version`
    (Bytes.ofNat 32 3, U.ofBytes admin),
    (Bytes.ofNat 32 5, U.two)]

def constructor (impl admin : Address) (publicKey : U) : Prog flatSignature Unit :=
  (deployment.constructed impl admin publicKey).forM fun entry =>
    Prog.sstore (S := flatSignature) entry.1 entry.2

/-- `msg.sig`. -/
def msgSig (calldata : List UInt8) : List UInt8 :=
  (calldata ++ List.replicate 4 0).take 4

/-- `Upgrade.upgradeToAndCall.selector`. -/
def upgradeToAndCallSelector : List UInt8 :=
  (deployment.platform.keccak256 (asciiBytes "upgradeToAndCall(address,bytes)")).toList.take 4

/-- A delegate call of a foreign implementation. -/
def delegateOutside (implementation : Address) (calldata : List UInt8) :
    Prog flatSignature (List UInt8) := do
  let reply : Reply ← Prog.request (S := flatSignature) (.delegate implementation calldata)
  Prog.require (S := flatSignature) reply.ok (.bubble reply.data)
  reply.writes.forM fun entry => Prog.sstore (S := flatSignature) entry.1 entry.2
  return reply.data.getD []

variable (Asset : Type) [AssetRegistry Asset]

/-- A delegate call, which runs the code of the implementation on the storage of the factory. -/
def delegatecall (implementation sender : Address) (calldata : List UInt8) :
    Prog flatSignature (List UInt8) :=
  if deployment.runsAccount implementation then
    (userEntrypoint Asset deployment.platform deployment.network deployment.factory
      ⟨sender, calldata⟩).relocate (Slot.position deployment.slots)
  else
    delegateOutside implementation calldata

/-- What the admin can do. -/
def upgrade (call : Call) : Prog flatSignature (List UInt8) := do
  Prog.require (S := flatSignature)
    (msgSig call.calldata = deployment.upgradeToAndCallSelector) (.reason "not calling upgrade")
  let (newImpl, data) ← Prog.unwrap (S := flatSignature) (.bubble none)
    (deployment.decodeUpgrade call.calldata)
  Prog.sstore (S := flatSignature) deployment.slotImpl (U.ofBytes newImpl)
  if 0 < data.length then do
    let _ ← (deployment.delegatecall Asset newImpl call.sender data).rethrow
      (.reason "delegatecall failed")
    return []
  else
    return []

def fallback (call : Call) : Prog flatSignature (List UInt8) := do
  let admin : U ← Prog.sload (S := flatSignature) deployment.slotAdmin
  if call.sender = admin.addr then
    deployment.upgrade Asset call
  else do
    let impl : U ← Prog.sload (S := flatSignature) deployment.slotImpl
    deployment.delegatecall Asset impl.addr call.sender call.calldata

/-- The chain the factory is on. -/
def system : System flatSignature where
  program self call :=
    if self = deployment.factory then deployment.fallback Asset call
    else deployment.others self call
  callee := deployment.callee
  relay := replyOf
  failed reply := !reply.ok
  static
    | .allowed _ _ => true
    | _ => false
  halt := .halted

/-- The chain right after the constructor ran on a storage. -/
def deployed (impl admin : Address) (publicKey : U) (store : Address → U → U) :
    World flatSignature :=
  ((deployment.constructor impl admin publicKey).run (deployment.system Asset) []
    ⟨deployment.factory, ⟨admin, []⟩, false⟩ [] (World.start store)).world

end Deployment

end SuperpositionAccounts
