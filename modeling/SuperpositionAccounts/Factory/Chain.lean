import SuperpositionAccounts.CallTree.Embedding
import SuperpositionAccounts.Factory.Proxy
import SuperpositionAccounts.Factory.ProxyCode

/-!
# The factory, its accounts and the code they run

The factory of `UpgradeableProxy.sol` creates beacon proxies with `CREATE2` and
is their beacon. Factory and proxies have no logic of their own: they run the
code of an implementation by delegation, in a frame of their own address. The
account contract is one such code. All of them are one system here, in which they
call each other, and everything else is outside.

Besides the slots of `storage.rs`, whose names are kept apart as in
`Account.Storage`, an address has a cell that says whether it holds code of the
system and the factory has the slot of its admin.
-/

namespace SuperpositionAccounts

open CallTree

namespace Chain

/-- What is stored at an address. -/
inductive Cell where
  | code
  | slotAdmin
  | slot (slot : Slot)
deriving DecidableEq

inductive Message where
  | call (call : Call)
  | create
  /-- The code of an implementation, run by delegation. -/
  | run (implementation : Address) (call : Call)

/-- Who called. A delegate call passes on its own caller. -/
def Message.sender : Message → Address
  | .call sent => sent.sender
  | .create => Bytes.ofNat 20 0
  | .run _ sent => sent.sender

inductive Ask where
  | account (query : Query)
  /-- The static call of the factory with empty calldata. -/
  | beacon

end Chain

abbrev chainSignature : Signature :=
  accountSignature.over Chain.Cell Chain.Message Chain.Ask

/-- Code that is not in this repository. It may do anything with the storage it runs on. -/
structure Foreign where
  program : Address → Call → Prog chainSignature (List UInt8)
  keepsCode : ∀ self call, (program self call).Within
    (fun cell : Chain.Cell => cell ≠ .code) fun _ => True

/-- What runs when an address is called by delegation. -/
inductive Code where
  | account
  /-- There is no code: the call succeeds and does nothing. -/
  | empty
  | foreign (code : Foreign)

def Code.isAccount : Code → Bool
  | .account => true
  | _ => false

structure Chain where
  factory : Address
  network : Network
  platform : Platform
  /-- `abi.decode(msg.data[4:], (address, bytes))`. -/
  decodeUpgrade : List UInt8 → Option (Address × List UInt8)
  code : Address → Code
  /-- The contract of the system that a query other than a call or a creation reaches. -/
  route : (Address → Chain.Cell → U) → Frame chainSignature → Query → Option (Address × Call)

/-- The address of a contract made by `CREATE2`, where the salt is hashed first. -/
def create2Address (keccak256 : List UInt8 → U) (creator : Address) (init salt : List UInt8) :
    Address :=
  (keccak256 (0xff :: creator.toList ++ (keccak256 salt).toList ++ (keccak256 init).toList)).addr

/-- The revert data of Solidity's `revert` with a reason. -/
def errorString (message : String) : List UInt8 :=
  let text := asciiBytes message
  [0x08, 0xc3, 0x79, 0xa0] ++ (Bytes.ofNat 32 32).toList ++ (Bytes.ofNat 32 text.length).toList ++
    text ++ List.replicate ((32 - text.length % 32) % 32) 0

namespace Chain

variable (chain : Chain)

/-- The creation code of an account. -/
def initCode : List UInt8 :=
  chain.platform.makeMetamorphicEvmfnBeaconProxy chain.factory

/-- Where the account of an owner is. -/
def accountOf (eoaAddr : Address) : Address :=
  create2Address chain.platform.keccak256 chain.factory chain.initCode eoaAddr.toList

/-! ### The programs -/

/-- `CREATE2` fails on an address that has code. -/
def createAccount (self : Address) : Prog chainSignature (List UInt8) := do
  let code : U ← Prog.sload (S := chainSignature) .code
  Prog.require (S := chainSignature) (code = U.zero) (.bubble none)
  Prog.sstore (S := chainSignature) .code U.one
  return (U.ofBytes self).toList

/-- Run another code on the whole calldata and pass on its answer. -/
def delegateTo (implementation : Address) (calldata : List UInt8) :
    Prog chainSignature (List UInt8) := do
  let reply : Reply ← Prog.request (S := chainSignature)
    (.account (.delegate implementation calldata))
  Prog.require (S := chainSignature) reply.ok (.bubble reply.data)
  return reply.data.getD []

/-- The address in the first word of an answer, filled up with zeros. -/
def namedBy (answer : Reply) : Address :=
  U.addr ⟨Evm.slice (answer.data.getD []) 0 32, by simp⟩

/-- The code of an account, see `Metamorphic.proxy`. Whether the beacon's answer is that of a call
that succeeded is not checked. -/
def proxy (calldata : List UInt8) : Prog chainSignature (List UInt8) :=
  if Evm.slice calldata 0 4 = selMigrate then do
    let answer : Reply ← Prog.request (S := chainSignature) .beacon
    delegateTo (namedBy answer) calldata
  else do
    let implementation : U ← Prog.sload (S := chainSignature) (.slot .slotImpl)
    delegateTo implementation.addr calldata

/-- The queries of the code of an account and of its program that are the same. -/
inductive SameQuery (factory : Address) (calldata : Evm.Payload) : Evm.Query → Ask → Prop where
  | beacon : SameQuery factory calldata (.staticcall factory .empty) .beacon
  | delegate (implementation : Address) : SameQuery factory calldata
      (.delegatecall implementation calldata)
      (.account (.delegate implementation calldata.bytes))

/-- The same answers to the same queries. -/
structure SameAnswers (factory : Address) (calldata : Evm.Payload) (answer : Ask → Reply)
    (evmAnswer : Evm.Query → Evm.Reply) : Prop where
  ok : ∀ {query ask}, SameQuery factory calldata query ask → (evmAnswer query).ok = (answer ask).ok
  data : ∀ {query ask}, SameQuery factory calldata query ask →
    (evmAnswer query).data.bytes = (answer ask).data.getD []

theorem namedBy_eq {answer : Reply} {evmAnswer : Evm.Reply}
    (same : evmAnswer.data.bytes = answer.data.getD []) :
    (Evm.Word.ofBytes (Evm.slice evmAnswer.data.bytes 0 32)).address = namedBy answer := by
  apply List.Vector.eq
  change (Evm.Word.ofBytes (Evm.slice evmAnswer.data.bytes 0 32)).toBytes.drop 12 =
    (Evm.slice (answer.data.getD []) 0 32).drop 12
  rw [same, Evm.Word.toBytes_ofBytes (by simp)]
  simp

section Follows

variable {factory : Address} {calldata : Evm.Payload} {answer : Ask → Reply}
  {evmAnswer : Evm.Query → Evm.Reply} {own : Cell → U} {evmOwn : Evm.Word → Evm.Word}

variable (factory calldata) in
/-- Code and program ask the same and end in the same way. -/
def SameRun (code : List Evm.Query × Except Evm.Failure Evm.Payload)
    (program : List Ask × Except Revert (List UInt8)) : Prop :=
  List.Forall₂ (SameQuery factory calldata) code.1 program.1 ∧
    (∀ payload, code.2 = .ok payload → program.2 = .ok payload.bytes) ∧
    ∀ failure, code.2 = .error failure → ∃ err, program.2 = .error err

theorem answered_delegateTo (implementation : Address) (cd : List UInt8) :
    let reply := answer (.account (.delegate implementation cd))
    (delegateTo implementation cd).answered answer own =
      ([.account (.delegate implementation cd)],
        if reply.ok then .ok (reply.data.getD []) else .error (.bubble reply.data)) := by
  intro reply
  have checked : (Prog.require (S := chainSignature) reply.ok (.bubble reply.data) >>= fun _ =>
      pure (reply.data.getD [])).answered answer own =
        ([], if reply.ok then .ok (reply.data.getD []) else .error (.bubble reply.data)) := by
    rw [Prog.require_bind]
    cases reply.ok with
    | true => rfl
    | false => rfl
  rw [delegateTo, Prog.request_bind]
  change (_ :: (Prog.answered (S := chainSignature) answer _ own).1,
    (Prog.answered (S := chainSignature) answer _ own).2) = _
  rw [checked]

variable (own evmOwn) in
theorem delegateTo_follows_code (same : SameAnswers factory calldata answer evmAnswer)
    {implementation : Evm.Word} {target : Address} (named : implementation.address = target) :
    SameRun factory calldata
      ((Metamorphic.delegate calldata implementation).answered evmAnswer evmOwn)
      ((delegateTo target calldata.bytes).answered answer own) := by
  subst named
  have sameOk := same.ok (.delegate implementation.address)
  have sameData := same.data (.delegate implementation.address)
  simp only [SameRun, Metamorphic.delegate, Prog.answered, Evm.Reply.answered_relay,
    Evm.Reply.outcome, answered_delegateTo, sameOk]
  refine ⟨.cons (.delegate _) .nil, ?_, ?_⟩
  · intro payload returned
    split at returned
    · rename_i accepted
      cases returned
      rw [if_pos accepted, sameData]
    · cases returned
  · intro failure reverted
    split at reverted
    · cases reverted
    · rename_i refused
      rw [if_neg refused]
      exact ⟨_, rfl⟩

/-- The program of an account does what its code does. -/
theorem proxy_follows_code (host : Evm.Host) (self : Address)
    (contract : host.precompile factory = none) (message : Evm.Message) (steps : ℕ)
    (sameSlot : (evmOwn (Evm.Word.ofBytes Metamorphic.slotImpl.toList)).address =
      (own (.slot .slotImpl)).addr)
    (same : SameAnswers factory message.calldata answer evmAnswer) :
    SameRun factory message.calldata
      ((Evm.run host (steps + 44) (Metamorphic.runtimeCode factory) self message).answered
        evmAnswer evmOwn)
      ((proxy message.calldata.bytes).answered answer own) := by
  rw [Metamorphic.run_runtimeCode host factory self message steps contract, Metamorphic.proxy,
    proxy]
  split
  · have named := namedBy_eq (same.data .beacon)
    have follows := delegateTo_follows_code own evmOwn same named
    exact ⟨.cons .beacon follows.1, follows.2⟩
  · exact delegateTo_follows_code own evmOwn same sameSlot

end Follows

/-- `Upgrade.upgradeToAndCall.selector`. -/
def upgradeToAndCallSelector : List UInt8 :=
  (chain.platform.keccak256 (asciiBytes "upgradeToAndCall(address,bytes)")).toList.take 4

/-- What the admin of the factory can do. -/
def upgrade (call : Call) : Prog chainSignature (List UInt8) := do
  Prog.require (S := chainSignature)
    (Deployment.msgSig call.calldata = chain.upgradeToAndCallSelector)
    (.reason "not calling upgrade")
  let (newImpl, data) ← Prog.unwrap (S := chainSignature) (.bubble none)
    (chain.decodeUpgrade call.calldata)
  Prog.sstore (S := chainSignature) (.slot .slotImpl) (U.ofBytes newImpl)
  if 0 < data.length then do
    let reply : Reply ← Prog.request (S := chainSignature) (.account (.delegate newImpl data))
    Prog.require (S := chainSignature) reply.ok (.reason "delegatecall failed")
    return []
  else
    return []

/-- The factory. -/
def fallback (call : Call) : Prog chainSignature (List UInt8) := do
  let admin : U ← Prog.sload (S := chainSignature) .slotAdmin
  if call.sender = admin.addr then
    chain.upgrade call
  else do
    let impl : U ← Prog.sload (S := chainSignature) (.slot .slotImpl)
    delegateTo impl.addr call.calldata

/-- A call of an address of the system. Without code it does nothing. -/
def answerCall (self : Address) (call : Call) : Prog chainSignature (List UInt8) :=
  if self = chain.factory then
    chain.fallback call
  else do
    let code : U ← Prog.sload (S := chainSignature) .code
    if code = U.zero then
      return []
    else
      proxy call.calldata

variable (Asset : Type) [AssetRegistry Asset]

/-- The code of an implementation, run for an address. -/
def runCode (implementation self : Address) (call : Call) : Prog chainSignature (List UInt8) :=
  match chain.code implementation with
  | .account => (userEntrypoint Asset chain.platform chain.network self call).embed
      Message Cell.slot Ask.account
  | .empty => return []
  | .foreign code => code.program self call

/-! ### The system -/

/-- Which frame a query opens. -/
def callee (store : Address → Cell → U) (frame : Frame chainSignature) :
    Ask → Option (Address × Message)
  | .beacon => some (chain.factory, .call ⟨frame.self, []⟩)
  | .account (.delegate implementation cd) =>
      some (frame.self, .run implementation ⟨frame.msg.sender, cd⟩)
  | .account (.create2 init salt) =>
      if frame.self = chain.factory ∧ init = chain.initCode then
        some (create2Address chain.platform.keccak256 chain.factory init salt, .create)
      else
        none
  | .account (.call target cd) =>
      if store target .code ≠ U.zero then some (target, .call ⟨frame.self, cd⟩) else none
  | .account query => (chain.route store frame query).map fun (target, call) =>
      (target, .call call)

/-- What a caller sees of the outcome of a frame. -/
def relay : Except Revert (List UInt8) → Reply
  | .error (.reason message) => ⟨false, U.zero, some (errorString message), []⟩
  | outcome => replyOf outcome

def system : System chainSignature where
  program self
    | .call call => chain.answerCall self call
    | .create => createAccount self
    | .run implementation call => chain.runCode Asset implementation self call
  callee := chain.callee
  relay := relay
  failed reply := !reply.ok
  static
    | .beacon => true
    | .account (.allowed _ _) => true
    | _ => false
  halt := .halted

end Chain

end SuperpositionAccounts
