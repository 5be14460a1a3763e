import SuperpositionAccounts.Account.Effects
import SuperpositionAccounts.Evm.Machine

/-!
# The code of an account's proxy

Accounts are metamorphic beacon proxies: a `migrate` call runs the
implementation that the factory names, every other call the one that the account
itself has stored. The code is raw bytes, which `makeMetamorphicBeaconProxyHash`
spells out with the factory in the middle.

The proxy tests the first four bytes of the calldata, filled up with zeros; the
implementation tests for a selector and at least one more byte. The two agree on
what is a migration.
-/

namespace SuperpositionAccounts.Metamorphic

open CallTree Evm

/-! ### The bytes -/

def hexBeforeFactory : Bytes 35 :=
  Bytes.ofNat 35 0x60738060093d393df35f3560e01c638fd3ab801461001357610036565b60205f5f5f73

def hexAfterFactory : Bytes 69 :=
  Bytes.ofNat 69 0x5afa5f51610059565b7f360894a13ba1a3210667c828492db98dca3e2076cc3735a920a3ca505d382bbc545b365f5f375f365f5f935af43d5f5f3e3d5f8261007157fd5bf3

/-- The bytes that `makeMetamorphicBeaconProxyHash` hashes. -/
def initCode (factory : Address) : List UInt8 :=
  hexBeforeFactory.toList ++ factory.toList ++ hexAfterFactory.toList

/-- `keccak256("eip1967.proxy.implementation") - 1`. -/
def slotImpl : U :=
  Bytes.ofNat 32 0x360894a13ba1a3210667c828492db98dca3e2076cc3735a920a3ca505d382bbc

/-- The constructor, which returns the rest of the code. -/
def deploy : List Op :=
  [.pushNat 1 0x73, .dup 0, .pushNat 1 0x09, .returndataSize, .codeCopy, .returndataSize, .ret]

def selector : List Op :=
  [.pushNat 0 0, .calldataLoad, .pushNat 1 0xe0, .shr, .pushNat 4 0x8fd3ab80, .eq,
    .pushNat 2 0x13, .jumpi, .pushNat 2 0x36, .jump]

/-- Ask the factory, with empty calldata. -/
def askFactory (factory : Address) : List Op :=
  [.jumpdest, .pushNat 1 0x20, .pushNat 0 0, .pushNat 0 0, .pushNat 0 0, .push 20 factory, .gas,
    .staticcall, .pushNat 0 0, .mload, .pushNat 2 0x59, .jump]

def readSlotImpl : List Op :=
  [.jumpdest, .push 32 slotImpl, .sload]

def delegateAll : List Op :=
  [.jumpdest, .calldataSize, .pushNat 0 0, .pushNat 0 0, .calldataCopy, .pushNat 0 0,
    .calldataSize, .pushNat 0 0, .pushNat 0 0, .swap 3, .gas, .delegatecall]

def main (factory : Address) : List Op :=
  selector ++ askFactory factory ++ readSlotImpl ++ delegateAll ++ relayTail 0x71

/-- The code at the address of an account. -/
def runtimeCode (factory : Address) : List UInt8 :=
  assemble (main factory)

theorem initCode_eq (factory : Address) :
    initCode factory = assemble deploy ++ runtimeCode factory := by
  have first : hexBeforeFactory.toList = assemble deploy ++ (assemble selector ++
      [0x5b, 0x60, 0x20, 0x5f, 0x5f, 0x5f, 0x73]) := by decide +kernel
  have second : hexAfterFactory.toList = [0x5a, 0xfa, 0x5f, 0x51, 0x61, 0x00, 0x59, 0x56] ++
      assemble (readSlotImpl ++ delegateAll ++ relayTail 0x71) := by decide +kernel
  have asking : assemble (askFactory factory) = [0x5b, 0x60, 0x20, 0x5f, 0x5f, 0x5f, 0x73] ++
      (factory.toList ++ [0x5a, 0xfa, 0x5f, 0x51, 0x61, 0x00, 0x59, 0x56]) := by
    simp [assemble, askFactory, Op.encode, Op.pushNat]
    decide +kernel
  rw [initCode, first, second, runtimeCode, main]
  simp only [assemble, List.flatMap_append] at asking ⊢
  rw [asking]
  simp only [List.append_assoc]

theorem length_runtimeCode (factory : Address) : (runtimeCode factory).length = 115 := by
  have lengths := congrArg List.length (initCode_eq factory)
  have deployLength : (assemble deploy).length = 9 := by decide
  simp only [initCode, List.length_append, List.Vector.toList_length, deployLength] at lengths
  omega

/-! ### What the code does -/

/-- Run the code of another contract on the whole calldata and pass on its answer. -/
def delegate (calldata : Payload) (implementation : Word) : Prog signature Payload :=
  .ask (.delegatecall implementation.address calldata) Evm.Reply.relay

/-- The proxy as a program. -/
def proxy (factory : Address) (calldata : Payload) : Prog signature Payload :=
  if slice calldata.bytes 0 4 = selMigrate then
    .ask (.staticcall factory Payload.empty) fun answer =>
      delegate calldata (Word.ofBytes (slice answer.data.bytes 0 32))
  else
    .load (Word.ofBytes slotImpl.toList) (delegate calldata)

/-- The selector that the code compares is the first four bytes, filled up with zeros. -/
theorem selector_eq_iff (calldata : List UInt8) :
    (0x8fd3ab80 : Word) = Word.ofBytes (slice calldata 0 0x20) >>> 0xe0 ↔
      slice calldata 0 4 = selMigrate := by
  have shifted : Word.ofBytes (slice calldata 0 4 ++ slice calldata 4 28) >>>
      (8 * (slice calldata 4 28).length) = Word.ofBytes (slice calldata 0 4) :=
    Word.ofBytes_append_shiftRight (by simp)
  have literal : (0x8fd3ab80 : Word) = Word.ofBytes selMigrate := by decide
  rw [length_slice] at shifted
  rw [slice_add calldata 0 4 28, shifted, literal, eq_comm,
    Word.ofBytes_inj (by simp [selMigrate]) (by simp)]

/-! ### The code, executed -/

section Execution

variable {host : Host} {factory self : Address} {message : Message} {steps : ℕ}
  {memory : Memory} {returned : Payload}

variable (host factory self message) in
/-- The rest of a run of the code. -/
abbrev resume (steps : ℕ) (machine : Machine) : Prog signature Payload :=
  exec host ⟨runtimeCode factory, self, message⟩ (main factory) steps machine

/-- The two paths meet here with stacks of different heights. -/
theorem resume_delegate (implementation : Word) {rest : List Word}
    (shape : rest = [] ∨ ∃ flag, rest = [flag]) :
    resume host factory self message (steps + 24)
        ⟨0x59, implementation :: rest, memory, returned⟩ =
      delegate message.calldata implementation := by
  let size := BitVec.ofNat 256 message.calldata.bytes.length
  have short := message.calldata.short
  have sized : size.toNat = message.calldata.bytes.length := by
    simp only [size, BitVec.toNat_ofNat]
    omega
  have affordable : Affordable (0 : Word).toNat size.toNat := by
    rw [sized]
    exact Or.inr (by simp; omega)
  have copied : slice message.calldata.bytes (0 : Word).toNat size.toNat =
      message.calldata.bytes := by
    rw [sized]
    exact slice_zero_length message.calldata.bytes
  have shallow : rest.length < 1000 := by
    rcases shape with rfl | ⟨flag, rfl⟩ <;> simp
  have tail : instructionsAt (main factory) 0x65 = relayTail 0x71 ++ [] := rfl
  calc resume host factory self message (steps + 24)
        ⟨0x59, implementation :: rest, memory, returned⟩
    _ = resume host factory self message (steps + 20)
        ⟨0x5d, 0 :: 0 :: size :: implementation :: rest, memory, returned⟩ := by
      rcases shape with rfl | ⟨flag, rfl⟩
      · exact exec_block 4 (Nat.le_of_ble_eq_true rfl) rfl
      · exact exec_block 4 (Nat.le_of_ble_eq_true rfl) rfl
    _ = resume host factory self message (steps + 19)
        ⟨0x5e, implementation :: rest,
          memory.write 0 (slice message.calldata.bytes (0 : Word).toNat size.toNat), returned⟩ :=
      exec_of_step rfl (step_calldataCopy rfl (by simp; omega) affordable)
    _ = resume host factory self message (steps + 19)
        ⟨0x5e, implementation :: rest, memory.write 0 message.calldata.bytes, returned⟩ := by
      rw [copied]
    _ = resume host factory self message (steps + 13)
        ⟨0x64, host.gasLeft 0x63 :: implementation :: 0 :: size :: 0 :: 0 :: rest,
          memory.write 0 message.calldata.bytes, returned⟩ := by
      rcases shape with rfl | ⟨flag, rfl⟩
      · exact exec_block 6 (Nat.le_of_ble_eq_true rfl) rfl
      · exact exec_block 6 (Nat.le_of_ble_eq_true rfl) rfl
    _ = Prog.ask (S := signature) (.delegatecall implementation.address message.calldata)
        (fun reply => resume host factory self message (steps + 12)
          ⟨0x65, (if reply.ok then 1 else 0) :: rest, memory.write 0 message.calldata.bytes,
            reply.data⟩) :=
      exec_delegatecall rfl rfl (load_written memory message.calldata)
    _ = delegate message.calldata implementation :=
      congrArg _ (funext fun reply => exec_relay tail rfl shallow reply)

/-- After the factory has answered. -/
theorem resume_answer (answer : Evm.Reply) :
    resume host factory self message (steps + 28)
        ⟨0x30, [if answer.ok then 1 else 0], Memory.empty.write 0 (answer.data.bytes.take 32),
          answer.data⟩ =
      delegate message.calldata (Word.ofBytes (slice answer.data.bytes 0 32)) := by
  calc resume host factory self message (steps + 28)
        ⟨0x30, [if answer.ok then 1 else 0], Memory.empty.write 0 (answer.data.bytes.take 32),
          answer.data⟩
    _ = resume host factory self message (steps + 25)
        ⟨0x35, [0x59, Word.ofBytes ((Memory.empty.write 0
          (answer.data.bytes.take 32)).read 0 32), if answer.ok then 1 else 0],
          Memory.empty.write 0 (answer.data.bytes.take 32), answer.data⟩ :=
      exec_block 3 (Nat.le_of_ble_eq_true rfl) rfl
    _ = resume host factory self message (steps + 24)
        ⟨0x59, [Word.ofBytes ((Memory.empty.write 0 (answer.data.bytes.take 32)).read 0 32),
          if answer.ok then 1 else 0], Memory.empty.write 0 (answer.data.bytes.take 32),
          answer.data⟩ :=
      exec_jump 0x59 rfl rfl rfl rfl
    _ = _ := by
      rw [Memory.read_write_empty, slice_take]
      exact resume_delegate _ (Or.inr ⟨_, rfl⟩)

/-- The path of a migration. -/
theorem resume_askFactory (contract : host.precompile factory = none) :
    resume host factory self message (steps + 36)
        ⟨0x13, [], Memory.empty, Payload.empty⟩ =
      .ask (.staticcall factory Payload.empty) fun answer =>
        delegate message.calldata (Word.ofBytes (slice answer.data.bytes 0 32)) := by
  have loaded : Memory.empty.load 0 0 = some Payload.empty := load_eq (by decide) rfl
  have affordable : Affordable (0 : Word).toNat (0x20 : Word).toNat := by decide
  have notPrecompiled : host.precompile (Word.ofBytes factory.toList).address = none := by
    rw [Word.address_ofBytes]
    exact contract
  calc resume host factory self message (steps + 36)
        ⟨0x13, [], Memory.empty, Payload.empty⟩
    _ = resume host factory self message (steps + 29)
        ⟨0x2f, [host.gasLeft 0x2e, Word.ofBytes factory.toList, 0, 0, 0, 0x20], Memory.empty,
          Payload.empty⟩ :=
      exec_block 7 (Nat.le_of_ble_eq_true rfl) rfl
    _ = Prog.ask (S := signature) (.staticcall (Word.ofBytes factory.toList).address
          Payload.empty)
        (fun answer => resume host factory self message (steps + 28)
          ⟨0x30, [if answer.ok then 1 else 0],
            Memory.empty.write 0 (answer.data.bytes.take 32), answer.data⟩) :=
      exec_staticcall rfl rfl loaded affordable notPrecompiled
    _ = Prog.ask (S := signature) (.staticcall factory Payload.empty)
        (fun answer => delegate message.calldata
          (Word.ofBytes (slice answer.data.bytes 0 32))) := by
      rw [Word.address_ofBytes]
      exact congrArg _ (funext fun answer => resume_answer answer)

/-- The start of the code. -/
theorem resume_start (contract : host.precompile factory = none) :
    resume host factory self message (steps + 44) Machine.start =
      proxy factory message.calldata := by
  have compared : resume host factory self message (steps + 44) Machine.start =
      resume host factory self message (steps + 37)
        ⟨0xe, [0x13, if (0x8fd3ab80 : Word) =
          Word.ofBytes (slice message.calldata.bytes 0 0x20) >>> 0xe0 then 1 else 0],
          Memory.empty, Payload.empty⟩ :=
    exec_block 7 (Nat.le_of_ble_eq_true rfl) rfl
  rw [compared, proxy]
  by_cases migrates : slice message.calldata.bytes 0 4 = selMigrate
  · have nonzero : (1 : Word) ≠ 0 := by decide
    rw [if_pos ((selector_eq_iff _).mpr migrates), if_pos migrates]
    calc resume host factory self message (steps + 37)
          ⟨0xe, [0x13, 1], Memory.empty, Payload.empty⟩
      _ = resume host factory self message (steps + 36)
          ⟨0x13, [], Memory.empty, Payload.empty⟩ :=
        exec_jumpi_taken 0x13 rfl rfl nonzero rfl rfl
      _ = _ := resume_askFactory contract
  · rw [if_neg (mt (selector_eq_iff _).mp migrates), if_neg migrates]
    calc resume host factory self message (steps + 37)
          ⟨0xe, [0x13, 0], Memory.empty, Payload.empty⟩
      _ = resume host factory self message (steps + 36)
          ⟨0xf, [], Memory.empty, Payload.empty⟩ :=
        exec_jumpi_passed rfl rfl rfl
      _ = resume host factory self message (steps + 35)
          ⟨0x12, [0x36], Memory.empty, Payload.empty⟩ :=
        exec_block 1 (Nat.le_of_ble_eq_true rfl) rfl
      _ = resume host factory self message (steps + 34)
          ⟨0x36, [], Memory.empty, Payload.empty⟩ :=
        exec_jump 0x36 rfl rfl rfl rfl
      _ = resume host factory self message (steps + 32)
          ⟨0x58, [Word.ofBytes slotImpl.toList], Memory.empty, Payload.empty⟩ :=
        exec_block 2 (Nat.le_of_ble_eq_true rfl) rfl
      _ = .load (Word.ofBytes slotImpl.toList) fun implementation =>
          resume host factory self message (steps + 31)
            ⟨0x59, [implementation], Memory.empty, Payload.empty⟩ :=
        exec_sload rfl rfl
      _ = _ := congrArg _ (funext fun implementation =>
        resume_delegate implementation (Or.inl rfl))

end Execution

/-- The code of the proxy does what `proxy` says. -/
theorem run_runtimeCode (host : Host) (factory self : Address) (message : Message) (steps : ℕ)
    (contract : host.precompile factory = none) :
    run host (steps + 44) (runtimeCode factory) self message = proxy factory message.calldata := by
  have read : disassemble (runtimeCode factory) = main factory := disassemble_assemble _
  rw [run, read]
  exact resume_start contract

/-! ### The constructor -/

def deployedCode (factory : Address) : Payload :=
  ⟨runtimeCode factory, by
    rw [length_runtimeCode]
    omega⟩

/-- The bytes that are hashed leave the code of the proxy. -/
theorem run_initCode (host : Host) (factory self : Address) (message : Message) (steps : ℕ) :
    run host (steps + 7) (initCode factory) self message = .ret (deployedCode factory) := by
  have read : disassemble (initCode factory) = deploy ++ main factory := by
    rw [initCode_eq, runtimeCode, assemble, assemble, ← List.flatMap_append]
    exact disassemble_assemble _
  have copied : slice (initCode factory) 9 0x73 = runtimeCode factory := by
    have whole := slice_to_end (initCode factory) 9
    rw [initCode_eq, List.length_append, length_runtimeCode] at whole
    rw [initCode_eq]
    exact whole
  have loaded : (Memory.empty.write 0 (slice (initCode factory) 9 0x73)).load 0 0x73 =
      some (deployedCode factory) := by
    apply load_eq (by decide)
    rw [copied]
    exact Memory.read_write_self _ _ (length_runtimeCode factory)
  rw [run, read]
  calc exec host ⟨initCode factory, self, message⟩ (deploy ++ main factory) (steps + 7)
        Machine.start
    _ = exec host ⟨initCode factory, self, message⟩ (deploy ++ main factory) (steps + 1)
        ⟨0x8, [0, 0x73], Memory.empty.write 0 (slice (initCode factory) 9 0x73),
          Payload.empty⟩ :=
      exec_block 6 (Nat.le_of_ble_eq_true rfl) rfl
    _ = .ret (deployedCode factory) := exec_ret rfl rfl loaded

/-! ### Agreement with the implementation -/

/-- What the implementation reads as a migration, the proxy runs as one. -/
theorem migrates_of_readRequest {Asset : Type} [AssetRegistry Asset] {platform : Platform}
    {calldata : List UInt8} {edKey evmOwner implAddr authorityAddr : U}
    (read : (readRequest platform calldata : Except String (Request Asset)) =
      .ok (.migrate edKey evmOwner implAddr authorityAddr)) :
    slice calldata 0 4 = selMigrate := by
  unfold readRequest at read
  split at read
  · cases read
  · split at read
    · rename_i migrates
      rw [slice_eq_take_drop (by omega)]
      exact migrates.2
    · split at read <;> cases read

/-- No request starts with the selector, even if it is shorter than one. -/
theorem not_migrates_of_args {Asset : Type} [AssetRegistry Asset] (args : Args Asset)
    (rest : List UInt8) : slice (Borsh.toVec args ++ rest) 0 4 ≠ selMigrate := by
  intro starts
  have first : (slice (Borsh.toVec args ++ rest) 0 4).head? = some args.tag := rfl
  rw [starts] at first
  have tag : args.tag = 0x8f := (Option.some.inj first).symm
  have bound := args.tag_le
  rw [tag] at bound
  exact absurd bound (by decide)

/-- The proxy makes one delegate call, with its whole calldata, and passes on the answer. A
migration goes to the implementation that the factory names and everything else to the one in the
account's storage; in particular every request that `user_entrypoint` serves by `entry_migrate`
goes to the former, and every Borsh-encoded request to the latter. -/
theorem proxy_dispatches (host : Host) (factory self : Address)
    (contract : host.precompile factory = none) (message : Message) (steps : ℕ)
    (own : Word → Word) (answer : Evm.Query → Evm.Reply) (implementation : Word)
    (answers : answer (.staticcall factory Payload.empty) =
      ⟨true, implementation.toBytes, by simp⟩) :
    let code := (initCode factory).drop 9
    let migrates := slice message.calldata.bytes 0 4 = selMigrate
    let target := if migrates then implementation else own (Word.ofBytes slotImpl.toList)
    code.length = 115 ∧
    (run host (steps + 44) code self message).answered answer own =
      ((if migrates then [.staticcall factory Payload.empty] else []) ++
          [.delegatecall target.address message.calldata],
        (answer (.delegatecall target.address message.calldata)).outcome) ∧
    ∀ (Asset : Type) [AssetRegistry Asset],
      (∀ platform edKey evmOwner implAddr authorityAddr,
        (readRequest platform message.calldata.bytes : Except String (Request Asset)) =
          .ok (.migrate edKey evmOwner implAddr authorityAddr) → target = implementation) ∧
      ∀ (args : Args Asset) (rest : List UInt8),
        message.calldata.bytes = Borsh.toVec args ++ rest →
          target = own (Word.ofBytes slotImpl.toList) := by
  intro code migrates target
  have isRuntime : code = runtimeCode factory := by
    have deployLength : (assemble deploy).length = 9 := by decide
    simp only [code, initCode_eq]
    exact List.drop_left' deployLength
  refine ⟨?_, ?_, ?_⟩
  · rw [isRuntime, length_runtimeCode]
  · rw [isRuntime, run_runtimeCode host factory self message steps contract, proxy]
    by_cases isMigration : migrates
    · have named : target = implementation := if_pos isMigration
      rw [if_pos isMigration, if_pos isMigration, named]
      simp only [Prog.answered, delegate, answers, Word.slice_toBytes, Word.ofBytes_toBytes,
        Evm.Reply.answered_relay]
      rfl
    · have named : target = own (Word.ofBytes slotImpl.toList) := if_neg isMigration
      rw [if_neg isMigration, if_neg isMigration, named]
      simp only [Prog.answered, delegate, Evm.Reply.answered_relay]
      rfl
  · intro Asset _
    constructor
    · intro platform edKey evmOwner implAddr authorityAddr read
      exact if_pos (migrates_of_readRequest read)
    · intro args rest encoded
      apply if_neg
      simp only [migrates, encoded]
      exact not_migrates_of_args args rest

namespace Known

def host : Host :=
  ⟨fun _ => 0, fun _ => none, fun _ => 0⟩

def factory : Address :=
  Bytes.ofNat 20 0x9999999999999999999999999999999999999999

def account : Address :=
  Bytes.ofNat 20 0x1111111111111111111111111111111111111111

def migration : Message :=
  ⟨account, selMigrate ++ List.replicate 128 0, by simp [selMigrate]⟩

/-- The factory names the implementation 0xaa. -/
def answer : Evm.Query → Evm.Reply
  | .staticcall _ _ => ⟨true, Word.toBytes 0xaa, by simp⟩
  | _ => ⟨true, Payload.empty⟩

end Known

theorem proxy_dispatches_migration :
    (run Known.host 44 ((initCode Known.factory).drop 9) Known.account Known.migration).answered
        Known.answer (fun _ => 0xbb) =
      ([.staticcall Known.factory Payload.empty,
          .delegatecall (Word.address 0xaa) Known.migration.calldata], .ok Payload.empty) := by
  have dispatched := (proxy_dispatches Known.host Known.factory Known.account rfl Known.migration 0
    (fun _ => 0xbb) Known.answer 0xaa rfl).2.1
  have migrates : slice Known.migration.calldata.bytes 0 4 = selMigrate := by decide
  rw [if_pos migrates, if_pos migrates] at dispatched
  exact dispatched

end SuperpositionAccounts.Metamorphic
