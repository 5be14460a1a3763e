import SuperpositionAccounts.Evm.Assembly

/-!
# The code of a LiteAccount

The bytes that `LiteFactory.create` deploys, and `LiteAccount.huff` as a list of
instructions, label by label. The bytes were copied by hand from the assembled
source: they are the assembled instructions, for every owner and operator.
-/

namespace SuperpositionAccounts.Lite

open Evm

def hexBeforeOwner : Bytes 14 :=
  Bytes.ofNat 14 0x60015f5560ec80600d3d393df373

def hexBeforeOperator : Bytes 108 :=
  Bytes.ofNat 108 0x331461002f575f54610037575b63fe835e355b5f526004601cfd5b5f355f555f5ff35b60406060606480360383360384602037600160015f526011601f2080546100215755305f525f5f602c3603600c732f6bc5ac6b08bf93bc6fc9be156449b676bf8bb25afa3d5f5f3e7f

def hexAfterOperator : Bytes 75 :=
  Bytes.ofNat 75 0x8552845f85375f5f60a05f73c3e443be2cfa4f41a5f5e4978d012847d355b4195afa63cba605a381156100275783855f375f5f855f5f6050358b1c5af13d5f5f3e3d5f826100ea57fd5bf3

/-- The bytes that `LiteFactory.create` passes to `create2`. -/
def initCode (owner : Bytes 20) (operator : Bytes 32) : List UInt8 :=
  hexBeforeOwner.toList ++ owner.toList ++ hexBeforeOperator.toList ++ operator.toList ++
    hexAfterOperator.toList

/-! ### `LiteAccount.huff` -/

def push0 : Op :=
  .push 0 ⟨[], rfl⟩

def push1 (byte : UInt8) : Op :=
  .push 1 ⟨[byte], rfl⟩

/-- A label as the target of a jump. -/
def push2 (high low : UInt8) : Op :=
  .push 2 ⟨[high, low], rfl⟩

def push4 (number : ℕ) : Op :=
  .push 4 (Bytes.ofNat 4 number)

/-- `dup1` to `dup16`. -/
def dup (number : Fin 17) : Op :=
  .dup (Fin.ofNat 16 (number - 1))

def addrSha512 : Bytes 20 :=
  Bytes.ofNat 20 0x2f6bc5ac6b08bf93bc6fc9be156449b676bf8bb2

def addrEdverify : Bytes 20 :=
  Bytes.ofNat 20 0xc3e443be2cfa4f41a5f5e4978d012847d355b419

/-- The constructor, and how the rest of the code is returned. -/
def deploy : List Op :=
  [push1 0x01, push0, .sstore, push1 0xec, dup 1, push1 0x0d, .returndataSize, .codeCopy,
    .returndataSize, .ret]

/-- From the start of `MAIN` to `FALLBACK`, without the owner. -/
def entry : List Op :=
  [.caller, .eq, push2 0x00 0x2f, .jumpi,
    push0, .sload, push2 0x00 0x37, .jumpi]

def internalErr : List Op :=
  [.jumpdest, push4 0xfe835e35]

def revert : List Op :=
  [.jumpdest, push0, .mstore, push1 0x04, push1 0x1c, .revert]

def privileged : List Op :=
  [.jumpdest, push0, .calldataLoad, push0, .sstore, push0, push0, .ret]

/-- `FALLBACK`: copy the message, consume the nonce and hash. -/
def fallback : List Op :=
  [.jumpdest, push1 0x40, push1 0x60, push1 0x64, dup 1, .calldataSize, .sub,
    dup 4, .calldataSize, .sub, dup 5, push1 0x20, .calldataCopy,
    push1 0x01, push1 0x01, push0, .mstore, push1 0x11, push1 0x1f, .sha3, dup 1, .sload,
    push2 0x00 0x21, .jumpi,
    .sstore,
    .address, push0, .mstore,
    push0, push0, push1 0x2c, .calldataSize, .sub, push1 0x0c, .push 20 addrSha512, .gas,
    .staticcall,
    .returndataSize, push0, push0, .returndataCopy]

/-- The rest of `FALLBACK`, after the operator: verify and forward. -/
def forward : List Op :=
  [dup 6, .mstore, dup 5, push0, dup 6, .calldataCopy,
    push0, push0, push1 0xa0, push0, .push 20 addrEdverify, .gas, .staticcall,
    push4 0xcba605a3, dup 2, .isZero, push2 0x00 0x27, .jumpi,
    dup 4, dup 6, push0, .calldataCopy,
    push0, push0, dup 6, push0, push0, push1 0x50, .calldataLoad, dup 12, .shr, .gas, .call,
    .returndataSize, push0, push0, .returndataCopy,
    .returndataSize, push0, dup 3, push2 0x00 0xea, .jumpi, .revert]

def success : List Op :=
  [.jumpdest, .ret]

def main (owner : Bytes 20) (operator : Bytes 32) : List Op :=
  .push 20 owner :: (entry ++ internalErr ++ revert ++ privileged ++ fallback) ++
    .push 32 operator :: (forward ++ success)

/-- The code at the address of a LiteAccount. -/
def runtimeCode (owner : Bytes 20) (operator : Bytes 32) : List UInt8 :=
  assemble (main owner operator)

/-- The bytes of the factory are the assembled source. -/
theorem initCode_eq (owner : Bytes 20) (operator : Bytes 32) :
    initCode owner operator = assemble deploy ++ runtimeCode owner operator := by
  have first : hexBeforeOwner.toList = assemble deploy ++ [0x73] := by
    decide +kernel
  have second : hexBeforeOperator.toList =
      assemble (entry ++ internalErr ++ revert ++ privileged ++ fallback) ++ [0x7f] := by
    decide +kernel
  have third : hexAfterOperator.toList = assemble (forward ++ success) := by
    decide +kernel
  rw [initCode, first, second, third, runtimeCode, main]
  simp [assemble, Op.encode]

end SuperpositionAccounts.Lite
