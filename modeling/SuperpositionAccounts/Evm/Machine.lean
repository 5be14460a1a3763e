import SuperpositionAccounts.CallTree.Program
import SuperpositionAccounts.Evm.Assembly
import SuperpositionAccounts.Evm.Memory

/-!
# The machine

Code of the EVM as a contract program. Instructions that only touch the stack
and the memory are steps of the machine; the others read or write the storage,
call other contracts, jump or end the frame.

Gas is a bound on the number of steps and on the memory: an access beyond 64-bit
positions costs more gas than there is. The word that `GAS` gives is left open.
Balances are not modelled.
-/

namespace Evm

open CallTree

/-- A byte string that contracts pass to each other. Its length is a 64-bit number. -/
structure Payload where
  bytes : List UInt8
  short : bytes.length < 2 ^ 64

namespace Payload

def empty : Payload :=
  ⟨[], Nat.two_pow_pos 64⟩

@[ext]
theorem ext {left right : Payload} (same : left.bytes = right.bytes) : left = right := by
  cases left
  cases right
  congr

instance : DecidableEq Payload := fun left right =>
  decidable_of_iff (left.bytes = right.bytes) ⟨ext, congrArg bytes⟩

/-- Without its first bytes. -/
def drop (payload : Payload) (count : ℕ) : Payload :=
  ⟨payload.bytes.drop count, by
    have := payload.short
    simp only [List.length_drop]
    omega⟩

end Payload

structure Message where
  sender : Bytes 20
  calldata : Payload

/-- The size of the calldata. -/
abbrev size (message : Message) : Word :=
  BitVec.ofNat 256 message.calldata.bytes.length

inductive Query where
  | call (target : Bytes 20) (value : Word) (input : Payload)
  | staticcall (target : Bytes 20) (input : Payload)
  /-- Run the code of another contract on the own storage. -/
  | delegatecall (target : Bytes 20) (input : Payload)
  /-- The hash of the code of an address. The answer is the data of the reply, read as a word. -/
  | codeHash (target : Bytes 20)
deriving DecidableEq

/-- What a call gives back: whether it succeeded and its return or revert data. -/
structure Reply where
  ok : Bool
  data : Payload

inductive Failure where
  | reverted (data : Payload)
  /-- The frame ran out of gas or broke a rule of the machine. -/
  | halted
deriving DecidableEq

abbrev signature : Signature where
  Addr := Bytes 20
  Slot := Word
  Word := Word
  Msg := Message
  Query := Query
  Reply := Reply
  Output := Payload
  Err := Failure
  Note := Empty

structure Host where
  keccak256 : List UInt8 → Word
  /-- The precompiled contracts: each either fails or gives its output. -/
  precompile : Bytes 20 → Option (List UInt8 → Option Payload)
  /-- What `GAS` gives at a position. -/
  gasLeft : ℕ → Word

/-- What a frame cannot change. -/
structure Env where
  code : List UInt8
  self : Bytes 20
  message : Message

structure Machine where
  position : ℕ
  stack : List Word
  memory : Memory
  /-- The return data of the last call. -/
  returned : Payload

namespace Machine

def start : Machine :=
  ⟨0, [], Memory.empty, Payload.empty⟩

/-- The machine at the next instruction. -/
def next (machine : Machine) (op : Op) (stack : List Word) : Machine :=
  { machine with position := machine.position + op.size, stack := stack }

@[simp]
theorem stack_next (machine : Machine) (op : Op) (stack : List Word) :
    (machine.next op stack).stack = stack :=
  rfl

end Machine

/-- Whether there is gas for an access. An empty access costs nothing. -/
def Affordable (offset length : ℕ) : Prop :=
  length = 0 ∨ offset + length < 2 ^ 64

instance (offset length : ℕ) : Decidable (Affordable offset length) :=
  inferInstanceAs (Decidable (_ ∨ _))

namespace Memory

/-- Read a part of the memory, if there is gas for it. -/
def load (memory : Memory) (offset length : Word) : Option Payload :=
  if affordable : Affordable offset.toNat length.toNat then
    some ⟨memory.read offset.toNat length.toNat, by
      rw [length_read]
      rcases affordable with none | fits <;> omega⟩
  else none

/-- Copy a part of a byte string into the memory, if there is gas for it. -/
def copy (memory : Memory) (target : Word) (source : List UInt8) (offset length : Word) :
    Option Memory :=
  if Affordable target.toNat length.toNat then
    some (memory.write target.toNat (slice source offset.toNat length.toNat))
  else none

end Memory

/-- The instructions that do more than change the stack and the memory. -/
def Op.isControl : Op → Bool
  | .stop | .sload | .sstore | .jump | .jumpi | .extCodeHash | .ret | .revert => true
  | .call | .delegatecall | .staticcall => true
  | _ => false

section Execution

variable (host : Host) (env : Env)

/-- The effect of an instruction on the stack and the memory, if it has no other. -/
def effect (machine : Machine) : Op → List Word → Option (List Word × Memory)
  | .sub, left :: right :: stack => some ((left - right) :: stack, machine.memory)
  | .eq, left :: right :: stack =>
      some ((if left = right then 1 else 0) :: stack, machine.memory)
  | .isZero, word :: stack => some ((if word = 0 then 1 else 0) :: stack, machine.memory)
  | .shr, shift :: word :: stack => some (word >>> shift.toNat :: stack, machine.memory)
  | .sha3, offset :: length :: stack =>
      (machine.memory.load offset length).map fun input =>
        (host.keccak256 input.bytes :: stack, machine.memory)
  | .address, stack => some (Word.ofBytes env.self.toList :: stack, machine.memory)
  | .caller, stack => some (Word.ofBytes env.message.sender.toList :: stack, machine.memory)
  | .calldataLoad, offset :: stack =>
      some (Word.ofBytes (slice env.message.calldata.bytes offset.toNat 32) :: stack,
        machine.memory)
  | .calldataSize, stack =>
      some (BitVec.ofNat 256 env.message.calldata.bytes.length :: stack, machine.memory)
  | .calldataCopy, target :: offset :: length :: stack =>
      (machine.memory.copy target env.message.calldata.bytes offset length).map fun memory =>
        (stack, memory)
  | .codeCopy, target :: offset :: length :: stack =>
      (machine.memory.copy target env.code offset length).map fun memory => (stack, memory)
  | .returndataSize, stack =>
      some (BitVec.ofNat 256 machine.returned.bytes.length :: stack, machine.memory)
  | .returndataCopy, target :: offset :: length :: stack =>
      if offset.toNat + length.toNat ≤ machine.returned.bytes.length then
        (machine.memory.copy target machine.returned.bytes offset length).map fun memory =>
          (stack, memory)
      else none
  | .mload, offset :: stack =>
      (machine.memory.load offset 32).map fun data =>
        (Word.ofBytes data.bytes :: stack, machine.memory)
  | .mstore, offset :: word :: stack =>
      (machine.memory.copy offset word.toBytes 0 32).map fun memory => (stack, memory)
  | .gas, stack => some (host.gasLeft machine.position :: stack, machine.memory)
  | .jumpdest, stack => some (stack, machine.memory)
  | .push _ data, stack => some (Word.ofBytes data.toList :: stack, machine.memory)
  | .dup depth, stack => stack[depth.val]?.map fun word => (word :: stack, machine.memory)
  | .swap depth, top :: stack =>
      stack[depth.val]?.map fun word => (word :: stack.set depth.val top, machine.memory)
  | _, _ => none

/-- One step of an instruction that only touches the stack and the memory. The stack holds at most
1024 words. -/
def step (machine : Machine) (op : Op) : Option Machine :=
  match effect host env machine op machine.stack with
  | some (stack, memory) =>
      if stack.length ≤ 1024 then some { machine.next op stack with memory := memory } else none
  | none => none

/-- Go on after a call. -/
def afterCall (machine : Machine) (op : Op) (stack : List Word) (outOffset outLength : Word)
    (reply : Reply) : Machine :=
  { machine.next op ((if reply.ok then 1 else 0) :: stack) with
    memory := machine.memory.write outOffset.toNat (reply.data.bytes.take outLength.toNat)
    returned := reply.data }

/-- All other instructions, given how the frame goes on. -/
def control (ops : List Op) (go : Machine → Prog signature Payload) (machine : Machine) (op : Op) :
    Prog signature Payload :=
  match op, machine.stack with
  | .stop, _ => .ret Payload.empty
  | .sload, slot :: stack => .load slot fun word => go (machine.next op (word :: stack))
  | .sstore, slot :: word :: stack => .store slot word (go (machine.next op stack))
  | .jump, target :: stack =>
      match fetch ops target.toNat with
      | some .jumpdest => go { machine with position := target.toNat, stack := stack }
      | _ => .fail .halted
  | .jumpi, target :: condition :: stack =>
      if condition = 0 then go (machine.next op stack)
      else
        match fetch ops target.toNat with
        | some .jumpdest => go { machine with position := target.toNat, stack := stack }
        | _ => .fail .halted
  | .extCodeHash, target :: stack =>
      .ask (.codeHash target.address) fun reply =>
        go (machine.next op (Word.ofBytes (slice reply.data.bytes 0 32) :: stack))
  | .ret, offset :: length :: _ =>
      match machine.memory.load offset length with
      | some data => .ret data
      | none => .fail .halted
  | .revert, offset :: length :: _ =>
      match machine.memory.load offset length with
      | some data => .fail (.reverted data)
      | none => .fail .halted
  | .call, _ :: target :: value :: offset :: length :: outOffset :: outLength :: stack =>
      match machine.memory.load offset length with
      | some input =>
          if Affordable outOffset.toNat outLength.toNat then
            .ask (.call target.address value input) fun reply =>
              go (afterCall machine op stack outOffset outLength reply)
          else .fail .halted
      | none => .fail .halted
  | .delegatecall, _ :: target :: offset :: length :: outOffset :: outLength :: stack =>
      match machine.memory.load offset length with
      | some input =>
          if Affordable outOffset.toNat outLength.toNat then
            .ask (.delegatecall target.address input) fun reply =>
              go (afterCall machine op stack outOffset outLength reply)
          else .fail .halted
      | none => .fail .halted
  | .staticcall, _ :: target :: offset :: length :: outOffset :: outLength :: stack =>
      match machine.memory.load offset length with
      | some input =>
          if Affordable outOffset.toNat outLength.toNat then
            match host.precompile target.address with
            | some contract =>
                go (afterCall machine op stack outOffset outLength
                  ⟨(contract input.bytes).isSome, (contract input.bytes).getD Payload.empty⟩)
            | none =>
                .ask (.staticcall target.address input) fun reply =>
                  go (afterCall machine op stack outOffset outLength reply)
          else .fail .halted
      | none => .fail .halted
  | _, _ => .fail .halted

/-- Run instructions for a number of steps. Running off the end of the code is a stop. -/
def exec (ops : List Op) : ℕ → Machine → Prog signature Payload
  | 0, _ => .fail .halted
  | steps + 1, machine =>
      match fetch ops machine.position with
      | none => .ret Payload.empty
      | some op =>
          match step host env machine op with
          | some after => exec ops steps after
          | none => control host ops (exec ops steps) machine op

/-- Run instructions that only touch the stack and the memory. -/
def stepAll : List Op → Machine → Option Machine
  | [], machine => some machine
  | op :: ops, machine => (step host env machine op).bind (stepAll ops)

end Execution

/-- The program of a contract with a code, for a number of steps. -/
def run (host : Host) (steps : ℕ) (code : List UInt8) (self : Bytes 20) (message : Message) :
    Prog signature Payload :=
  exec host ⟨code, self, message⟩ (disassemble code) steps Machine.start

section Rules

variable {host : Host} {env : Env} {ops : List Op} {steps : ℕ} {machine after : Machine} {op : Op}

theorem exec_of_step (fetched : fetch ops machine.position = some op)
    (stepped : step host env machine op = some after) :
    exec host env ops (steps + 1) machine = exec host env ops steps after := by
  simp only [exec, fetched, stepped]

theorem exec_of_stuck (fetched : fetch ops machine.position = some op)
    (stuck : step host env machine op = none) :
    exec host env ops (steps + 1) machine =
      control host ops (exec host env ops steps) machine op := by
  simp only [exec, fetched, stuck]

theorem effect_of_isControl (isControl : op.isControl = true) (stack : List Word) :
    effect host env machine op stack = none := by
  cases op with
  | stop | sload | sstore | jump | jumpi | extCodeHash | ret | revert => rfl
  | call | delegatecall | staticcall => rfl
  | _ => cases isControl

theorem exec_of_control (fetched : fetch ops machine.position = some op)
    (isControl : op.isControl = true) :
    exec host env ops (steps + 1) machine =
      control host ops (exec host env ops steps) machine op := by
  refine exec_of_stuck fetched ?_
  rw [step, effect_of_isControl isControl]

theorem step_of_effect {stack : List Word} {memory : Memory}
    (computed : effect host env machine op machine.stack = some (stack, memory))
    (small : stack.length ≤ 1024) :
    step host env machine op = some { machine.next op stack with memory := memory } := by
  rw [step, computed]
  exact if_pos small

theorem stepAll_cons {ops : List Op} {middle : Machine}
    (stepped : step host env machine op = some middle)
    (ran : stepAll host env ops middle = some after) :
    stepAll host env (op :: ops) machine = some after := by
  rw [stepAll, stepped]
  exact ran

theorem position_of_step (stepped : step host env machine op = some after) :
    after.position = machine.position + op.size := by
  simp only [step] at stepped
  split at stepped
  · split at stepped
    · cases stepped
      rfl
    · cases stepped
  · cases stepped

/-- A block of such instructions runs as one. -/
theorem exec_block (count : ℕ) (enough : count ≤ (instructionsAt ops machine.position).length)
    (ran : stepAll host env ((instructionsAt ops machine.position).take count) machine =
      some after) :
    exec host env ops (steps + count) machine = exec host env ops steps after := by
  induction count generalizing machine with
  | zero =>
      cases ran
      rfl
  | succ count ih =>
      cases here : instructionsAt ops machine.position with
      | nil =>
          rw [here] at enough
          simp at enough
      | cons op rest =>
          rw [here, List.take_succ_cons, stepAll, Option.bind_eq_some_iff] at ran
          rcases ran with ⟨middle, stepped, ran⟩
          have fetched : fetch ops machine.position = some op := by
            rw [fetch, here]
            rfl
          have moved : instructionsAt ops middle.position = rest := by
            rw [position_of_step stepped]
            exact instructionsAt_next here
          rw [here, List.length_cons] at enough
          rw [← moved] at ran enough
          rw [← Nat.add_assoc, exec_of_step fetched stepped]
          exact ih (by omega) ran

theorem exec_sload {slot : Word} {stack : List Word}
    (fetched : fetch ops machine.position = some .sload) (top : machine.stack = slot :: stack) :
    exec host env ops (steps + 1) machine =
      .load slot fun word => exec host env ops steps (machine.next .sload (word :: stack)) := by
  rw [exec_of_control fetched rfl]
  simp [control.eq_def, top]

theorem exec_sstore {slot word : Word} {stack : List Word}
    (fetched : fetch ops machine.position = some .sstore)
    (top : machine.stack = slot :: word :: stack) :
    exec host env ops (steps + 1) machine =
      .store slot word (exec host env ops steps (machine.next .sstore stack)) := by
  rw [exec_of_control fetched rfl]
  simp [control.eq_def, top]

theorem exec_jump (label : ℕ) {target : Word} {stack : List Word}
    (fetched : fetch ops machine.position = some .jump) (top : machine.stack = target :: stack)
    (aims : target.toNat = label) (lands : fetch ops label = some .jumpdest) :
    exec host env ops (steps + 1) machine =
      exec host env ops steps { machine with position := label, stack := stack } := by
  rw [exec_of_control fetched rfl]
  simp only [control.eq_def, top, aims, lands]

theorem exec_jumpi_taken (label : ℕ) {target condition : Word} {stack : List Word}
    (fetched : fetch ops machine.position = some .jumpi)
    (top : machine.stack = target :: condition :: stack) (taken : condition ≠ 0)
    (aims : target.toNat = label) (lands : fetch ops label = some .jumpdest) :
    exec host env ops (steps + 1) machine =
      exec host env ops steps { machine with position := label, stack := stack } := by
  rw [exec_of_control fetched rfl]
  simp only [control.eq_def, top, if_neg taken, aims, lands]

theorem exec_jumpi_passed {target condition : Word} {stack : List Word}
    (fetched : fetch ops machine.position = some .jumpi)
    (top : machine.stack = target :: condition :: stack) (passed : condition = 0) :
    exec host env ops (steps + 1) machine =
      exec host env ops steps (machine.next .jumpi stack) := by
  rw [exec_of_control fetched rfl]
  simp [control.eq_def, top, passed]

theorem exec_ret {offset length : Word} {stack : List Word} {data : Payload}
    (fetched : fetch ops machine.position = some .ret)
    (top : machine.stack = offset :: length :: stack)
    (loaded : machine.memory.load offset length = some data) :
    exec host env ops (steps + 1) machine = .ret data := by
  rw [exec_of_control fetched rfl]
  simp [control.eq_def, top, loaded]

theorem exec_revert {offset length : Word} {stack : List Word} {data : Payload}
    (fetched : fetch ops machine.position = some .revert)
    (top : machine.stack = offset :: length :: stack)
    (loaded : machine.memory.load offset length = some data) :
    exec host env ops (steps + 1) machine = .fail (.reverted data) := by
  rw [exec_of_control fetched rfl]
  simp [control.eq_def, top, loaded]

theorem afterCall_zero (stack : List Word) (reply : Reply) :
    afterCall machine op stack 0 0 reply =
      { machine.next op ((if reply.ok then 1 else 0) :: stack) with returned := reply.data } := by
  simp [afterCall, Machine.next, Memory.write_nil]

theorem exec_call {gas target value offset length : Word} {stack : List Word} {input : Payload}
    (fetched : fetch ops machine.position = some .call)
    (top : machine.stack = gas :: target :: value :: offset :: length :: 0 :: 0 :: stack)
    (loaded : machine.memory.load offset length = some input) :
    exec host env ops (steps + 1) machine =
      .ask (.call target.address value input) fun reply =>
        exec host env ops steps
          { machine.next .call ((if reply.ok then 1 else 0) :: stack) with
            returned := reply.data } := by
  rw [exec_of_control fetched rfl]
  simp only [control.eq_def, top, loaded, afterCall_zero]
  rfl

theorem exec_delegatecall {gas target offset length : Word} {stack : List Word} {input : Payload}
    (fetched : fetch ops machine.position = some .delegatecall)
    (top : machine.stack = gas :: target :: offset :: length :: 0 :: 0 :: stack)
    (loaded : machine.memory.load offset length = some input) :
    exec host env ops (steps + 1) machine =
      .ask (.delegatecall target.address input) fun reply =>
        exec host env ops steps
          { machine.next .delegatecall ((if reply.ok then 1 else 0) :: stack) with
            returned := reply.data } := by
  rw [exec_of_control fetched rfl]
  simp only [control.eq_def, top, loaded, afterCall_zero]
  rfl

theorem exec_extCodeHash {target : Word} {stack : List Word}
    (fetched : fetch ops machine.position = some .extCodeHash)
    (top : machine.stack = target :: stack) :
    exec host env ops (steps + 1) machine =
      .ask (.codeHash target.address) fun reply =>
        exec host env ops steps
          (machine.next .extCodeHash (Word.ofBytes (slice reply.data.bytes 0 32) :: stack)) := by
  rw [exec_of_control fetched rfl]
  simp only [control.eq_def, top]

/-- A static call of a contract that is not precompiled. -/
theorem exec_staticcall {gas target offset length outOffset outLength : Word} {stack : List Word}
    {input : Payload} (fetched : fetch ops machine.position = some .staticcall)
    (top : machine.stack =
      gas :: target :: offset :: length :: outOffset :: outLength :: stack)
    (loaded : machine.memory.load offset length = some input)
    (affordable : Affordable outOffset.toNat outLength.toNat)
    (contract : host.precompile target.address = none) :
    exec host env ops (steps + 1) machine =
      .ask (.staticcall target.address input) fun reply =>
        exec host env ops steps
          (afterCall machine .staticcall stack outOffset outLength reply) := by
  rw [exec_of_control fetched rfl]
  simp only [control.eq_def, top, loaded, contract, if_pos affordable]

/-- A precompiled contract that answers. -/
theorem exec_precompile {gas target offset length : Word} {stack : List Word}
    {input data : Payload} {contract : List UInt8 → Option Payload}
    (fetched : fetch ops machine.position = some .staticcall)
    (top : machine.stack = gas :: target :: offset :: length :: 0 :: 0 :: stack)
    (loaded : machine.memory.load offset length = some input)
    (precompiled : host.precompile target.address = some contract)
    (answers : contract input.bytes = some data) :
    exec host env ops (steps + 1) machine =
      exec host env ops steps
        { machine.next .staticcall (1 :: stack) with returned := data } := by
  rw [exec_of_control fetched rfl]
  simp only [control.eq_def, top, loaded, precompiled, answers, afterCall_zero]
  rfl

theorem exec_precompile_fails {gas target offset length : Word} {stack : List Word}
    {input : Payload} {contract : List UInt8 → Option Payload}
    (fetched : fetch ops machine.position = some .staticcall)
    (top : machine.stack = gas :: target :: offset :: length :: 0 :: 0 :: stack)
    (loaded : machine.memory.load offset length = some input)
    (precompiled : host.precompile target.address = some contract)
    (fails : contract input.bytes = none) :
    exec host env ops (steps + 1) machine =
      exec host env ops steps
        { machine.next .staticcall (0 :: stack) with returned := Payload.empty } := by
  rw [exec_of_control fetched rfl]
  simp only [control.eq_def, top, loaded, precompiled, fails, afterCall_zero]
  rfl

theorem load_eq {memory : Memory} {offset length : Word} {data : Payload}
    (affordable : Affordable offset.toNat length.toNat)
    (reads : memory.read offset.toNat length.toNat = data.bytes) :
    memory.load offset length = some data := by
  rw [Memory.load, dif_pos affordable, Option.some_inj]
  exact Payload.ext reads

theorem step_calldataCopy {target offset length : Word} {stack : List Word}
    (top : machine.stack = target :: offset :: length :: stack) (small : stack.length ≤ 1024)
    (affordable : Affordable target.toNat length.toNat) :
    step host env machine .calldataCopy = some
      { machine.next .calldataCopy stack with
        memory := machine.memory.write target.toNat
          (slice env.message.calldata.bytes offset.toNat length.toNat) } := by
  simp [step, effect, top, Memory.copy, affordable, small]

theorem toNat_size_sub {message : Message} (lower : ℕ)
    (enough : lower ≤ message.calldata.bytes.length) :
    (size message - BitVec.ofNat 256 lower).toNat = message.calldata.bytes.length - lower := by
  have := message.calldata.short
  simp only [BitVec.toNat_sub, BitVec.toNat_ofNat]
  omega

theorem size_sub_unaffordable {message : Message} (lower : ℕ) (small : lower < 2 ^ 64)
    (lacking : message.calldata.bytes.length < lower) (offset : ℕ) :
    ¬Affordable offset (size message - BitVec.ofNat 256 lower).toNat := by
  simp only [Affordable, BitVec.toNat_sub, BitVec.toNat_ofNat]
  omega

section Rest

variable {message : Message} {lower : ℕ} (enough : lower ≤ message.calldata.bytes.length)

include enough

theorem size_sub_affordable :
    Affordable (0 : Word).toNat (size message - BitVec.ofNat 256 lower).toNat := by
  have := message.calldata.short
  rw [toNat_size_sub lower enough]
  exact Or.inr (by simp; omega)

/-- Copy the calldata without its first bytes to the start of the memory. -/
theorem step_calldataCopy_rest {code : List UInt8} {self : Bytes 20} {stack : List Word}
    (top : machine.stack = 0 :: BitVec.ofNat 256 lower ::
      (size message - BitVec.ofNat 256 lower) :: stack) (small : stack.length ≤ 1024) :
    step host ⟨code, self, message⟩ machine .calldataCopy = some
      { machine.next .calldataCopy stack with
        memory := machine.memory.write 0 (message.calldata.drop lower).bytes } := by
  have short := message.calldata.short
  have place : (BitVec.ofNat 256 lower : Word).toNat = lower := by
    rw [BitVec.toNat_ofNat]
    omega
  rw [step_calldataCopy top small (size_sub_affordable enough), place, toNat_size_sub lower enough,
    slice_to_end]
  rfl

theorem load_rest (memory : Memory) :
    (memory.write 0 (message.calldata.drop lower).bytes).load 0
        (size message - BitVec.ofNat 256 lower) = some (message.calldata.drop lower) := by
  apply load_eq (size_sub_affordable enough)
  refine memory.read_write_self 0 ?_
  rw [toNat_size_sub lower enough]
  simp [Payload.drop]

end Rest

/-- An error of four bytes, as it is left in the memory by `MSTORE`. -/
theorem load_error (memory : Memory) {selector : Word} {error : Payload}
    (bytes : selector.toBytes.drop 0x1c = error.bytes) :
    (memory.write 0 (slice selector.toBytes 0 32)).load 0x1c 0x04 = some error := by
  rw [Word.slice_toBytes]
  apply load_eq (by decide)
  calc (memory.write 0 selector.toBytes).read (0 + 0x1c) 4
    _ = selector.toBytes.drop 0x1c := memory.read_write_end (by simp)
    _ = error.bytes := bytes

theorem exec_calldataCopy_halts {target offset length : Word} {stack : List Word}
    (fetched : fetch ops machine.position = some .calldataCopy)
    (top : machine.stack = target :: offset :: length :: stack)
    (unaffordable : ¬Affordable target.toNat length.toNat) :
    exec host env ops (steps + 1) machine = .fail .halted := by
  have stuck : step host env machine .calldataCopy = none := by
    simp [step, effect, top, Memory.copy, unaffordable]
  rw [exec_of_stuck fetched stuck]
  simp [control]

/-- Copy all return data to the start of the memory. -/
theorem step_returndataCopy {stack : List Word}
    (top : machine.stack = 0 :: 0 :: BitVec.ofNat 256 machine.returned.bytes.length :: stack)
    (small : stack.length ≤ 1024) :
    step host env machine .returndataCopy = some
      { machine.next .returndataCopy stack with
        memory := machine.memory.write 0 machine.returned.bytes } := by
  have short := machine.returned.short
  have size : (BitVec.ofNat 256 machine.returned.bytes.length).toNat =
      machine.returned.bytes.length := by
    rw [BitVec.toNat_ofNat]
    omega
  have affordable : Affordable 0 machine.returned.bytes.length := Or.inr (by omega)
  simp [step, effect, top, Memory.copy, size, affordable, small, slice_zero_length]

/-! ### Forwarders -/

/-- The end of a forwarder, after its call. -/
def relayTail (label : ℕ) : List Op :=
  [.returndataSize, .pushNat 0 0, .pushNat 0 0, .returndataCopy, .returndataSize, .pushNat 0 0,
    .dup 2, .pushNat 2 label, .jumpi, .revert, .jumpdest, .ret]

/-- Return or revert as the call did, with its data. -/
def Reply.relay (reply : Reply) : Prog signature Payload :=
  if reply.ok then .ret reply.data else .fail (.reverted reply.data)

/-- What the caller of a forwarder sees. -/
def Reply.outcome (reply : Reply) : Except Failure Payload :=
  if reply.ok then .ok reply.data else .error (.reverted reply.data)

theorem Reply.answered_relay (reply : Reply) (answer : Query → Reply) (own : Word → Word) :
    reply.relay.answered answer own = ([], reply.outcome) := by
  unfold relay outcome
  split
  · rfl
  · rfl

theorem load_written (memory : Memory) (data : Payload) :
    (memory.write 0 data.bytes).load 0 (BitVec.ofNat 256 data.bytes.length) = some data := by
  have short := data.short
  have size : (BitVec.ofNat 256 data.bytes.length).toNat = data.bytes.length := by
    rw [BitVec.toNat_ofNat]
    omega
  apply load_eq
  · rw [size]
    exact Or.inr (by simp; omega)
  · exact memory.read_write_self 0 size.symm

/-- A forwarder passes on what its call gave. -/
theorem exec_relay {position label : ℕ} {rest : List Op} {stack : List Word} {memory : Memory}
    (tail : instructionsAt ops position = relayTail label ++ rest)
    (aims : (Word.ofBytes (Bytes.ofNat 2 label).toList).toNat = position + 12)
    (shallow : stack.length < 1000) (reply : Reply) :
    exec host env ops (steps + 12)
        ⟨position, (if reply.ok then 1 else 0) :: stack, memory, reply.data⟩ = reply.relay := by
  let size := BitVec.ofNat 256 reply.data.bytes.length
  have atCopy : instructionsAt ops (position + 3) = (relayTail label ++ rest).drop 3 :=
    instructionsAt_next (instructionsAt_next (instructionsAt_next tail))
  have atSize : instructionsAt ops (position + 4) = (relayTail label ++ rest).drop 4 :=
    instructionsAt_next atCopy
  have atJump : instructionsAt ops (position + 10) = (relayTail label ++ rest).drop 8 :=
    instructionsAt_next (instructionsAt_next (instructionsAt_next (instructionsAt_next atSize)))
  have atRevert : instructionsAt ops (position + 11) = (relayTail label ++ rest).drop 9 :=
    instructionsAt_next atJump
  have atLabel : instructionsAt ops (position + 12) = (relayTail label ++ rest).drop 10 :=
    instructionsAt_next atRevert
  have atReturn : instructionsAt ops (position + 13) = (relayTail label ++ rest).drop 11 :=
    instructionsAt_next atLabel
  calc exec host env ops (steps + 12)
        ⟨position, (if reply.ok then 1 else 0) :: stack, memory, reply.data⟩
    _ = exec host env ops (steps + 9)
        ⟨position + 3, 0 :: 0 :: size :: (if reply.ok then 1 else 0) :: stack, memory,
          reply.data⟩ := by
      apply exec_block 3
      · simp [tail, relayTail]
      · rw [tail]
        change stepAll host env [.returndataSize, .pushNat 0 0, .pushNat 0 0] _ = _
        refine stepAll_cons (step_of_effect rfl (by simp; omega)) ?_
        refine stepAll_cons (step_of_effect rfl (by simp; omega)) ?_
        refine stepAll_cons (step_of_effect rfl (by simp; omega)) ?_
        rfl
    _ = exec host env ops (steps + 8)
        ⟨position + 4, (if reply.ok then 1 else 0) :: stack, memory.write 0 reply.data.bytes,
          reply.data⟩ := by
      have fetched : fetch ops (position + 3) = some .returndataCopy := by
        rw [fetch, atCopy]
        rfl
      exact exec_of_step fetched (step_returndataCopy rfl (by simp; omega))
    _ = exec host env ops (steps + 4)
        ⟨position + 10, Word.ofBytes (Bytes.ofNat 2 label).toList ::
          (if reply.ok then 1 else 0) :: 0 :: size :: (if reply.ok then 1 else 0) :: stack,
          memory.write 0 reply.data.bytes, reply.data⟩ := by
      apply exec_block 4
      · simp [atSize, relayTail]
      · rw [atSize]
        change stepAll host env [.returndataSize, .pushNat 0 0, .dup 2, .pushNat 2 label] _ = _
        refine stepAll_cons (step_of_effect rfl (by simp; omega)) ?_
        refine stepAll_cons (step_of_effect rfl (by simp; omega)) ?_
        refine stepAll_cons (step_of_effect rfl (by simp; omega)) ?_
        refine stepAll_cons (step_of_effect rfl (by simp; omega)) ?_
        rfl
    _ = reply.relay := by
      have jumps : fetch ops (position + 10) = some .jumpi := by
        rw [fetch, atJump]
        rfl
      cases ok : reply.ok with
      | true =>
          have nonzero : (1 : Word) ≠ 0 := by decide
          have lands : fetch ops (position + 12) = some .jumpdest := by
            rw [fetch, atLabel]
            rfl
          have returns : fetch ops (position + 13) = some .ret := by
            rw [fetch, atReturn]
            rfl
          rw [Reply.relay, ok, if_pos rfl]
          calc _
            _ = exec host env ops (steps + 3) ⟨position + 12, 0 :: size :: 1 :: stack,
                memory.write 0 reply.data.bytes, reply.data⟩ :=
              exec_jumpi_taken (position + 12) jumps rfl nonzero aims lands
            _ = exec host env ops (steps + 2) ⟨position + 13, 0 :: size :: 1 :: stack,
                memory.write 0 reply.data.bytes, reply.data⟩ := by
              apply exec_of_step lands
              exact step_of_effect rfl (by simp; omega)
            _ = _ := exec_ret returns rfl (load_written memory reply.data)
      | false =>
          have reverts : fetch ops (position + 11) = some .revert := by
            rw [fetch, atRevert]
            rfl
          rw [Reply.relay, ok, if_neg (by simp)]
          calc _
            _ = exec host env ops (steps + 3) ⟨position + 11, 0 :: size :: 0 :: stack,
                memory.write 0 reply.data.bytes, reply.data⟩ :=
              exec_jumpi_passed jumps rfl rfl
            _ = _ := exec_revert reverts rfl (load_written memory reply.data)

end Rules

end Evm
