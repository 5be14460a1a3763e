import SuperpositionAccounts.Evm.Machine
import SuperpositionAccounts.Wire.Types

/-!
# The code of SafetyRouter

`SafetyRouter.huff` takes the address of an account as the first word of its
calldata. It calls the account with the rest of the calldata if the account's code
has the one hash it knows, and passes on the answer. The call carries no value,
whatever the router was sent.
-/

namespace SuperpositionAccounts.Router

open CallTree Evm

/-! ### `SafetyRouter.huff` -/

/-- The only hash of an account's code that is accepted. -/
def expectedHash : Bytes 32 :=
  Bytes.ofNat 32 0xc93405af7d5432a1465160ee7d0201b7f335f44af433e3ed36615e6d956022bc

def checkHash : List Op :=
  [.pushNat 0 0, .calldataLoad, .dup 0, .extCodeHash, .push 32 expectedHash, .eq, .isZero,
    .pushNat 2 0x4c, .jumpi]

def forward : List Op :=
  [.pushNat 1 0x20, .calldataSize, .sub, .pushNat 1 0x20, .pushNat 0 0, .calldataCopy,
    .pushNat 0 0, .pushNat 0 0, .pushNat 1 0x20, .calldataSize, .sub, .pushNat 0 0, .pushNat 0 0,
    .dup 5, .gas, .call]

/-- The label `FAIL`. -/
def fail : List Op :=
  [.jumpdest, .pushNat 4 0x27e63c44, .pushNat 0 0, .mstore, .pushNat 1 0x04, .pushNat 1 0x1c,
    .revert]

def main : List Op :=
  checkHash ++ forward ++ relayTail 0x4a ++ fail

def runtimeCode : List UInt8 :=
  assemble main

/-! ### What the code does -/

/-- The error of an account with other code. -/
def unexpectedCode : Payload :=
  ⟨[0x27, 0xe6, 0x3c, 0x44], by decide⟩

/-- The account that the calldata names. -/
def destination (calldata : Payload) : Address :=
  (Word.ofBytes (slice calldata.bytes 0 32)).address

/-- Call the account without value. -/
def pass (calldata : Payload) : Prog signature Payload :=
  if 32 ≤ calldata.bytes.length then
    .ask (.call (destination calldata) 0 (calldata.drop 32)) Evm.Reply.relay
  else .fail .halted

/-- The code hash that a reply holds is the one the router knows. -/
def Expected (reply : Evm.Reply) : Prop :=
  Word.ofBytes expectedHash.toList = Word.ofBytes (slice reply.data.bytes 0 32)

instance (reply : Evm.Reply) : Decidable (Expected reply) :=
  inferInstanceAs (Decidable (_ = _))

/-- The router as a program. -/
def router (calldata : Payload) : Prog signature Payload :=
  .ask (.codeHash (destination calldata)) fun reply =>
    if Expected reply then pass calldata else .fail (.reverted unexpectedCode)

/-! ### The code, executed -/

section Execution

variable {host : Host} {self : Address} {message : Message} {steps : ℕ} {memory : Memory}
  {returned : Payload}

variable (host self message) in
/-- The rest of a run of the code. -/
abbrev resume (steps : ℕ) (machine : Machine) : Prog signature Payload :=
  exec host ⟨runtimeCode, self, message⟩ main steps machine

theorem resume_forward :
    resume host self message (steps + 28)
        ⟨0x2b, [Word.ofBytes (slice message.calldata.bytes 0 0x20)], memory, returned⟩ =
      pass message.calldata := by
  let first := Word.ofBytes (slice message.calldata.bytes 0 0x20)
  have tail : instructionsAt main 0x3e = relayTail 0x4a ++ fail := rfl
  have copying : resume host self message (steps + 28) ⟨0x2b, [first], memory, returned⟩ =
      resume host self message (steps + 23)
        ⟨0x32, [0, 0x20, size message - 0x20, first], memory, returned⟩ :=
    exec_block 5 (Nat.le_of_ble_eq_true rfl) rfl
  refine copying.trans ?_
  by_cases enough : 0x20 ≤ message.calldata.bytes.length
  · calc resume host self message (steps + 23)
          ⟨0x32, [0, 0x20, size message - 0x20, first], memory, returned⟩
      _ = resume host self message (steps + 22)
          ⟨0x33, [first], memory.write 0 (message.calldata.drop 0x20).bytes, returned⟩ :=
        exec_of_step rfl (step_calldataCopy_rest enough rfl (by simp))
      _ = resume host self message (steps + 13)
          ⟨0x3d, [host.gasLeft 0x3c, first, 0, 0, size message - 0x20, 0, 0, first],
            memory.write 0 (message.calldata.drop 0x20).bytes, returned⟩ :=
        exec_block 9 (Nat.le_of_ble_eq_true rfl) rfl
      _ = Prog.ask (S := signature) (.call first.address 0 (message.calldata.drop 0x20))
          (fun reply => resume host self message (steps + 12)
            ⟨0x3e, [if reply.ok then 1 else 0, first],
              memory.write 0 (message.calldata.drop 0x20).bytes, reply.data⟩) :=
        exec_call rfl rfl (load_rest enough memory)
      _ = Prog.ask (S := signature) (.call first.address 0 (message.calldata.drop 0x20))
          Evm.Reply.relay :=
        congrArg _ (funext fun reply => exec_relay tail rfl (by simp) reply)
      _ = pass message.calldata := (if_pos enough).symm
  · rw [pass, if_neg enough]
    exact exec_calldataCopy_halts rfl rfl
      (size_sub_unaffordable 0x20 (by omega) (by omega) _)

theorem resume_fail (first : Word) :
    resume host self message (steps + 7) ⟨0x4c, [first], memory, returned⟩ =
      .fail (.reverted unexpectedCode) := by
  have ran : resume host self message (steps + 7) ⟨0x4c, [first], memory, returned⟩ =
      resume host self message (steps + 1)
        ⟨0x58, [0x1c, 0x04, first],
          memory.write 0 (slice (Word.toBytes 0x27e63c44) 0 32), returned⟩ :=
    exec_block 6 (Nat.le_of_ble_eq_true rfl) rfl
  rw [ran]
  exact exec_revert rfl rfl (load_error memory (by decide +kernel))

/-- After the hash of the code was read. -/
theorem resume_checkHash (reply : Evm.Reply) :
    resume host self message (steps + 33)
        ⟨0x4, [Word.ofBytes (slice reply.data.bytes 0 32),
          Word.ofBytes (slice message.calldata.bytes 0 0x20)], memory, returned⟩ =
      if Expected reply then pass message.calldata else .fail (.reverted unexpectedCode) := by
  let first := Word.ofBytes (slice message.calldata.bytes 0 0x20)
  have compared : resume host self message (steps + 33)
        ⟨0x4, [Word.ofBytes (slice reply.data.bytes 0 32), first], memory, returned⟩ =
      resume host self message (steps + 29)
        ⟨0x2a, [0x4c, if (if Word.ofBytes expectedHash.toList =
          Word.ofBytes (slice reply.data.bytes 0 32) then (1 : Word) else 0) = 0 then 1 else 0,
          first], memory, returned⟩ :=
    exec_block 4 (Nat.le_of_ble_eq_true rfl) rfl
  refine compared.trans ?_
  have nonzero : (1 : Word) ≠ 0 := by decide
  by_cases expected : Expected reply
  · rw [if_pos expected, if_pos (show Word.ofBytes expectedHash.toList = _ from expected),
      if_neg nonzero]
    calc resume host self message (steps + 29) ⟨0x2a, [0x4c, 0, first], memory, returned⟩
      _ = resume host self message (steps + 28) ⟨0x2b, [first], memory, returned⟩ :=
        exec_jumpi_passed rfl rfl rfl
      _ = _ := resume_forward
  · rw [if_neg expected, if_neg (show ¬Word.ofBytes expectedHash.toList = _ from expected),
      if_pos rfl]
    calc resume host self message (steps + 29) ⟨0x2a, [0x4c, 1, first], memory, returned⟩
      _ = resume host self message (steps + 28) ⟨0x4c, [first], memory, returned⟩ :=
        exec_jumpi_taken 0x4c rfl rfl nonzero rfl rfl
      _ = _ := resume_fail first

end Execution

/-- The code of the router does what `router` says. -/
theorem run_runtimeCode (host : Host) (self : Address) (message : Message) (steps : ℕ) :
    run host (steps + 37) runtimeCode self message = router message.calldata := by
  let first := Word.ofBytes (slice message.calldata.bytes 0 0x20)
  have read : disassemble runtimeCode = main := disassemble_assemble _
  rw [run, read]
  calc resume host self message (steps + 37) Machine.start
    _ = resume host self message (steps + 34) ⟨0x3, [first, first], Memory.empty, Payload.empty⟩ :=
      exec_block 3 (Nat.le_of_ble_eq_true rfl) rfl
    _ = Prog.ask (S := signature) (.codeHash first.address)
        (fun reply => resume host self message (steps + 33)
          ⟨0x4, [Word.ofBytes (slice reply.data.bytes 0 32), first], Memory.empty,
            Payload.empty⟩) :=
      exec_extCodeHash rfl rfl
    _ = router message.calldata := congrArg _ (funext fun reply => resume_checkHash reply)

end SuperpositionAccounts.Router
