import SuperpositionAccounts.CallTree.Effects
import SuperpositionAccounts.Evm.Machine
import SuperpositionAccounts.Lite.Bytecode
import SuperpositionAccounts.Wire.Types

/-!
# What a LiteAccount does

`account` says in a few lines what the code of a LiteAccount does with a message.
The module `Lite.Execution` proves it of the code.
-/

namespace SuperpositionAccounts.Lite

open CallTree Evm

/-- What a LiteAccount relies on. -/
structure Setting where
  precompiles : Precompiles
  keccak256 : List UInt8 → Word
  gasLeft : ℕ → Word

/-- The verifier takes a digest, a key and a signature, and fails if the signature is wrong. -/
def verifies (precompiles : Precompiles) (input : List UInt8) : Bool :=
  if sized : input.length = 0xa0 then
    precompiles.edphverifyPost ⟨input.take 0x40, by simp [sized]⟩
      ⟨(input.drop 0x40).take 0x20, by simp [sized]⟩ ⟨input.drop 0x60, by simp [sized]⟩
  else false

def Setting.host (setting : Setting) : Host where
  keccak256 := setting.keccak256
  precompile address :=
    if address = addrSha512 then
      some fun input => some ⟨(setting.precompiles.sha512 input).toList, by simp⟩
    else if address = addrEdverify then
      some fun input =>
        if verifies setting.precompiles input then some Payload.empty else none
    else none
  gasLeft := setting.gasLeft

/-! ### The parts of calldata -/

section Calldata

variable (calldata : List UInt8)

def sigOf : Sig :=
  ⟨slice calldata 0 0x40, by simp⟩

def nonceOf : Bytes 16 :=
  ⟨slice calldata 0x40 0x10, by simp⟩

def targetOf : Address :=
  ⟨slice calldata 0x50 0x14, by simp⟩

end Calldata

/-- The calldata that is forwarded. -/
def forwarded (calldata : Payload) : Payload :=
  ⟨calldata.bytes.drop 0x64, by
    have := calldata.short
    simp
    omega⟩

def enabledSlot : Word :=
  0

def Setting.nonceSlot (setting : Setting) (nonce : Bytes 16) : Word :=
  setting.keccak256 (0x01 :: nonce.toList)

/-- `InternalError()`. -/
def internalError : Failure :=
  .reverted ⟨[0xfe, 0x83, 0x5e, 0x35], by simp⟩

/-- `Unverified()`. -/
def unverified : Failure :=
  .reverted ⟨[0xcb, 0xa6, 0x05, 0xa3], by simp⟩

/-- Whether the signature of calldata is the operator's for an account. -/
def Setting.signed (setting : Setting) (operator : U) (self : Address) (calldata : List UInt8) :
    Bool :=
  setting.precompiles.edphverifyPost
    (setting.precompiles.sha512 (self.toList ++ calldata.drop 0x40)) operator (sigOf calldata)

/-- The end of a forwarded call: its outcome is passed on. -/
def passOn (reply : Evm.Reply) : Prog signature Payload :=
  if reply.ok then Prog.ret reply.data else Prog.fail (S := signature) (.reverted reply.data)

/-- The forwarded call. -/
def deliver (message : Message) : Prog signature Payload := do
  Prog.require (S := signature) (0x64 ≤ message.calldata.bytes.length) .halted
  let reply : Evm.Reply ← Prog.request (S := signature)
    (.call (targetOf message.calldata.bytes) 0 (forwarded message.calldata))
  passOn reply

/-- What a LiteAccount does with a message. -/
def account (setting : Setting) (owner : Address) (operator : U) (self : Address)
    (message : Message) : Prog signature Payload :=
  let calldata := message.calldata.bytes
  let slot := setting.nonceSlot (nonceOf calldata)
  if message.sender = owner then do
    Prog.sstore (S := signature) enabledSlot (Word.ofBytes (slice calldata 0 0x20))
    return Payload.empty
  else do
    let enabled : Word ← Prog.sload (S := signature) enabledSlot
    Prog.require (S := signature) (enabled ≠ 0) internalError
    Prog.require (S := signature) (0x40 ≤ calldata.length) .halted
    let used : Word ← Prog.sload (S := signature) slot
    Prog.require (S := signature) (used = 0) internalError
    Prog.sstore (S := signature) slot 1
    Prog.require (S := signature) (setting.signed operator self calldata) unverified
    deliver message

section Branches

variable {setting : Setting} {owner : Address} {operator : U} {self : Address} {message : Message}

theorem deliver_eq (message : Message) :
    deliver message =
      if 0x64 ≤ message.calldata.bytes.length then
        Prog.ask (S := signature) (.call (targetOf message.calldata.bytes) 0
          (forwarded message.calldata)) passOn
      else .fail .halted := by
  simp only [deliver, Prog.require_bind, decide_eq_true_eq]
  rfl

theorem account_owner (privileged : message.sender = owner) :
    account setting owner operator self message =
      .store enabledSlot (Word.ofBytes (slice message.calldata.bytes 0 0x20))
        (.ret Payload.empty) := by
  rw [account, if_pos privileged]
  rfl

theorem account_other (unprivileged : message.sender ≠ owner) :
    account setting owner operator self message =
      .load enabledSlot fun enabled =>
        if enabled = 0 then .fail internalError
        else if 0x40 ≤ message.calldata.bytes.length then
          .load (setting.nonceSlot (nonceOf message.calldata.bytes)) fun used =>
            if used = 0 then
              .store (setting.nonceSlot (nonceOf message.calldata.bytes)) 1
                (if setting.signed operator self message.calldata.bytes then deliver message
                else .fail unverified)
            else .fail internalError
        else .fail .halted := by
  rw [account, if_neg unprivileged]
  simp only [Prog.sstore_bind, Prog.require_bind, decide_eq_true_eq, ite_not]
  rfl

end Branches

/-! ### The argument -/

/-- The form of calldata, without padding. -/
@[ext]
structure Argument where
  sigA : Bytes 32
  sigB : Bytes 32
  nonce : Bytes 16
  target : Address
  cd : Payload

namespace Argument

variable (argument : Argument)

def bytes : List UInt8 :=
  argument.sigA.toList ++ (argument.sigB.toList ++ (argument.nonce.toList ++
    (argument.target.toList ++ argument.cd.bytes)))

def sig : Sig :=
  ⟨argument.sigA.toList ++ argument.sigB.toList, by simp⟩

/-- What the operator signs for an account. -/
def signedBytes (self : Address) : List UInt8 :=
  self.toList ++ (argument.nonce.toList ++ (argument.target.toList ++ argument.cd.bytes))

theorem length_bytes : argument.bytes.length = 0x64 + argument.cd.bytes.length := by
  simp [bytes]
  omega

theorem sigOf_bytes : sigOf argument.bytes = argument.sig := by
  have split : argument.bytes = [] ++ (argument.sig.toList ++ (argument.nonce.toList ++
      (argument.target.toList ++ argument.cd.bytes))) := by
    simp [bytes, sig]
  apply List.Vector.eq
  change slice argument.bytes 0 0x40 = argument.sig.toList
  rw [split]
  exact slice_middle rfl (by simp)

theorem nonceOf_bytes : nonceOf argument.bytes = argument.nonce := by
  have split : argument.bytes = argument.sig.toList ++ (argument.nonce.toList ++
      (argument.target.toList ++ argument.cd.bytes)) := by
    simp [bytes, sig]
  apply List.Vector.eq
  change slice argument.bytes 0x40 0x10 = argument.nonce.toList
  rw [split]
  exact slice_middle (by simp) (by simp)

theorem targetOf_bytes : targetOf argument.bytes = argument.target := by
  have split : argument.bytes = (argument.sig.toList ++ argument.nonce.toList) ++
      (argument.target.toList ++ argument.cd.bytes) := by
    simp [bytes, sig]
  apply List.Vector.eq
  change slice argument.bytes 0x50 0x14 = argument.target.toList
  rw [split]
  exact slice_middle (by simp) (by simp)

theorem drop_bytes : argument.bytes.drop 0x40 =
    argument.nonce.toList ++ (argument.target.toList ++ argument.cd.bytes) := by
  have split : argument.bytes = argument.sig.toList ++ (argument.nonce.toList ++
      (argument.target.toList ++ argument.cd.bytes)) := by
    simp [bytes, sig]
  rw [split]
  exact List.drop_left' (by simp)

theorem forwarded_eq {calldata : Payload} (reads : calldata.bytes = argument.bytes) :
    forwarded calldata = argument.cd := by
  have split : argument.bytes = (argument.sig.toList ++ (argument.nonce.toList ++
      argument.target.toList)) ++ argument.cd.bytes := by
    simp [bytes, sig]
  apply Payload.ext
  change calldata.bytes.drop 0x64 = argument.cd.bytes
  rw [reads, split]
  exact List.drop_left' (by simp)

theorem bytes_injective : Function.Injective bytes := by
  intro left right same
  rcases List.append_inj same (by simp) with ⟨sameSigA, same⟩
  rcases List.append_inj same (by simp) with ⟨sameSigB, same⟩
  rcases List.append_inj same (by simp) with ⟨sameNonce, same⟩
  rcases List.append_inj same (by simp) with ⟨sameTarget, sameCd⟩
  exact Argument.ext (List.Vector.eq _ _ sameSigA) (List.Vector.eq _ _ sameSigB)
    (List.Vector.eq _ _ sameNonce) (List.Vector.eq _ _ sameTarget) (Payload.ext sameCd)

/-- Calldata that is long enough has the form. -/
theorem exists_of_length {calldata : Payload} (enough : 0x64 ≤ calldata.bytes.length) :
    ∃ argument : Argument, calldata.bytes = argument.bytes := by
  refine ⟨⟨⟨slice calldata.bytes 0 0x20, by simp⟩, ⟨slice calldata.bytes 0x20 0x20, by simp⟩,
    nonceOf calldata.bytes, targetOf calldata.bytes, forwarded calldata⟩, ?_⟩
  have head : calldata.bytes.take 0x64 =
      slice calldata.bytes 0 0x20 ++ (slice calldata.bytes 0x20 0x20 ++
        (slice calldata.bytes 0x40 0x10 ++ slice calldata.bytes 0x50 0x14)) := by
    calc calldata.bytes.take 0x64
      _ = slice calldata.bytes 0 (0x20 + (0x20 + (0x10 + 0x14))) := by
        rw [slice_eq_take_drop (by omega), List.drop_zero]
      _ = _ := by
        rw [slice_add _ 0 0x20, slice_add _ (0 + 0x20) 0x20, slice_add _ (0 + 0x20 + 0x20) 0x10]
  calc calldata.bytes
    _ = calldata.bytes.take 0x64 ++ calldata.bytes.drop 0x64 := (List.take_append_drop _ _).symm
    _ = _ := by
      rw [head]
      simp [bytes, nonceOf, targetOf, forwarded]

end Argument

end SuperpositionAccounts.Lite
