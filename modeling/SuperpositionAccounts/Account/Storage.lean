import SuperpositionAccounts.CallTree.Rely
import SuperpositionAccounts.Wire.Types

/-!
# Storage, calls and errors of an account

The slots of `storage.rs` by name, the calls the contract makes through the SDK
and the ways it reverts. A slot of a map is named by its key, so different keys
are different slots: this is the injectivity of the SDK's `slot_map`. The layout
of the named slots in the 256-bit address space is given in `Factory.Proxy`.

Token calls are named by the function the SDK encodes and its arguments. The
lock of the reentrancy guard has a slot of its own.
-/

namespace SuperpositionAccounts

open CallTree

namespace U

def zero : U :=
  Bytes.ofNat 32 0

def one : U :=
  Bytes.ofNat 32 1

def two : U :=
  Bytes.ofNat 32 2

def max : U :=
  Bytes.ofNat 32 (2 ^ 256 - 1)

/-- Read a shorter byte array as a word, by left zero padding. -/
def ofBytes {length : ℕ} (bytes : Bytes length) : U :=
  ⟨(List.replicate 32 0 ++ bytes.toList).drop length, by
    rw [List.length_drop, List.length_append, List.length_replicate, List.Vector.toList_length]
    omega⟩

def ofUInt64 (number : UInt64) : U :=
  Bytes.ofNat 32 number.toNat

/-- The address in the low 20 bytes of a word. -/
def addr (word : U) : Address :=
  ⟨word.toList.drop 12, by simp⟩

def isSome (word : U) : Bool :=
  decide (word ≠ zero)

theorem toList_ofBytes {length : ℕ} (bytes : Bytes length) (short : length ≤ 32) :
    (ofBytes bytes).toList = List.replicate (32 - length) 0 ++ bytes.toList := by
  change (List.replicate 32 0 ++ bytes.toList).drop length = _
  rw [List.drop_append_of_le_length (by simpa using short), List.drop_replicate]

theorem toNat_ofBytes {length : ℕ} (bytes : Bytes length) (short : length ≤ 32) :
    (ofBytes bytes).toNat = bytes.toNat := by
  simp only [Bytes.toNat]
  rw [toList_ofBytes bytes short, List.reverse_append, List.reverse_replicate,
    Borsh.ofLeBytes_append_zeros]

end U

/-- The storage slots of an account. -/
inductive Slot where
  | wasCreated
  | ed25519Count
  | ed25519Slot (slot : U)
  | ethereumOwner
  | timestamps (ms : U)
  | version
  | authority
  | slotImpl
  | reentrancy
deriving DecidableEq

/-- A call of a contract. -/
structure Call where
  sender : Address
  calldata : List UInt8

/-- What the contracts ask of the chain and of other contracts. -/
inductive Query where
  | permit (token owner spender : Address) (value deadline : U) (v : UInt8) (r s : U)
  | transferFrom (token sender recipient : Address) (amount : U)
  | approve (token spender : Address) (amount : U)
  | balanceOf (token holder : Address)
  | codeHash (target : Address)
  /-- The static call `allowed(bytes32)` of an authority. -/
  | allowed (authority : Address) (hash : U)
  /-- A call without value of a contract with raw calldata. -/
  | call (target : Address) (cd : List UInt8)
  | create2 (init salt : List UInt8)
  /-- A delegate call of code that is not this contract's. -/
  | delegate (implementation : Address) (cd : List UInt8)
deriving DecidableEq

/-- An answer: whether the call succeeded, the word and the data it returned, and the writes that
foreign code made when it was called by delegation. -/
structure Reply where
  ok : Bool
  word : U
  data : Option (List UInt8)
  writes : List (U × U)

/-- The ways a call reverts. -/
inductive Revert where
  | panic (message : String)
  /-- A revert of Solidity code with its reason. -/
  | reason (message : String)
  /-- The revert data of a failed call, passed on. -/
  | bubble (data : Option (List UInt8))
  /-- The lock of the reentrancy guard is held. -/
  | reentrant
  | halted
deriving DecidableEq

/-- The operations that move funds. -/
inductive Operation where
  | solve
  | solveV2
  | solveV3
  | transferOnly
deriving DecidableEq

/-- What a program marks: the start of the body of an operation, and gas that was paid. -/
inductive Mark where
  | started (operation : Operation)
  | charged (token owner : Address) (amount : UInt64)
deriving DecidableEq

abbrev accountSignature : Signature where
  Addr := Address
  Slot := Slot
  Word := U
  Msg := Call
  Query := Query
  Reply := Reply
  Output := List UInt8
  Err := Revert
  Note := Mark

abbrev Contract (α : Type) := Prog accountSignature α

/-! ### Accessors of `storage.rs` and helpers of the SDK -/

def panic {α : Type} (message : String) : Contract α :=
  Prog.throw (.panic message)

def assert (condition : Bool) (message : String) : Contract Unit :=
  Prog.require condition (.panic message)

/-- Set a fresh slot of a map, or revert. -/
def exchange (slot : Slot) : Contract Unit := do
  let current ← Prog.sload slot
  assert (current = U.zero) "exchange failed"
  Prog.sstore slot U.one

/-- Make a call and revert with its data if it fails. -/
def callOrRevert (query : Query) : Contract Unit := do
  let reply ← Prog.request query
  Prog.require reply.ok (.bubble reply.data)

/-- Run a body while holding the lock of `REENTRANCY_KEY`. -/
def reentrancyGuard {α : Type} (body : Contract α) : Contract α := do
  let lock ← Prog.sload .reentrancy
  Prog.require (lock = U.zero) .reentrant
  Prog.sstore .reentrancy U.one
  let result ← body
  Prog.sstore .reentrancy U.zero
  return result

theorem store_write_of_ne (world : World accountSignature) {self addr : Address}
    {slot other : Slot} (word : U) (different : addr ≠ self ∨ other ≠ slot) :
    (world.write self slot word).store addr other = world.store addr other :=
  World.write_store_of_ne world word different

section Rules

variable {rely : World accountSignature → World accountSignature → Prop}
  {stack : List (Frame accountSignature)} {frame : Frame accountSignature}
  {abort : World accountSignature → Prop}

@[simp]
theorem wp_load (slot : Slot) (post : U → World accountSignature → Prop)
    (world : World accountSignature) :
    Prog.wp (α := U) rely stack frame abort (Prog.sload slot) post world ↔
      post (world.store frame.self slot) world :=
  Iff.rfl

@[simp]
theorem wp_ask (query : Query) (post : Reply → World accountSignature → Prop)
    (world : World accountSignature) :
    Prog.wp (α := Reply) rely stack frame abort (Prog.request query) post world ↔
      abort world ∧ ∀ after reply, rely world after →
        post reply (after.record stack frame (.asked query reply)) :=
  Iff.rfl

theorem wp_assert (condition : Bool) (message : String)
    (post : Unit → World accountSignature → Prop) (world : World accountSignature) :
    (assert condition message).wp rely stack frame abort post world ↔
      if condition then post () world else abort world :=
  Prog.wp_require condition _ post world

/-- After an assertion its condition holds. -/
theorem wp_assert_of {condition : Bool} {message : String}
    {post : Unit → World accountSignature → Prop} {world : World accountSignature}
    (holds : condition = true → post () world) :
    (assert condition message).wp rely stack frame (fun _ => True) post world := by
  rw [wp_assert]
  split
  · rename_i isTrue
    exact holds isTrue
  · trivial

theorem wp_exchange (slot : Slot) (post : Unit → World accountSignature → Prop)
    (world : World accountSignature) :
    (exchange slot).wp rely stack frame abort post world ↔
      if world.store frame.self slot = U.zero then
        abort world ∧ post () (world.write frame.self slot U.one)
      else abort world := by
  simp only [exchange, Prog.wp_bind, wp_load, wp_assert, decide_eq_true_eq]
  rfl

end Rules

end SuperpositionAccounts
