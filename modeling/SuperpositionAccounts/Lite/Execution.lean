import SuperpositionAccounts.Lite.Account

/-!
# The code of a LiteAccount, executed

The code, run by the machine, is the program `account`: for every owner and
operator, every message, and every number of steps that is large enough. The
code is followed block by block, from its end to its start, so that each lemma is
about the rest of a run.

On short calldata the code computes `size - 0x40` and `size - 0x64` below zero and
asks for more memory than there is gas.
-/

namespace SuperpositionAccounts.Lite

open CallTree Evm

variable {setting : Setting} {owner : Address} {operator : U} {self : Address}
  {message : Message} {steps : ℕ} {memory : Memory} {returned : Payload}

variable (setting owner operator self message) in
/-- The rest of a run of the code. -/
abbrev resume (steps : ℕ) (machine : Machine) : Prog signature Payload :=
  exec setting.host ⟨runtimeCode owner operator, self, message⟩ (main owner operator) steps machine

theorem target_address (calldata : List UInt8) :
    Word.address (Word.ofBytes (slice calldata 0x50 0x20) >>> 0x60) = targetOf calldata := by
  have split : slice calldata 0x50 0x20 =
      (targetOf calldata).toList ++ slice calldata 0x64 0xc := slice_add calldata 0x50 0x14 0xc
  have shifted : Word.ofBytes ((targetOf calldata).toList ++ slice calldata 0x64 0xc) >>>
        (8 * (slice calldata 0x64 0xc).length) = Word.ofBytes (targetOf calldata).toList :=
    Word.ofBytes_append_shiftRight (by simp)
  rw [length_slice] at shifted
  rw [split, shifted, Word.address_ofBytes]

/-! ### The code from its end to its start -/

/-- After the forwarded call. -/
theorem resume_reply (reply : Evm.Reply) (a b c d e f g : Word) :
    resume setting owner operator self message (steps + 12)
        ⟨0xde, [if reply.ok then 1 else 0, a, b, c, d, e, f, g], memory, reply.data⟩ =
      passOn reply := by
  have tail : instructionsAt (main owner operator) 0xde = relayTail 0xea ++ [] := rfl
  exact exec_relay tail rfl (by simp) reply

/-- After the signature was verified. -/
theorem resume_forward (a b c : Word) :
    resume setting owner operator self message (steps + 27)
        ⟨0xce, [a, b, c, size message - 0x64, 0x64, 0x60, 0x40], memory, returned⟩ =
      deliver message := by
  have copying : resume setting owner operator self message (steps + 27)
        ⟨0xce, [a, b, c, size message - 0x64, 0x64, 0x60, 0x40], memory, returned⟩ =
      resume setting owner operator self message (steps + 24)
        ⟨0xd1, [0, 0x64, size message - 0x64, a, b, c, size message - 0x64, 0x64, 0x60, 0x40],
          memory, returned⟩ := exec_block 3 (Nat.le_of_ble_eq_true rfl) rfl
  rw [copying]
  by_cases enough : 0x64 ≤ message.calldata.bytes.length
  · calc _
      _ = resume setting owner operator self message (steps + 23)
          ⟨0xd2, [a, b, c, size message - 0x64, 0x64, 0x60, 0x40],
            memory.write 0 (forwarded message.calldata).bytes, returned⟩ :=
        exec_of_step rfl (step_calldataCopy_rest enough rfl (by simp))
      _ = resume setting owner operator self message (steps + 13)
          ⟨0xdd, [setting.gasLeft 0xdc,
            Word.ofBytes (slice message.calldata.bytes 0x50 0x20) >>> 0x60, 0, 0,
            size message - 0x64, 0, 0, a, b, c, size message - 0x64, 0x64, 0x60, 0x40],
            memory.write 0 (forwarded message.calldata).bytes, returned⟩ :=
        exec_block 10 (Nat.le_of_ble_eq_true rfl) rfl
      _ = Prog.ask (S := signature) (.call (Word.address (Word.ofBytes
            (slice message.calldata.bytes 0x50 0x20) >>> 0x60)) 0 (forwarded message.calldata))
          (fun reply => resume setting owner operator self message (steps + 12)
            ⟨0xde, [if reply.ok then 1 else 0, a, b, c, size message - 0x64, 0x64, 0x60, 0x40],
              memory.write 0 (forwarded message.calldata).bytes, reply.data⟩) :=
        exec_call rfl rfl (load_rest enough memory)
      _ = Prog.ask (S := signature) (.call (targetOf message.calldata.bytes) 0
            (forwarded message.calldata)) passOn := by
        rw [target_address]
        congr 1
        funext reply
        exact resume_reply reply _ _ _ _ _ _ _
      _ = deliver message := by
        rw [deliver_eq, if_pos enough]
  · rw [deliver_eq, if_neg enough]
    exact exec_calldataCopy_halts rfl rfl
      (size_sub_unaffordable 0x64 (by omega) (by omega) _)

/-- The label `REVERT`: four bytes of an error. It is reached with two shapes of the stack. -/
theorem resume_revert (selector : Word) {error : Payload} {rest : List Word}
    (bytes : selector.toBytes.drop 0x1c = error.bytes)
    (shape : rest = [] ∨ ∃ a b c d e f, rest = [a, b, c, d, e, f]) :
    resume setting owner operator self message (steps + 6)
        ⟨0x27, selector :: rest, memory, returned⟩ = .fail (.reverted error) := by
  have ran : resume setting owner operator self message (steps + 6)
        ⟨0x27, selector :: rest, memory, returned⟩ =
      resume setting owner operator self message (steps + 1)
        ⟨0x2e, 0x1c :: 0x04 :: rest, memory.write 0 (slice selector.toBytes 0 32), returned⟩ := by
    rcases shape with rfl | ⟨a, b, c, d, e, f, rfl⟩
    · exact exec_block 5 (Nat.le_of_ble_eq_true rfl) rfl
    · exact exec_block 5 (Nat.le_of_ble_eq_true rfl) rfl
  rw [ran]
  exact exec_revert rfl rfl (load_error memory bytes)

/-- After the verifier has answered. -/
theorem resume_verdict (verdict : Bool) (a : Word) :
    resume setting owner operator self message (steps + 32)
        ⟨0xc3, [if verdict then 1 else 0, a, size message - 0x64, 0x64, 0x60, 0x40], memory,
          returned⟩ =
      if verdict then deliver message else .fail unverified := by
  cases verdict with
  | true =>
      calc resume setting owner operator self message (steps + 32)
            ⟨0xc3, [1, a, size message - 0x64, 0x64, 0x60, 0x40], memory, returned⟩
        _ = resume setting owner operator self message (steps + 28)
            ⟨0xcd, [0x27, 0, 0xcba605a3, 1, a, size message - 0x64, 0x64, 0x60, 0x40], memory,
              returned⟩ :=
          exec_block 4 (Nat.le_of_ble_eq_true rfl) rfl
        _ = resume setting owner operator self message (steps + 27)
            ⟨0xce, [0xcba605a3, 1, a, size message - 0x64, 0x64, 0x60, 0x40], memory,
              returned⟩ :=
          exec_jumpi_passed rfl rfl rfl
        _ = _ := resume_forward 0xcba605a3 1 a
  | false =>
      have nonzero : (1 : Word) ≠ 0 := by decide
      calc resume setting owner operator self message (steps + 32)
            ⟨0xc3, [0, a, size message - 0x64, 0x64, 0x60, 0x40], memory, returned⟩
        _ = resume setting owner operator self message (steps + 28)
            ⟨0xcd, [0x27, 1, 0xcba605a3, 0, a, size message - 0x64, 0x64, 0x60, 0x40], memory,
              returned⟩ :=
          exec_block 4 (Nat.le_of_ble_eq_true rfl) rfl
        _ = resume setting owner operator self message (steps + 27)
            ⟨0x27, [0xcba605a3, 0, a, size message - 0x64, 0x64, 0x60, 0x40], memory,
              returned⟩ :=
          exec_jumpi_taken 0x27 rfl rfl nonzero rfl rfl
        _ = _ :=
          resume_revert 0xcba605a3 (by decide +kernel) (Or.inr ⟨_, _, _, _, _, _, rfl⟩)

/-- The input of the verifier. -/
def verifierInput (digest : Bytes 64) (key : U) (sig : Sig) : Payload :=
  ⟨digest.toList ++ (key.toList ++ sig.toList), by simp⟩

theorem verifierInput_read (memory : Memory) (digest : Bytes 64) (key : U) (sig : Sig) :
    (((memory.write 0 digest.toList).write 0x40 key.toList).write 0x60 sig.toList).read 0 0xa0 =
      (verifierInput digest key sig).bytes := by
  have first : (((memory.write 0 digest.toList).write 0x40 key.toList).write 0x60
      sig.toList).read 0 0x40 = digest.toList := by
    rw [Memory.read_write_apart _ (by omega), Memory.read_write_apart _ (by omega),
      Memory.read_write_self _ _ (by simp)]
  have second : (((memory.write 0 digest.toList).write 0x40 key.toList).write 0x60
      sig.toList).read 0x40 0x20 = key.toList := by
    rw [Memory.read_write_apart _ (by omega), Memory.read_write_self _ _ (by simp)]
  have third : (((memory.write 0 digest.toList).write 0x40 key.toList).write 0x60
      sig.toList).read 0x60 0x40 = sig.toList :=
    Memory.read_write_self _ _ (by simp)
  rw [Memory.read_add _ 0 0x40 0x60, Memory.read_add _ 0x40 0x20 0x40, first, second, third]
  rfl

theorem verifies_input (precompiles : Precompiles) (digest : Bytes 64) (key : U) (sig : Sig) :
    verifies precompiles (verifierInput digest key sig).bytes =
      precompiles.edphverifyPost digest key sig := by
  rw [verifies, dif_pos (by simp [verifierInput])]
  congr 1
  · apply List.Vector.eq
    exact List.take_left' digest.toList_length
  · apply List.Vector.eq
    change ((digest.toList ++ (key.toList ++ sig.toList)).drop 0x40).take 0x20 = key.toList
    rw [List.drop_left' digest.toList_length, List.take_left' key.toList_length]
  · apply List.Vector.eq
    change (digest.toList ++ (key.toList ++ sig.toList)).drop 0x60 = sig.toList
    rw [← List.append_assoc, List.drop_left' (by simp)]

theorem precompile_sha512 : setting.host.precompile (Word.ofBytes addrSha512.toList).address =
    some fun input => some ⟨(setting.precompiles.sha512 input).toList, by simp⟩ := by
  simp [Setting.host, Word.address_ofBytes]

theorem precompile_edverify : setting.host.precompile (Word.ofBytes addrEdverify.toList).address =
    some fun input =>
      if verifies setting.precompiles input then some Payload.empty else none := by
  have other : addrEdverify ≠ addrSha512 := by decide
  simp [Setting.host, Word.address_ofBytes, other]

/-- The call of the verifier. -/
theorem resume_verifier (digest : Bytes 64) (a g : Word)
    (loaded : memory.load 0 0xa0 =
      some (verifierInput digest operator (sigOf message.calldata.bytes))) :
    resume setting owner operator self message (steps + 33)
        ⟨0xc2, [g, Word.ofBytes addrEdverify.toList, 0, 0xa0, 0, 0, a, size message - 0x64, 0x64,
          0x60, 0x40], memory, returned⟩ =
      if setting.precompiles.edphverifyPost digest operator (sigOf message.calldata.bytes) then
        deliver message
      else .fail unverified := by
  rw [← verifies_input]
  cases verdict : verifies setting.precompiles
      (verifierInput digest operator (sigOf message.calldata.bytes)).bytes with
  | true =>
      have called : resume setting owner operator self message (steps + 33)
            ⟨0xc2, [g, Word.ofBytes addrEdverify.toList, 0, 0xa0, 0, 0, a, size message - 0x64,
              0x64, 0x60, 0x40], memory, returned⟩ =
          resume setting owner operator self message (steps + 32)
            ⟨0xc3, [1, a, size message - 0x64, 0x64, 0x60, 0x40], memory, Payload.empty⟩ :=
        exec_precompile rfl rfl loaded precompile_edverify (by rw [verdict]; rfl)
      rw [called]
      exact resume_verdict true a
  | false =>
      have called : resume setting owner operator self message (steps + 33)
            ⟨0xc2, [g, Word.ofBytes addrEdverify.toList, 0, 0xa0, 0, 0, a, size message - 0x64,
              0x64, 0x60, 0x40], memory, returned⟩ =
          resume setting owner operator self message (steps + 32)
            ⟨0xc3, [0, a, size message - 0x64, 0x64, 0x60, 0x40], memory, Payload.empty⟩ :=
        exec_precompile_fails rfl rfl loaded precompile_edverify (by rw [verdict]; rfl)
      rw [called]
      exact resume_verdict false a

/-- After the message was hashed. -/
theorem resume_verify (digest : Bytes 64) {hash : Payload} (hashed : hash.bytes = digest.toList)
    (a : Word) :
    resume setting owner operator self message (steps + 50)
        ⟨0x7c, [a, size message - 0x64, 0x64, 0x60, 0x40], memory, hash⟩ =
      if setting.precompiles.edphverifyPost digest operator (sigOf message.calldata.bytes) then
        deliver message
      else .fail unverified := by
  calc resume setting owner operator self message (steps + 50)
        ⟨0x7c, [a, size message - 0x64, 0x64, 0x60, 0x40], memory, hash⟩
    _ = resume setting owner operator self message (steps + 47)
        ⟨0x7f, [0, 0, BitVec.ofNat 256 hash.bytes.length, a, size message - 0x64, 0x64, 0x60,
          0x40], memory, hash⟩ :=
      exec_block 3 (Nat.le_of_ble_eq_true rfl) rfl
    _ = resume setting owner operator self message (steps + 46)
        ⟨0x80, [a, size message - 0x64, 0x64, 0x60, 0x40], memory.write 0 hash.bytes, hash⟩ :=
      exec_of_step rfl (step_returndataCopy rfl (by simp))
    _ = resume setting owner operator self message (steps + 33)
        ⟨0xc2, [setting.gasLeft 0xc1, Word.ofBytes addrEdverify.toList, 0, 0xa0, 0, 0, a,
          size message - 0x64, 0x64, 0x60, 0x40],
          ((memory.write 0 hash.bytes).write 0x40
            (slice (Word.ofBytes operator.toList).toBytes 0 32)).write 0x60
            (sigOf message.calldata.bytes).toList, hash⟩ :=
      exec_block 13 (Nat.le_of_ble_eq_true rfl) rfl
    _ = resume setting owner operator self message (steps + 33)
        ⟨0xc2, [setting.gasLeft 0xc1, Word.ofBytes addrEdverify.toList, 0, 0xa0, 0, 0, a,
          size message - 0x64, 0x64, 0x60, 0x40],
          ((memory.write 0 digest.toList).write 0x40 operator.toList).write 0x60
            (sigOf message.calldata.bytes).toList, hash⟩ := by
      rw [hashed, Word.slice_toBytes, Word.toBytes_ofBytes (by simp)]
      simp
    _ = _ :=
      resume_verifier digest a (setting.gasLeft 0xc1)
        (load_eq (by decide) (verifierInput_read memory digest operator
          (sigOf message.calldata.bytes)))

/-- The input of the hash. -/
def hashInput (self : Address) (calldata : Payload) : Payload :=
  ⟨self.toList ++ calldata.bytes.drop 0x40, by
    have := calldata.short
    simp
    omega⟩

theorem hashInput_read (enough : 0x40 ≤ message.calldata.bytes.length)
    (copied : memory.read 0x20 (message.calldata.bytes.length - 0x40) =
      message.calldata.bytes.drop 0x40) :
    (memory.write 0 (Word.ofBytes self.toList).toBytes).read 0x0c
        (message.calldata.bytes.length - 0x2c) =
      (hashInput self message.calldata).bytes := by
  have first : (memory.write 0 (Word.ofBytes self.toList).toBytes).read (0 + 0x0c) 0x14 =
      self.toList := by
    rw [Memory.read_write_end _ (by simp), Word.toBytes_ofBytes (by simp)]
    simp
  have second : (memory.write 0 (Word.ofBytes self.toList).toBytes).read (0x0c + 0x14)
      (message.calldata.bytes.length - 0x40) = message.calldata.bytes.drop 0x40 := by
    rw [Memory.read_write_apart _ (by simp)]
    exact copied
  have total : message.calldata.bytes.length - 0x2c =
      0x14 + (message.calldata.bytes.length - 0x40) := by omega
  rw [total, Memory.read_add, second]
  rw [Nat.zero_add] at first
  rw [first]
  rfl

/-- After the nonce was consumed. -/
theorem resume_hash (enough : 0x40 ≤ message.calldata.bytes.length)
    (copied : memory.read 0x20 (message.calldata.bytes.length - 0x40) =
      message.calldata.bytes.drop 0x40) :
    resume setting owner operator self message (steps + 62)
        ⟨0x5a, [size message - 0x64, 0x64, 0x60, 0x40], memory, returned⟩ =
      if setting.signed operator self message.calldata.bytes then deliver message
      else .fail unverified := by
  have length : (size message - 0x2c).toNat = message.calldata.bytes.length - 0x2c :=
    toNat_size_sub 0x2c (by omega)
  have loaded : (memory.write 0 (Word.ofBytes self.toList).toBytes).load 0x0c
      (size message - 0x2c) = some (hashInput self message.calldata) := by
    have := message.calldata.short
    apply load_eq
    · rw [length]
      exact Or.inr (by simp; omega)
    · rw [length]
      exact hashInput_read enough copied
  calc resume setting owner operator self message (steps + 62)
        ⟨0x5a, [size message - 0x64, 0x64, 0x60, 0x40], memory, returned⟩
    _ = resume setting owner operator self message (steps + 51)
        ⟨0x7b, [setting.gasLeft 0x7a, Word.ofBytes addrSha512.toList, 0x0c, size message - 0x2c,
          0, 0, size message - 0x64, 0x64, 0x60, 0x40],
          memory.write 0 (slice (Word.ofBytes self.toList).toBytes 0 32), returned⟩ :=
      exec_block 11 (Nat.le_of_ble_eq_true rfl) rfl
    _ = resume setting owner operator self message (steps + 51)
        ⟨0x7b, [setting.gasLeft 0x7a, Word.ofBytes addrSha512.toList, 0x0c, size message - 0x2c,
          0, 0, size message - 0x64, 0x64, 0x60, 0x40],
          memory.write 0 (Word.ofBytes self.toList).toBytes, returned⟩ := by
      rw [Word.slice_toBytes]
    _ = resume setting owner operator self message (steps + 50)
        ⟨0x7c, [1, size message - 0x64, 0x64, 0x60, 0x40],
          memory.write 0 (Word.ofBytes self.toList).toBytes,
          ⟨(setting.precompiles.sha512 (hashInput self message.calldata).bytes).toList,
            by simp⟩⟩ :=
      exec_precompile rfl rfl loaded precompile_sha512 rfl
    _ = _ := resume_verify _ rfl 1

/-- The input of the hash that gives a nonce its slot. The nonce is zero-filled if the calldata
is too short. -/
theorem nonceInput_read (message : Message) :
    ((Memory.empty.write 0x20 (message.calldata.bytes.drop 0x40)).write 0
        (1 : Word).toBytes).read 0x1f 0x11 =
      0x01 :: (nonceOf message.calldata.bytes).toList := by
  have first : ((Memory.empty.write 0x20 (message.calldata.bytes.drop 0x40)).write 0
      (1 : Word).toBytes).read (0 + 0x1f) 1 = [0x01] := by
    rw [Memory.read_write_end _ (by simp)]
    decide +kernel
  have second : ((Memory.empty.write 0x20 (message.calldata.bytes.drop 0x40)).write 0
      (1 : Word).toBytes).read 0x20 0x10 = (nonceOf message.calldata.bytes).toList := by
    rw [Memory.read_write_apart _ (by simp), Memory.read_write_empty, slice_drop]
    rfl
  rw [Memory.read_add _ 0x1f 1 0x10, second]
  rw [Nat.zero_add] at first
  rw [first]
  rfl

theorem resume_internalErr {rest : List Word}
    (shape : rest = [] ∨ ∃ a b c d e f, rest = [a, b, c, d, e, f]) :
    resume setting owner operator self message (steps + 8) ⟨0x21, rest, memory, returned⟩ =
      .fail internalError := by
  have ran : resume setting owner operator self message (steps + 8)
        ⟨0x21, rest, memory, returned⟩ =
      resume setting owner operator self message (steps + 6)
        ⟨0x27, 0xfe835e35 :: rest, memory, returned⟩ := by
    rcases shape with rfl | ⟨a, b, c, d, e, f, rfl⟩
    · exact exec_block 2 (Nat.le_of_ble_eq_true rfl) rfl
    · exact exec_block 2 (Nat.le_of_ble_eq_true rfl) rfl
  rw [ran]
  exact resume_revert 0xfe835e35 (by decide +kernel) shape

/-- After the slot of the nonce was read. -/
theorem resume_used (used slot : Word) (enough : 0x40 ≤ message.calldata.bytes.length)
    (copied : memory.read 0x20 (message.calldata.bytes.length - 0x40) =
      message.calldata.bytes.drop 0x40) :
    resume setting owner operator self message (steps + 65)
        ⟨0x55, [used, slot, 1, size message - 0x64, 0x64, 0x60, 0x40], memory, returned⟩ =
      if used = 0 then
        .store slot 1
          (if setting.signed operator self message.calldata.bytes then deliver message
          else .fail unverified)
      else .fail internalError := by
  have pushed : resume setting owner operator self message (steps + 65)
        ⟨0x55, [used, slot, 1, size message - 0x64, 0x64, 0x60, 0x40], memory, returned⟩ =
      resume setting owner operator self message (steps + 64)
        ⟨0x58, [0x21, used, slot, 1, size message - 0x64, 0x64, 0x60, 0x40], memory, returned⟩ :=
    exec_block 1 (Nat.le_of_ble_eq_true rfl) rfl
  rw [pushed]
  by_cases fresh : used = 0
  · rw [if_pos fresh]
    calc _
      _ = resume setting owner operator self message (steps + 63)
          ⟨0x59, [slot, 1, size message - 0x64, 0x64, 0x60, 0x40], memory, returned⟩ :=
        exec_jumpi_passed rfl rfl fresh
      _ = .store slot 1 (resume setting owner operator self message (steps + 62)
          ⟨0x5a, [size message - 0x64, 0x64, 0x60, 0x40], memory, returned⟩) :=
        exec_sstore rfl rfl
      _ = _ := by
        rw [resume_hash enough copied]
  · rw [if_neg fresh]
    calc _
      _ = resume setting owner operator self message (steps + 63)
          ⟨0x21, [slot, 1, size message - 0x64, 0x64, 0x60, 0x40], memory, returned⟩ :=
        exec_jumpi_taken 0x21 rfl rfl fresh rfl rfl
      _ = _ := resume_internalErr (Or.inr ⟨_, _, _, _, _, _, rfl⟩)

/-- After the calldata was copied. -/
theorem resume_nonce (enough : 0x40 ≤ message.calldata.bytes.length) :
    resume setting owner operator self message (steps + 74)
        ⟨0x48, [size message - 0x64, 0x64, 0x60, 0x40],
          Memory.empty.write 0x20 (message.calldata.bytes.drop 0x40), returned⟩ =
      .load (setting.nonceSlot (nonceOf message.calldata.bytes)) fun used =>
        if used = 0 then
          .store (setting.nonceSlot (nonceOf message.calldata.bytes)) 1
            (if setting.signed operator self message.calldata.bytes then deliver message
            else .fail unverified)
        else .fail internalError := by
  have copied : ((Memory.empty.write 0x20 (message.calldata.bytes.drop 0x40)).write 0
      (1 : Word).toBytes).read 0x20 (message.calldata.bytes.length - 0x40) =
      message.calldata.bytes.drop 0x40 := by
    rw [Memory.read_write_apart _ (by simp), Memory.read_write_self _ _ (by simp)]
  have hashed : setting.keccak256 (((Memory.empty.write 0x20
      (message.calldata.bytes.drop 0x40)).write 0 (1 : Word).toBytes).read 0x1f 0x11) =
      setting.nonceSlot (nonceOf message.calldata.bytes) := by
    rw [nonceInput_read]
    rfl
  calc resume setting owner operator self message (steps + 74)
        ⟨0x48, [size message - 0x64, 0x64, 0x60, 0x40],
          Memory.empty.write 0x20 (message.calldata.bytes.drop 0x40), returned⟩
    _ = resume setting owner operator self message (steps + 66)
        ⟨0x54, [setting.keccak256 (((Memory.empty.write 0x20
            (message.calldata.bytes.drop 0x40)).write 0 (slice (1 : Word).toBytes 0 32)).read
              0x1f 0x11),
          setting.keccak256 (((Memory.empty.write 0x20
            (message.calldata.bytes.drop 0x40)).write 0 (slice (1 : Word).toBytes 0 32)).read
              0x1f 0x11),
          1, size message - 0x64, 0x64, 0x60, 0x40],
          (Memory.empty.write 0x20 (message.calldata.bytes.drop 0x40)).write 0
            (slice (1 : Word).toBytes 0 32), returned⟩ :=
      exec_block 8 (Nat.le_of_ble_eq_true rfl) rfl
    _ = resume setting owner operator self message (steps + 66)
        ⟨0x54, [setting.nonceSlot (nonceOf message.calldata.bytes),
          setting.nonceSlot (nonceOf message.calldata.bytes), 1, size message - 0x64, 0x64, 0x60,
          0x40],
          (Memory.empty.write 0x20 (message.calldata.bytes.drop 0x40)).write 0
            (1 : Word).toBytes, returned⟩ := by
      rw [Word.slice_toBytes, hashed]
    _ = .load (setting.nonceSlot (nonceOf message.calldata.bytes)) fun used =>
        resume setting owner operator self message (steps + 65)
          ⟨0x55, [used, setting.nonceSlot (nonceOf message.calldata.bytes), 1,
            size message - 0x64, 0x64, 0x60, 0x40],
            (Memory.empty.write 0x20 (message.calldata.bytes.drop 0x40)).write 0
              (1 : Word).toBytes, returned⟩ :=
      exec_sload rfl rfl
    _ = _ := by
      congr 1
      funext used
      exact resume_used used _ enough copied

/-- The label `FALLBACK`, given that the account is enabled. -/
theorem resume_fallback :
    resume setting owner operator self message (steps + 87)
        ⟨0x37, [], Memory.empty, returned⟩ =
      if 0x40 ≤ message.calldata.bytes.length then
        .load (setting.nonceSlot (nonceOf message.calldata.bytes)) fun used =>
          if used = 0 then
            .store (setting.nonceSlot (nonceOf message.calldata.bytes)) 1
              (if setting.signed operator self message.calldata.bytes then deliver message
              else .fail unverified)
          else .fail internalError
      else .fail .halted := by
  have copying : resume setting owner operator self message (steps + 87)
        ⟨0x37, [], Memory.empty, returned⟩ =
      resume setting owner operator self message (steps + 75)
        ⟨0x47, [0x20, 0x40, size message - 0x40, size message - 0x64, 0x64, 0x60, 0x40],
          Memory.empty, returned⟩ := exec_block 12 (Nat.le_of_ble_eq_true rfl) rfl
  rw [copying]
  by_cases enough : 0x40 ≤ message.calldata.bytes.length
  · have length : (size message - 0x40).toNat = message.calldata.bytes.length - 0x40 :=
      toNat_size_sub 0x40 enough
    have affordable : Affordable (0x20 : Word).toNat (size message - 0x40).toNat := by
      have := message.calldata.short
      rw [length]
      exact Or.inr (by simp; omega)
    have copied : slice message.calldata.bytes (0x40 : Word).toNat (size message - 0x40).toNat =
        message.calldata.bytes.drop 0x40 := by
      rw [length]
      exact slice_to_end message.calldata.bytes 0x40
    rw [if_pos enough]
    calc _
      _ = resume setting owner operator self message (steps + 74)
          ⟨0x48, [size message - 0x64, 0x64, 0x60, 0x40],
            Memory.empty.write 0x20 (slice message.calldata.bytes (0x40 : Word).toNat
              (size message - 0x40).toNat), returned⟩ :=
        exec_of_step rfl (step_calldataCopy rfl (by simp) affordable)
      _ = resume setting owner operator self message (steps + 74)
          ⟨0x48, [size message - 0x64, 0x64, 0x60, 0x40],
            Memory.empty.write 0x20 (message.calldata.bytes.drop 0x40), returned⟩ := by
        rw [copied]
      _ = _ := resume_nonce enough
  · rw [if_neg enough]
    exact exec_calldataCopy_halts rfl rfl
      (size_sub_unaffordable 0x40 (by omega) (by omega) _)

/-- The label `PRIVILEGED`. -/
theorem resume_privileged :
    resume setting owner operator self message (steps + 8)
        ⟨0x2f, [], Memory.empty, returned⟩ =
      .store enabledSlot (Word.ofBytes (slice message.calldata.bytes 0 0x20))
        (.ret Payload.empty) := by
  have loaded : Memory.empty.load 0 0 = some Payload.empty := load_eq (by decide) rfl
  calc resume setting owner operator self message (steps + 8)
        ⟨0x2f, [], Memory.empty, returned⟩
    _ = resume setting owner operator self message (steps + 4)
        ⟨0x33, [0, Word.ofBytes (slice message.calldata.bytes 0 0x20)], Memory.empty,
          returned⟩ :=
      exec_block 4 (Nat.le_of_ble_eq_true rfl) rfl
    _ = .store 0 (Word.ofBytes (slice message.calldata.bytes 0 0x20))
        (resume setting owner operator self message (steps + 3)
          ⟨0x34, [], Memory.empty, returned⟩) :=
      exec_sstore rfl rfl
    _ = .store 0 (Word.ofBytes (slice message.calldata.bytes 0 0x20))
        (resume setting owner operator self message (steps + 1)
          ⟨0x36, [0, 0], Memory.empty, returned⟩) :=
      congrArg _ (exec_block 2 (Nat.le_of_ble_eq_true rfl) rfl)
    _ = _ := congrArg _ (exec_ret rfl rfl loaded)

/-- After the sender was compared with the owner. -/
theorem resume_enabled :
    resume setting owner operator self message (steps + 91)
        ⟨0x1b, [], Memory.empty, returned⟩ =
      .load enabledSlot fun enabled =>
        if enabled = 0 then .fail internalError
        else resume setting owner operator self message (steps + 87)
          ⟨0x37, [], Memory.empty, returned⟩ := by
  have branch : ∀ enabled : Word, resume setting owner operator self message (steps + 89)
        ⟨0x1d, [enabled], Memory.empty, returned⟩ =
      if enabled = 0 then .fail internalError
      else resume setting owner operator self message (steps + 87)
        ⟨0x37, [], Memory.empty, returned⟩ := by
    intro enabled
    have pushed : resume setting owner operator self message (steps + 89)
          ⟨0x1d, [enabled], Memory.empty, returned⟩ =
        resume setting owner operator self message (steps + 88)
          ⟨0x20, [0x37, enabled], Memory.empty, returned⟩ :=
      exec_block 1 (Nat.le_of_ble_eq_true rfl) rfl
    rw [pushed]
    by_cases disabled : enabled = 0
    · rw [if_pos disabled]
      calc resume setting owner operator self message (steps + 88)
            ⟨0x20, [0x37, enabled], Memory.empty, returned⟩
        _ = resume setting owner operator self message (steps + 87)
            ⟨0x21, [], Memory.empty, returned⟩ :=
          exec_jumpi_passed rfl rfl disabled
        _ = _ := resume_internalErr (Or.inl rfl)
    · rw [if_neg disabled]
      exact exec_jumpi_taken 0x37 rfl rfl disabled rfl rfl
  calc resume setting owner operator self message (steps + 91)
        ⟨0x1b, [], Memory.empty, returned⟩
    _ = resume setting owner operator self message (steps + 90)
        ⟨0x1c, [0], Memory.empty, returned⟩ :=
      exec_block 1 (Nat.le_of_ble_eq_true rfl) rfl
    _ = .load 0 fun enabled => resume setting owner operator self message (steps + 89)
        ⟨0x1d, [enabled], Memory.empty, returned⟩ :=
      exec_sload rfl rfl
    _ = _ := congrArg _ (funext branch)

/-- The start of the code. -/
theorem resume_start :
    resume setting owner operator self message (steps + 96) Machine.start =
      if message.sender = owner then
        .store enabledSlot (Word.ofBytes (slice message.calldata.bytes 0 0x20))
          (.ret Payload.empty)
      else
        resume setting owner operator self message (steps + 91)
          ⟨0x1b, [], Memory.empty, Payload.empty⟩ := by
  have compared : resume setting owner operator self message (steps + 96) Machine.start =
      resume setting owner operator self message (steps + 92)
        ⟨0x1a, [0x2f, if Word.ofBytes message.sender.toList = Word.ofBytes owner.toList then 1
          else 0], Memory.empty, Payload.empty⟩ :=
    exec_block 4 (Nat.le_of_ble_eq_true rfl) rfl
  have sameWord : Word.ofBytes message.sender.toList = Word.ofBytes owner.toList ↔
      message.sender = owner := by
    rw [Word.ofBytes_inj (by simp) (by simp)]
    exact ⟨List.Vector.eq _ _, congrArg _⟩
  rw [compared]
  by_cases privileged : message.sender = owner
  · have nonzero : (1 : Word) ≠ 0 := by decide
    rw [if_pos (sameWord.mpr privileged), if_pos privileged]
    calc resume setting owner operator self message (steps + 92)
          ⟨0x1a, [0x2f, 1], Memory.empty, Payload.empty⟩
      _ = resume setting owner operator self message (steps + 91)
          ⟨0x2f, [], Memory.empty, Payload.empty⟩ :=
        exec_jumpi_taken 0x2f rfl rfl nonzero rfl rfl
      _ = _ := resume_privileged
  · rw [if_neg (mt sameWord.mp privileged), if_neg privileged]
    exact exec_jumpi_passed rfl rfl rfl

/-- The code of a LiteAccount does what `account` says. -/
theorem run_runtimeCode (setting : Setting) (owner : Address) (operator : U) (self : Address)
    (message : Message) (steps : ℕ) :
    run setting.host (steps + 96) (runtimeCode owner operator) self message =
      account setting owner operator self message := by
  have started : run setting.host (steps + 96) (runtimeCode owner operator) self message =
      resume setting owner operator self message (steps + 96) Machine.start := by
    have read : disassemble (runtimeCode owner operator) = main owner operator :=
      disassemble_assemble _
    rw [run, read]
  rw [started, resume_start]
  by_cases privileged : message.sender = owner
  · rw [if_pos privileged, account_owner privileged]
  · rw [if_neg privileged, account_other privileged]
    simp only [resume_enabled, resume_fallback]

/-! ### The constructor -/

theorem length_runtimeCode (owner : Address) (operator : U) :
    (runtimeCode owner operator).length = 0xec := by
  have whole := congrArg List.length (initCode_eq owner operator)
  have constructor : (assemble deploy).length = 0xd := by decide
  simp only [initCode, List.length_append, List.Vector.toList_length, constructor] at whole
  omega

def deployedCode (owner : Address) (operator : U) : Payload :=
  ⟨runtimeCode owner operator, by
    rw [length_runtimeCode]
    omega⟩

/-- The bytes of the factory enable the account and leave its code. -/
theorem run_initCode (setting : Setting) (owner : Address) (operator : U) (self : Address)
    (message : Message) (steps : ℕ) :
    run setting.host (steps + 10) (initCode owner operator) self message =
      .store enabledSlot 1 (.ret (deployedCode owner operator)) := by
  have read : disassemble (initCode owner operator) = deploy ++ main owner operator := by
    rw [initCode_eq, runtimeCode, assemble, assemble, ← List.flatMap_append]
    exact disassemble_assemble _
  have copied : slice (initCode owner operator) 0xd 0xec = runtimeCode owner operator := by
    have whole := slice_to_end (initCode owner operator) 0xd
    rw [initCode_eq, List.length_append, length_runtimeCode] at whole
    rw [initCode_eq]
    exact whole
  have loaded : (Memory.empty.write 0 (slice (initCode owner operator) 0xd 0xec)).load 0 0xec =
      some (deployedCode owner operator) := by
    apply load_eq (by decide)
    rw [copied]
    exact Memory.read_write_self _ _ (length_runtimeCode owner operator)
  rw [run, read]
  calc exec setting.host ⟨initCode owner operator, self, message⟩
        (deploy ++ main owner operator) (steps + 10) Machine.start
    _ = exec setting.host ⟨initCode owner operator, self, message⟩
        (deploy ++ main owner operator) (steps + 8)
        ⟨0x3, [0, 1], Memory.empty, Payload.empty⟩ :=
      exec_block 2 (Nat.le_of_ble_eq_true rfl) rfl
    _ = .store 0 1 (exec setting.host ⟨initCode owner operator, self, message⟩
        (deploy ++ main owner operator) (steps + 7)
        ⟨0x4, [], Memory.empty, Payload.empty⟩) :=
      exec_sstore rfl rfl
    _ = .store 0 1 (exec setting.host ⟨initCode owner operator, self, message⟩
        (deploy ++ main owner operator) (steps + 1)
        ⟨0xc, [0, 0xec], Memory.empty.write 0 (slice (initCode owner operator) 0xd 0xec),
          Payload.empty⟩) :=
      congrArg _ (exec_block 6 (Nat.le_of_ble_eq_true rfl) rfl)
    _ = .store 0 1 (.ret (deployedCode owner operator)) :=
      congrArg _ (exec_ret rfl rfl loaded)

end SuperpositionAccounts.Lite
