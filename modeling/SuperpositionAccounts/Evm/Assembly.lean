import SuperpositionAccounts.Borsh.Format

/-!
# EVM assembly

Instructions and their bytes. Code is read from the front, so the data of a push
is never taken for instructions; a jump can only reach an instruction of this
reading. Assembling instructions and reading the bytes back gives the same
instructions, so code that was assembled can be run by its listing.

Opcodes that are not listed here read as invalid.
-/

namespace Evm

/-- A push takes up to 32 bytes. -/
instance neZeroWidths : NeZero 33 :=
  ⟨by decide⟩

/-- An instruction reaches sixteen items of the stack. -/
instance neZeroDepths : NeZero 16 :=
  ⟨by decide⟩

inductive Op where
  | stop
  | sub
  | eq
  | isZero
  | shr
  | sha3
  | address
  | caller
  | calldataLoad
  | calldataSize
  | calldataCopy
  | codeCopy
  | returndataSize
  | returndataCopy
  | extCodeHash
  | mload
  | mstore
  | sload
  | sstore
  | jump
  | jumpi
  | gas
  | jumpdest
  | push (width : Fin 33) (data : Bytes width)
  /-- Copy the item at a depth, where the top has depth zero. -/
  | dup (depth : Fin 16)
  /-- Exchange the top with the item at a depth below it. -/
  | swap (depth : Fin 16)
  | call
  | ret
  | delegatecall
  | staticcall
  | revert
  | invalid

namespace Op

/-- The byte of an opcode. -/
def toByte : Op → UInt8
  | stop => 0x00
  | sub => 0x03
  | eq => 0x14
  | isZero => 0x15
  | shr => 0x1c
  | sha3 => 0x20
  | address => 0x30
  | caller => 0x33
  | calldataLoad => 0x35
  | calldataSize => 0x36
  | calldataCopy => 0x37
  | codeCopy => 0x39
  | returndataSize => 0x3d
  | returndataCopy => 0x3e
  | extCodeHash => 0x3f
  | mload => 0x51
  | mstore => 0x52
  | sload => 0x54
  | sstore => 0x55
  | jump => 0x56
  | jumpi => 0x57
  | gas => 0x5a
  | jumpdest => 0x5b
  | push width _ => UInt8.ofNat (0x5f + width)
  | dup depth => UInt8.ofNat (0x80 + depth)
  | swap depth => UInt8.ofNat (0x90 + depth)
  | call => 0xf1
  | ret => 0xf3
  | delegatecall => 0xf4
  | staticcall => 0xfa
  | revert => 0xfd
  | invalid => 0xfe

/-- The instruction of a byte that is not a push. -/
def ofByte (byte : UInt8) : Op :=
  if 0x80 ≤ byte.toNat ∧ byte.toNat < 0x90 then
    dup (Fin.ofNat 16 (byte.toNat - 0x80))
  else if 0x90 ≤ byte.toNat ∧ byte.toNat < 0xa0 then
    swap (Fin.ofNat 16 (byte.toNat - 0x90))
  else
    match byte with
    | 0x00 => stop
    | 0x03 => sub
    | 0x14 => eq
    | 0x15 => isZero
    | 0x1c => shr
    | 0x20 => sha3
    | 0x30 => address
    | 0x33 => caller
    | 0x35 => calldataLoad
    | 0x36 => calldataSize
    | 0x37 => calldataCopy
    | 0x39 => codeCopy
    | 0x3d => returndataSize
    | 0x3e => returndataCopy
    | 0x3f => extCodeHash
    | 0x51 => mload
    | 0x52 => mstore
    | 0x54 => sload
    | 0x55 => sstore
    | 0x56 => jump
    | 0x57 => jumpi
    | 0x5a => gas
    | 0x5b => jumpdest
    | 0xf1 => call
    | 0xf3 => ret
    | 0xf4 => delegatecall
    | 0xfa => staticcall
    | 0xfd => revert
    | _ => invalid

def encode : Op → List UInt8
  | push width data => UInt8.ofNat (0x5f + width) :: data.toList
  | op => [op.toByte]

/-- A push of a number that fits its width. -/
def pushNat (width : Fin 33) (number : ℕ) : Op :=
  push width (Bytes.ofNat width number)

/-- How many bytes an instruction takes. -/
def size : Op → ℕ
  | push width _ => 1 + width
  | _ => 1

end Op

def assemble (ops : List Op) : List UInt8 :=
  ops.flatMap Op.encode

/-- Read instructions from the front; each takes up at least one byte. A push that the code cuts
short is filled with zeros. -/
def disassembleWithin : ℕ → List UInt8 → List Op
  | 0, _ => []
  | _ + 1, [] => []
  | count + 1, byte :: rest =>
      if 0x5f ≤ byte.toNat ∧ byte.toNat < 0x80 then
        let width := Fin.ofNat 33 (byte.toNat - 0x5f)
        .push width ⟨(rest ++ List.replicate width 0).take width, by simp⟩ ::
          disassembleWithin count (rest.drop width)
      else
        .ofByte byte :: disassembleWithin count rest

def disassemble (code : List UInt8) : List Op :=
  disassembleWithin code.length code

/-- The instructions from a position on. There are none inside the data of a push. -/
def instructionsAt : List Op → ℕ → List Op
  | ops, 0 => ops
  | [], _ + 1 => []
  | op :: rest, position + 1 =>
      if position + 1 < op.size then [] else instructionsAt rest (position + 1 - op.size)

/-- The instruction that starts at a position. -/
def fetch (ops : List Op) (position : ℕ) : Option Op :=
  (instructionsAt ops position).head?

/-! ### Reading back assembled code -/

theorem Op.size_pos (op : Op) : 0 < op.size := by
  cases op <;> simp [size]

theorem Op.length_encode (op : Op) : op.encode.length = op.size := by
  cases op <;> simp [encode, size, Nat.add_comm]

theorem disassembleWithin_encode (op : Op) (rest : List UInt8) (count : ℕ) :
    disassembleWithin (count + 1) (op.encode ++ rest) = op :: disassembleWithin count rest := by
  cases op with
  | push width data =>
      have byte : (UInt8.ofNat (0x5f + width)).toNat = 0x5f + width := by
        rw [UInt8.toNat_ofNat']
        omega
      have sameWidth : Fin.ofNat 33 ((UInt8.ofNat (0x5f + width)).toNat - 0x5f) = width := by
        apply Fin.ext
        rw [byte, Fin.val_ofNat]
        omega
      -- the width that is read back also occurs in the type of the data
      have reads : ∀ read, read = width →
          Op.push read ⟨(data.toList ++ rest ++ List.replicate read 0).take read,
            by simp; omega⟩ ::
            disassembleWithin count ((data.toList ++ rest).drop read) =
          Op.push width data :: disassembleWithin count rest := by
        rintro read rfl
        have taken : (⟨(data.toList ++ rest ++ List.replicate read 0).take read, by simp⟩ :
            Bytes read) = data := by
          apply List.Vector.eq
          change (data.toList ++ rest ++ List.replicate read 0).take read = data.toList
          rw [List.append_assoc]
          exact List.take_left' data.toList_length
        rw [taken, List.drop_left' data.toList_length]
      simp only [Op.encode, List.cons_append, disassembleWithin]
      rw [if_pos (by omega)]
      exact reads _ sameWidth
  | dup depth =>
      have byte : (UInt8.ofNat (0x80 + depth)).toNat = 0x80 + depth := by
        rw [UInt8.toNat_ofNat']
        omega
      have sameDepth : Fin.ofNat 16 (0x80 + depth - 0x80) = depth := by
        apply Fin.ext
        rw [Fin.val_ofNat]
        omega
      simp only [Op.encode, Op.toByte, List.singleton_append, disassembleWithin, byte]
      rw [if_neg (by omega)]
      unfold Op.ofByte
      rw [byte, if_pos (by omega), sameDepth]
  | swap depth =>
      have byte : (UInt8.ofNat (0x90 + depth)).toNat = 0x90 + depth := by
        rw [UInt8.toNat_ofNat']
        omega
      have sameDepth : Fin.ofNat 16 (0x90 + depth - 0x90) = depth := by
        apply Fin.ext
        rw [Fin.val_ofNat]
        omega
      simp only [Op.encode, Op.toByte, List.singleton_append, disassembleWithin, byte]
      rw [if_neg (by omega)]
      unfold Op.ofByte
      rw [byte, if_neg (by omega), if_pos (by omega), sameDepth]
  | _ => rfl

theorem disassembleWithin_assemble (ops : List Op) {count : ℕ} (enough : ops.length ≤ count) :
    disassembleWithin count (assemble ops) = ops := by
  induction ops generalizing count with
  | nil => cases count <;> rfl
  | cons op rest ih =>
      cases count with
      | zero => simp at enough
      | succ count =>
          rw [assemble, List.flatMap_cons, disassembleWithin_encode]
          rw [List.length_cons] at enough
          exact congrArg (op :: ·) (ih (by omega))

theorem length_le_length_assemble (ops : List Op) : ops.length ≤ (assemble ops).length := by
  induction ops with
  | nil => simp
  | cons op rest ih =>
      have := op.size_pos
      rw [assemble, List.flatMap_cons, List.length_append, List.length_cons, op.length_encode]
      rw [assemble] at ih
      omega

theorem disassemble_assemble (ops : List Op) : disassemble (assemble ops) = ops :=
  disassembleWithin_assemble ops (length_le_length_assemble ops)

theorem instructionsAt_skip (op : Op) (rest : List Op) (position : ℕ) :
    instructionsAt (op :: rest) (op.size + position) = instructionsAt rest position := by
  have := op.size_pos
  cases sum : op.size + position with
  | zero => omega
  | succ before =>
      rw [instructionsAt, if_neg (by omega)]
      congr 1
      omega

/-- After an instruction come the instructions that follow it. -/
theorem instructionsAt_next {ops rest : List Op} {op : Op} {position : ℕ}
    (here : instructionsAt ops position = op :: rest) :
    instructionsAt ops (position + op.size) = rest := by
  induction ops generalizing position with
  | nil => cases position <;> simp [instructionsAt] at here
  | cons first ops ih =>
      cases position with
      | zero =>
          rw [instructionsAt, List.cons.injEq] at here
          rcases here with ⟨rfl, rfl⟩
          rw [Nat.add_comm, instructionsAt_skip]
          cases ops <;> rfl
      | succ position =>
          rw [instructionsAt] at here
          split at here
          · cases here
          · rename_i outside
            have later := ih here
            have sum : position + 1 + op.size =
                first.size + (position + 1 - first.size + op.size) := by omega
            rw [sum, instructionsAt_skip, later]

end Evm
