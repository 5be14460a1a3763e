import SuperpositionAccounts.Wire.Canonical

/-!
# The server's encoder

The server declares the request types a second time, in `lib/types/types.go`,
and encodes them with borsh-go, which walks a value by reflection. This file
gives the reflected values and borsh-go's rules for them, the Go structures in
the field order of their declarations, and the translation of each structure to
the contract's type field by field. The encodings agree, so the contract decodes
what the server sent, and the digest the server signs is the one the contract
recomputes.

A Go request holds a payload for every variant; only the one its tag selects is
written.
-/

namespace SuperpositionAccounts

namespace Go

/-- A value as borsh-go sees it through reflection. -/
inductive Value where
  | uint8 (number : UInt8)
  | uint64 (number : UInt64)
  | array (elements : List Value)
  | slice (elements : List Value)
  | nilPointer
  | pointer (target : Value)
  | struct (fields : List Value)

namespace Value

mutual

/-- The bytes of a value: integers are little-endian, slices carry their length, pointers a flag,
and arrays and structures nothing. -/
def serialize : Value → List UInt8
  | uint8 number => [number]
  | uint64 number => Borsh.leBytes 8 number.toNat
  | array elements => serializeAll elements
  | slice elements => Borsh.leBytes 4 elements.length ++ serializeAll elements
  | nilPointer => [0]
  | pointer target => 1 :: serialize target
  | struct fields => serializeAll fields

/-- The bytes of several values, one after another. -/
def serializeAll : List Value → List UInt8
  | [] => []
  | first :: rest => serialize first ++ serializeAll rest

end

/-- A structure tagged `borsh_enum` is its tag byte and the field the tag selects. -/
def serializeEnum (tag : UInt8) (fields : List Value) : Option (List UInt8) :=
  fields[tag.toNat]?.map fun field => tag :: serialize field

/-- A byte array or a byte slice is made of its bytes. -/
def ofBytes (bytes : List UInt8) : List Value :=
  bytes.map uint8

@[simp]
theorem serializeAll_ofBytes (bytes : List UInt8) : serializeAll (ofBytes bytes) = bytes := by
  induction bytes with
  | nil => rfl
  | cons byte rest ih =>
      change [byte] ++ serializeAll (ofBytes rest) = byte :: rest
      rw [ih]
      rfl

@[simp]
theorem length_ofBytes (bytes : List UInt8) : (ofBytes bytes).length = bytes.length := by
  simp [ofBytes]

/-- Elements that agree one by one agree as a sequence. -/
theorem serializeAll_map {α β : Type} [Borsh β] {reflect : α → Value} {translate : α → β}
    (agree : ∀ value, serialize (reflect value) = Borsh.toVec (translate value))
    (values : List α) :
    serializeAll (values.map reflect) = (values.map translate).flatMap Borsh.toVec := by
  induction values with
  | nil => rfl
  | cons value rest ih => simp [serializeAll, agree, ih]

/-- A slice of agreeing elements is written like the contract's sequence. -/
theorem serialize_slice_map {α β : Type} [Borsh β] {reflect : α → Value} {translate : α → β}
    (agree : ∀ value, serialize (reflect value) = Borsh.toVec (translate value))
    (values : Vec α) :
    serialize (slice (values.toList.map reflect)) = Borsh.toVec (values.map translate) := by
  rw [Borsh.toVec_vec, Vec.toList_map, serialize, serializeAll_map agree]
  simp

@[simp]
theorem serialize_slice_ofBytes (bytes : Vec UInt8) :
    serialize (slice (ofBytes bytes.toList)) = Borsh.toVec bytes := by
  rw [Borsh.toVec_vec, serialize, serializeAll_ofBytes, length_ofBytes, Borsh.flatMap_toVec_byte]

end Value

/-! ### The structures of `types.go` -/

structure Permit (Asset : Type) where
  asset : Asset
  deadline : UInt64
  v : UInt8
  r : Bytes 32
  s : Bytes 32

structure FromArgs (Asset : Type) where
  asset : Asset
  toTake : Bytes 32
  maxUnspent : Bytes 32

structure SolveArgs (Asset : Type) where
  permit : Vec (Permit Asset)
  fromArgs : Vec (FromArgs Asset)
  target : Bytes 20
  cd : Vec UInt8
  msTs : Bytes 16

structure SolveArgsSigArgs (Asset : Type) where
  sig : Bytes 64
  args : SolveArgs Asset

structure FreshBackwards (Asset : Type) where
  key : Bytes 32
  eoaAddr : Bytes 20
  v : UInt8
  r : Bytes 32
  s : Bytes 32
  solveArgs : Vec (SolveArgsSigArgs Asset)
  authority : Option (Bytes 20)
deriving Inhabited

structure Solve (Asset : Type) where
  args : Vec (SolveArgsSigArgs Asset)
deriving Inhabited

structure SolveV2Args (Asset : Type) where
  args : Vec (SolveArgs Asset)
  permitOwner : Bytes 20
  transferOwner : Bytes 20
deriving Inhabited

structure SolveV2 (Asset : Type) where
  args : SolveV2Args Asset
  sig : Bytes 64
deriving Inhabited

structure TransferPermit where
  deadline : UInt64
  v : UInt8
  r : Bytes 32
  s : Bytes 32

structure Transfer (Asset : Type) where
  fromAddr : Bytes 20
  asset : Asset
  recipient : Bytes 20
  amt : Bytes 32
  permit : Option TransferPermit

structure TransferOnlyArgs (Asset : Type) where
  args : Vec (Transfer Asset)
  msTs : Bytes 16
deriving Inhabited

structure TransferOnly (Asset : Type) where
  args : TransferOnlyArgs Asset
  sig : Bytes 64
deriving Inhabited

structure StatementArgs where
  msg : Vec UInt8
  msTs : Bytes 6
deriving Inhabited

structure Statement where
  args : StatementArgs
  sig : Bytes 64
deriving Inhabited

structure SolveV3Args (Asset : Type) where
  args : Vec (SolveArgs Asset)
  gasToken : Asset
  gasTokenAmt : UInt64
  gasTokenPermit : Option (Permit Asset)
deriving Inhabited

structure SolveV3 (Asset : Type) where
  args : SolveV3Args Asset
  sig : Bytes 64
deriving Inhabited

/-- A request of the server. `Version`, `Authority`, `Owner`, `Ed25519Key` and `AssetsVersion`
are structures without fields, so only the payloads that hold something appear. -/
structure Args (Asset : Type) where
  enum : UInt8
  freshBackwards : FreshBackwards Asset
  solve : Solve Asset
  solveV2 : SolveV2 Asset
  transferOnly : TransferOnly Asset
  statement : Statement
  solveV3 : SolveV3 Asset
deriving Inhabited

/-! ### Reflection, in the order of the declarations, and translation to the contract's types -/

section Translation

variable {Asset : Type} [AssetRegistry Asset]

/-- An asset is its one-byte id on both sides. -/
def reflectAsset (asset : Asset) : Value :=
  .uint8 (AssetRegistry.id asset)

/-- A byte array. -/
def reflectArray {length : ℕ} (array : Bytes length) : Value :=
  .array (Value.ofBytes array.toList)

@[simp]
theorem serialize_reflectAsset (asset : Asset) :
    (reflectAsset asset).serialize = Borsh.toVec asset := by
  rw [AssetRegistry.toVec_eq, reflectAsset, Value.serialize]

omit [AssetRegistry Asset] in
@[simp]
theorem serialize_reflectArray {length : ℕ} (array : Bytes length) :
    (reflectArray array).serialize = Borsh.toVec array := by
  rw [reflectArray, Value.serialize, Value.serializeAll_ofBytes, Borsh.toVec_bytes]

def Permit.reflect (permit : Permit Asset) : Value :=
  .struct [reflectAsset permit.asset, .uint64 permit.deadline, .uint8 permit.v,
    reflectArray permit.r, reflectArray permit.s]

def Permit.toRust (permit : Permit Asset) : SuperpositionAccounts.Permit Asset where
  asset := permit.asset
  deadline := permit.deadline
  v := permit.v
  r := permit.r
  s := permit.s

theorem Permit.serialize_reflect (permit : Permit Asset) :
    permit.reflect.serialize = Borsh.toVec permit.toRust := by
  simp only [reflect, Value.serialize, Value.serializeAll, serialize_reflectAsset,
    serialize_reflectArray, List.append_nil]
  rfl

def FromArgs.reflect (fromArgs : FromArgs Asset) : Value :=
  .struct [reflectAsset fromArgs.asset, reflectArray fromArgs.toTake,
    reflectArray fromArgs.maxUnspent]

def FromArgs.toRust (fromArgs : FromArgs Asset) : SuperpositionAccounts.FromArgs Asset where
  asset := fromArgs.asset
  toTake := fromArgs.toTake
  maxUnspent := fromArgs.maxUnspent

theorem FromArgs.serialize_reflect (fromArgs : FromArgs Asset) :
    fromArgs.reflect.serialize = Borsh.toVec fromArgs.toRust := by
  simp only [reflect, Value.serialize, Value.serializeAll, serialize_reflectAsset,
    serialize_reflectArray, List.append_nil]
  rfl

def SolveArgs.reflect (args : SolveArgs Asset) : Value :=
  .struct [.slice (args.permit.toList.map Permit.reflect),
    .slice (args.fromArgs.toList.map FromArgs.reflect), reflectArray args.target,
    .slice (Value.ofBytes args.cd.toList), reflectArray args.msTs]

def SolveArgs.toRust (args : SolveArgs Asset) : SuperpositionAccounts.SolveArgs Asset where
  permit := args.permit.map Permit.toRust
  fromArgs := args.fromArgs.map FromArgs.toRust
  target := args.target
  cd := args.cd
  msTs := args.msTs

theorem SolveArgs.serialize_reflect (args : SolveArgs Asset) :
    args.reflect.serialize = Borsh.toVec args.toRust := by
  have permits := Value.serialize_slice_map Permit.serialize_reflect args.permit
  have pulls := Value.serialize_slice_map FromArgs.serialize_reflect args.fromArgs
  rw [reflect, Value.serialize]
  simp only [Value.serializeAll, permits, pulls, serialize_reflectArray,
    Value.serialize_slice_ofBytes, List.append_nil]
  rfl

def SolveArgsSigArgs.reflect (signed : SolveArgsSigArgs Asset) : Value :=
  .struct [reflectArray signed.sig, signed.args.reflect]

def SolveArgsSigArgs.toRust (signed : SolveArgsSigArgs Asset) :
    SuperpositionAccounts.SolveArgsSigArgs Asset where
  sig := signed.sig
  args := signed.args.toRust

theorem SolveArgsSigArgs.serialize_reflect (signed : SolveArgsSigArgs Asset) :
    signed.reflect.serialize = Borsh.toVec signed.toRust := by
  simp only [reflect, Value.serialize, Value.serializeAll, serialize_reflectArray,
    SolveArgs.serialize_reflect, List.append_nil]
  rfl

def SolveV2Args.reflect (args : SolveV2Args Asset) : Value :=
  .struct [.slice (args.args.toList.map SolveArgs.reflect), reflectArray args.permitOwner,
    reflectArray args.transferOwner]

def SolveV2Args.toRust (args : SolveV2Args Asset) : SuperpositionAccounts.SolveV2Args Asset where
  args := args.args.map SolveArgs.toRust
  permitOwner := args.permitOwner
  transferOwner := args.transferOwner

theorem SolveV2Args.serialize_reflect (args : SolveV2Args Asset) :
    args.reflect.serialize = Borsh.toVec args.toRust := by
  have batch := Value.serialize_slice_map SolveArgs.serialize_reflect args.args
  rw [reflect, Value.serialize]
  simp only [Value.serializeAll, batch, serialize_reflectArray, List.append_nil]
  rfl

def TransferPermit.reflect (permit : TransferPermit) : Value :=
  .struct [.uint64 permit.deadline, .uint8 permit.v, reflectArray permit.r,
    reflectArray permit.s]

def TransferPermit.toRust (permit : TransferPermit) : SuperpositionAccounts.TransferPermit where
  deadline := permit.deadline
  v := permit.v
  r := permit.r
  s := permit.s

omit [AssetRegistry Asset] in
theorem TransferPermit.serialize_reflect (permit : TransferPermit) :
    permit.reflect.serialize = Borsh.toVec permit.toRust := by
  simp only [reflect, Value.serialize, Value.serializeAll, serialize_reflectArray,
    List.append_nil]
  rfl

/-- A pointer is nil or points to a reflected value. -/
def reflectPointer {α : Type} (reflect : α → Value) : Option α → Value
  | none => .nilPointer
  | some target => .pointer (reflect target)

omit [AssetRegistry Asset] in
theorem serialize_reflectPointer {α β : Type} [Borsh β] {reflect : α → Value}
    {translate : α → β}
    (agree : ∀ value, (reflect value).serialize = Borsh.toVec (translate value))
    (pointer : Option α) :
    (reflectPointer reflect pointer).serialize = Borsh.toVec (pointer.map translate) := by
  cases pointer with
  | none => rfl
  | some target =>
      rw [reflectPointer, Value.serialize, agree, Option.map_some, Borsh.toVec_some]

def Transfer.reflect (transfer : Transfer Asset) : Value :=
  .struct [reflectArray transfer.fromAddr, reflectAsset transfer.asset,
    reflectArray transfer.recipient, reflectArray transfer.amt,
    reflectPointer TransferPermit.reflect transfer.permit]

def Transfer.toRust (transfer : Transfer Asset) : SuperpositionAccounts.Transfer Asset where
  fromAddr := transfer.fromAddr
  asset := transfer.asset
  recipient := transfer.recipient
  amt := transfer.amt
  permit := transfer.permit.map TransferPermit.toRust

theorem Transfer.serialize_reflect (transfer : Transfer Asset) :
    transfer.reflect.serialize = Borsh.toVec transfer.toRust := by
  have permit := serialize_reflectPointer TransferPermit.serialize_reflect transfer.permit
  simp only [reflect, Value.serialize, Value.serializeAll, serialize_reflectArray,
    serialize_reflectAsset, permit, List.append_nil]
  rfl

def TransferOnlyArgs.reflect (args : TransferOnlyArgs Asset) : Value :=
  .struct [.slice (args.args.toList.map Transfer.reflect), reflectArray args.msTs]

def TransferOnlyArgs.toRust (args : TransferOnlyArgs Asset) :
    SuperpositionAccounts.TransferOnlyArgs Asset where
  args := args.args.map Transfer.toRust
  msTs := args.msTs

theorem TransferOnlyArgs.serialize_reflect (args : TransferOnlyArgs Asset) :
    args.reflect.serialize = Borsh.toVec args.toRust := by
  have batch := Value.serialize_slice_map Transfer.serialize_reflect args.args
  rw [reflect, Value.serialize]
  simp only [Value.serializeAll, batch, serialize_reflectArray, List.append_nil]
  rfl

def StatementArgs.reflect (args : StatementArgs) : Value :=
  .struct [.slice (Value.ofBytes args.msg.toList), reflectArray args.msTs]

def StatementArgs.toRust (args : StatementArgs) : SuperpositionAccounts.StatementArgs where
  msg := args.msg
  msTs := args.msTs

omit [AssetRegistry Asset] in
theorem StatementArgs.serialize_reflect (args : StatementArgs) :
    args.reflect.serialize = Borsh.toVec args.toRust := by
  rw [reflect, Value.serialize]
  simp only [Value.serializeAll, Value.serialize_slice_ofBytes, serialize_reflectArray,
    List.append_nil]
  rfl

def SolveV3Args.reflect (args : SolveV3Args Asset) : Value :=
  .struct [.slice (args.args.toList.map SolveArgs.reflect), reflectAsset args.gasToken,
    .uint64 args.gasTokenAmt, reflectPointer Permit.reflect args.gasTokenPermit]

def SolveV3Args.toRust (args : SolveV3Args Asset) : SuperpositionAccounts.SolveV3Args Asset where
  args := args.args.map SolveArgs.toRust
  gasToken := args.gasToken
  gasTokenAmt := args.gasTokenAmt
  gasTokenPermit := args.gasTokenPermit.map Permit.toRust

theorem SolveV3Args.serialize_reflect (args : SolveV3Args Asset) :
    args.reflect.serialize = Borsh.toVec args.toRust := by
  have batch := Value.serialize_slice_map SolveArgs.serialize_reflect args.args
  have permit := serialize_reflectPointer Permit.serialize_reflect args.gasTokenPermit
  rw [reflect, Value.serialize]
  simp only [Value.serializeAll, batch, serialize_reflectAsset, permit, List.append_nil]
  rfl

def FreshBackwards.reflect (fresh : FreshBackwards Asset) : Value :=
  .struct [reflectArray fresh.key, reflectArray fresh.eoaAddr, .uint8 fresh.v,
    reflectArray fresh.r, reflectArray fresh.s,
    .slice (fresh.solveArgs.toList.map SolveArgsSigArgs.reflect),
    reflectPointer reflectArray fresh.authority]

theorem FreshBackwards.serialize_reflect (fresh : FreshBackwards Asset) :
    fresh.reflect.serialize =
      Borsh.toVec (fresh.key, fresh.eoaAddr, fresh.v, fresh.r, fresh.s,
        fresh.solveArgs.map SolveArgsSigArgs.toRust, fresh.authority) := by
  have batch := Value.serialize_slice_map SolveArgsSigArgs.serialize_reflect fresh.solveArgs
  have gate := serialize_reflectPointer (β := Bytes 20) serialize_reflectArray fresh.authority
  rw [Option.map_id'] at gate
  rw [reflect, Value.serialize]
  simp only [Value.serializeAll, serialize_reflectArray, batch, gate, List.append_nil]
  rfl

def Solve.reflect (solve : Solve Asset) : Value :=
  .struct [.slice (solve.args.toList.map SolveArgsSigArgs.reflect)]

theorem Solve.serialize_reflect (solve : Solve Asset) :
    solve.reflect.serialize = Borsh.toVec (solve.args.map SolveArgsSigArgs.toRust) := by
  have batch := Value.serialize_slice_map SolveArgsSigArgs.serialize_reflect solve.args
  rw [reflect, Value.serialize]
  simp only [Value.serializeAll, batch, List.append_nil]

/-! ### Requests -/

/-- The fields of a request after its tag, in the order of the declaration. -/
def Args.reflectFields (args : Args Asset) : List Value :=
  [args.freshBackwards.reflect,
    args.solve.reflect,
    .struct [],
    .struct [],
    .struct [args.solveV2.args.reflect, reflectArray args.solveV2.sig],
    .struct [args.transferOnly.args.reflect, reflectArray args.transferOnly.sig],
    .struct [args.statement.args.reflect, reflectArray args.statement.sig],
    .struct [],
    .struct [],
    .struct [args.solveV3.args.reflect, reflectArray args.solveV3.sig],
    .struct []]

/-- `borsh.Serialize` of a request. -/
def Args.serialize (args : Args Asset) : Option (List UInt8) :=
  Value.serializeEnum args.enum args.reflectFields

/-- The request of the contract that the tag and the selected payload stand for. -/
def Args.toRust (args : Args Asset) : Option (SuperpositionAccounts.Args Asset) :=
  match args.enum with
  | 0 => some (.freshBackwards args.freshBackwards.key args.freshBackwards.eoaAddr
      args.freshBackwards.v args.freshBackwards.r args.freshBackwards.s
      (args.freshBackwards.solveArgs.map SolveArgsSigArgs.toRust) args.freshBackwards.authority)
  | 1 => some (.solve (args.solve.args.map SolveArgsSigArgs.toRust))
  | 2 => some .version
  | 3 => some .authority
  | 4 => some (.solveV2 args.solveV2.args.toRust args.solveV2.sig)
  | 5 => some (.transferOnly args.transferOnly.args.toRust args.transferOnly.sig)
  | 6 => some (.statement args.statement.args.toRust args.statement.sig)
  | 7 => some .owner
  | 8 => some .ed25519Key
  | 9 => some (.solveV3 args.solveV3.args.toRust args.solveV3.sig)
  | 10 => some .assetsVersion
  | _ => none

omit [AssetRegistry Asset] in
theorem Args.enum_cases {args : Args Asset} (known : args.enum ≤ 10) :
    args.enum = 0 ∨ args.enum = 1 ∨ args.enum = 2 ∨ args.enum = 3 ∨ args.enum = 4 ∨
      args.enum = 5 ∨ args.enum = 6 ∨ args.enum = 7 ∨ args.enum = 8 ∨ args.enum = 9 ∨
      args.enum = 10 := by
  rw [UInt8.le_iff_toNat_le] at known
  simp only [← UInt8.toNat_inj, UInt8.reduceToNat] at known ⊢
  omega

/-- A request with a known tag is written like the contract's request it stands for. -/
theorem Args.serialize_eq_toVec {args : Args Asset} (known : args.enum ≤ 10) :
    ∃ decoded, args.toRust = some decoded ∧ args.serialize = some (Borsh.toVec decoded) := by
  rcases Args.enum_cases known with
    tag | tag | tag | tag | tag | tag | tag | tag | tag | tag | tag
  all_goals
    simp only [Args.toRust, Args.serialize, Value.serializeEnum, Args.reflectFields, tag]
    refine ⟨_, rfl, ?_⟩
    simp only [UInt8.reduceToNat, List.getElem?_cons_succ, List.getElem?_cons_zero,
      Option.map_some, FreshBackwards.serialize_reflect, Solve.serialize_reflect,
      Value.serialize, Value.serializeAll, serialize_reflectArray, SolveV2Args.serialize_reflect,
      TransferOnlyArgs.serialize_reflect, StatementArgs.serialize_reflect,
      SolveV3Args.serialize_reflect, List.append_nil]
    rfl

end Translation

end Go

end SuperpositionAccounts
