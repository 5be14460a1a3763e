import SuperpositionAccounts.Wire.Types

/-!
# The request format is lossless and canonical

`Args` is written as a tag byte and the fields of the variant. Reading undoes
writing and leaves what follows, and whatever is read was written that way.
The second half matters because the contract verifies signatures over a
re-encoding of what it decoded. Since every tag is at most ten, no request is
mistaken for the calldata of a migration.
-/

namespace SuperpositionAccounts

variable {Asset : Type}

/-- The selector of `migrate`, which the contract tests before it decodes a request. -/
def selMigrate : List UInt8 :=
  [0x8f, 0xd3, 0xab, 0x80]

namespace Args

section Format

variable [Borsh Asset]

/-- The byte that names a variant: its position in the declaration. -/
def tag : Args Asset → UInt8
  | freshBackwards .. => 0
  | solve .. => 1
  | version => 2
  | authority => 3
  | solveV2 .. => 4
  | transferOnly .. => 5
  | statement .. => 6
  | owner => 7
  | ed25519Key => 8
  | solveV3 .. => 9
  | assetsVersion => 10

/-- The fields of a variant in declaration order. -/
def fields : Args Asset → List UInt8
  | freshBackwards key eoaAddr v r s solveArgs gate =>
      Borsh.toVec (key, eoaAddr, v, r, s, solveArgs, gate)
  | solve args => Borsh.toVec args
  | solveV2 args sig => Borsh.toVec (args, sig)
  | transferOnly args sig => Borsh.toVec (args, sig)
  | statement args sig => Borsh.toVec (args, sig)
  | solveV3 args sig => Borsh.toVec (args, sig)
  | version | authority | owner | ed25519Key | assetsVersion => []

/-- Read the fields of a variant and build it. -/
def readFields {α : Type} [Borsh α] (build : α → Args Asset) (bytes : List UInt8) :
    Option (Args Asset × List UInt8) :=
  (Borsh.deserialize bytes).map fun (values, rest) => (build values, rest)

omit [Borsh Asset] in
theorem readFields_eq_some_iff {α : Type} [Borsh α] (build : α → Args Asset)
    (bytes : List UInt8) (args : Args Asset) (rest : List UInt8) :
    readFields build bytes = some (args, rest) ↔
      ∃ values, build values = args ∧ bytes = Borsh.toVec values ++ rest := by
  simp only [readFields, Option.map_eq_some_iff, Prod.exists, Prod.mk.injEq,
    Borsh.deserialize_eq_some_iff]
  constructor
  · rintro ⟨values, _, accepted, built, rfl⟩
    exact ⟨values, built, accepted⟩
  · rintro ⟨values, built, accepted⟩
    exact ⟨values, rest, accepted, built, rfl⟩

/-- Read a request: the tag byte selects the variant, an unknown tag is an error. -/
def deserialize : List UInt8 → Option (Args Asset × List UInt8)
  | [] => none
  | tag :: bytes =>
      match tag with
      | 0 => readFields (fun (key, eoaAddr, v, r, s, solveArgs, gate) =>
          freshBackwards key eoaAddr v r s solveArgs gate) bytes
      | 1 => readFields solve bytes
      | 2 => some (version, bytes)
      | 3 => some (authority, bytes)
      | 4 => readFields (fun (args, sig) => solveV2 args sig) bytes
      | 5 => readFields (fun (args, sig) => transferOnly args sig) bytes
      | 6 => readFields (fun (args, sig) => statement args sig) bytes
      | 7 => some (owner, bytes)
      | 8 => some (ed25519Key, bytes)
      | 9 => readFields (fun (args, sig) => solveV3 args sig) bytes
      | 10 => some (assetsVersion, bytes)
      | _ => none

theorem deserialize_tag_fields (args : Args Asset) (rest : List UInt8) :
    deserialize (args.tag :: args.fields ++ rest) = some (args, rest) := by
  cases args <;>
    simp [deserialize, tag, fields, readFields_eq_some_iff, -Borsh.toVec_prod]

theorem eq_tag_fields_of_deserialize {bytes rest : List UInt8} {args : Args Asset}
    (accepted : deserialize bytes = some (args, rest)) :
    bytes = args.tag :: args.fields ++ rest := by
  cases bytes with
  | nil => cases accepted
  | cons first bytes =>
      simp only [deserialize] at accepted
      -- variants without fields, the unknown tag, then variants with fields
      split at accepted
      all_goals first
        | cases accepted <;> rfl
        | rw [readFields_eq_some_iff] at accepted
          rcases accepted with ⟨values, rfl, rfl⟩
          rfl

instance : Borsh (Args Asset) where
  toVec args := args.tag :: args.fields
  deserialize := deserialize
  deserialize_eq_some_iff bytes args rest := by
    constructor
    · exact eq_tag_fields_of_deserialize
    · rintro rfl
      exact deserialize_tag_fields args rest

@[simp]
theorem toVec_eq (args : Args Asset) : Borsh.toVec args = args.tag :: args.fields :=
  rfl

omit [Borsh Asset] in
theorem tag_le (args : Args Asset) : args.tag ≤ 10 := by
  cases args <;> simp [tag]

/-- A request never starts like the calldata of a migration. -/
theorem not_selMigrate_prefix (args : Args Asset) (rest : List UInt8) :
    ¬selMigrate <+: Borsh.toVec args ++ rest := by
  intro starts
  simp only [toVec_eq, selMigrate, List.cons_append, List.cons_prefix_cons] at starts
  have bound := args.tag_le
  rw [← starts.1] at bound
  exact absurd bound (by decide)

end Format

end Args

/-- Reading undoes writing and leaves what follows. -/
def Lossless (α : Type) [Borsh α] : Prop :=
  ∀ (value : α) (rest : List UInt8),
    Borsh.deserialize (Borsh.toVec value ++ rest) = some (value, rest)

/-- Whatever is read is the encoding of the value it gives. -/
def Canonical (α : Type) [Borsh α] : Prop :=
  ∀ (bytes : List UInt8) (value : α) (rest : List UInt8),
    Borsh.deserialize bytes = some (value, rest) → bytes = Borsh.toVec value ++ rest

theorem lossless_and_canonical (α : Type) [Borsh α] : Lossless α ∧ Canonical α :=
  ⟨Borsh.deserialize_toVec_append, fun _ _ _ => Borsh.eq_toVec_append_of_deserialize⟩

/-- The request format and the formats of the signed values are lossless and canonical, signed
values have different bytes, and no request starts with the selector of `migrate`. -/
theorem request_format_lossless_and_canonical (Asset : Type) [AssetRegistry Asset] :
    (Lossless (Args Asset) ∧ Canonical (Args Asset)) ∧
      (Lossless (SolveArgs Asset) ∧ Canonical (SolveArgs Asset)) ∧
      (Lossless (SolveV2Args Asset) ∧ Canonical (SolveV2Args Asset)) ∧
      (Lossless (SolveV3Args Asset) ∧ Canonical (SolveV3Args Asset)) ∧
      (Lossless (TransferOnlyArgs Asset) ∧ Canonical (TransferOnlyArgs Asset)) ∧
      (Lossless StatementArgs ∧ Canonical StatementArgs) ∧
      (Function.Injective (Borsh.toVec : SolveArgs Asset → List UInt8) ∧
        Function.Injective (Borsh.toVec : SolveV2Args Asset → List UInt8) ∧
        Function.Injective (Borsh.toVec : SolveV3Args Asset → List UInt8) ∧
        Function.Injective (Borsh.toVec : TransferOnlyArgs Asset → List UInt8) ∧
        Function.Injective (Borsh.toVec : StatementArgs → List UInt8)) ∧
      ∀ (args : Args Asset) (rest : List UInt8), ¬selMigrate <+: Borsh.toVec args ++ rest := by
  refine ⟨lossless_and_canonical _, lossless_and_canonical _, lossless_and_canonical _,
    lossless_and_canonical _, lossless_and_canonical _, lossless_and_canonical _, ?_,
    Args.not_selMigrate_prefix⟩
  exact ⟨Borsh.toVec_injective, Borsh.toVec_injective, Borsh.toVec_injective,
    Borsh.toVec_injective, Borsh.toVec_injective⟩

end SuperpositionAccounts
