import Mathlib.Data.Set.Disjoint
import Mathlib.Data.Set.Lattice
import Mathlib.Order.CompletePartialOrder
import SuperpositionAccounts.Wire.Types

/-!
# Separation of the signed formats

A signature covers the Borsh bytes of the inner value alone, without a tag for
the operation. Whether a signature made for one operation can be read as one for
another is therefore a question about the field layouts.

The two batched solves differ after a common self-delimiting batch, where the
lengths of what follows never agree, so they are separate. In each of the five
other pairs the leading count of one format is read as a count of different
elements in the other, and some values have the same bytes.
-/

namespace SuperpositionAccounts

variable {Asset : Type}

/-! ### Layouts -/

section Layouts

variable [Borsh Asset]

theorem Permit.toVec_eq (permit : Permit Asset) :
    Borsh.toVec permit = Borsh.toVec permit.asset ++ (Borsh.toVec permit.deadline ++
      (permit.v :: (permit.r.toList ++ permit.s.toList))) :=
  rfl

theorem SolveArgs.toVec_eq (args : SolveArgs Asset) :
    Borsh.toVec args = Borsh.toVec args.permit ++ (Borsh.toVec args.fromArgs ++
      (args.target.toList ++ (Borsh.toVec args.cd ++ args.msTs.toList))) :=
  rfl

theorem SolveV2Args.toVec_eq (args : SolveV2Args Asset) :
    Borsh.toVec args = Borsh.toVec args.args ++
      (args.permitOwner.toList ++ args.transferOwner.toList) :=
  rfl

theorem SolveV3Args.toVec_eq (args : SolveV3Args Asset) :
    Borsh.toVec args = Borsh.toVec args.args ++ (Borsh.toVec args.gasToken ++
      (Borsh.toVec args.gasTokenAmt ++ Borsh.toVec args.gasTokenPermit)) :=
  rfl

theorem Transfer.toVec_eq (transfer : Transfer Asset) :
    Borsh.toVec transfer = transfer.fromAddr.toList ++ (Borsh.toVec transfer.asset ++
      (transfer.recipient.toList ++ (transfer.amt.toList ++ Borsh.toVec transfer.permit))) :=
  rfl

theorem TransferOnlyArgs.toVec_eq (args : TransferOnlyArgs Asset) :
    Borsh.toVec args = Borsh.toVec args.args ++ args.msTs.toList :=
  rfl

end Layouts

theorem length_toVec_permit [AssetRegistry Asset] (permit : Permit Asset) :
    (Borsh.toVec permit).length = 74 := by
  rw [Permit.toVec_eq, AssetRegistry.toVec_eq]
  simp

/-- The operations whose inner value is signed as it is encoded. -/
inductive SignedKind where
  | solve
  | solveV2
  | solveV3
  | transferOnly
deriving DecidableEq

/-- The byte strings the holder of a key may sign for an operation. -/
def SignedKind.encodings (Asset : Type) [Borsh Asset] : SignedKind → Set (List UInt8)
  | solve => Set.range (Borsh.toVec : SolveArgs Asset → List UInt8)
  | solveV2 => Set.range (Borsh.toVec : SolveV2Args Asset → List UInt8)
  | solveV3 => Set.range (Borsh.toVec : SolveV3Args Asset → List UInt8)
  | transferOnly => Set.range (Borsh.toVec : TransferOnlyArgs Asset → List UInt8)

/-- After the same batch, two owners take 40 bytes and the gas fields 10 or 84. -/
theorem toVec_solveV2_ne_toVec_solveV3 [AssetRegistry Asset] (left : SolveV2Args Asset)
    (right : SolveV3Args Asset) : Borsh.toVec left ≠ Borsh.toVec right := by
  intro same
  rw [SolveV2Args.toVec_eq, SolveV3Args.toVec_eq] at same
  have lengths := congrArg List.length (Borsh.toVec_append_inj same).2
  rw [AssetRegistry.toVec_eq] at lengths
  cases hasPermit : right.gasTokenPermit with
  | none => simp [hasPermit] at lengths
  | some permit => simp [hasPermit, length_toVec_permit] at lengths

/-! ### Values with the same bytes

All fields are zero but the ones that are read as a length or an option tag by the other
format. `asset` is the asset with id zero. -/

namespace Collision

/-- A byte string that is zero but for one byte, counted from the end. -/
def spike (length fromEnd value : ℕ) : Bytes length :=
  Bytes.ofNat length (value * 256 ^ fromEnd)

def zeros (length : ℕ) : Bytes length :=
  Bytes.ofNat length 0

def zeroBytes (length : ℕ) (short : length < 2 ^ 32) : Vec UInt8 :=
  ⟨List.replicate length 0, by simpa using short⟩

/-- A solve without permits and pulls, calling `target` with zero calldata. -/
def plainSolve (target : Address) (length : ℕ) (short : length < 2 ^ 32) : SolveArgs Asset where
  permit := Vec.empty
  fromArgs := Vec.empty
  target := target
  cd := zeroBytes length short
  msTs := zeros 16

variable (asset : Asset)

/-- Read as a `SolveV3Args`, byte 13 is the tag of the permit and the calldata length is in its
`r` word. -/
def solveForV3 : SolveArgs Asset :=
  plainSolve (spike 20 14 1) 40 (by decide)

def v3ForSolve : SolveV3Args Asset where
  args := Vec.empty
  gasToken := asset
  gasTokenAmt := 0
  gasTokenPermit := some { asset, deadline := 0, v := 0, r := spike 32 27 40, s := zeros 32 }

/-- Read as a `SolveV2Args`, the permit holds one solve with 30 bytes of calldata. -/
def solveForV2 : SolveArgs Asset where
  permit := Vec.singleton { asset, deadline := 0, v := 0, r := spike 32 13 30, s := zeros 32 }
  fromArgs := Vec.empty
  target := zeros 20
  cd := Vec.empty
  msTs := zeros 16

def v2ForSolve : SolveV2Args Asset where
  args := Vec.singleton (plainSolve (zeros 20) 30 (by decide))
  permitOwner := zeros 20
  transferOwner := zeros 20

/-- Read as a `TransferOnlyArgs`, the permit is a transfer up to the tag of its own permit. -/
def solveForTransfer : SolveArgs Asset where
  permit := Vec.singleton { asset, deadline := 0, v := 0, r := zeros 32, s := spike 32 0 1 }
  fromArgs := Vec.empty
  target := zeros 20
  cd := zeroBytes 45 (by decide)
  msTs := zeros 16

def transferForSolve : TransferOnlyArgs Asset where
  args := Vec.singleton
    { fromAddr := zeros 20
      asset := asset
      recipient := zeros 20
      amt := zeros 32
      permit := some { deadline := 0, v := 0, r := spike 32 16 45, s := zeros 32 } }
  msTs := zeros 16

/-- One transfer whose recipient holds the calldata length of the solve it is read as. -/
def transferForBatch (length : ℕ) : TransferOnlyArgs Asset where
  args := Vec.singleton
    { fromAddr := zeros 20
      asset := asset
      recipient := spike 20 12 length
      amt := zeros 32
      permit := none }
  msTs := zeros 16

def v2ForTransfer : SolveV2Args Asset where
  args := Vec.singleton (plainSolve (zeros 20) 2 (by decide))
  permitOwner := zeros 20
  transferOwner := zeros 20

def v3ForTransfer : SolveV3Args Asset where
  args := Vec.singleton (plainSolve (zeros 20) 32 (by decide))
  gasToken := asset
  gasTokenAmt := 0
  gasTokenPermit := none

variable [AssetRegistry Asset] {asset}

theorem toVec_asset (isFirst : AssetRegistry.id asset = 0) : Borsh.toVec asset = [0] := by
  rw [AssetRegistry.toVec_eq, isFirst]

theorem solve_eq_v3 (isFirst : AssetRegistry.id asset = 0) :
    Borsh.toVec (solveForV3 : SolveArgs Asset) = Borsh.toVec (v3ForSolve asset) := by
  simp only [solveForV3, v3ForSolve, plainSolve, SolveArgs.toVec_eq, SolveV3Args.toVec_eq,
    Borsh.toVec_some, Permit.toVec_eq, toVec_asset isFirst, Borsh.toVec_vec, Vec.toList_empty,
    List.flatMap_nil, List.length_nil]
  decide +kernel

theorem solve_eq_v2 (isFirst : AssetRegistry.id asset = 0) :
    Borsh.toVec (solveForV2 asset) = Borsh.toVec (v2ForSolve : SolveV2Args Asset) := by
  simp only [solveForV2, v2ForSolve, plainSolve, SolveArgs.toVec_eq, SolveV2Args.toVec_eq,
    Permit.toVec_eq, toVec_asset isFirst, Borsh.toVec_vec, Vec.toList_empty, Vec.toList_singleton,
    List.flatMap_nil, List.flatMap_cons, List.length_nil, List.length_cons]
  decide +kernel

theorem solve_eq_transfer (isFirst : AssetRegistry.id asset = 0) :
    Borsh.toVec (solveForTransfer asset) = Borsh.toVec (transferForSolve asset) := by
  simp only [solveForTransfer, transferForSolve, SolveArgs.toVec_eq, TransferOnlyArgs.toVec_eq,
    Transfer.toVec_eq, Permit.toVec_eq, toVec_asset isFirst, Borsh.toVec_vec, Vec.toList_empty,
    Vec.toList_singleton, List.flatMap_nil, List.flatMap_cons, List.length_nil, List.length_cons]
  decide +kernel

theorem v2_eq_transfer (isFirst : AssetRegistry.id asset = 0) :
    Borsh.toVec (v2ForTransfer : SolveV2Args Asset) = Borsh.toVec (transferForBatch asset 2) := by
  simp only [v2ForTransfer, transferForBatch, plainSolve, SolveArgs.toVec_eq,
    SolveV2Args.toVec_eq, TransferOnlyArgs.toVec_eq, Transfer.toVec_eq, toVec_asset isFirst,
    Borsh.toVec_vec, Vec.toList_empty, Vec.toList_singleton, List.flatMap_nil, List.flatMap_cons,
    List.length_nil, List.length_cons]
  decide +kernel

theorem v3_eq_transfer (isFirst : AssetRegistry.id asset = 0) :
    Borsh.toVec (v3ForTransfer asset) = Borsh.toVec (transferForBatch asset 32) := by
  simp only [v3ForTransfer, transferForBatch, plainSolve, SolveArgs.toVec_eq,
    SolveV3Args.toVec_eq, TransferOnlyArgs.toVec_eq, Transfer.toVec_eq, toVec_asset isFirst,
    Borsh.toVec_none, Borsh.toVec_vec, Vec.toList_empty, Vec.toList_singleton, List.flatMap_nil,
    List.flatMap_cons, List.length_nil, List.length_cons]
  decide +kernel

end Collision

open Collision in
/-- Two signed formats share no encoding exactly if they are the formats of the batched solves. -/
theorem disjoint_encodings_iff [AssetRegistry Asset] {asset : Asset}
    (isFirst : AssetRegistry.id asset = 0) {left right : SignedKind} (different : left ≠ right) :
    Disjoint (left.encodings Asset) (right.encodings Asset) ↔
      (left = .solveV2 ∧ right = .solveV3) ∨ (left = .solveV3 ∧ right = .solveV2) := by
  constructor
  · intro disjoint
    rw [Set.disjoint_left] at disjoint
    cases left <;> cases right
    case solveV2.solveV3 => simp
    case solveV3.solveV2 => simp
    case solve.solveV2 => exact absurd ⟨_, (solve_eq_v2 isFirst).symm⟩ (disjoint ⟨_, rfl⟩)
    case solve.solveV3 => exact absurd ⟨_, (solve_eq_v3 isFirst).symm⟩ (disjoint ⟨_, rfl⟩)
    case solve.transferOnly =>
      exact absurd ⟨_, (solve_eq_transfer isFirst).symm⟩ (disjoint ⟨_, rfl⟩)
    case solveV2.solve => exact absurd ⟨_, solve_eq_v2 isFirst⟩ (disjoint ⟨_, rfl⟩)
    case solveV2.transferOnly =>
      exact absurd ⟨_, (v2_eq_transfer isFirst).symm⟩ (disjoint ⟨_, rfl⟩)
    case solveV3.solve => exact absurd ⟨_, solve_eq_v3 isFirst⟩ (disjoint ⟨_, rfl⟩)
    case solveV3.transferOnly =>
      exact absurd ⟨_, (v3_eq_transfer isFirst).symm⟩ (disjoint ⟨_, rfl⟩)
    case transferOnly.solve => exact absurd ⟨_, solve_eq_transfer isFirst⟩ (disjoint ⟨_, rfl⟩)
    case transferOnly.solveV2 => exact absurd ⟨_, v2_eq_transfer isFirst⟩ (disjoint ⟨_, rfl⟩)
    case transferOnly.solveV3 => exact absurd ⟨_, v3_eq_transfer isFirst⟩ (disjoint ⟨_, rfl⟩)
    all_goals exact absurd rfl different
  · rw [Set.disjoint_left]
    rintro (⟨rfl, rfl⟩ | ⟨rfl, rfl⟩) _ ⟨value, rfl⟩ ⟨other, same⟩
    · exact toVec_solveV2_ne_toVec_solveV3 value other same.symm
    · exact toVec_solveV2_ne_toVec_solveV3 other value same

theorem disjoint_encodings_known :
    Disjoint (SignedKind.solveV2.encodings KnownAsset) (SignedKind.solveV3.encodings KnownAsset) ∧
      ¬Disjoint (SignedKind.solve.encodings KnownAsset)
        (SignedKind.transferOnly.encodings KnownAsset) := by
  have first : AssetRegistry.id KnownAsset.usdc = 0 := rfl
  constructor
  · exact (disjoint_encodings_iff first (by decide)).mpr (by simp)
  · intro disjoint
    have kinds := (disjoint_encodings_iff first (by decide)).mp disjoint
    simp at kinds

/-- A signed solve that calls a target with 40 zero bytes is also a signed `SolveV3Args` with a
permit and no solves. -/
theorem solve_signature_reads_as_solveV3 :
    Borsh.toVec (Collision.solveForV3 : SolveArgs KnownAsset) =
        Borsh.toVec (Collision.v3ForSolve KnownAsset.usdc) ∧
      ¬∀ left right : SignedKind, left ≠ right →
        Disjoint (left.encodings KnownAsset) (right.encodings KnownAsset) := by
  have first : AssetRegistry.id KnownAsset.usdc = 0 := rfl
  have same := Collision.solve_eq_v3 first
  refine ⟨same, ?_⟩
  intro separate
  have disjoint := separate .solve .solveV3 (by decide)
  rw [Set.disjoint_left] at disjoint
  exact disjoint ⟨_, rfl⟩ ⟨_, same.symm⟩

end SuperpositionAccounts
