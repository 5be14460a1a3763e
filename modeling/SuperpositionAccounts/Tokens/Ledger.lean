import Mathlib.Data.List.Pairwise
import Mathlib.Tactic.Common

/-!
# Ledgers of tokens

The balances and allowances of any number of tokens. A transfer moves exactly its
amount. An allowance is overwritten, not increased.

A list of amounts for keys may name a key several times. If the amounts are added
up on one side and written one over the other on another, the two sides agree
exactly if every amount that is written over is zero.
-/

namespace Tokens

/-- What each holder has of each token, and what each spender may take from it. -/
structure Ledger (Addr : Type) where
  balance : Addr → Addr → ℕ
  allowance : Addr → Addr → Addr → ℕ

namespace Ledger

variable {Addr : Type} [DecidableEq Addr] (ledger : Ledger Addr)

def transfer (token sender recipient : Addr) (amount : ℕ) : Ledger Addr :=
  { ledger with
    balance := fun other holder =>
      if other = token then
        ledger.balance other holder - (if holder = sender then amount else 0) +
          (if holder = recipient then amount else 0)
      else ledger.balance other holder }

def setAllowance (token owner spender : Addr) (amount : ℕ) : Ledger Addr :=
  { ledger with
    allowance := fun other holder taker =>
      if other = token ∧ holder = owner ∧ taker = spender then amount
      else ledger.allowance other holder taker }

@[simp]
theorem allowance_transfer (token sender recipient : Addr) (amount : ℕ) :
    (ledger.transfer token sender recipient amount).allowance = ledger.allowance :=
  rfl

@[simp]
theorem balance_setAllowance (token owner spender : Addr) (amount : ℕ) :
    (ledger.setAllowance token owner spender amount).balance = ledger.balance :=
  rfl

/-- What a recipient has who is not the sender. -/
theorem balance_transfer_recipient {token sender recipient : Addr} {amount : ℕ}
    (different : sender ≠ recipient) (other : Addr) :
    (ledger.transfer token sender recipient amount).balance other recipient =
      ledger.balance other recipient + if token = other then amount else 0 := by
  simp only [transfer]
  by_cases same : other = token
  · simp [same, different.symm]
  · simp [same, Ne.symm same]

theorem allowance_setAllowance_of_ne {token owner spender holder : Addr} {amount : ℕ}
    (different : holder ≠ owner) (other taker : Addr) :
    (ledger.setAllowance token owner spender amount).allowance other holder taker =
      ledger.allowance other holder taker := by
  simp [setAllowance, different]

theorem allowance_setAllowance_same (token owner spender other : Addr) (amount : ℕ) :
    (ledger.setAllowance token owner spender amount).allowance other owner spender =
      if token = other then amount else ledger.allowance other owner spender := by
  simp only [setAllowance, and_self, and_true]
  by_cases same : other = token
  · simp [same]
  · simp [same, Ne.symm same]

end Ledger

/-! ### Amounts for keys -/

section Amounts

variable {κ : Type} [DecidableEq κ]

/-- The amounts of a key, added up. -/
def total (key : κ) : List (κ × ℕ) → ℕ
  | [] => 0
  | (other, amount) :: rest => (if other = key then amount else 0) + total key rest

/-- The amounts of a key, written one over the other. -/
def final (key : κ) (before : ℕ) : List (κ × ℕ) → ℕ
  | [] => before
  | (other, amount) :: rest => final key (if other = key then amount else before) rest

theorem total_of_not_mem {key : κ} {amounts : List (κ × ℕ)}
    (absent : key ∉ amounts.map Prod.fst) : total key amounts = 0 := by
  induction amounts with
  | nil => rfl
  | cons first rest ih =>
      simp only [List.map_cons, List.mem_cons, not_or] at absent
      rw [total, if_neg (Ne.symm absent.1), ih absent.2]

theorem final_of_not_mem {key : κ} {amounts : List (κ × ℕ)} (before : ℕ)
    (absent : key ∉ amounts.map Prod.fst) : final key before amounts = before := by
  induction amounts with
  | nil => rfl
  | cons first rest ih =>
      simp only [List.map_cons, List.mem_cons, not_or] at absent
      rw [final, if_neg (Ne.symm absent.1), ih absent.2]

/-- What was there before does not matter to a key that occurs, and the last amount is no more
than all together. -/
theorem final_le_total {key : κ} {amounts : List (κ × ℕ)}
    (present : key ∈ amounts.map Prod.fst) (before : ℕ) :
    final key before amounts = final key 0 amounts ∧
      final key before amounts ≤ total key amounts := by
  induction amounts generalizing before with
  | nil => simp at present
  | cons first rest ih =>
      rw [final, final, total]
      by_cases later : key ∈ rest.map Prod.fst
      · have here := ih later (if first.1 = key then first.2 else before)
        have zero := ih later (if first.1 = key then first.2 else 0)
        rw [here.1, zero.1]
        have bound := here.2
        rw [here.1] at bound
        exact ⟨rfl, by omega⟩
      · have same : first.1 = key := ((List.mem_cons.mp present).resolve_right later).symm
        rw [final_of_not_mem _ later, final_of_not_mem _ later, if_pos same, if_pos same]
        exact ⟨rfl, by omega⟩

/-- The two sides agree on all keys exactly if every amount that is written over is zero. -/
theorem final_eq_total_iff (before : κ → ℕ) (amounts : List (κ × ℕ)) :
    (∀ key ∈ amounts.map Prod.fst, final key (before key) amounts = total key amounts) ↔
      amounts.Pairwise fun first later => first.1 = later.1 → first.2 = 0 := by
  induction amounts with
  | nil => simp
  | cons first rest ih =>
      rw [List.pairwise_cons, ← ih]
      constructor
      · intro agree
        refine ⟨?_, ?_⟩
        · intro later found same
          have present : first.1 ∈ rest.map Prod.fst := same ▸ List.mem_map_of_mem found
          have whole := agree first.1 List.mem_cons_self
          rw [final, total, if_pos rfl, if_pos rfl] at whole
          have bound := (final_le_total present first.2).2
          omega
        · intro key present
          have whole := agree key (List.mem_cons_of_mem _ present)
          rw [final, total] at whole
          have here := final_le_total present (if first.1 = key then first.2 else before key)
          have start := final_le_total present (before key)
          omega
      · rintro ⟨zero, agree⟩ key present
        rw [final, total]
        by_cases later : key ∈ rest.map Prod.fst
        · have last := agree key later
          rw [(final_le_total later _).1] at last ⊢
          by_cases same : first.1 = key
          · rcases List.mem_map.mp later with ⟨other, found, otherKey⟩
            rw [if_pos same, zero other found (same.trans otherKey.symm), Nat.zero_add, last]
          · rw [if_neg same, Nat.zero_add, last]
        · have same : first.1 = key := ((List.mem_cons.mp present).resolve_right later).symm
          rw [final_of_not_mem _ later, total_of_not_mem later, if_pos same, if_pos same,
            Nat.add_zero]

end Amounts

end Tokens
