import SuperpositionAccounts.CallTree.Effects

/-!
# Moving the slots of a program

A program over named slots runs on a storage of another kind once each slot has
a position there. Nothing is asked of the positions: two slots may share one.
What a moved program writes lies at the positions of what it wrote before.
-/

namespace CallTree

variable {S : Signature} {α β : Type}

/-- The same types with other slots. -/
abbrev Signature.withSlot (S : Signature) (Slot : Type) : Signature :=
  { S with Slot := Slot }

namespace Prog

/-- A program with its slots at other positions. -/
def relocate {T : Type} (position : S.Slot → T) : Prog S α → Prog (S.withSlot T) α
  | ret value => ret value
  | fail err => fail err
  | load slot next => load (position slot) fun word => (next word).relocate position
  | store slot word next => store (position slot) word (next.relocate position)
  | note mark next => note mark (next.relocate position)
  | ask query next => ask query fun reply => (next reply).relocate position

/-- A program that gives one error for all of its own. -/
def rethrow (err : S.Err) : Prog S α → Prog S α
  | ret value => ret value
  | fail _ => fail err
  | load slot next => load slot fun word => (next word).rethrow err
  | store slot word next => store slot word (next.rethrow err)
  | note mark next => note mark (next.rethrow err)
  | ask query next => ask query fun reply => (next reply).rethrow err

section Relocate

variable {T : Type} (position : S.Slot → T)

@[simp]
theorem relocate_pure (value : α) :
    (pure value : Prog S α).relocate position = pure value :=
  rfl

@[simp]
theorem relocate_require (condition : Bool) (err : S.Err) :
    (require condition err).relocate position =
      require (S := S.withSlot T) condition err := by
  cases condition <;> rfl

theorem relocate_bind (program : Prog S α) (continuation : α → Prog S β) :
    (program >>= continuation).relocate position =
      program.relocate position >>= fun value => (continuation value).relocate position := by
  change (program.bind continuation).relocate position = (program.relocate position).bind _
  induction program with
  | ret value => rfl
  | fail err => rfl
  | load slot next ih => simp only [bind, relocate, ih]
  | store slot word next ih => simp only [bind, relocate, ih]
  | note mark next ih => simp only [bind, relocate, ih]
  | ask query next ih => simp only [bind, relocate, ih]

theorem Within.relocate {program : Prog S α} {writable : S.Slot → Prop}
    {markable : S.Note → Prop} (within : program.Within writable markable) :
    Within (S := S.withSlot T) (fun slot => ∃ named, writable named ∧ position named = slot)
      markable (program.relocate position) := by
  induction program with
  | ret value => trivial
  | fail err => trivial
  | load slot next ih => exact fun word => ih word (within word)
  | store slot word next ih => exact ⟨⟨slot, within.1, rfl⟩, ih within.2⟩
  | note mark next ih => exact ⟨within.1, ih within.2⟩
  | ask query next ih => exact fun reply => ih reply (within reply)

end Relocate

end Prog

end CallTree
