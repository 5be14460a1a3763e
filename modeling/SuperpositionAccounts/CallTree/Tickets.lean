import Mathlib.Algebra.GroupWithZero.Nat
import SuperpositionAccounts.CallTree.Effects

/-!
# Tickets

A ticket is a slot of a contract that can be used once: a frame that uses it
moves the slot from one word to another, and finds it in the first. A frame that
is not reverted stays in the log as completed, so the uses that took effect can
be counted there.

Between any two moments at which the outside holds control, either the slot stays
as it is and no use took effect, or the ticket is taken and exactly one did. A
frame in progress may be ahead of the log by the uses it has begun: `Pending`
counts those.
-/

namespace CallTree

variable {S : Signature} [DecidableEq S.Addr]

structure Ticket (S : Signature) where
  self : S.Addr
  slot : S.Slot
  free : S.Word
  taken : S.Word
  taken_ne_free : taken ≠ free
  /-- How often a frame of the contract uses the ticket, if it completes. -/
  demand : Frame S → ℕ

namespace Ticket

section Counting

variable (ticket : Ticket S)

/-- How often an event uses a ticket. -/
def eventUses (event : Event S) : ℕ :=
  match event.action with
  | .completed _ => if event.frame.self = ticket.self then ticket.demand event.frame else 0
  | _ => 0

/-- How often a ticket was used. -/
def uses (log : List (Event S)) : ℕ :=
  (log.map ticket.eventUses).sum

/-- What may happen to a ticket between two states. -/
def Step (before after : State S) : Prop :=
  (after.store ticket.self ticket.slot = before.store ticket.self ticket.slot ∧
    ticket.uses after.log = ticket.uses before.log) ∨
  (before.store ticket.self ticket.slot = ticket.free ∧
    after.store ticket.self ticket.slot = ticket.taken ∧
    ticket.uses after.log = ticket.uses before.log + 1)

/-- What may have happened to a ticket inside a frame that has begun a number of uses. -/
def Pending (before : State S) (begun : ℕ) (world : World S) : Prop :=
  (world.store ticket.self ticket.slot = before.store ticket.self ticket.slot ∧
    ticket.uses world.log = ticket.uses before.log ∧ begun = 0) ∨
  (before.store ticket.self ticket.slot = ticket.free ∧
    world.store ticket.self ticket.slot = ticket.taken ∧ begun ≤ 1 ∧
    ticket.uses world.log + begun = ticket.uses before.log + 1)

end Counting

variable {ticket : Ticket S}

@[simp]
theorem uses_nil : ticket.uses [] = 0 :=
  rfl

@[simp]
theorem uses_cons (event : Event S) (log : List (Event S)) :
    ticket.uses (event :: log) = ticket.eventUses event + ticket.uses log := by
  simp [uses]

theorem eventUses_completed {frame : Frame S} (own : frame.self = ticket.self)
    (stack : List (Frame S)) (output : S.Output) (store : S.Addr → S.Slot → S.Word) :
    ticket.eventUses ⟨stack, frame, .completed output, store⟩ = ticket.demand frame := by
  simp [eventUses, own]

theorem eventUses_elsewhere {frame : Frame S} (elsewhere : frame.self ≠ ticket.self)
    (stack : List (Frame S)) (action : Action S) (store : S.Addr → S.Slot → S.Word) :
    ticket.eventUses ⟨stack, frame, action, store⟩ = 0 := by
  cases action <;> simp [eventUses, elsewhere]

theorem Step.refl (state : State S) : ticket.Step state state :=
  Or.inl ⟨rfl, rfl⟩

theorem Step.trans {before middle after : State S} (first : ticket.Step before middle)
    (second : ticket.Step middle after) : ticket.Step before after := by
  rcases first with ⟨slotSame, usesSame⟩ | ⟨free, taken, oneMore⟩
  · rcases second with ⟨slotSame', usesSame'⟩ | ⟨free', taken', oneMore'⟩
    · exact Or.inl ⟨slotSame'.trans slotSame, usesSame'.trans usesSame⟩
    · refine Or.inr ⟨slotSame ▸ free', taken', ?_⟩
      rw [oneMore', usesSame]
  · rcases second with ⟨slotSame', usesSame'⟩ | ⟨free', _, _⟩
    · exact Or.inr ⟨free, slotSame'.trans taken, usesSame'.trans oneMore⟩
    · rw [taken] at free'
      exact absurd free' ticket.taken_ne_free

/-- A use that took effect has taken the ticket, and was the only one. -/
theorem Step.uses_eq_succ_iff {before after : State S} (step : ticket.Step before after) :
    ticket.uses after.log = ticket.uses before.log + 1 ↔
      before.store ticket.self ticket.slot = ticket.free ∧
        after.store ticket.self ticket.slot = ticket.taken := by
  rcases step with ⟨slotSame, usesSame⟩ | ⟨free, taken, oneMore⟩
  · apply iff_of_false
    · omega
    · rintro ⟨free, taken⟩
      rw [slotSame, free] at taken
      exact ticket.taken_ne_free taken.symm
  · exact iff_of_true oneMore ⟨free, taken⟩

theorem Step.uses_eq_iff {before after : State S} (step : ticket.Step before after) :
    ticket.uses after.log = ticket.uses before.log ↔
      after.store ticket.self ticket.slot = before.store ticket.self ticket.slot := by
  rcases step with ⟨slotSame, usesSame⟩ | ⟨free, taken, oneMore⟩
  · exact iff_of_true usesSame slotSame
  · apply iff_of_false
    · omega
    · intro slotSame
      rw [taken, free] at slotSame
      exact ticket.taken_ne_free slotSame

theorem Step.uses_le {before after : State S} (step : ticket.Step before after) :
    ticket.uses after.log ≤ ticket.uses before.log + 1 := by
  rcases step with ⟨_, usesSame⟩ | ⟨_, _, oneMore⟩
  · omega
  · omega

theorem Step.taken {before after : State S} (step : ticket.Step before after)
    (taken : before.store ticket.self ticket.slot = ticket.taken) :
    after.store ticket.self ticket.slot = ticket.taken := by
  rcases step with ⟨slotSame, _⟩ | ⟨_, taken, _⟩
  · exact slotSame.trans taken
  · exact taken

theorem Pending.initial {world : World S} (stack : List (Frame S)) (frame : Frame S) :
    ticket.Pending world.toState 0 (world.record stack frame .entered) := by
  left
  refine ⟨rfl, ?_, rfl⟩
  simp [eventUses]

theorem Pending.step {before : State S} {begun : ℕ} {world after : World S}
    (pending : ticket.Pending before begun world)
    (moved : ticket.Step world.toState after.toState) : ticket.Pending before begun after := by
  rcases pending with ⟨slotSame, usesSame, none⟩ | ⟨free, taken, single, ahead⟩
  · rcases moved with ⟨slotSame', usesSame'⟩ | ⟨free', taken', oneMore'⟩
    · exact Or.inl ⟨slotSame'.trans slotSame, usesSame'.trans usesSame, none⟩
    · refine Or.inr ⟨slotSame ▸ free', taken', by omega, ?_⟩
      rw [oneMore', usesSame, none]
  · rcases moved with ⟨slotSame', usesSame'⟩ | ⟨free', _, _⟩
    · exact Or.inr ⟨free, slotSame'.trans taken, single, by rw [usesSame', ahead]⟩
    · rw [taken] at free'
      exact absurd free' ticket.taken_ne_free

/-- The end of a frame settles the uses it has begun. -/
theorem Pending.complete {before : State S} {world : World S} {stack : List (Frame S)}
    {frame : Frame S} {output : S.Output} {begun : ℕ}
    (pending : ticket.Pending before begun world)
    (settles : ticket.eventUses ⟨stack, frame, .completed output, world.store⟩ = begun) :
    ticket.Step before (world.record stack frame (.completed output)).toState := by
  have counted : ticket.uses (world.record stack frame (.completed output)).log =
      begun + ticket.uses world.log := by
    rw [World.record_log, uses_cons, settles]
  rcases pending with ⟨slotSame, usesSame, none⟩ | ⟨free, taken, _, ahead⟩
  · left
    refine ⟨slotSame, ?_⟩
    omega
  · right
    refine ⟨free, taken, ?_⟩
    omega

variable [DecidableEq S.Slot]

/-- A frame that finds the ticket free may take it. -/
theorem Pending.take {before : State S} {begun : ℕ} {world : World S}
    (pending : ticket.Pending before begun world)
    (isFree : world.store ticket.self ticket.slot = ticket.free) :
    ticket.Pending before (begun + 1) (world.write ticket.self ticket.slot ticket.taken) := by
  rcases pending with ⟨slotSame, usesSame, none⟩ | ⟨_, taken, _⟩
  · refine Or.inr ⟨slotSame ▸ isFree, World.write_store_self world _ _ _, ?_⟩
    simp only [World.write_log]
    constructor
    · omega
    · omega
  · rw [taken] at isFree
    exact absurd isFree ticket.taken_ne_free

/-- Writes of other slots and of other contracts do not matter to a ticket. -/
theorem Pending.survives {before : State S} {begun : ℕ} {stack : List (Frame S)}
    {frame : Frame S} {writable : S.Slot → Prop} {markable : S.Note → Prop}
    (apart : frame.self = ticket.self → ¬writable ticket.slot) :
    Survives (fun world after => ticket.Step world.toState after.toState) stack frame writable
      markable (ticket.Pending before begun) where
  others moved pending := pending.step moved
  asked query reply pending := by
    simpa [Pending, eventUses] using pending
  noted mark _ pending := by
    simpa [Pending, eventUses] using pending
  written slot word canWrite pending := by
    unfold Pending at pending ⊢
    rw [World.write_store_of_ne]
    · exact pending
    · by_cases own : frame.self = ticket.self
      · right
        rintro rfl
        exact apart own canWrite
      · left
        exact Ne.symm own

/-- A program that does not write the slot begins no uses. -/
theorem Pending.wp_within {α : Type} {program : Prog S α} {before : State S} {begun : ℕ}
    {stack : List (Frame S)} {frame : Frame S}
    (within : program.Within (fun slot => slot ≠ ticket.slot) fun _ => True) {world : World S}
    (pending : ticket.Pending before begun world) :
    program.wp (fun world after => ticket.Step world.toState after.toState) stack frame
      (fun _ => True) (fun _ after => ticket.Pending before begun after) world := by
  apply within.wp (Pending.survives _) _ pending
  · intro _ canWrite
    exact canWrite rfl
  · intro _ _
    trivial

/-- If every frame of the contract begins the uses it is counted for, every run keeps the
count. -/
theorem guarantee {system : System S}
    (begins : ∀ stack (frame : Frame S) (world : World S), frame.self = ticket.self →
      (system.program frame.self frame.msg).wp
        (fun world after => ticket.Step world.toState after.toState) stack frame (fun _ => True)
        (fun _ after => ticket.Pending world.toState (ticket.demand frame) after)
        (world.record stack frame .entered)) :
    Guarantee system (fun _ _ => True)
      (fun _ world after => ticket.Step world.toState after.toState) := by
  apply Guarantee.ofState fun _ => ticket.Step
  · intro _ state
    exact Step.refl state
  · intro _ _ _ _ first second
    exact first.trans second
  · intro stack frame world _
    by_cases own : frame.self = ticket.self
    · apply Prog.wp_mono _ (begins stack frame world own)
      intro output after pending
      exact pending.complete (eventUses_completed own stack output after.store)
    · have survives : Survives
          (fun world after => ticket.Step world.toState after.toState) stack frame
          (fun _ => True) (fun _ => True) (ticket.Pending world.toState 0) :=
        Pending.survives fun same => absurd same own
      apply Prog.wp_mono _ ((Prog.within_true _).wp survives (fun _ => trivial)
        (Pending.initial stack frame))
      intro output after pending
      exact pending.complete (eventUses_elsewhere own stack (.completed output) after.store)

end Ticket

end CallTree
