import SuperpositionAccounts.CallTree.Effects

/-!
# Histories of calls

The answer to a query is recorded when the call returns, after everything that
happened during the call. What happened during it was done by frames that are
deeper in the stack, so the trace at the moment the call was made is found by
leaving these events out.

`Since` says that a property of the storage is kept and that each new event is
good in view of the events before it. A program maintains such an invariant if
each of its own writes and queries does.
-/

namespace CallTree

variable {S : Signature} {α β : Type}

/-- The trace when a call that has just returned to a frame was made. -/
def madeAt (stack : List (Frame S)) (trace : List (Event S)) : List (Event S) :=
  trace.dropWhile fun event => decide (stack.length < event.stack.length)

/-- A trace grew by events at some depth or deeper, each good in view of the earlier ones. -/
inductive Grows (good : Event S → List (Event S) → Prop) (depth : ℕ) (base : List (Event S)) :
    List (Event S) → Prop where
  | refl : Grows good depth base base
  | event {event : Event S} {older : List (Event S)} (deep : depth ≤ event.stack.length)
      (holds : good event older) (grown : Grows good depth base older) :
      Grows good depth base (event :: older)

namespace Grows

variable {good : Event S → List (Event S) → Prop} {depth : ℕ} {base middle trace : List (Event S)}

theorem trans (first : Grows good depth base middle) (second : Grows good depth middle trace) :
    Grows good depth base trace := by
  induction second with
  | refl => exact first
  | event deep holds _ ih => exact .event deep holds ih

theorem shallower {less : ℕ} (below : less ≤ depth) (grown : Grows good depth base trace) :
    Grows good less base trace := by
  induction grown with
  | refl => exact .refl
  | event deep holds _ ih => exact .event (Nat.le_trans below deep) holds ih

/-- During a call only deeper frames act. -/
theorem madeAt_eq {stack : List (Frame S)} {frame : Frame S} {action : Action S}
    {store : S.Addr → S.Slot → S.Word} {older : List (Event S)}
    (grown : Grows good (stack.length + 1) (⟨stack, frame, action, store⟩ :: older) trace) :
    madeAt stack trace = ⟨stack, frame, action, store⟩ :: older := by
  induction grown with
  | refl => simp [madeAt]
  | event deep _ _ ih =>
      rw [madeAt, List.dropWhile_cons_of_pos (by simpa using Nat.lt_of_succ_le deep)]
      exact ih

theorem good_of_append (grown : Grows good depth [] trace) {newer older : List (Event S)}
    {event : Event S} (split : trace = newer ++ event :: older) : good event older := by
  induction grown generalizing newer with
  | refl => simp at split
  | event _ holds _ ih =>
      cases newer with
      | nil =>
          cases split
          exact holds
      | cons latest newer =>
          cases split
          exact ih rfl

end Grows

/-- A property of the storage was kept at each event, and what happened since was good. -/
structure Since (kept : (S.Addr → S.Slot → S.Word) → Prop)
    (good : Event S → List (Event S) → Prop) (depth : ℕ) (before after : World S) : Prop where
  keeps : kept after.store
  grows : Grows (fun event older => kept event.store ∧ good event older) depth before.trace
    after.trace

namespace Since

variable {kept : (S.Addr → S.Slot → S.Word) → Prop} {good : Event S → List (Event S) → Prop}
  {depth : ℕ} {before middle after : World S}

theorem refl (initially : kept before.store) : Since kept good depth before before :=
  ⟨initially, .refl⟩

theorem trans (first : Since kept good depth before middle)
    (second : Since kept good depth middle after) : Since kept good depth before after :=
  ⟨second.keeps, first.grows.trans second.grows⟩

theorem revert (initially : kept before.store) (since : Since kept good depth before after) :
    Since kept good depth before (after.revertTo before) :=
  ⟨initially, since.grows⟩

theorem record {stack : List (Frame S)} {frame : Frame S} {action : Action S}
    (since : Since kept good stack.length before after)
    (holds : good ⟨stack, frame, action, after.store⟩ after.trace) :
    Since kept good stack.length before (after.record stack frame action) :=
  ⟨since.keeps, .event (Nat.le_refl _) ⟨since.keeps, holds⟩ since.grows⟩

/-- What others do during a call. -/
theorem called {stack : List (Frame S)} (since : Since kept good stack.length before middle)
    (moved : kept middle.store → Since kept good (stack.length + 1) middle after) :
    Since kept good stack.length before after := by
  have called := moved since.keeps
  exact ⟨called.keeps, since.grows.trans (called.grows.shallower (Nat.le_succ _))⟩

end Since

/-- What a frame may rely on while it waits. -/
def sinceRely (kept : (S.Addr → S.Slot → S.Word) → Prop) (good : Event S → List (Event S) → Prop)
    (stack : List (Frame S)) (before after : World S) : Prop :=
  kept before.store → Since kept good stack.length before after

variable [DecidableEq S.Addr] [DecidableEq S.Slot]

/-- Frames that keep a property of the storage, and whose events are good, make a history of good
events. -/
theorem Guarantee.since {system : System S} {allowed : List (Frame S) → Frame S → Prop}
    (kept : (S.Addr → S.Slot → S.Word) → Prop) (good : Event S → List (Event S) → Prop)
    (frame : ∀ stack frame (world : World S), allowed stack frame → kept world.store →
      (system.program frame.self frame.msg).wp (sinceRely kept good (frame :: stack)) stack frame
        (Since kept good stack.length world)
        (fun output after =>
          Since kept good stack.length world (after.record stack frame (.completed output)))
        (world.record stack frame .entered)) :
    Guarantee system allowed (sinceRely kept good) where
  refl _ _ := Since.refl
  trans first second initially := (first initially).trans (second (first initially).keeps)
  revert since initially := (since initially).revert initially
  frame stack current world permitted := by
    by_cases initially : kept world.store
    · apply Prog.wp_abort_mono _ (Prog.wp_mono _ (frame stack current world permitted initially))
      · intro after since _
        exact since.revert initially
      · intro output after since _
        exact since
    · apply Prog.wp_of_always
      · intro after holds
        exact absurd holds initially
      · intro output after holds
        exact absurd holds initially

/-! ### Programs that maintain an invariant -/

/-- Wherever a program stops or returns, an invariant holds that held when it started. -/
def Prog.Maintains (rely : World S → World S → Prop) (stack : List (Frame S)) (frame : Frame S)
    (invariant : World S → Prop) (program : Prog S α) : Prop :=
  ∀ world, invariant world →
    program.wp rely stack frame invariant (fun _ after => invariant after) world

namespace Prog

variable {rely : World S → World S → Prop} {stack : List (Frame S)} {frame : Frame S}
  {invariant : World S → Prop}

theorem maintains_pure (value : α) :
    (pure value : Prog S α).Maintains rely stack frame invariant :=
  fun _ initially => initially

theorem maintains_sload (slot : S.Slot) :
    (sload slot).Maintains rely stack frame invariant :=
  fun _ initially => initially

theorem maintains_require (condition : Bool) (err : S.Err) :
    (require condition err).Maintains rely stack frame invariant := by
  intro world initially
  rw [wp_require]
  split
  · exact initially
  · exact initially

theorem maintains_mark {mark : S.Note}
    (noted : ∀ world, invariant world → invariant (world.record stack frame (.noted mark))) :
    (Prog.mark mark).Maintains rely stack frame invariant :=
  noted

theorem maintains_sstore {slot : S.Slot} {word : S.Word}
    (written : ∀ world, invariant world → invariant (world.write frame.self slot word)) :
    (sstore slot word).Maintains rely stack frame invariant :=
  fun world initially => ⟨initially, written world initially⟩

theorem maintains_request {query : S.Query}
    (asked : ∀ world after reply, invariant world → rely world after →
      invariant (after.record stack frame (.asked query reply))) :
    (request query).Maintains rely stack frame invariant :=
  fun world initially => ⟨initially, fun after reply => asked world after reply initially⟩

theorem maintains_bind {program : Prog S α} {continuation : α → Prog S β}
    (first : program.Maintains rely stack frame invariant)
    (later : ∀ value, (continuation value).Maintains rely stack frame invariant) :
    (program >>= continuation).Maintains rely stack frame invariant := by
  intro world initially
  rw [wp_bind]
  apply wp_mono _ (first world initially)
  intro value after kept
  exact later value after kept

theorem maintains_unwrap_bind {err : S.Err} {option : Option α} {continuation : α → Prog S β}
    (later : ∀ value, option = some value →
      (continuation value).Maintains rely stack frame invariant) :
    (unwrap err option >>= continuation).Maintains rely stack frame invariant := by
  cases option with
  | none => exact fun _ initially => initially
  | some value => exact later value rfl

theorem maintains_forM {items : List α} {body : α → Prog S PUnit}
    (pass : ∀ item ∈ items, (body item).Maintains rely stack frame invariant) :
    (items.forM body).Maintains rely stack frame invariant := by
  induction items with
  | nil => exact fun _ initially => initially
  | cons item rest ih =>
      change (body item >>= fun _ => rest.forM body).Maintains rely stack frame invariant
      apply maintains_bind (pass item List.mem_cons_self)
      intro _
      exact ih fun other member => pass other (List.mem_cons_of_mem _ member)

end Prog

end CallTree
