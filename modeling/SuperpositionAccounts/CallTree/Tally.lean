import Mathlib.Algebra.BigOperators.Group.List.Basic
import Mathlib.Tactic.Abel
import SuperpositionAccounts.CallTree.Transcript

/-!
# Tallies

The calls of a contract that took effect stay in the log, and so do its frames
that completed. If each program of the contract makes calls of a total weight
that its frame alone determines, the log of every run balances: the weights of
the calls add up to the weights of the completed frames, however the frames are
nested. Weights may be numbers, or multisets when the calls themselves are to be
kept apart.

A frame in progress has made calls that it is not charged with yet; `Ahead` says
how many.
-/

namespace CallTree

variable {S : Signature} {M : Type} [AddCancelCommMonoid M]

structure Tally (S : Signature) (M : Type) where
  self : S.Addr
  /-- What a call of the contract weighs, with its answer. -/
  weight : S.Query → S.Reply → M
  /-- What a frame of the contract weighs, if it completes. -/
  charge : Frame S → M

namespace Tally

section Counting

variable [DecidableEq S.Addr] (tally : Tally S M)

def weightOf (event : Event S) : M :=
  match event.action with
  | .asked query reply => if event.frame.self = tally.self then tally.weight query reply else 0
  | _ => 0

def chargeOf (event : Event S) : M :=
  match event.action with
  | .completed _ => if event.frame.self = tally.self then tally.charge event.frame else 0
  | _ => 0

/-- What the calls in a log weigh. -/
def spent (log : List (Event S)) : M :=
  (log.map tally.weightOf).sum

/-- What the completed frames in a log weigh. -/
def charged (log : List (Event S)) : M :=
  (log.map tally.chargeOf).sum

/-- What a transcript weighs. -/
def total (exchanges : List (S.Query × S.Reply)) : M :=
  (exchanges.map fun exchange => tally.weight exchange.1 exchange.2).sum

/-- From one state to another so much more was spent than charged. -/
def Ahead (before : State S) (more : M) (after : State S) : Prop :=
  tally.spent after.log + tally.charged before.log =
    tally.spent before.log + tally.charged after.log + more

/-- The same was spent as charged. -/
abbrev Balances (before after : State S) : Prop :=
  tally.Ahead before 0 after

end Counting

variable [DecidableEq S.Addr] {tally : Tally S M}

@[simp]
theorem spent_cons (event : Event S) (log : List (Event S)) :
    tally.spent (event :: log) = tally.weightOf event + tally.spent log := by
  simp [spent]

@[simp]
theorem charged_cons (event : Event S) (log : List (Event S)) :
    tally.charged (event :: log) = tally.chargeOf event + tally.charged log := by
  simp [charged]

theorem Balances.refl (state : State S) : tally.Balances state state :=
  (add_zero _).symm

theorem Ahead.trans {before middle after : State S} {first later : M}
    (ahead : tally.Ahead before first middle) (further : tally.Ahead middle later after) :
    tally.Ahead before (first + later) after := by
  unfold Ahead at *
  apply add_right_cancel (b := tally.spent middle.log + tally.charged middle.log)
  calc
    _ = tally.spent middle.log + tally.charged before.log +
        (tally.spent after.log + tally.charged middle.log) := by abel
    _ = tally.spent before.log + tally.charged middle.log + first +
        (tally.spent middle.log + tally.charged after.log + later) := by rw [ahead, further]
    _ = _ := by abel

theorem Balances.trans {before middle after : State S} (first : tally.Balances before middle)
    (second : tally.Balances middle after) : tally.Balances before after := by
  have both := Ahead.trans first second
  rwa [add_zero] at both

section Record

variable {world : World S} {stack : List (Frame S)} {frame : Frame S}

/-- A call of the contract is spent when it returns. -/
theorem ahead_asked (own : frame.self = tally.self) (query : S.Query) (reply : S.Reply) :
    tally.Ahead world.toState (tally.weight query reply)
      (world.record stack frame (.asked query reply)).toState := by
  simp only [Ahead, World.record_log, spent_cons, charged_cons, weightOf, chargeOf, own, if_true,
    zero_add]
  abel

/-- The frame is charged when it completes. -/
theorem balances_completed (own : frame.self = tally.self) (output : S.Output)
    {before : State S} (ahead : tally.Ahead before (tally.charge frame) world.toState) :
    tally.Balances before (world.record stack frame (.completed output)).toState := by
  simp only [Ahead, World.record_log, spent_cons, charged_cons, weightOf, chargeOf, own, if_true,
    zero_add, add_zero] at ahead ⊢
  rw [ahead]
  abel

theorem balances_entered :
    tally.Balances world.toState (world.record stack frame .entered).toState := by
  simp [Ahead, weightOf, chargeOf]

theorem balances_noted (mark : S.Note) :
    tally.Balances world.toState (world.record stack frame (.noted mark)).toState := by
  simp [Ahead, weightOf, chargeOf]

/-- What other contracts do does not count. -/
theorem balances_elsewhere (other : frame.self ≠ tally.self) (action : Action S) :
    tally.Balances world.toState (world.record stack frame action).toState := by
  cases action <;> simp [Ahead, weightOf, chargeOf, other]

end Record

/-! ### Runs -/

section Runs

variable [DecidableEq S.Slot] {knows : S.Slot → S.Word → Prop} {α : Type}
  {stack : List (Frame S)} {frame : Frame S} {start world : World S}

variable (tally knows) in
/-- From a state where the words of the contract are as known they stay so, and the same is spent
as charged. -/
def Settles (before after : State S) : Prop :=
  AsKnown tally.self knows before.store →
    AsKnown tally.self knows after.store ∧ tally.Balances before after

variable (tally knows start) in
/-- The words are as known, and a frame has spent so much more than was charged. -/
structure Owes (more : M) (world : World S) : Prop where
  known : AsKnown tally.self knows world.store
  ahead : tally.Ahead start.toState more world.toState

omit [DecidableEq S.Slot] in
theorem Owes.step {more : M} {after : World S} (owes : tally.Owes knows start more world)
    (moved : tally.Settles knows world.toState after.toState) :
    tally.Owes knows start more after := by
  rcases moved owes.known with ⟨known, balances⟩
  have ahead := owes.ahead.trans balances
  rw [add_zero] at ahead
  exact ⟨known, ahead⟩

/-- A program of the contract owes what its transcript weighs. -/
theorem wp_of_yields {program : Prog S α} {post : α → List (S.Query × S.Reply) → Prop}
    (yields : program.Yields knows post) (own : frame.self = tally.self) {more : M}
    (owes : tally.Owes knows start more world) :
    program.wp (fun world after => tally.Settles knows world.toState after.toState) stack frame
      (fun _ => True) (fun value after => ∃ exchanges, post value exchanges ∧
        tally.Owes knows start (more + tally.total exchanges) after) world := by
  induction program generalizing world post more with
  | ret value =>
      refine ⟨[], yields, ?_⟩
      rwa [total, List.map_nil, List.sum_nil, add_zero]
  | fail err => trivial
  | load slot next ih =>
      have known := owes.known slot
      rw [← own] at known
      exact ih _ (yields _ known) owes
  | store slot word next ih =>
      refine ⟨trivial, ih yields.2 ⟨?_, owes.ahead⟩⟩
      rw [own]
      exact owes.known.write yields.1
  | note mark next ih =>
      have quiet : tally.Settles knows world.toState
          (world.record stack frame (.noted mark)).toState :=
        fun known => ⟨known, balances_noted mark⟩
      exact ih yields (owes.step quiet)
  | ask query next ih =>
      refine ⟨trivial, ?_⟩
      intro after reply moved
      have called := owes.step moved
      have asked : tally.Owes knows start (more + tally.weight query reply)
          (after.record stack frame (.asked query reply)) :=
        ⟨called.known, called.ahead.trans (ahead_asked own query reply)⟩
      apply Prog.wp_mono _ (ih reply (yields reply) asked)
      rintro value last ⟨later, holds, owes⟩
      refine ⟨(query, reply) :: later, holds, ?_⟩
      rw [total, List.map_cons, List.sum_cons, ← add_assoc]
      exact owes

/-- Other contracts owe nothing. -/
theorem owes_survives (other : frame.self ≠ tally.self) {more : M} :
    Survives (fun world after => tally.Settles knows world.toState after.toState) stack frame
      (fun _ => True) (fun _ => True) (tally.Owes knows start more) where
  others moved owes := owes.step moved
  asked _ _ owes := owes.step fun known => ⟨known, balances_elsewhere other _⟩
  noted _ _ owes := owes.step fun known => ⟨known, balances_elsewhere other _⟩
  written slot word _ owes := ⟨owes.known.write_elsewhere other slot word, owes.ahead⟩

/-- If each program of a contract makes calls of the weight that its frame is charged with, all
runs balance. -/
theorem guarantee {system : System S}
    (yields : ∀ frame : Frame S, frame.self = tally.self →
      (system.program frame.self frame.msg).Yields knows
        fun _ exchanges => tally.total exchanges = tally.charge frame) :
    Guarantee system (fun _ _ => True)
      (fun _ world after => tally.Settles knows world.toState after.toState) := by
  apply Guarantee.ofState fun _ => tally.Settles knows
  · intro _ state known
    exact ⟨known, Balances.refl state⟩
  · intro _ _ _ _ first second known
    rcases first known with ⟨middleKnown, early⟩
    rcases second middleKnown with ⟨lastKnown, late⟩
    exact ⟨lastKnown, early.trans late⟩
  · intro stack frame world _
    by_cases known : AsKnown tally.self knows world.store
    · have entered : tally.Owes knows world 0 (world.record stack frame .entered) :=
        ⟨known, balances_entered⟩
      by_cases own : frame.self = tally.self
      · apply Prog.wp_mono _ (wp_of_yields (yields frame own) own entered)
        rintro output after ⟨exchanges, weighs, owes⟩ _
        rw [zero_add, weighs] at owes
        exact ⟨owes.known, balances_completed own output owes.ahead⟩
      · apply Prog.wp_mono _
          ((Prog.within_true _).wp (owes_survives own) (fun _ => trivial) entered)
        intro output after owes _
        have settled : tally.Settles knows after.toState
            (after.record stack frame (.completed output)).toState :=
          fun known => ⟨known, balances_elsewhere own _⟩
        exact ⟨(owes.step settled).known, (owes.step settled).ahead⟩
    · apply Prog.wp_of_always
      · intro _
        trivial
      · intro _ _ atStart
        exact absurd atStart known

/-- In a whole run the calls weigh what the completed frames do. -/
theorem spent_eq_charged {system : System S}
    (yields : ∀ frame : Frame S, frame.self = tally.self →
      (system.program frame.self frame.msg).Yields knows
        fun _ exchanges => tally.total exchanges = tally.charge frame)
    {store : S.Addr → S.Slot → S.Word} (known : AsKnown tally.self knows store)
    (acts : List (Act S)) :
    let after := Act.runAll system acts [] false (World.start store)
    tally.spent after.log = tally.charged after.log := by
  intro after
  have settles : tally.Settles knows (World.start store).toState after.toState :=
    (guarantee yields).runAll acts fun _ _ _ => trivial
  have balances := (settles known).2
  simpa [Ahead, spent, charged, World.start] using balances

end Runs

end Tally

end CallTree
