import SuperpositionAccounts.CallTree.Program

/-!
# Programs among those who answer them

The runs of `CallTree.Program` leave open what the outside knows. Here the outside
has a state of its own, which its answers change and which nothing else does:
those who are called do not call back. What a program asks is then determined,
and each query has a moment, the state in which it is asked.

`Prog.Tells` is the weakest precondition for this reading. A conversation is a run
in which every answer comes without any act.
-/

namespace CallTree

/-- Those who answer a program: their state, and how they answer and change. -/
structure Surroundings (S : Signature) where
  State : Type
  respond : State → S.Query → S.Reply × State

namespace Prog

variable {S : Signature} [DecidableEq S.Slot] {α β : Type} (around : Surroundings S)

/-- What a program asks, with the state at the moment, and how it ends. -/
def converse : Prog S α → (S.Slot → S.Word) → around.State →
    List (S.Query × around.State) × Except S.Err α
  | ret value, _, _ => ([], .ok value)
  | fail err, _, _ => ([], .error err)
  | load slot next, own, state => (next (own slot)).converse own state
  | store slot word next, own, state => next.converse (Function.update own slot word) state
  | note _ next, own, state => next.converse own state
  | ask query next, own, state =>
      let (reply, after) := around.respond state query
      let (asked, outcome) := (next reply).converse own after
      ((query, state) :: asked, outcome)

/-- Every query is good at its moment, and if the program returns, the value, the storage and the
state are as promised. -/
def Tells (good : S.Query → around.State → Prop)
    (post : α → (S.Slot → S.Word) → around.State → Prop) :
    Prog S α → (S.Slot → S.Word) → around.State → Prop
  | ret value, own, state => post value own state
  | fail _, _, _ => True
  | load slot next, own, state => Tells good post (next (own slot)) own state
  | store slot word next, own, state => Tells good post next (Function.update own slot word) state
  | note _ next, own, state => Tells good post next own state
  | ask query next, own, state =>
      good query state ∧
        Tells good post (next (around.respond state query).1) own (around.respond state query).2

variable {around} {good : S.Query → around.State → Prop}
  {post : α → (S.Slot → S.Word) → around.State → Prop} {own : S.Slot → S.Word}
  {state : around.State}

theorem Tells.moment {program : Prog S α} (tells : Tells around good post program own state) :
    ∀ moment ∈ (program.converse around own state).1, good moment.1 moment.2 := by
  induction program generalizing own state with
  | ret value => simp [converse]
  | fail err => simp [converse]
  | load slot next ih => exact ih _ tells
  | store slot word next ih => exact ih tells
  | note mark next ih => exact ih tells
  | ask query next ih =>
      intro moment asked
      rcases List.mem_cons.mp asked with rfl | later
      · exact tells.1
      · exact ih _ tells.2 moment later

theorem tells_bind {program : Prog S β} {continuation : β → Prog S α} :
    Tells around good post (program >>= continuation) own state ↔
      Tells around good (fun value => Tells around good post (continuation value)) program own
        state := by
  change Tells around good post (program.bind continuation) own state ↔ _
  induction program generalizing own state with
  | ret value => rfl
  | fail err => rfl
  | load slot next ih => exact ih _
  | store slot word next ih => exact ih
  | note mark next ih => exact ih
  | ask query next ih => exact and_congr_right fun _ => ih _

theorem Tells.mono {program : Prog S α} {weaker : α → (S.Slot → S.Word) → around.State → Prop}
    (tells : Tells around good post program own state)
    (weaken : ∀ value own state, post value own state → weaker value own state) :
    Tells around good weaker program own state := by
  induction program generalizing own state with
  | ret value => exact weaken value own state tells
  | fail err => trivial
  | load slot next ih => exact ih _ tells
  | store slot word next ih => exact ih tells
  | note mark next ih => exact ih tells
  | ask query next ih => exact ⟨tells.1, ih _ tells.2⟩

/-- One program after another. -/
theorem Tells.bind {program : Prog S β} {continuation : β → Prog S α}
    {middle : β → (S.Slot → S.Word) → around.State → Prop}
    (tells : Tells around good middle program own state)
    (continues : ∀ value own state, middle value own state →
      Tells around good post (continuation value) own state) :
    Tells around good post (program >>= continuation) own state :=
  tells_bind.mpr (tells.mono continues)

theorem tells_require {condition : Bool} {err : S.Err}
    {post : Unit → (S.Slot → S.Word) → around.State → Prop}
    (holds : condition = true → post () own state) :
    Tells around good post (require condition err) own state := by
  cases condition with
  | true => exact holds rfl
  | false => trivial

theorem tells_unwrap {err : S.Err} {option : Option α}
    (holds : ∀ value, option = some value → post value own state) :
    Tells around good post (unwrap err option) own state := by
  cases option with
  | none => trivial
  | some value => exact holds value rfl

/-- A loop with an invariant about the items that are left. -/
theorem tells_forM {items : List β} {body : β → Prog S Unit}
    {invariant : List β → around.State → Prop}
    (step : ∀ item rest own state, invariant (item :: rest) state →
      Tells around good (fun _ _ after => invariant rest after) (body item) own state)
    (initial : invariant items state) :
    Tells around good (fun _ _ after => invariant [] after) (items.forM body) own state := by
  induction items generalizing own state with
  | nil => exact initial
  | cons item rest ih =>
      change Tells around good _ (body item >>= fun _ => rest.forM body) own state
      exact (step item rest own state initial).bind fun _ _ _ held => ih held

/-! ### Conversations are runs -/

/-- The query that an event is about. -/
def queryOf (event : Event S) : Option S.Query :=
  match event.action with
  | .asked query _ => some query
  | _ => none

/-- The answers of the moments, without any act. -/
def replies (around : Surroundings S) (moments : List (S.Query × around.State)) :
    List (Reaction S) :=
  moments.map fun moment => .answer [] (around.respond moment.2 moment.1).1

/-- The outcome of a run that ends in a world. -/
def outcomeOf (ending : Except S.Err α) (after : World S) : Outcome S α :=
  match ending with
  | .ok value => .done value after
  | .error err => .reverted err after

/-- A conversation with contracts outside the system is a run of it, with the same queries and
the same end. -/
theorem run_converse [DecidableEq S.Addr] (system : System S) {stack : List (Frame S)}
    {frame : Frame S} (writable : frame.readonly = false) (program : Prog S α) :
    ∀ (world : World S) (state : around.State),
      (∀ moment ∈ (program.converse around (world.store frame.self) state).1, ∀ store,
        system.callee store frame moment.1 = none) →
      ∃ after : World S,
        program.run system stack frame (Reaction.runAll system (replies around
            (program.converse around (world.store frame.self) state).1)) world =
          outcomeOf (program.converse around (world.store frame.self) state).2 after ∧
        after.trace.filterMap queryOf =
          ((program.converse around (world.store frame.self) state).1.map Prod.fst).reverse ++
            world.trace.filterMap queryOf := by
  induction program with
  | ret value => exact fun world _ _ => ⟨world, rfl, rfl⟩
  | fail err => exact fun world _ _ => ⟨world, rfl, rfl⟩
  | load slot next ih => exact fun world state outside => ih _ world state outside
  | store slot word next ih =>
      intro world state outside
      have written : (world.write frame.self slot word).store frame.self =
          Function.update (world.store frame.self) slot word := by
        funext other
        simp [World.write, Function.update_apply]
      simp only [converse, ← written] at outside ⊢
      rcases ih _ _ outside with ⟨after, ran, asked⟩
      refine ⟨after, ?_, asked⟩
      rw [run, writable]
      exact ran
  | note mark next ih =>
      intro world state outside
      rcases ih (world.record stack frame (.noted mark)) state outside with ⟨after, ran, asked⟩
      exact ⟨after, ran, asked⟩
  | ask query next ih =>
      intro world state outside
      have called := outside (query, state) List.mem_cons_self world.store
      rcases ih (around.respond state query).1
        (world.record stack frame (.asked query (around.respond state query).1))
        (around.respond state query).2
        (fun moment member => outside moment (List.mem_cons_of_mem _ member)) with
        ⟨after, ran, asked⟩
      refine ⟨after, ?_, ?_⟩
      · have back : world.revertTo world = world := rfl
        simp only [converse, replies, List.map_cons, Reaction.runAll, run, Reaction.run, called,
          Act.runAll, back, ite_self]
        exact ran
      · rw [asked]
        simp [converse, queryOf]

end Prog

end CallTree
