import SuperpositionAccounts.CallTree.Program

/-!
# Rely and guarantee for call trees

A contract loses control at each query and must then assume that anything
happened that the system allows. `Prog.wp` is the weakest precondition of a
program under a rely relation: a query moves the world along the relation.

`Guarantee` says that each frame on its own keeps a relation between the world
at its entry and the world at its end, relying on nested frames to keep it too.
The induction over the tree of calls is done once, in `Guarantee.runAll`:
then every behaviour of the outside keeps the relation. Frames may be assumed to
be of an allowed kind, as long as every frame that was ever entered is.
-/

namespace CallTree

variable {S : Signature} [DecidableEq S.Addr] [DecidableEq S.Slot]

/-- The weakest precondition of a program. A program stops early when it fails, writes in a static
call or finds no handler; `abort` must hold wherever that may happen. -/
def Prog.wp {α : Type} (rely : World S → World S → Prop) (stack : List (Frame S))
    (frame : Frame S) (abort : World S → Prop) :
    Prog S α → (α → World S → Prop) → World S → Prop
  | ret value, post, world => post value world
  | fail _, _, world => abort world
  | load slot next, post, world =>
      (next (world.store frame.self slot)).wp rely stack frame abort post world
  | store slot word next, post, world =>
      abort world ∧ next.wp rely stack frame abort post (world.write frame.self slot word)
  | note mark next, post, world =>
      next.wp rely stack frame abort post (world.record stack frame (.noted mark))
  | ask query next, post, world =>
      abort world ∧ ∀ after reply, rely world after →
        (next reply).wp rely stack frame abort post
          (after.record stack frame (.asked query reply))

namespace Prog

variable {α β : Type} {rely : World S → World S → Prop} {stack : List (Frame S)}
  {frame : Frame S} {abort : World S → Prop}

@[simp]
theorem wp_pure (value : α) (post : α → World S → Prop) (world : World S) :
    (pure value : Prog S α).wp rely stack frame abort post world ↔ post value world :=
  Iff.rfl

@[simp]
theorem wp_throw (err : S.Err) (post : α → World S → Prop) (world : World S) :
    (throw err : Prog S α).wp rely stack frame abort post world ↔ abort world :=
  Iff.rfl

@[simp]
theorem wp_sload (slot : S.Slot) (post : S.Word → World S → Prop) (world : World S) :
    (sload slot).wp rely stack frame abort post world ↔
      post (world.store frame.self slot) world :=
  Iff.rfl

@[simp]
theorem wp_sstore (slot : S.Slot) (word : S.Word) (post : Unit → World S → Prop)
    (world : World S) :
    (sstore slot word).wp rely stack frame abort post world ↔
      abort world ∧ post () (world.write frame.self slot word) :=
  Iff.rfl

@[simp]
theorem wp_mark (mark : S.Note) (post : Unit → World S → Prop) (world : World S) :
    (Prog.mark mark).wp rely stack frame abort post world ↔
      post () (world.record stack frame (.noted mark)) :=
  Iff.rfl

@[simp]
theorem wp_request (query : S.Query) (post : S.Reply → World S → Prop) (world : World S) :
    (request query).wp rely stack frame abort post world ↔
      abort world ∧ ∀ after reply, rely world after →
        post reply (after.record stack frame (.asked query reply)) :=
  Iff.rfl

theorem wp_require (condition : Bool) (err : S.Err) (post : Unit → World S → Prop)
    (world : World S) :
    (require condition err).wp rely stack frame abort post world ↔
      if condition then post () world else abort world := by
  cases condition <;> rfl

@[simp]
theorem wp_bind (program : Prog S α) (continuation : α → Prog S β)
    (post : β → World S → Prop) (world : World S) :
    (program >>= continuation).wp rely stack frame abort post world ↔
      program.wp rely stack frame abort
        (fun value after => (continuation value).wp rely stack frame abort post after) world := by
  change (program.bind continuation).wp rely stack frame abort post world ↔ _
  induction program generalizing world with
  | ret value => rfl
  | fail err => rfl
  | load slot next ih => exact ih _ _
  | store slot word next ih => exact and_congr_right fun _ => ih _
  | note mark next ih => exact ih _
  | ask query next ih =>
      apply and_congr_right
      intro _
      apply forall_congr'
      intro after
      apply forall_congr'
      intro reply
      apply imp_congr_right
      intro _
      exact ih reply _

theorem wp_mono {program : Prog S α} {strong weak : α → World S → Prop}
    (implies : ∀ value after, strong value after → weak value after) {world : World S}
    (holds : program.wp rely stack frame abort strong world) :
    program.wp rely stack frame abort weak world := by
  induction program generalizing world with
  | ret value => exact implies _ _ holds
  | fail err => exact holds
  | load slot next ih => exact ih _ holds
  | store slot word next ih => exact ⟨holds.1, ih holds.2⟩
  | note mark next ih => exact ih holds
  | ask query next ih =>
      refine ⟨holds.1, ?_⟩
      intro after reply moved
      exact ih reply (holds.2 after reply moved)

theorem wp_abort_mono {program : Prog S α} {strong weak : World S → Prop}
    {post : α → World S → Prop} (implies : ∀ after, strong after → weak after) {world : World S}
    (holds : program.wp rely stack frame strong post world) :
    program.wp rely stack frame weak post world := by
  induction program generalizing world with
  | ret value => exact holds
  | fail err => exact implies _ holds
  | load slot next ih => exact ih _ holds
  | store slot word next ih => exact ⟨implies _ holds.1, ih holds.2⟩
  | note mark next ih => exact ih holds
  | ask query next ih =>
      refine ⟨implies _ holds.1, ?_⟩
      intro after reply moved
      exact ih reply (holds.2 after reply moved)

theorem wp_of_always {program : Prog S α} {post : α → World S → Prop}
    (aborts : ∀ after, abort after) (posts : ∀ value after, post value after) (world : World S) :
    program.wp rely stack frame abort post world := by
  induction program generalizing world with
  | ret value => exact posts value world
  | fail err => exact aborts world
  | load slot next ih => exact ih _ world
  | store slot word next ih => exact ⟨aborts world, ih _⟩
  | note mark next ih => exact ih _
  | ask query next ih => exact ⟨aborts world, fun _ reply _ => ih reply _⟩

/-- A loop over a list: an invariant over the elements still to come is kept by each pass. -/
theorem wp_forM {items : List α} {body : α → Prog S PUnit} {invariant : List α → World S → Prop}
    (pass : ∀ item rest world, invariant (item :: rest) world →
      (body item).wp rely stack frame abort (fun _ after => invariant rest after) world)
    {world : World S} (initially : invariant items world) :
    (items.forM body).wp rely stack frame abort (fun _ after => invariant [] after) world := by
  induction items generalizing world with
  | nil => exact initially
  | cons item rest ih =>
      change (body item >>= fun _ => rest.forM body).wp rely stack frame abort _ world
      rw [wp_bind]
      apply wp_mono _ (pass item rest world initially)
      intro _ after kept
      exact ih kept

end Prog

/-! ### The trace only grows -/

/-- A handler keeps the trace it was given. -/
def Handler.KeepsTrace (handler : Handler S) : Prop :=
  ∀ {stack readonly callee world after reply},
    handler stack readonly callee world = some (after, reply) → world.trace <:+ after.trace

/-- The world at the end of a program. -/
def Outcome.world {α : Type} : Outcome S α → World S
  | .done _ world => world
  | .reverted _ world => world

section Trace

variable (system : System S)

theorem Prog.trace_suffix_run {α : Type} (stack : List (Frame S)) (frame : Frame S)
    (program : Prog S α) {handlers : List (Handler S)}
    (keeps : ∀ handler ∈ handlers, handler.KeepsTrace) (world : World S) :
    world.trace <:+ (program.run system stack frame handlers world).world.trace := by
  induction program generalizing handlers world with
  | ret value => exact List.suffix_refl _
  | fail err => exact List.suffix_refl _
  | load slot next ih => exact ih _ keeps _
  | store slot word next ih =>
      simp only [Prog.run]
      split
      · exact List.suffix_refl _
      · exact ih keeps (world.write frame.self slot word)
  | note mark next ih =>
      have recorded : world.trace <:+ (world.record stack frame (.noted mark)).trace :=
        List.suffix_cons _ _
      exact recorded.trans (ih keeps _)
  | ask query next ih =>
      cases handlers with
      | nil => exact List.suffix_refl _
      | cons handler handlers =>
          simp only [Prog.run]
          split
          · exact List.suffix_refl _
          · rename_i after reply handled
            have handlerKeeps := keeps handler List.mem_cons_self handled
            have recorded : after.trace <:+
                (after.record stack frame (.asked query reply)).trace := List.suffix_cons _ _
            refine (handlerKeeps.trans recorded).trans ?_
            exact ih reply (fun other member => keeps other (List.mem_cons_of_mem _ member)) _

theorem System.trace_suffix_enter (stack : List (Frame S)) (frame : Frame S)
    {handlers : List (Handler S)} (keeps : ∀ handler ∈ handlers, handler.KeepsTrace)
    (world : World S) : world.trace <:+ (system.enter stack frame handlers world).1.trace := by
  have grows := Prog.trace_suffix_run system stack frame (system.program frame.self frame.msg)
    keeps (world.record stack frame .entered)
  have entered : world.trace <:+ (world.record stack frame .entered).trace :=
    List.suffix_cons _ _
  simp only [System.enter]
  split
  · rename_i output after finished
    rw [finished] at grows
    exact (entered.trans grows).trans (List.suffix_cons _ _)
  · rename_i err after finished
    rw [finished] at grows
    exact entered.trans grows

mutual

theorem Act.trace_suffix_run (act : Act S) (stack : List (Frame S)) (readonly : Bool)
    (world : World S) : world.trace <:+ (act.run system stack readonly world).trace := by
  cases act with
  | call self msg script =>
      rw [Act.run]
      exact system.trace_suffix_enter _ _ (Reaction.runAll_keepsTrace script) world
  | scope acts commits =>
      have grows := Act.trace_suffix_runAll acts stack readonly world
      rw [Act.run]
      cases commits with
      | false => exact grows
      | true => exact grows

theorem Act.trace_suffix_runAll (acts : List (Act S)) (stack : List (Frame S)) (readonly : Bool)
    (world : World S) : world.trace <:+ (Act.runAll system acts stack readonly world).trace := by
  cases acts with
  | nil => simp [Act.runAll]
  | cons act acts =>
      rw [Act.runAll]
      exact (Act.trace_suffix_run act stack readonly world).trans
        (Act.trace_suffix_runAll acts stack readonly _)

theorem Reaction.run_keepsTrace (reaction : Reaction S) : (reaction.run system).KeepsTrace := by
  intro stack readonly callee world after reply handled
  cases reaction with
  | answer acts answered =>
      have grows := Act.trace_suffix_runAll acts stack readonly world
      rw [Reaction.run] at handled
      cases callee with
      | some callee => cases handled
      | none =>
          simp only [Option.some.injEq, Prod.mk.injEq] at handled
          rw [← handled.1]
          split
          · exact grows
          · exact grows
  | enter script =>
      rw [Reaction.run] at handled
      cases callee with
      | none => cases handled
      | some callee =>
          have grows := system.trace_suffix_enter stack ⟨callee.1, callee.2, readonly⟩
            (Reaction.runAll_keepsTrace script) world
          simp only [Option.some.injEq, Prod.mk.injEq] at handled
          rw [← handled.1]
          exact grows

theorem Reaction.runAll_keepsTrace (reactions : List (Reaction S)) :
    ∀ handler ∈ Reaction.runAll system reactions, handler.KeepsTrace := by
  cases reactions with
  | nil =>
      rw [Reaction.runAll]
      simp
  | cons reaction reactions =>
      rw [Reaction.runAll]
      intro handler member
      rcases List.mem_cons.mp member with same | member
      · rw [same]
        exact Reaction.run_keepsTrace reaction
      · exact Reaction.runAll_keepsTrace reactions handler member

end

end Trace

/-! ### Guarantees of frames and of behaviours -/

/-- Every frame that was ever entered is allowed. -/
def World.Entered (allowed : List (Frame S) → Frame S → Prop) (world : World S) : Prop :=
  ∀ event ∈ world.trace, event.action = .entered → allowed event.stack event.frame

instance (action : Action S) : Decidable (action = .entered) :=
  match action with
  | .entered => isTrue rfl
  | .noted _ => isFalse nofun
  | .asked _ _ => isFalse nofun
  | .completed _ => isFalse nofun

instance (allowed : List (Frame S) → Frame S → Prop)
    [∀ stack frame, Decidable (allowed stack frame)] (world : World S) :
    Decidable (world.Entered allowed) :=
  inferInstanceAs (Decidable (∀ event ∈ world.trace,
    event.action = .entered → allowed event.stack event.frame))

omit [DecidableEq S.Addr] [DecidableEq S.Slot] in
theorem World.Entered.of_suffix {allowed : List (Frame S) → Frame S → Prop}
    {world after : World S} (respected : after.Entered allowed)
    (grows : world.trace <:+ after.trace) : world.Entered allowed := by
  intro event member
  exact respected event (grows.subset member)

/-- A relation between worlds that every frame keeps, given that nested frames keep it. -/
structure Guarantee (system : System S) (allowed : List (Frame S) → Frame S → Prop)
    (rel : List (Frame S) → World S → World S → Prop) : Prop where
  refl : ∀ stack world, rel stack world world
  trans : ∀ {stack world middle after},
    rel stack world middle → rel stack middle after → rel stack world after
  revert : ∀ {stack world after}, rel stack world after → rel stack world (after.revertTo world)
  frame : ∀ stack frame world, allowed stack frame →
    (system.program frame.self frame.msg).wp (rel (frame :: stack)) stack frame
      (fun after => rel stack world (after.revertTo world))
      (fun output after => rel stack world (after.record stack frame (.completed output)))
      (world.record stack frame .entered)

/-- A handler keeps a relation, if only allowed frames are entered. -/
def Handler.Keeps (allowed : List (Frame S) → Frame S → Prop)
    (rel : List (Frame S) → World S → World S → Prop) (handler : Handler S) : Prop :=
  ∀ {stack readonly callee world after reply},
    handler stack readonly callee world = some (after, reply) →
      after.Entered allowed → rel stack world after

/-- What a weakest precondition promises of the end of a program. -/
def Outcome.Satisfies {α : Type} (post : α → World S → Prop) (abort : World S → Prop) :
    Outcome S α → Prop
  | .done value world => post value world
  | .reverted _ world => abort world

section Soundness

variable {system : System S} {allowed : List (Frame S) → Frame S → Prop}
  {rel : List (Frame S) → World S → World S → Prop}

theorem Prog.run_satisfies {α : Type} {stack : List (Frame S)} {frame : Frame S}
    {program : Prog S α} {handlers : List (Handler S)}
    (keepTrace : ∀ handler ∈ handlers, handler.KeepsTrace)
    (keep : ∀ handler ∈ handlers, handler.Keeps allowed rel)
    {abort : World S → Prop} {post : α → World S → Prop} {world : World S}
    (holds : program.wp (rel (frame :: stack)) stack frame abort post world)
    (respected : (program.run system stack frame handlers world).world.Entered allowed) :
    (program.run system stack frame handlers world).Satisfies post abort := by
  induction program generalizing handlers world with
  | ret value => exact holds
  | fail err => exact holds
  | load slot next ih => exact ih _ keepTrace keep holds respected
  | store slot word next ih =>
      simp only [Prog.run] at respected ⊢
      split at respected
      · rename_i static
        rw [if_pos static]
        exact holds.1
      · rename_i static
        rw [if_neg static]
        exact ih keepTrace keep holds.2 respected
  | note mark next ih => exact ih keepTrace keep holds respected
  | ask query next ih =>
      cases handlers with
      | nil => exact holds.1
      | cons handler handlers =>
          have laterKeepTrace : ∀ other ∈ handlers, other.KeepsTrace :=
            fun other member => keepTrace other (List.mem_cons_of_mem _ member)
          have laterKeep : ∀ other ∈ handlers, other.Keeps allowed rel :=
            fun other member => keep other (List.mem_cons_of_mem _ member)
          simp only [Prog.run] at respected ⊢
          split at respected
          · exact holds.1
          · rename_i after reply handled
            -- the handler's world is on the way to the end, so its entries are allowed too
            have recorded : after.trace <:+
                (after.record stack frame (.asked query reply)).trace := List.suffix_cons _ _
            have grows := recorded.trans
              (Prog.trace_suffix_run system stack frame (next reply) laterKeepTrace _)
            have moved := keep handler List.mem_cons_self handled (respected.of_suffix grows)
            exact ih reply laterKeepTrace laterKeep (holds.2 after reply moved) respected

theorem Guarantee.enter (guarantee : Guarantee system allowed rel) {stack : List (Frame S)}
    {frame : Frame S} {handlers : List (Handler S)}
    (keepTrace : ∀ handler ∈ handlers, handler.KeepsTrace)
    (keep : ∀ handler ∈ handlers, handler.Keeps allowed rel) {world : World S}
    (respected : (system.enter stack frame handlers world).1.Entered allowed) :
    rel stack world (system.enter stack frame handlers world).1 := by
  have grows := Prog.trace_suffix_run system stack frame (system.program frame.self frame.msg)
    keepTrace (world.record stack frame .entered)
  simp only [System.enter] at respected ⊢
  have endRespected : ((system.program frame.self frame.msg).run system stack frame handlers
      (world.record stack frame .entered)).world.Entered allowed := by
    split at respected
    · rename_i output after finished
      rw [finished]
      exact respected.of_suffix (List.suffix_cons _ _)
    · rename_i err after finished
      rw [finished]
      exact respected
  have frameAllowed : allowed stack frame := by
    apply endRespected ⟨stack, frame, .entered, world.store⟩ _ rfl
    exact grows.subset List.mem_cons_self
  have satisfied := Prog.run_satisfies keepTrace keep
    (guarantee.frame stack frame world frameAllowed) endRespected
  split
  · rename_i output after finished
    rw [finished] at satisfied
    exact satisfied
  · rename_i err after finished
    rw [finished] at satisfied
    exact satisfied

mutual

theorem Guarantee.run (guarantee : Guarantee system allowed rel) (act : Act S)
    {stack : List (Frame S)} {readonly : Bool} {world : World S}
    (respected : (act.run system stack readonly world).Entered allowed) :
    rel stack world (act.run system stack readonly world) := by
  cases act with
  | call self msg script =>
      rw [Act.run] at respected ⊢
      exact guarantee.enter (Reaction.runAll_keepsTrace system script)
        (guarantee.reactions script) respected
  | scope acts commits =>
      rw [Act.run] at respected ⊢
      cases commits with
      | true => exact guarantee.runAll acts respected
      | false => exact guarantee.revert (guarantee.runAll acts respected)

/-- Whatever the outside does, the relation holds between before and after. -/
theorem Guarantee.runAll (guarantee : Guarantee system allowed rel) (acts : List (Act S))
    {stack : List (Frame S)} {readonly : Bool} {world : World S}
    (respected : (Act.runAll system acts stack readonly world).Entered allowed) :
    rel stack world (Act.runAll system acts stack readonly world) := by
  cases acts with
  | nil =>
      rw [Act.runAll]
      exact guarantee.refl stack world
  | cons act acts =>
      rw [Act.runAll] at respected ⊢
      have first := guarantee.run act (respected.of_suffix
        (Act.trace_suffix_runAll system acts stack readonly _))
      exact guarantee.trans first (guarantee.runAll acts respected)

theorem Guarantee.reaction (guarantee : Guarantee system allowed rel) (reaction : Reaction S) :
    (reaction.run system).Keeps allowed rel := by
  intro stack readonly callee world after reply handled respected
  cases reaction with
  | answer acts answered =>
      rw [Reaction.run] at handled
      cases callee with
      | some callee => cases handled
      | none =>
          simp only [Option.some.injEq, Prod.mk.injEq] at handled
          rw [← handled.1] at respected ⊢
          split at respected
          · rename_i failed
            rw [if_pos failed]
            exact guarantee.revert (guarantee.runAll acts respected)
          · rename_i succeeded
            rw [if_neg succeeded]
            exact guarantee.runAll acts respected
  | enter script =>
      rw [Reaction.run] at handled
      cases callee with
      | none => cases handled
      | some callee =>
          simp only [Option.some.injEq, Prod.mk.injEq] at handled
          rw [← handled.1] at respected ⊢
          exact guarantee.enter (Reaction.runAll_keepsTrace system script)
            (guarantee.reactions script) respected

theorem Guarantee.reactions (guarantee : Guarantee system allowed rel)
    (reactions : List (Reaction S)) :
    ∀ handler ∈ Reaction.runAll system reactions, handler.Keeps allowed rel := by
  cases reactions with
  | nil =>
      rw [Reaction.runAll]
      simp
  | cons reaction reactions =>
      rw [Reaction.runAll]
      intro handler member
      rcases List.mem_cons.mp member with same | member
      · rw [same]
        exact guarantee.reaction reaction
      · exact guarantee.reactions reactions handler member

end

end Soundness

end CallTree
