import SuperpositionAccounts.CallTree.Rely

/-!
# Runs that complete

A frame that completes has passed all its checks, and each modelled contract it
called has run. `Prog.Ends` says that a program returned; its lemmas read off
what happened, one for each operation. A call exposes the frame it opened, whose
own completion is read off in turn.
-/

namespace CallTree

variable {S : Signature} [DecidableEq S.Addr] [DecidableEq S.Slot] {α β : Type}

/-- A program returns a value and leaves a world. -/
def Prog.Ends (system : System S) (stack : List (Frame S)) (frame : Frame S)
    (script : List (Reaction S)) (program : Prog S α) (world : World S) (value : α)
    (after : World S) : Prop :=
  program.run system stack frame (Reaction.runAll system script) world = .done value after

namespace Prog

variable {system : System S} {stack : List (Frame S)} {frame : Frame S}
  {script : List (Reaction S)} {world after : World S} {value : α}

theorem ends_pure {result : α} :
    (pure result : Prog S α).Ends system stack frame script world value after ↔
      result = value ∧ world = after := by
  simp [Ends, pure, run]

theorem not_ends_throw {err : S.Err} :
    ¬(throw err : Prog S α).Ends system stack frame script world value after := by
  simp [Ends, throw, run]

theorem ends_load {slot : S.Slot} {next : S.Word → Prog S α} :
    (load slot next).Ends system stack frame script world value after ↔
      (next (world.store frame.self slot)).Ends system stack frame script world value after :=
  Iff.rfl

theorem ends_store {slot : S.Slot} {word : S.Word} {next : Prog S α} :
    (store slot word next).Ends system stack frame script world value after ↔
      frame.readonly = false ∧
        next.Ends system stack frame script (world.write frame.self slot word) value after := by
  simp only [Ends, run]
  cases frame.readonly with
  | true => simp
  | false => simp

theorem ends_require {condition : Bool} {err : S.Err} {continuation : Unit → Prog S α} :
    (require condition err >>= continuation).Ends system stack frame script world value after ↔
      condition = true ∧
        (continuation ()).Ends system stack frame script world value after := by
  cases condition with
  | true => exact ⟨fun ends => ⟨rfl, ends⟩, fun both => both.2⟩
  | false => exact ⟨fun ends => absurd ends not_ends_throw, nofun⟩

theorem ends_unwrap {err : S.Err} {option : Option β} {continuation : β → Prog S α} :
    (unwrap err option >>= continuation).Ends system stack frame script world value after ↔
      ∃ result, option = some result ∧
        (continuation result).Ends system stack frame script world value after := by
  cases option with
  | none =>
      refine ⟨fun ends => absurd ends not_ends_throw, ?_⟩
      rintro ⟨_, impossible, _⟩
      cases impossible
  | some result =>
      refine ⟨fun ends => ⟨result, rfl, ends⟩, ?_⟩
      rintro ⟨other, same, ends⟩
      rw [Option.some.inj same]
      exact ends

/-- A program that returns has had its call of a modelled contract run. -/
theorem ends_called {query : S.Query} {next : S.Reply → Prog S α} {self : S.Addr} {msg : S.Msg}
    (called : system.callee world.store frame query = some (self, msg)) :
    (ask query next).Ends system stack frame script world value after ↔
      ∃ inner rest, script = .enter inner :: rest ∧
        let result := system.enter (frame :: stack)
          ⟨self, msg, frame.readonly || system.static query⟩ (Reaction.runAll system inner) world
        (next (system.relay result.2)).Ends system stack frame rest
          (result.1.record stack frame (.asked query (system.relay result.2))) value after := by
  cases script with
  | nil => simp [Ends, Reaction.runAll, run]
  | cons reaction rest =>
      cases reaction with
      | answer acts reply => simp [Ends, Reaction.runAll, Reaction.run, run, called]
      | enter inner => simp [Ends, Reaction.runAll, Reaction.run, run, called]

theorem Ends.trace_suffix {program : Prog S α}
    (ends : program.Ends system stack frame script world value after) :
    world.trace <:+ after.trace := by
  have grows := trace_suffix_run system stack frame program
    (Reaction.runAll_keepsTrace system script) world
  rw [Ends] at ends
  rwa [ends] at grows

/-- What a weakest precondition promises of a program that returns. -/
theorem Ends.satisfies {allowed : List (Frame S) → Frame S → Prop}
    {rel : List (Frame S) → World S → World S → Prop} {program : Prog S α}
    (ends : program.Ends system stack frame script world value after)
    (guarantee : Guarantee system allowed rel) (respected : after.Entered allowed)
    {abort : World S → Prop} {post : α → World S → Prop}
    (holds : program.wp (rel (frame :: stack)) stack frame abort post world) :
    post value after := by
  rw [Ends] at ends
  have satisfied := run_satisfies (Reaction.runAll_keepsTrace system script)
    (guarantee.reactions script) holds (by rwa [ends])
  rwa [ends] at satisfied

end Prog

/-- A frame that completes ends its program. -/
theorem System.ends_of_completed {system : System S} {stack : List (Frame S)} {frame : Frame S}
    {script : List (Reaction S)} {world : World S} {output : S.Output}
    (completed : (system.enter stack frame (Reaction.runAll system script) world).2 =
      .ok output) :
    ∃ after, (system.program frame.self frame.msg).Ends system stack frame script
        (world.record stack frame .entered) output after ∧
      (system.enter stack frame (Reaction.runAll system script) world).1 =
        after.record stack frame (.completed output) := by
  simp only [System.enter] at completed ⊢
  split at completed
  · rename_i value after finished
    cases completed
    exact ⟨after, finished, rfl⟩
  · cases completed

/-- What a weakest precondition promises of a call that completes. -/
theorem Guarantee.enter_completed {system : System S}
    {rel : List (Frame S) → World S → World S → Prop}
    (guarantee : Guarantee system (fun _ _ => True) rel)
    {stack : List (Frame S)} {frame : Frame S} {script : List (Reaction S)} {world : World S}
    {post : S.Output → World S → Prop}
    (holds : (system.program frame.self frame.msg).wp (rel (frame :: stack)) stack frame
      (fun _ => True) post (world.record stack frame .entered)) {output : S.Output}
    (completed : (system.enter stack frame (Reaction.runAll system script) world).2 =
      .ok output) :
    ∃ after, post output after ∧
      (system.enter stack frame (Reaction.runAll system script) world).1 =
        after.record stack frame (.completed output) := by
  rcases System.ends_of_completed completed with ⟨after, ends, left⟩
  exact ⟨after, ends.satisfies guarantee (fun _ _ _ => trivial) holds, left⟩

/-- A frame completes with an output and leaves a world. -/
def System.Completes (system : System S) (stack : List (Frame S)) (frame : Frame S)
    (world : World S) (output : S.Output) (after : World S) : Prop :=
  ∃ script, system.enter stack frame (Reaction.runAll system script) world = (after, .ok output)

namespace System.Completes

variable {system : System S} {stack : List (Frame S)} {frame : Frame S} {world after : World S}
  {output : S.Output}

theorem ends (completes : system.Completes stack frame world output after) :
    ∃ script middle, (system.program frame.self frame.msg).Ends system stack frame script
        (world.record stack frame .entered) output middle ∧
      after = middle.record stack frame (.completed output) := by
  rcases completes with ⟨script, entered⟩
  rcases System.ends_of_completed (congrArg Prod.snd entered) with ⟨middle, ends, left⟩
  exact ⟨script, middle, ends, (congrArg Prod.fst entered).symm.trans left⟩

theorem of_ends {script : List (Reaction S)} (ends : (system.program frame.self frame.msg).Ends
    system stack frame script (world.record stack frame .entered) output after) :
    system.Completes stack frame world output (after.record stack frame (.completed output)) :=
  ⟨script, by rw [System.enter, ends]⟩

theorem trace_suffix (completes : system.Completes stack frame world output after) :
    world.trace <:+ after.trace := by
  rcases completes with ⟨script, entered⟩
  have grows := system.trace_suffix_enter stack frame
    (Reaction.runAll_keepsTrace system script) world
  rwa [entered] at grows

/-- The entry of a frame that completes is in the trace. -/
theorem allowed (completes : system.Completes stack frame world output after)
    {allowed : List (Frame S) → Frame S → Prop} (respected : after.Entered allowed) :
    allowed stack frame := by
  rcases completes.ends with ⟨script, middle, ends, rfl⟩
  apply respected ⟨stack, frame, .entered, world.store⟩ _ rfl
  exact List.mem_cons_of_mem _ (ends.trace_suffix.subset List.mem_cons_self)

end System.Completes

/-- Nothing happens to the storage between two worlds. -/
structure World.Quiet (before after : World S) : Prop where
  store : after.store = before.store
  log : before.log <:+ after.log
  trace : before.trace <:+ after.trace

omit [DecidableEq S.Addr] [DecidableEq S.Slot] in
theorem World.Quiet.refl (world : World S) : world.Quiet world :=
  ⟨rfl, List.suffix_refl _, List.suffix_refl _⟩

omit [DecidableEq S.Addr] [DecidableEq S.Slot] in
theorem World.Quiet.trans {before middle after : World S} (first : before.Quiet middle)
    (second : middle.Quiet after) : before.Quiet after :=
  ⟨second.store.trans first.store, first.log.trans second.log, first.trace.trans second.trace⟩

omit [DecidableEq S.Addr] [DecidableEq S.Slot] in
theorem World.quiet_record (world : World S) (stack : List (Frame S)) (frame : Frame S)
    (action : Action S) : world.Quiet (world.record stack frame action) :=
  ⟨rfl, List.suffix_cons _ _, List.suffix_cons _ _⟩

end CallTree
