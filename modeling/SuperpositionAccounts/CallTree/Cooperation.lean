import SuperpositionAccounts.CallTree.Rely

/-!
# Runs with a cooperating outside

`Prog.can` is the counterpart of `Prog.wp`: some answers lead the program to its
end with a given result. Nobody acts while the program waits. It shows that a
run exists without writing its script down.
-/

namespace CallTree

variable {S : Signature} [DecidableEq S.Addr] [DecidableEq S.Slot]

/-- Some answers of an outside that does nothing else lead to a result. -/
def Prog.can {α : Type} (system : System S) (stack : List (Frame S)) (frame : Frame S) :
    Prog S α → (α → World S → Prop) → World S → Prop
  | ret value, post, world => post value world
  | fail _, _, _ => False
  | load slot next, post, world =>
      (next (world.store frame.self slot)).can system stack frame post world
  | store slot word next, post, world =>
      frame.readonly = false ∧
        next.can system stack frame post (world.write frame.self slot word)
  | note mark next, post, world =>
      next.can system stack frame post (world.record stack frame (.noted mark))
  | ask query next, post, world =>
      system.callee world.store frame query = none ∧ ∃ reply,
        (next reply).can system stack frame post (world.record stack frame (.asked query reply))

namespace Prog

variable {α β : Type} {system : System S} {stack : List (Frame S)} {frame : Frame S}

@[simp]
theorem can_pure (value : α) (post : α → World S → Prop) (world : World S) :
    (pure value : Prog S α).can system stack frame post world ↔ post value world :=
  Iff.rfl

@[simp]
theorem can_sstore (slot : S.Slot) (word : S.Word) (post : Unit → World S → Prop)
    (world : World S) :
    (sstore slot word).can system stack frame post world ↔
      frame.readonly = false ∧ post () (world.write frame.self slot word) :=
  Iff.rfl

@[simp]
theorem can_mark (mark : S.Note) (post : Unit → World S → Prop) (world : World S) :
    (Prog.mark mark).can system stack frame post world ↔
      post () (world.record stack frame (.noted mark)) :=
  Iff.rfl

theorem can_require {condition : Bool} {err : S.Err} {post : Unit → World S → Prop}
    {world : World S} (holds : condition = true) (after : post () world) :
    (require condition err).can system stack frame post world := by
  subst holds
  exact after

theorem can_unwrap {err : S.Err} {option : Option α} {value : α} {post : α → World S → Prop}
    {world : World S} (present : option = some value) (after : post value world) :
    (unwrap err option).can system stack frame post world := by
  subst present
  exact after

@[simp]
theorem can_bind (program : Prog S α) (continuation : α → Prog S β)
    (post : β → World S → Prop) (world : World S) :
    (program >>= continuation).can system stack frame post world ↔
      program.can system stack frame
        (fun value after => (continuation value).can system stack frame post after) world := by
  change (program.bind continuation).can system stack frame post world ↔ _
  induction program generalizing world with
  | ret value => rfl
  | fail err => rfl
  | load slot next ih => exact ih _ _
  | store slot word next ih => exact and_congr_right fun _ => ih _
  | note mark next ih => exact ih _
  | ask query next ih =>
      apply and_congr_right
      intro _
      apply exists_congr
      intro reply
      exact ih reply _

theorem can_mono {program : Prog S α} {strong weak : α → World S → Prop}
    (implies : ∀ value after, strong value after → weak value after) {world : World S}
    (holds : program.can system stack frame strong world) :
    program.can system stack frame weak world := by
  induction program generalizing world with
  | ret value => exact implies _ _ holds
  | fail err => exact holds
  | load slot next ih => exact ih _ holds
  | store slot word next ih => exact ⟨holds.1, ih holds.2⟩
  | note mark next ih => exact ih holds
  | ask query next ih =>
      rcases holds with ⟨outside, reply, later⟩
      exact ⟨outside, reply, ih reply later⟩

theorem can_forM {items : List α} {body : α → Prog S PUnit} (invariant : List α → World S → Prop)
    (pass : ∀ item rest world, item ∈ items → invariant (item :: rest) world →
      (body item).can system stack frame (fun _ after => invariant rest after) world)
    {world : World S} (initially : invariant items world) :
    (items.forM body).can system stack frame (fun _ after => invariant [] after) world := by
  induction items generalizing world with
  | nil => exact initially
  | cons item rest ih =>
      change (body item >>= fun _ => rest.forM body).can system stack frame _ world
      rw [can_bind]
      apply can_mono _ (pass item rest world List.mem_cons_self initially)
      intro _ after kept
      apply ih _ kept
      intro other later world member
      exact pass other later world (List.mem_cons_of_mem _ member)

theorem can_forM_of_invariant {items : List α} {body : α → Prog S PUnit}
    {invariant : World S → Prop}
    (pass : ∀ item ∈ items, ∀ {world}, invariant world →
      (body item).can system stack frame (fun _ after => invariant after) world)
    {world : World S} (initially : invariant world) :
    (items.forM body).can system stack frame (fun _ after => invariant after) world :=
  can_forM (fun _ => invariant) (fun item _ _ member => pass item member) initially

/-- What can happen does happen under some script. -/
theorem can_run {program : Prog S α} {post : α → World S → Prop} {world : World S}
    (possible : program.can system stack frame post world) :
    ∃ script value after,
      program.run system stack frame (Reaction.runAll system script) world = .done value after ∧
        post value after := by
  induction program generalizing world with
  | ret value => exact ⟨[], value, world, rfl, possible⟩
  | fail err => exact possible.elim
  | load slot next ih => exact ih _ possible
  | store slot word next ih =>
      rcases ih possible.2 with ⟨script, value, after, finished, holds⟩
      refine ⟨script, value, after, ?_, holds⟩
      rw [Prog.run, possible.1]
      exact finished
  | note mark next ih => exact ih possible
  | ask query next ih =>
      rcases possible with ⟨outside, reply, later⟩
      rcases ih reply later with ⟨script, value, after, finished, holds⟩
      refine ⟨.answer [] reply :: script, value, after, ?_, holds⟩
      have unmoved : (if system.failed reply then world.revertTo world else world) = world :=
        ite_self world
      simp only [Reaction.runAll, Prog.run, Reaction.run, outside, Act.runAll]
      rw [unmoved]
      exact finished

end Prog

/-- A call that can complete does complete under some script. -/
theorem System.enter_of_can {system : System S} {stack : List (Frame S)} {frame : Frame S}
    {post : S.Output → World S → Prop} {world : World S}
    (possible : (system.program frame.self frame.msg).can system stack frame post
      (world.record stack frame .entered)) :
    ∃ script output after,
      system.enter stack frame (Reaction.runAll system script) world =
        (after.record stack frame (.completed output), .ok output) ∧ post output after := by
  rcases Prog.can_run possible with ⟨script, output, after, finished, holds⟩
  refine ⟨script, output, after, ?_, holds⟩
  rw [System.enter, finished]

end CallTree
