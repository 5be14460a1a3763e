import SuperpositionAccounts.CallTree.Completion

/-!
# The effects of a program

`Prog.Within` bounds the slots a program writes and the marks it leaves, read
off its text and whatever it is answered. An invariant that survives those
effects, and what others do meanwhile, survives the program; so only the steps
that matter for an invariant have to be looked at.

Relations that see only the state hold of a reverted frame at once. For them a
guarantee asks nothing of the places where a program stops.
-/

namespace CallTree

variable {S : Signature} {α β : Type}

/-- A program writes only some slots and leaves only some marks. -/
def Prog.Within (writable : S.Slot → Prop) (markable : S.Note → Prop) : Prog S α → Prop
  | ret _ => True
  | fail _ => True
  | load _ next => ∀ word, (next word).Within writable markable
  | store slot _ next => writable slot ∧ next.Within writable markable
  | note mark next => markable mark ∧ next.Within writable markable
  | ask _ next => ∀ reply, (next reply).Within writable markable

namespace Prog

variable {writable : S.Slot → Prop} {markable : S.Note → Prop}

@[simp]
theorem within_pure (value : α) : (pure value : Prog S α).Within writable markable :=
  trivial

@[simp]
theorem within_throw (err : S.Err) : (throw err : Prog S α).Within writable markable :=
  trivial

@[simp]
theorem within_sload (slot : S.Slot) : (sload slot).Within writable markable :=
  fun _ => trivial

@[simp]
theorem within_request (query : S.Query) : (request query).Within writable markable :=
  fun _ => trivial

@[simp]
theorem within_sstore (slot : S.Slot) (word : S.Word) :
    (sstore slot word).Within writable markable ↔ writable slot :=
  and_iff_left trivial

@[simp]
theorem within_mark (mark : S.Note) :
    (Prog.mark mark).Within writable markable ↔ markable mark :=
  and_iff_left trivial

@[simp]
theorem within_require (condition : Bool) (err : S.Err) :
    (require condition err).Within writable markable := by
  cases condition <;> trivial

@[simp]
theorem within_unwrap (err : S.Err) (option : Option α) :
    (unwrap err option).Within writable markable := by
  cases option <;> trivial

theorem within_bind {program : Prog S α} {continuation : α → Prog S β}
    (first : program.Within writable markable)
    (later : ∀ value, (continuation value).Within writable markable) :
    (program >>= continuation).Within writable markable := by
  change (program.bind continuation).Within writable markable
  induction program with
  | ret value => exact later value
  | fail err => trivial
  | load slot next ih => exact fun word => ih word (first word)
  | store slot word next ih => exact ⟨first.1, ih first.2⟩
  | note mark next ih => exact ⟨first.1, ih first.2⟩
  | ask query next ih => exact fun reply => ih reply (first reply)

theorem within_unwrap_bind {err : S.Err} {option : Option α} {continuation : α → Prog S β}
    (later : ∀ value, option = some value → (continuation value).Within writable markable) :
    (unwrap err option >>= continuation).Within writable markable := by
  cases option with
  | none => trivial
  | some value => exact later value rfl

theorem within_forM {items : List α} {body : α → Prog S PUnit}
    (pass : ∀ item ∈ items, (body item).Within writable markable) :
    (items.forM body).Within writable markable := by
  induction items with
  | nil => trivial
  | cons item rest ih =>
      change (body item >>= fun _ => rest.forM body).Within writable markable
      apply within_bind (pass item List.mem_cons_self)
      intro _
      exact ih fun other member => pass other (List.mem_cons_of_mem _ member)

theorem within_true (program : Prog S α) :
    program.Within (fun _ => True) (fun _ => True) := by
  induction program with
  | ret value => trivial
  | fail err => trivial
  | load slot next ih => exact ih
  | store slot word next ih => exact ⟨trivial, ih⟩
  | note mark next ih => exact ⟨trivial, ih⟩
  | ask query next ih => exact ih

theorem Within.mono {program : Prog S α} {slots : S.Slot → Prop} {marks : S.Note → Prop}
    (within : program.Within writable markable) (moreSlots : ∀ slot, writable slot → slots slot)
    (moreMarks : ∀ mark, markable mark → marks mark) : program.Within slots marks := by
  induction program with
  | ret value => trivial
  | fail err => trivial
  | load slot next ih => exact fun word => ih word (within word)
  | store slot word next ih => exact ⟨moreSlots slot within.1, ih within.2⟩
  | note mark next ih => exact ⟨moreMarks mark within.1, ih within.2⟩
  | ask query next ih => exact fun reply => ih reply (within reply)

end Prog

/-- A program that returns at all returns a value with a property, whatever it reads and is
answered. -/
def Prog.Returns (post : α → Prop) : Prog S α → Prop
  | ret value => post value
  | fail _ => True
  | load _ next => ∀ word, (next word).Returns post
  | store _ _ next => next.Returns post
  | note _ next => next.Returns post
  | ask _ next => ∀ reply, (next reply).Returns post

namespace Prog

theorem Returns.mono {program : Prog S α} {strong weak : α → Prop}
    (returns : program.Returns strong) (implies : ∀ value, strong value → weak value) :
    program.Returns weak := by
  induction program with
  | ret value => exact implies value returns
  | fail err => trivial
  | load slot next ih => exact fun word => ih word (returns word)
  | store slot word next ih => exact ih returns
  | note mark next ih => exact ih returns
  | ask query next ih => exact fun reply => ih reply (returns reply)

theorem returns_of_forall {post : α → Prop} (program : Prog S α) (always : ∀ value, post value) :
    program.Returns post := by
  induction program with
  | ret value => exact always value
  | fail err => trivial
  | load slot next ih => exact ih
  | store slot word next ih => exact ih
  | note mark next ih => exact ih
  | ask query next ih => exact ih

theorem returns_bind {program : Prog S α} {continuation : α → Prog S β} {middle : α → Prop}
    {post : β → Prop} (first : program.Returns middle)
    (later : ∀ value, middle value → (continuation value).Returns post) :
    (program >>= continuation).Returns post := by
  change (program.bind continuation).Returns post
  induction program with
  | ret value => exact later value first
  | fail err => trivial
  | load slot next ih => exact fun word => ih word (first word)
  | store slot word next ih => exact ih first
  | note mark next ih => exact ih first
  | ask query next ih => exact fun reply => ih reply (first reply)

theorem returns_require (condition : Bool) (err : S.Err) :
    (require condition err).Returns fun _ => condition = true := by
  cases condition <;> trivial

theorem returns_unwrap (err : S.Err) (option : Option α) :
    (unwrap err option).Returns fun value => option = some value := by
  cases option with
  | none => trivial
  | some value => exact rfl

/-- A loop that returns has passed every item. -/
theorem returns_forM {items : List α} {body : α → Prog S PUnit} {passed : α → Prop}
    (pass : ∀ item, (body item).Returns fun _ => passed item) :
    (items.forM body).Returns fun _ => ∀ item ∈ items, passed item := by
  induction items with
  | nil =>
      intro item member
      cases member
  | cons item rest ih =>
      change (body item >>= fun _ => rest.forM body).Returns _
      apply returns_bind (pass item)
      intro _ first
      apply ih.mono
      intro _ later other member
      rcases List.mem_cons.mp member with rfl | member
      · exact first
      · exact later other member

end Prog

variable [DecidableEq S.Addr] [DecidableEq S.Slot]

/-- An invariant that outlives the steps of others and the given effects of a frame. -/
structure Survives (rely : World S → World S → Prop) (stack : List (Frame S)) (frame : Frame S)
    (writable : S.Slot → Prop) (markable : S.Note → Prop) (invariant : World S → Prop) :
    Prop where
  others : ∀ {world after}, rely world after → invariant world → invariant after
  asked : ∀ {world} query reply, invariant world →
    invariant (world.record stack frame (.asked query reply))
  noted : ∀ {world} mark, markable mark → invariant world →
    invariant (world.record stack frame (.noted mark))
  written : ∀ {world} slot word, writable slot → invariant world →
    invariant (world.write frame.self slot word)

/-- A program keeps an invariant that outlives its effects. -/
theorem Prog.Within.wp {rely : World S → World S → Prop} {stack : List (Frame S)}
    {frame : Frame S} {writable : S.Slot → Prop} {markable : S.Note → Prop}
    {invariant abort : World S → Prop} {program : Prog S α}
    (within : program.Within writable markable)
    (survives : Survives rely stack frame writable markable invariant)
    (aborts : ∀ {world}, invariant world → abort world) {world : World S}
    (initially : invariant world) :
    program.wp rely stack frame abort (fun _ after => invariant after) world := by
  induction program generalizing world with
  | ret value => exact initially
  | fail err => exact aborts initially
  | load slot next ih => exact ih _ (within _) initially
  | store slot word next ih =>
      exact ⟨aborts initially, ih within.2 (survives.written slot word within.1 initially)⟩
  | note mark next ih => exact ih within.2 (survives.noted mark within.1 initially)
  | ask query next ih =>
      refine ⟨aborts initially, ?_⟩
      intro after reply moved
      apply ih reply (within reply)
      exact survives.asked query reply (survives.others moved initially)

theorem Prog.Returns.wp {rely : World S → World S → Prop} {stack : List (Frame S)}
    {frame : Frame S} {post : α → Prop} {program : Prog S α} (returns : program.Returns post)
    (world : World S) :
    program.wp rely stack frame (fun _ => True) (fun value _ => post value) world := by
  induction program generalizing world with
  | ret value => exact returns
  | fail err => trivial
  | load slot next ih => exact ih _ (returns _) world
  | store slot word next ih => exact ⟨trivial, ih returns _⟩
  | note mark next ih => exact ih returns _
  | ask query next ih => exact ⟨trivial, fun _ reply _ => ih reply (returns reply) _⟩

/-- A guarantee about states: nothing is asked where a program stops. -/
theorem Guarantee.ofState {system : System S} {allowed : List (Frame S) → Frame S → Prop}
    (rel : List (Frame S) → State S → State S → Prop)
    (refl : ∀ stack state, rel stack state state)
    (trans : ∀ {stack state middle after},
      rel stack state middle → rel stack middle after → rel stack state after)
    (frame : ∀ stack frame (world : World S), allowed stack frame →
      (system.program frame.self frame.msg).wp
        (fun before after => rel (frame :: stack) before.toState after.toState) stack frame
        (fun _ => True)
        (fun output after =>
          rel stack world.toState (after.record stack frame (.completed output)).toState)
        (world.record stack frame .entered)) :
    Guarantee system allowed (fun stack world after => rel stack world.toState after.toState) where
  refl stack world := refl stack world.toState
  trans := trans
  revert _ := refl _ _
  frame stack current world permitted := by
    apply Prog.wp_abort_mono _ (frame stack current world permitted)
    intro after _
    exact refl stack world.toState

/-! ### Invariants of the storage at every event -/

/-- A property of the storage holds at the end and at every event in between. -/
def Along (invariant : (S.Addr → S.Slot → S.Word) → Prop) (before after : World S) : Prop :=
  invariant after.store ∧ ∀ event ∈ after.trace, event ∈ before.trace ∨ invariant event.store

section Along

variable {invariant : (S.Addr → S.Slot → S.Word) → Prop} {before middle after : World S}

omit [DecidableEq S.Addr] [DecidableEq S.Slot] in
theorem Along.refl (initially : invariant before.store) : Along invariant before before :=
  ⟨initially, fun _ => Or.inl⟩

omit [DecidableEq S.Addr] [DecidableEq S.Slot] in
theorem Along.trans (first : Along invariant before middle)
    (second : Along invariant middle after) : Along invariant before after := by
  refine ⟨second.1, ?_⟩
  intro event member
  rcases second.2 event member with earlier | holds
  · exact first.2 event earlier
  · exact Or.inr holds

omit [DecidableEq S.Addr] [DecidableEq S.Slot] in
theorem Along.record (along : Along invariant before after) (stack : List (Frame S))
    (frame : Frame S) (action : Action S) :
    Along invariant before (after.record stack frame action) := by
  refine ⟨along.1, ?_⟩
  intro event member
  rcases List.mem_cons.mp member with rfl | member
  · exact Or.inr along.1
  · exact along.2 event member

omit [DecidableEq S.Addr] [DecidableEq S.Slot] in
theorem Along.revert (initially : invariant before.store) (along : Along invariant before after) :
    Along invariant before (after.revertTo before) :=
  ⟨initially, along.2⟩

theorem Along.survives {stack : List (Frame S)} {frame : Frame S} {writable : S.Slot → Prop}
    (keeps : ∀ (world : World S) slot word, writable slot → invariant world.store →
      invariant (world.write frame.self slot word).store) :
    Survives (fun world after => invariant world.store → Along invariant world after) stack frame
      writable (fun _ => True) (Along invariant before) where
  others moved along := along.trans (moved along.1)
  asked query reply along := along.record stack frame (.asked query reply)
  noted mark _ along := along.record stack frame (.noted mark)
  written slot word canWrite along := ⟨keeps _ slot word canWrite along.1, along.2⟩

end Along

/-- A property of the storage that every frame keeps holds at every event. -/
theorem Guarantee.along {system : System S} {allowed : List (Frame S) → Frame S → Prop}
    (invariant : (S.Addr → S.Slot → S.Word) → Prop)
    (frame : ∀ stack frame (world : World S), allowed stack frame → invariant world.store →
      (system.program frame.self frame.msg).wp
        (fun before after => invariant before.store → Along invariant before after) stack frame
        (Along invariant world) (fun _ => Along invariant world)
        (world.record stack frame .entered)) :
    Guarantee system allowed
      (fun _ world after => invariant world.store → Along invariant world after) where
  refl _ _ := Along.refl
  trans first second initially := (first initially).trans (second (first initially).1)
  revert along initially := (along initially).revert initially
  frame stack current world permitted := by
    by_cases initially : invariant world.store
    · apply Prog.wp_abort_mono _ (Prog.wp_mono _ (frame stack current world permitted initially))
      · intro after along _
        exact along.revert initially
      · intro output after along _
        exact along.record stack current (.completed output)
    · apply Prog.wp_of_always
      · intro after holds
        exact absurd holds initially
      · intro output after holds
        exact absurd holds initially

end CallTree
