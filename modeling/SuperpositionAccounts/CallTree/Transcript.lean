import SuperpositionAccounts.CallTree.Cooperation
import SuperpositionAccounts.CallTree.Embedding
import SuperpositionAccounts.CallTree.History

/-!
# Transcripts

The transcript of a frame lists what it has asked and what it was answered. A
program alone determines what its transcripts can be: `Prog.Yields` says so for
every way of answering it, given what is known of the words it reads. Words that
are known of a contract stay known if it writes no others.

`Guarantee.transcripts` carries this over to runs. Whatever is called in between,
and however deep, each frame that completes has a transcript of its program.
-/

namespace CallTree

variable {S : Signature} {α β : Type}

/-- What the frame at a depth has asked since it was entered, and the answers, oldest first. -/
def transcript (depth : ℕ) : List (Event S) → List (S.Query × S.Reply)
  | [] => []
  | event :: older =>
      if depth < event.stack.length then transcript depth older
      else match event.action with
        | .entered => []
        | .asked query reply => transcript depth older ++ [(query, reply)]
        | _ => transcript depth older

/-- What happens in deeper frames is not part of a transcript. -/
theorem Grows.transcript_eq {good : Event S → List (Event S) → Prop} {depth : ℕ}
    {base trace : List (Event S)} (grown : Grows good (depth + 1) base trace) :
    transcript depth trace = transcript depth base := by
  induction grown with
  | refl => rfl
  | event deep _ _ ih => rw [transcript, if_pos (Nat.lt_of_succ_le deep), ih]

section Record

variable (stack : List (Frame S)) (frame : Frame S) (world : World S)

theorem transcript_entered :
    transcript stack.length (world.record stack frame .entered).trace = [] := by
  simp [transcript]

theorem transcript_asked (query : S.Query) (reply : S.Reply) :
    transcript stack.length (world.record stack frame (.asked query reply)).trace =
      transcript stack.length world.trace ++ [(query, reply)] := by
  simp [transcript]

theorem transcript_noted (mark : S.Note) :
    transcript stack.length (world.record stack frame (.noted mark)).trace =
      transcript stack.length world.trace := by
  simp [transcript]

end Record

/-! ### The transcripts of a program -/

/-- If the words a program reads are as known, it writes only such words, and what it returns after
which transcript is as described. -/
def Prog.Yields (knows : S.Slot → S.Word → Prop) :
    Prog S α → (α → List (S.Query × S.Reply) → Prop) → Prop
  | ret value, post => post value []
  | fail _, _ => True
  | load slot next, post => ∀ word, knows slot word → (next word).Yields knows post
  | store slot word next, post => knows slot word ∧ next.Yields knows post
  | note _ next, post => next.Yields knows post
  | ask query next, post => ∀ reply, (next reply).Yields knows fun value later =>
      post value ((query, reply) :: later)

namespace Prog

variable {knows : S.Slot → S.Word → Prop}

theorem Yields.mono {program : Prog S α} {strong weak : α → List (S.Query × S.Reply) → Prop}
    (yields : program.Yields knows strong)
    (implies : ∀ value transcript, strong value transcript → weak value transcript) :
    program.Yields knows weak := by
  induction program generalizing strong weak with
  | ret value => exact implies value [] yields
  | fail err => trivial
  | load slot next ih => exact fun word known => ih word (yields word known) implies
  | store slot word next ih => exact ⟨yields.1, ih yields.2 implies⟩
  | note mark next ih => exact ih yields implies
  | ask query next ih => exact fun reply => ih reply (yields reply) fun _ _ => implies _ _

@[simp]
theorem yields_pure (value : α) (post : α → List (S.Query × S.Reply) → Prop) :
    (pure value : Prog S α).Yields knows post ↔ post value [] :=
  Iff.rfl

@[simp]
theorem yields_sload (slot : S.Slot) (post : S.Word → List (S.Query × S.Reply) → Prop) :
    (sload slot).Yields knows post ↔ ∀ word, knows slot word → post word [] :=
  Iff.rfl

@[simp]
theorem yields_sstore (slot : S.Slot) (word : S.Word)
    (post : Unit → List (S.Query × S.Reply) → Prop) :
    (sstore slot word).Yields knows post ↔ knows slot word ∧ post () [] :=
  Iff.rfl

@[simp]
theorem yields_mark (mark : S.Note) (post : Unit → List (S.Query × S.Reply) → Prop) :
    (Prog.mark mark).Yields knows post ↔ post () [] :=
  Iff.rfl

@[simp]
theorem yields_request (query : S.Query) (post : S.Reply → List (S.Query × S.Reply) → Prop) :
    (request query).Yields knows post ↔ ∀ reply, post reply [(query, reply)] :=
  Iff.rfl

@[simp]
theorem yields_require (condition : Bool) (err : S.Err)
    (post : Unit → List (S.Query × S.Reply) → Prop) :
    (require condition err).Yields knows post ↔ (condition = true → post () []) := by
  cases condition with
  | true => exact ⟨fun holds _ => holds, fun holds => holds rfl⟩
  | false => exact ⟨fun _ => nofun, fun _ => trivial⟩

@[simp]
theorem yields_unwrap (err : S.Err) (option : Option α)
    (post : α → List (S.Query × S.Reply) → Prop) :
    (unwrap err option).Yields knows post ↔ ∀ value, option = some value → post value [] := by
  cases option with
  | none => exact ⟨fun _ _ => nofun, fun _ => trivial⟩
  | some value =>
      refine ⟨?_, fun holds => holds value rfl⟩
      rintro holds _ ⟨⟩
      exact holds

@[simp]
theorem yields_bind (program : Prog S α) (continuation : α → Prog S β)
    (post : β → List (S.Query × S.Reply) → Prop) :
    (program >>= continuation).Yields knows post ↔
      program.Yields knows fun value first =>
        (continuation value).Yields knows fun result later => post result (first ++ later) := by
  change (program.bind continuation).Yields knows post ↔ _
  induction program generalizing post with
  | ret value => exact Iff.rfl
  | fail err => exact Iff.rfl
  | load slot next ih => exact forall_congr' fun word => imp_congr_right fun _ => ih word post
  | store slot word next ih => exact and_congr_right fun _ => ih post
  | note mark next ih => exact ih post
  | ask query next ih => exact forall_congr' fun reply => ih reply _

end Prog

/-- A transcript is made of parts, one for each item. -/
inductive InTurn {Exchange : Type} (part : α → List Exchange → Prop) :
    List α → List Exchange → Prop where
  | nil : InTurn part [] []
  | cons {item : α} {items : List α} {first later : List Exchange} (one : part item first)
      (others : InTurn part items later) : InTurn part (item :: items) (first ++ later)

/-- What happens in turn happens for one of the items. -/
theorem InTurn.exists_of_mem {Exchange : Type} {part : α → List Exchange → Prop} {items : List α}
    {exchanges : List Exchange} (turns : InTurn part items exchanges) {exchange : Exchange}
    (member : exchange ∈ exchanges) :
    ∃ item ∈ items, ∃ some, part item some ∧ exchange ∈ some := by
  induction turns with
  | nil => cases member
  | cons one _ ih =>
      rcases List.mem_append.mp member with first | later
      · exact ⟨_, List.mem_cons_self, _, one, first⟩
      · rcases ih later with ⟨item, inside, some, holds, found⟩
        exact ⟨item, List.mem_cons_of_mem _ inside, some, holds, found⟩

/-- A loop has the transcripts of its passes, one after another. -/
theorem Prog.yields_forM {knows : S.Slot → S.Word → Prop} {items : List α}
    {body : α → Prog S PUnit} {part : α → List (S.Query × S.Reply) → Prop}
    (pass : ∀ item ∈ items, (body item).Yields knows fun _ => part item) :
    (items.forM body).Yields knows fun _ => InTurn part items := by
  induction items with
  | nil => exact .nil
  | cons item rest ih =>
      change (body item >>= fun _ => rest.forM body).Yields knows _
      rw [yields_bind]
      apply (pass item List.mem_cons_self).mono
      intro _ first one
      apply (ih fun other member => pass other (List.mem_cons_of_mem _ member)).mono
      intro _ later others
      exact .cons one others

/-- A loop that asks nobody passes every item. -/
theorem Prog.yields_forM_quiet {knows : S.Slot → S.Word → Prop} {items : List α}
    {body : α → Prog S PUnit} {passed : α → Prop}
    (pass : ∀ item ∈ items,
      (body item).Yields knows fun _ exchanges => exchanges = [] ∧ passed item) :
    (items.forM body).Yields knows
      fun _ exchanges => exchanges = [] ∧ ∀ item ∈ items, passed item := by
  apply (yields_forM pass).mono
  intro _ exchanges parts
  clear pass
  induction parts with
  | nil => exact ⟨rfl, nofun⟩
  | cons one _ ih =>
      rw [one.1, ih.1]
      exact ⟨rfl, List.forall_mem_cons.mpr ⟨one.2, ih.2⟩⟩

/-! ### Transcripts of runs -/

/-- Words of a contract are as known. -/
def AsKnown (self : S.Addr) (knows : S.Slot → S.Word → Prop) (store : S.Addr → S.Slot → S.Word) :
    Prop :=
  ∀ slot, knows slot (store self slot)

/-- A frame of the contract that completes has a transcript as described. -/
def Transcribed (self : S.Addr)
    (described : Frame S → S.Output → List (S.Query × S.Reply) → Prop) (event : Event S)
    (older : List (Event S)) : Prop :=
  event.frame.self = self → ∀ output, event.action = .completed output →
    described event.frame output (transcript event.stack.length older)

section Runs

variable {self : S.Addr} {knows : S.Slot → S.Word → Prop}
  {described : Frame S → S.Output → List (S.Query × S.Reply) → Prop}
  {stack : List (Frame S)} {frame : Frame S} {start world : World S}

variable (self knows described stack start) in
/-- The words stayed as known, and the transcripts were as described. -/
abbrev TranscribedSince : World S → Prop :=
  Since (AsKnown self knows) (Transcribed self described) stack.length start

theorem transcribed_record (since : TranscribedSince self knows described stack start world)
    (frame : Frame S) (action : Action S) (quiet : ∀ output, action ≠ .completed output) :
    TranscribedSince self knows described stack start (world.record stack frame action) :=
  since.record fun _ output completed => absurd completed (quiet output)

/-- What is new in the log is in the trace, which is never taken back. -/
def Logged (world after : World S) : Prop :=
  world.trace ⊆ after.trace ∧ ∀ event ∈ after.log, event ∈ world.log ∨ event ∈ after.trace

theorem Logged.record (logged : Logged start world) (stack : List (Frame S)) (frame : Frame S)
    (action : Action S) : Logged start (world.record stack frame action) := by
  refine ⟨List.subset_cons_of_subset _ logged.1, ?_⟩
  intro event member
  rcases List.mem_cons.mp member with rfl | earlier
  · exact .inr List.mem_cons_self
  · exact (logged.2 event earlier).imp_right (List.mem_cons_of_mem _)

theorem Logged.trans {after : World S} (first : Logged start world)
    (second : Logged world after) : Logged start after := by
  refine ⟨List.Subset.trans first.1 second.1, ?_⟩
  intro event member
  rcases second.2 event member with earlier | traced
  · exact (first.2 event earlier).imp_right fun found => second.1 found
  · exact .inr traced

theorem Logged.refl (world : World S) : Logged world world :=
  ⟨List.Subset.refl _, fun _ => .inl⟩

variable [DecidableEq S.Addr] [DecidableEq S.Slot]

theorem AsKnown.write {slot : S.Slot} {word : S.Word} (known : AsKnown self knows world.store)
    (fits : knows slot word) : AsKnown self knows (world.write self slot word).store := by
  intro other
  by_cases same : other = slot
  · rw [same, World.write_store_self]
    exact fits
  · rw [World.write_store_of_ne _ _ (Or.inr same)]
    exact known other

theorem AsKnown.write_elsewhere (known : AsKnown self knows world.store) (other : frame.self ≠ self)
    (slot : S.Slot) (word : S.Word) :
    AsKnown self knows (world.write frame.self slot word).store := by
  intro own
  rw [World.write_store_of_ne _ _ (Or.inl other.symm)]
  exact known own

/-- In a run, a program of the contract has one of its transcripts. -/
theorem Prog.Yields.wp {program : Prog S α} {post : α → List (S.Query × S.Reply) → Prop}
    (yields : program.Yields knows post) (own : frame.self = self)
    (since : TranscribedSince self knows described stack start world) :
    program.wp (sinceRely (AsKnown self knows) (Transcribed self described) (frame :: stack)) stack
      frame (TranscribedSince self knows described stack start)
      (fun value after => TranscribedSince self knows described stack start after ∧
        ∃ later, transcript stack.length after.trace =
          transcript stack.length world.trace ++ later ∧ post value later) world := by
  induction program generalizing world post with
  | ret value => exact ⟨since, [], (List.append_nil _).symm, yields⟩
  | fail err => exact since
  | load slot next ih =>
      have known := since.keeps slot
      rw [← own] at known
      exact ih _ (yields _ known) since
  | store slot word next ih =>
      subst own
      exact ⟨since, ih yields.2 ⟨since.keeps.write yields.1, since.grows⟩⟩
  | note mark next ih =>
      have later := ih yields (transcribed_record since frame (.noted mark) nofun)
      rwa [transcript_noted] at later
  | ask query next ih =>
      refine ⟨since, ?_⟩
      intro after reply moved
      have called := since.called moved
      apply Prog.wp_mono _ (ih reply (yields reply)
        (transcribed_record called frame (.asked query reply) nofun))
      rintro value last ⟨kept, later, told, holds⟩
      refine ⟨kept, (query, reply) :: later, ?_, holds⟩
      rw [told, transcript_asked, (moved since.keeps).grows.transcript_eq, List.append_assoc]
      rfl

/-- Contracts elsewhere may do anything. -/
theorem transcribed_survives (other : frame.self ≠ self) :
    Survives (sinceRely (AsKnown self knows) (Transcribed self described) (frame :: stack)) stack
      frame (fun _ => True) (fun _ => True)
      (TranscribedSince self knows described stack start) where
  others moved since := since.called moved
  asked query reply since := transcribed_record since frame (.asked query reply) nofun
  noted mark _ since := transcribed_record since frame (.noted mark) nofun
  written slot word _ since := ⟨since.keeps.write_elsewhere other slot word, since.grows⟩

/-- If the programs of a contract have transcripts as described, so have its completed frames in
every run, as long as its words are as known at the start. -/
theorem Guarantee.transcripts {system : System S}
    (yields : ∀ frame : Frame S, frame.self = self →
      (system.program frame.self frame.msg).Yields knows (described frame)) :
    Guarantee system (fun _ _ => True)
      (sinceRely (AsKnown self knows) (Transcribed self described)) := by
  apply Guarantee.since
  intro stack frame world _ known
  have entered : TranscribedSince self knows described stack world
      (world.record stack frame .entered) := transcribed_record (.refl known) frame .entered nofun
  by_cases own : frame.self = self
  · apply Prog.wp_mono _ ((yields frame own).wp own entered)
    rintro output after ⟨since, later, told, holds⟩
    rw [transcript_entered, List.nil_append] at told
    apply since.record
    rintro _ _ ⟨⟩
    rw [told]
    exact holds
  · apply Prog.wp_mono _
      ((Prog.within_true _).wp (transcribed_survives own) (fun since => since) entered)
    intro output after since
    exact since.record fun same => absurd same own

/-- The transcripts of a whole run. -/
theorem System.transcribed {system : System S}
    (yields : ∀ frame : Frame S, frame.self = self →
      (system.program frame.self frame.msg).Yields knows (described frame))
    {store : S.Addr → S.Slot → S.Word} (known : AsKnown self knows store) (acts : List (Act S)) :
    let after := Act.runAll system acts [] false (World.start store)
    AsKnown self knows after.store ∧ ∀ newer event older,
      after.trace = newer ++ event :: older → Transcribed self described event older := by
  intro after
  have moved : sinceRely (AsKnown self knows) (Transcribed self described) []
      (World.start store) after :=
    (Guarantee.transcripts yields).runAll acts fun _ _ _ => trivial
  have since := moved known
  exact ⟨since.keeps, fun newer event older split => (since.grows.good_of_append split).2⟩

theorem logged_guarantee (system : System S) :
    Guarantee system (fun _ _ => True) fun _ => Logged where
  refl _ := Logged.refl
  trans := Logged.trans
  revert logged := ⟨logged.1, fun _ => .inl⟩
  frame stack frame world _ := by
    have survives : Survives (Logged (S := S)) stack frame (fun _ => True) (fun _ => True)
        (Logged world) :=
      { others := fun moved logged => logged.trans moved
        asked := fun query reply logged => logged.record stack frame (.asked query reply)
        noted := fun mark _ logged => logged.record stack frame (.noted mark)
        written := fun _ _ _ logged => logged }
    apply Prog.wp_mono _ ((Prog.within_true _).wp survives
      (fun logged => ⟨logged.1, fun _ => .inl⟩) ((Logged.refl world).record stack frame .entered))
    intro output after logged
    exact logged.record stack frame (.completed output)

/-- The transcripts of the frames whose completion took effect. -/
theorem System.transcribed_log {system : System S}
    (yields : ∀ frame : Frame S, frame.self = self →
      (system.program frame.self frame.msg).Yields knows (described frame))
    {store : S.Addr → S.Slot → S.Word} (known : AsKnown self knows store) (acts : List (Act S))
    {event : Event S} {output : S.Output}
    (logged : event ∈ (Act.runAll system acts [] false (World.start store)).log)
    (own : event.frame.self = self) (completed : event.action = .completed output) :
    ∃ exchanges, described event.frame output exchanges := by
  have traced : Logged (World.start store) (Act.runAll system acts [] false (World.start store)) :=
    (logged_guarantee system).runAll acts fun _ _ _ => trivial
  rcases traced.2 event logged with never | member
  · cases never
  · rcases List.append_of_mem member with ⟨newer, older, split⟩
    exact ⟨_, (System.transcribed yields known acts).2 newer event older split own output completed⟩

end Runs

/-! ### Runs with a cooperating outside -/

section Cooperation

variable [DecidableEq S.Addr] [DecidableEq S.Slot] {system : System S} {stack : List (Frame S)}
  {frame : Frame S} {program : Prog S α} {knows : S.Slot → S.Word → Prop}

/-- A program that can return has a transcript. -/
theorem Prog.Yields.of_can {post : α → World S → Prop}
    {told : α → List (S.Query × S.Reply) → Prop} (yields : program.Yields knows told)
    {world : World S} (possible : program.can system stack frame post world)
    (known : AsKnown frame.self knows world.store) :
    ∃ value exchanges, told value exchanges := by
  induction program generalizing world told with
  | ret value => exact ⟨value, [], yields⟩
  | fail err => exact possible.elim
  | load slot next ih => exact ih _ (yields _ (known slot)) possible known
  | store slot word next ih => exact ih yields.2 possible.2 (known.write yields.1)
  | note mark next ih => exact ih yields possible known
  | ask query next ih =>
      rcases possible with ⟨_, reply, later⟩
      rcases ih reply (yields reply) later known with ⟨value, exchanges, holds⟩
      exact ⟨value, _, holds⟩

variable {Slot Msg Query : Type} [DecidableEq Slot] {slotOf : S.Slot → Slot}
  {queryOf : S.Query → Query} {rely : World S → World S → Prop}
  {farRely : World (S.over Slot Msg Query) → World (S.over Slot Msg Query) → Prop}
  {farStack : List (Frame (S.over Slot Msg Query))} {farFrame : Frame (S.over Slot Msg Query)}
  {related : World S → World (S.over Slot Msg Query) → Prop}
  {farSystem : System (S.over Slot Msg Query)}

/-- What a program can do it can do inside a larger system, if nothing it asks calls a contract of
that system. -/
theorem Simulation.can_embed
    (simulation : Simulation slotOf queryOf rely stack frame farRely farStack farFrame related)
    (sameMode : farFrame.readonly = frame.readonly) {allowed : S.Query → Prop}
    (outside : ∀ {near far} query, related near far → allowed query →
      farSystem.callee far.store farFrame (queryOf query) = none)
    (yields : program.Yields knows fun _ exchanges => ∀ exchange ∈ exchanges, allowed exchange.1)
    {post : α → World S → Prop} {near : World S} {far : World (S.over Slot Msg Query)}
    (initially : related near far) (possible : program.can system stack frame post near)
    (known : AsKnown frame.self knows near.store) :
    Prog.can (S := S.over Slot Msg Query) farSystem farStack farFrame
      (program.embed Msg slotOf queryOf)
      (fun value after => ∃ nearAfter, related nearAfter after ∧ post value nearAfter) far := by
  induction program generalizing near far with
  | ret value => exact ⟨near, initially, possible⟩
  | fail err => exact possible
  | load slot next ih =>
      change Prog.can (S := S.over Slot Msg Query) farSystem farStack farFrame
        ((next (far.store farFrame.self (slotOf slot))).embed Msg slotOf queryOf) _ far
      rw [← simulation.loaded slot initially]
      exact ih _ (yields _ (known slot)) initially possible known
  | store slot word next ih =>
      refine ⟨sameMode.trans possible.1, ?_⟩
      exact ih yields.2 (simulation.written slot word initially) possible.2 (known.write yields.1)
  | note mark next ih => exact ih yields (simulation.noted mark initially) possible known
  | ask query next ih =>
      rcases possible with ⟨_, reply, later⟩
      rcases (yields reply).of_can later known with ⟨_, exchanges, told⟩
      refine ⟨outside query initially (told _ List.mem_cons_self), reply, ?_⟩
      refine ih reply ?_ (simulation.asked query reply initially) later known
      apply (yields reply).mono
      intro _ _ told exchange member
      exact told exchange (List.mem_cons_of_mem _ member)

end Cooperation

end CallTree
