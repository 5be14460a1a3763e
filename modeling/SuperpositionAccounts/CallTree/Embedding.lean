import SuperpositionAccounts.CallTree.Effects

/-!
# Programs inside a larger system

A program is written over the slots and queries of one contract. In a system
with more of them it is run under an embedding of both. A simulation relates the
worlds of the two systems; along it, what a weakest precondition promises of the
program it promises of the embedded one.
-/

namespace CallTree

variable {S : Signature} {α β : Type}

/-- The same words and answers with other slots, messages and queries. -/
abbrev Signature.over (S : Signature) (Slot Msg Query : Type) : Signature :=
  { S with Slot := Slot, Msg := Msg, Query := Query }

namespace Prog

variable {Slot Msg Query : Type}

/-- A program with its slots and queries among others. -/
def embed (Msg : Type) (slotOf : S.Slot → Slot) (queryOf : S.Query → Query) :
    Prog S α → Prog (S.over Slot Msg Query) α
  | ret value => ret value
  | fail err => fail err
  | load slot next => load (slotOf slot) fun word => (next word).embed Msg slotOf queryOf
  | store slot word next => store (slotOf slot) word (next.embed Msg slotOf queryOf)
  | note mark next => note mark (next.embed Msg slotOf queryOf)
  | ask query next => ask (queryOf query) fun reply => (next reply).embed Msg slotOf queryOf

variable {slotOf : S.Slot → Slot} {queryOf : S.Query → Query}

theorem embed_pure (value : α) :
    (pure value : Prog S α).embed Msg slotOf queryOf = pure value :=
  rfl

theorem embed_sload (slot : S.Slot) :
    (sload slot).embed Msg slotOf queryOf = sload (S := S.over Slot Msg Query) (slotOf slot) :=
  rfl

theorem embed_request (query : S.Query) :
    (request query).embed Msg slotOf queryOf =
      request (S := S.over Slot Msg Query) (queryOf query) :=
  rfl

theorem embed_require (condition : Bool) (err : S.Err) :
    (require condition err).embed Msg slotOf queryOf =
      require (S := S.over Slot Msg Query) condition err := by
  cases condition <;> rfl

theorem embed_unwrap (err : S.Err) (option : Option α) :
    (unwrap err option).embed Msg slotOf queryOf =
      unwrap (S := S.over Slot Msg Query) err option := by
  cases option <;> rfl

theorem embed_bind (program : Prog S α) (continuation : α → Prog S β) :
    (program >>= continuation).embed Msg slotOf queryOf =
      program.embed Msg slotOf queryOf >>= fun value =>
        (continuation value).embed Msg slotOf queryOf := by
  change (program.bind continuation).embed Msg slotOf queryOf =
    (program.embed Msg slotOf queryOf).bind _
  induction program with
  | ret value => rfl
  | fail err => rfl
  | load slot next ih => simp only [bind, embed, ih]
  | store slot word next ih => simp only [bind, embed, ih]
  | note mark next ih => simp only [bind, embed, ih]
  | ask query next ih => simp only [bind, embed, ih]

/-- An embedded program writes only embedded slots. -/
theorem within_embed (program : Prog S α) {writable : Slot → Prop} {markable : S.Note → Prop}
    (canWrite : ∀ slot, writable (slotOf slot)) (canMark : ∀ mark, markable mark) :
    Within (S := S.over Slot Msg Query) writable markable
      (program.embed Msg slotOf queryOf) := by
  induction program with
  | ret value => trivial
  | fail err => trivial
  | load slot next ih => exact fun word => ih word
  | store slot word next ih => exact ⟨canWrite slot, ih⟩
  | note mark next ih => exact ⟨canMark mark, ih⟩
  | ask query next ih => exact fun reply => ih reply

end Prog

variable {Slot Msg Query : Type} [DecidableEq S.Addr] [DecidableEq S.Slot] [DecidableEq Slot]

/-- A relation between worlds that the steps of a program and of its embedding keep. -/
structure Simulation (slotOf : S.Slot → Slot) (queryOf : S.Query → Query)
    (rely : World S → World S → Prop) (stack : List (Frame S)) (frame : Frame S)
    (farRely : World (S.over Slot Msg Query) → World (S.over Slot Msg Query) → Prop)
    (farStack : List (Frame (S.over Slot Msg Query))) (farFrame : Frame (S.over Slot Msg Query))
    (related : World S → World (S.over Slot Msg Query) → Prop) : Prop where
  loaded : ∀ {near far} slot, related near far →
    near.store frame.self slot = far.store farFrame.self (slotOf slot)
  written : ∀ {near far} slot word, related near far →
    related (near.write frame.self slot word) (far.write farFrame.self (slotOf slot) word)
  noted : ∀ {near far} mark, related near far →
    related (near.record stack frame (.noted mark)) (far.record farStack farFrame (.noted mark))
  asked : ∀ {near far} query reply, related near far →
    related (near.record stack frame (.asked query reply))
      (far.record farStack farFrame (.asked (queryOf query) reply))
  others : ∀ {near far farAfter}, related near far → farRely far farAfter →
    ∃ nearAfter, rely near nearAfter ∧ related nearAfter farAfter

theorem Simulation.wp_embed {slotOf : S.Slot → Slot} {queryOf : S.Query → Query}
    {rely : World S → World S → Prop} {stack : List (Frame S)} {frame : Frame S}
    {farRely : World (S.over Slot Msg Query) → World (S.over Slot Msg Query) → Prop}
    {farStack : List (Frame (S.over Slot Msg Query))} {farFrame : Frame (S.over Slot Msg Query)}
    {related : World S → World (S.over Slot Msg Query) → Prop}
    (simulation : Simulation slotOf queryOf rely stack frame farRely farStack farFrame related)
    {program : Prog S α} {post : α → World S → Prop} {near : World S}
    {far : World (S.over Slot Msg Query)} (initially : related near far)
    (holds : program.wp rely stack frame (fun _ => True) post near) :
    Prog.wp (S := S.over Slot Msg Query) farRely farStack farFrame (fun _ => True)
      (program.embed Msg slotOf queryOf)
      (fun value after => ∃ nearAfter, related nearAfter after ∧ post value nearAfter) far := by
  induction program generalizing near far with
  | ret value => exact ⟨near, initially, holds⟩
  | fail err => trivial
  | load slot next ih =>
      change Prog.wp (S := S.over Slot Msg Query) farRely farStack farFrame (fun _ => True)
        ((next (far.store farFrame.self (slotOf slot))).embed Msg slotOf queryOf) _ far
      apply ih _ initially
      rw [← simulation.loaded slot initially]
      exact holds
  | store slot word next ih =>
      exact ⟨trivial, ih (simulation.written slot word initially) holds.2⟩
  | note mark next ih => exact ih (simulation.noted mark initially) holds
  | ask query next ih =>
      refine ⟨trivial, ?_⟩
      intro farAfter reply moved
      rcases simulation.others initially moved with ⟨nearAfter, nearMoved, follows⟩
      exact ih reply (simulation.asked query reply follows) (holds.2 nearAfter reply nearMoved)

end CallTree
