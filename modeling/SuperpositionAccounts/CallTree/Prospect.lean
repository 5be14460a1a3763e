import SuperpositionAccounts.CallTree.Completion
import SuperpositionAccounts.CallTree.Cooperation

/-!
# Runs that can complete

`Prog.Ends` reads off what a completed run has done. Here runs are put together:
a program can end if its checks pass, if every modelled contract that it calls can
complete, and if the rest can end after that. The outside is asked to cooperate
as in `Prog.can`. One rule for each operation of a program, and one for a frame.
-/

namespace CallTree

variable {S : Signature} [DecidableEq S.Addr] [DecidableEq S.Slot] {α β : Type}

/-- Some script lets the program return, with such a value and such a world. -/
def Prog.CanEnd (system : System S) (stack : List (Frame S)) (frame : Frame S)
    (program : Prog S α) (world : World S) (post : α → World S → Prop) : Prop :=
  ∃ script value after, program.Ends system stack frame script world value after ∧
    post value after

/-- Some script lets the frame complete, with such an output and such a world. -/
def System.CanComplete (system : System S) (stack : List (Frame S)) (frame : Frame S)
    (world : World S) (post : S.Output → World S → Prop) : Prop :=
  ∃ output after, system.Completes stack frame world output after ∧ post output after

namespace Prog

variable {system : System S} {stack : List (Frame S)} {frame : Frame S} {world : World S}
  {post : α → World S → Prop}

theorem canEnd_pure {value : α} (holds : post value world) :
    (pure value : Prog S α).CanEnd system stack frame world post :=
  ⟨[], value, world, ends_pure.mpr ⟨rfl, rfl⟩, holds⟩

theorem canEnd_load {slot : S.Slot} {next : S.Word → Prog S α}
    (continued : (next (world.store frame.self slot)).CanEnd system stack frame world post) :
    (load slot next).CanEnd system stack frame world post :=
  continued

theorem canEnd_store {slot : S.Slot} {word : S.Word} {next : Prog S α}
    (mayWrite : frame.readonly = false)
    (continued : next.CanEnd system stack frame (world.write frame.self slot word) post) :
    (store slot word next).CanEnd system stack frame world post := by
  rcases continued with ⟨script, value, after, ends, holds⟩
  exact ⟨script, value, after, ends_store.mpr ⟨mayWrite, ends⟩, holds⟩

theorem canEnd_require {condition : Bool} {err : S.Err} {continuation : Unit → Prog S α}
    (passes : condition = true)
    (continued : (continuation ()).CanEnd system stack frame world post) :
    (require condition err >>= continuation).CanEnd system stack frame world post := by
  rcases continued with ⟨script, value, after, ends, holds⟩
  exact ⟨script, value, after, ends_require.mpr ⟨passes, ends⟩, holds⟩

theorem canEnd_unwrap {err : S.Err} {option : Option β} {result : β}
    {continuation : β → Prog S α} (present : option = some result)
    (continued : (continuation result).CanEnd system stack frame world post) :
    (unwrap err option >>= continuation).CanEnd system stack frame world post := by
  rcases continued with ⟨script, value, after, ends, holds⟩
  exact ⟨script, value, after, ends_unwrap.mpr ⟨result, present, ends⟩, holds⟩

/-- A modelled contract completes, and the program goes on with its answer. -/
theorem canEnd_called {query : S.Query} {next : S.Reply → Prog S α} {self : S.Addr} {msg : S.Msg}
    {reached : S.Output → World S → Prop}
    (called : system.callee world.store frame query = some (self, msg))
    (completes : system.CanComplete (frame :: stack)
      ⟨self, msg, frame.readonly || system.static query⟩ world reached)
    (continued : ∀ output middle, reached output middle →
      (next (system.relay (.ok output))).CanEnd system stack frame
        (middle.record stack frame (.asked query (system.relay (.ok output)))) post) :
    (ask query next).CanEnd system stack frame world post := by
  rcases completes with ⟨output, middle, ⟨inner, entered⟩, holds⟩
  rcases continued output middle holds with ⟨rest, value, after, ends, holds⟩
  refine ⟨.enter inner :: rest, value, after, ?_, holds⟩
  rw [ends_called called]
  refine ⟨inner, rest, rfl, ?_⟩
  rw [entered]
  exact ends

theorem canEnd_of_can {program : Prog S α}
    (possible : program.can system stack frame post world) :
    program.CanEnd system stack frame world post :=
  can_run possible

end Prog

namespace System

variable {system : System S} {stack : List (Frame S)} {frame : Frame S} {world : World S}

theorem canComplete_of_canEnd {reached post : S.Output → World S → Prop}
    (ends : (system.program frame.self frame.msg).CanEnd system stack frame
      (world.record stack frame .entered) reached)
    (holds : ∀ output after, reached output after →
      post output (after.record stack frame (.completed output))) :
    system.CanComplete stack frame world post := by
  rcases ends with ⟨script, output, after, ends, reaches⟩
  exact ⟨output, _, .of_ends ends, holds output after reaches⟩

theorem CanComplete.mono {strong weak : S.Output → World S → Prop}
    (completes : system.CanComplete stack frame world strong)
    (implies : ∀ output after, strong output after → weak output after) :
    system.CanComplete stack frame world weak := by
  rcases completes with ⟨output, after, completes, holds⟩
  exact ⟨output, after, completes, implies output after holds⟩

end System

end CallTree
