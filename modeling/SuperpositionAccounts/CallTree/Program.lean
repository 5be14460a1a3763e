import Mathlib.Tactic.Common

/-!
# Contract programs and their call trees

A contract is a program over its own storage that may hand control to other
contracts. This file gives such programs as a free monad and runs them in a
world of many contracts.

Everything outside the modelled contracts is an adversary. While it holds
control it may call any modelled contract with any message, open frames of its
own and revert them, and answer in any way. What it does is given as data: a
finite tree of acts and reactions. Quantifying over all trees is quantifying
over all behaviours, adaptive ones included, since a tree records what was done
and not why. A frame that runs out of reactions stops as a frame without gas
does.

A frame that reverts leaves the storage and the log as they were when it was
entered. The trace is never rolled back: it keeps what happened in frames that
were reverted later.
-/

namespace CallTree

/-- The types a system of contracts is written over. -/
structure Signature where
  Addr : Type
  Slot : Type
  Word : Type
  /-- What a call carries: the sender, the calldata and the like. -/
  Msg : Type
  /-- What a contract may ask of the outside. -/
  Query : Type
  Reply : Type
  Output : Type
  Err : Type
  /-- Marks a program leaves for observation only. -/
  Note : Type

/-- A program of a contract. -/
inductive Prog (S : Signature) (α : Type) where
  | ret (value : α)
  | fail (err : S.Err)
  | load (slot : S.Slot) (next : S.Word → Prog S α)
  | store (slot : S.Slot) (word : S.Word) (next : Prog S α)
  | note (mark : S.Note) (next : Prog S α)
  | ask (query : S.Query) (next : S.Reply → Prog S α)

namespace Prog

variable {S : Signature} {α β : Type}

/-- Run a program and continue with its result. -/
def bind : Prog S α → (α → Prog S β) → Prog S β
  | ret value, continuation => continuation value
  | fail err, _ => fail err
  | load slot next, continuation => load slot fun word => (next word).bind continuation
  | store slot word next, continuation => store slot word (next.bind continuation)
  | note mark next, continuation => note mark (next.bind continuation)
  | ask query next, continuation => ask query fun reply => (next reply).bind continuation

instance : Monad (Prog S) where
  pure := ret
  bind := bind

/-- Read a slot of the contract's own storage. -/
def sload (slot : S.Slot) : Prog S S.Word :=
  load slot ret

/-- Write a slot of the contract's own storage. -/
def sstore (slot : S.Slot) (word : S.Word) : Prog S Unit :=
  store slot word (ret ())

/-- Leave a mark. -/
def mark (mark : S.Note) : Prog S Unit :=
  note mark (ret ())

/-- Hand control to the outside and wait for its answer. -/
def request (query : S.Query) : Prog S S.Reply :=
  ask query ret

/-- Revert. -/
def throw (err : S.Err) : Prog S α :=
  fail err

/-- Revert unless a condition holds. -/
def require (condition : Bool) (err : S.Err) : Prog S Unit :=
  if condition then ret () else fail err

/-- Continue with the value of an option, or revert. -/
def unwrap (err : S.Err) : Option α → Prog S α
  | some value => ret value
  | none => fail err

/-- What a program asks, in order, and how it ends, on a storage and with given answers. -/
def answered [DecidableEq S.Slot] (answer : S.Query → S.Reply) :
    Prog S α → (S.Slot → S.Word) → List S.Query × Except S.Err α
  | ret value, _ => ([], .ok value)
  | fail err, _ => ([], .error err)
  | load slot next, own => (next (own slot)).answered answer own
  | store slot word next, own => next.answered answer fun other =>
      if other = slot then word else own other
  | note _ next, own => next.answered answer own
  | ask query next, own =>
      let (asked, outcome) := (next (answer query)).answered answer own
      (query :: asked, outcome)

theorem pure_bind (value : α) (continuation : α → Prog S β) :
    (pure value >>= continuation) = continuation value :=
  rfl

theorem bind_assoc {γ : Type} (program : Prog S α) (first : α → Prog S β) (second : β → Prog S γ) :
    (program >>= first) >>= second = program >>= fun value => first value >>= second := by
  change (program.bind first).bind second = program.bind fun value => (first value).bind second
  induction program with
  | ret value => rfl
  | fail err => rfl
  | load slot next ih => simp only [Prog.bind, ih]
  | store slot word next ih => simp only [Prog.bind, ih]
  | note mark next ih => simp only [Prog.bind, ih]
  | ask query next ih => simp only [Prog.bind, ih]

theorem sload_bind (slot : S.Slot) (continuation : S.Word → Prog S β) :
    (sload slot >>= continuation) = load slot continuation :=
  rfl

theorem sstore_bind (slot : S.Slot) (word : S.Word) (continuation : Unit → Prog S β) :
    (sstore slot word >>= continuation) = store slot word (continuation ()) :=
  rfl

theorem request_bind (query : S.Query) (continuation : S.Reply → Prog S β) :
    (request query >>= continuation) = ask query continuation :=
  rfl

theorem require_bind (condition : Bool) (err : S.Err) (continuation : Unit → Prog S β) :
    (require condition err >>= continuation) =
      if condition then continuation () else fail err := by
  cases condition <;> rfl

end Prog

/-- A call of a modelled contract. -/
structure Frame (S : Signature) where
  self : S.Addr
  msg : S.Msg
  /-- Whether the frame runs inside a static call. -/
  readonly : Bool

/-- What a frame does that others can observe. -/
inductive Action (S : Signature) where
  | entered
  | noted (mark : S.Note)
  | asked (query : S.Query) (reply : S.Reply)
  | completed (output : S.Output)

/-- An action of a frame, with the frames that wait for it and the storage at that moment. -/
structure Event (S : Signature) where
  stack : List (Frame S)
  frame : Frame S
  action : Action S
  store : S.Addr → S.Slot → S.Word

/-- What a revert restores: the storage of every contract and the log, newest event first. -/
structure State (S : Signature) where
  store : S.Addr → S.Slot → S.Word
  log : List (Event S)

/-- A state with the trace of everything that ever happened, newest event first. -/
structure World (S : Signature) extends State S where
  trace : List (Event S)

namespace World

variable {S : Signature}

/-- A storage before anything happened. -/
def start (store : S.Addr → S.Slot → S.Word) : World S :=
  ⟨⟨store, []⟩, []⟩

/-- Write a slot of a contract. -/
def write [DecidableEq S.Addr] [DecidableEq S.Slot] (world : World S) (self : S.Addr)
    (slot : S.Slot) (word : S.Word) : World S :=
  { world with
    store := fun addr other =>
      if addr = self ∧ other = slot then word else world.store addr other }

/-- Append an event to the log and to the trace. -/
def record (world : World S) (stack : List (Frame S)) (frame : Frame S) (action : Action S) :
    World S :=
  { world with
    log := ⟨stack, frame, action, world.store⟩ :: world.log
    trace := ⟨stack, frame, action, world.store⟩ :: world.trace }

/-- Go back to an earlier state, keeping the trace. -/
def revertTo (world earlier : World S) : World S :=
  { world with toState := earlier.toState }

@[simp]
theorem record_store (world : World S) (stack : List (Frame S)) (frame : Frame S)
    (action : Action S) : (world.record stack frame action).store = world.store :=
  rfl

@[simp]
theorem record_log (world : World S) (stack : List (Frame S)) (frame : Frame S)
    (action : Action S) :
    (world.record stack frame action).log =
      ⟨stack, frame, action, world.store⟩ :: world.log :=
  rfl

@[simp]
theorem record_trace (world : World S) (stack : List (Frame S)) (frame : Frame S)
    (action : Action S) :
    (world.record stack frame action).trace =
      ⟨stack, frame, action, world.store⟩ :: world.trace :=
  rfl

@[simp]
theorem revertTo_toState (world earlier : World S) :
    (world.revertTo earlier).toState = earlier.toState :=
  rfl

@[simp]
theorem revertTo_trace (world earlier : World S) :
    (world.revertTo earlier).trace = world.trace :=
  rfl

section Write

variable [DecidableEq S.Addr] [DecidableEq S.Slot]

@[simp]
theorem write_log (world : World S) (self : S.Addr) (slot : S.Slot) (word : S.Word) :
    (world.write self slot word).log = world.log :=
  rfl

@[simp]
theorem write_trace (world : World S) (self : S.Addr) (slot : S.Slot) (word : S.Word) :
    (world.write self slot word).trace = world.trace :=
  rfl

@[simp]
theorem write_store_self (world : World S) (self : S.Addr) (slot : S.Slot) (word : S.Word) :
    (world.write self slot word).store self slot = word := by
  simp [write]

theorem write_store_of_ne (world : World S) {self addr : S.Addr} {slot other : S.Slot}
    (word : S.Word) (different : addr ≠ self ∨ other ≠ slot) :
    (world.write self slot word).store addr other = world.store addr other := by
  simp only [write]
  rw [if_neg]
  rintro ⟨rfl, rfl⟩
  rcases different with different | different
  · exact different rfl
  · exact different rfl

theorem write_store (world : World S) (self : S.Addr) (slot : S.Slot) (word : S.Word) :
    (world.write self slot word).store =
      Function.update world.store self (Function.update (world.store self) slot word) := by
  funext addr other
  by_cases same : addr = self
  · subst same
    simp [write, Function.update_apply]
  · simp [write, same]

end Write

end World

/-- How the programs of a system are chosen and how its calls are connected. -/
structure System (S : Signature) where
  /-- The program a contract runs on a message. -/
  program : S.Addr → S.Msg → Prog S S.Output
  /-- The modelled contract a query calls, if it calls one, and the message it gets. -/
  callee : (S.Addr → S.Slot → S.Word) → Frame S → S.Query → Option (S.Addr × S.Msg)
  /-- What the caller of a modelled contract sees of its outcome. -/
  relay : Except S.Err S.Output → S.Reply
  /-- Whether a reply says that the callee reverted. -/
  failed : S.Reply → Bool
  /-- Whether a query is a static call. -/
  static : S.Query → Bool
  /-- The error of a frame that runs out of gas or writes in a static call. -/
  halt : S.Err

/-- The end of a program. -/
inductive Outcome (S : Signature) (α : Type) where
  | done (value : α) (world : World S)
  | reverted (err : S.Err) (world : World S)

/-- How the outside handles one query: given the stack, whether the call is static and the
modelled contract that is called, if one is. -/
abbrev Handler (S : Signature) :=
  List (Frame S) → Bool → Option (S.Addr × S.Msg) → World S → Option (World S × S.Reply)

section Run

variable {S : Signature} [DecidableEq S.Addr] [DecidableEq S.Slot] (system : System S)

/-- Run a program in a frame. Each query uses up one handler. -/
def Prog.run {α : Type} (stack : List (Frame S)) (frame : Frame S) :
    Prog S α → List (Handler S) → World S → Outcome S α
  | ret value, _, world => .done value world
  | fail err, _, world => .reverted err world
  | load slot next, handlers, world =>
      (next (world.store frame.self slot)).run stack frame handlers world
  | store slot word next, handlers, world =>
      if frame.readonly then .reverted system.halt world
      else next.run stack frame handlers (world.write frame.self slot word)
  | note mark next, handlers, world =>
      next.run stack frame handlers (world.record stack frame (.noted mark))
  | ask _ _, [], world => .reverted system.halt world
  | ask query next, handler :: handlers, world =>
      match handler (frame :: stack) (frame.readonly || system.static query)
          (system.callee world.store frame query) world with
      | none => .reverted system.halt world
      | some (after, reply) =>
          (next reply).run stack frame handlers
            (after.record stack frame (.asked query reply))

/-- Run a whole frame: a revert restores the state at the entry. -/
def System.enter (stack : List (Frame S)) (frame : Frame S) (handlers : List (Handler S))
    (world : World S) : World S × Except S.Err S.Output :=
  match (system.program frame.self frame.msg).run system stack frame handlers
      (world.record stack frame .entered) with
  | .done output after => (after.record stack frame (.completed output), .ok output)
  | .reverted err after => (after.revertTo world, .error err)

theorem System.enter_failed {stack : List (Frame S)} {frame : Frame S}
    {handlers : List (Handler S)} {world : World S} {err : S.Err}
    (failed : (system.enter stack frame handlers world).2 = .error err) :
    (system.enter stack frame handlers world).1.toState = world.toState := by
  simp only [System.enter] at failed ⊢
  split at failed
  · cases failed
  · rfl

end Run

/-! ### Behaviours of the outside -/

mutual

/-- What the outside does while it holds control. -/
inductive Act (S : Signature) where
  /-- Call a modelled contract, which then runs with the given script. -/
  | call (self : S.Addr) (msg : S.Msg) (script : List (Reaction S))
  /-- Act inside a frame of its own, which commits or reverts. -/
  | scope (acts : List (Act S)) (commits : Bool)

/-- What happens while a modelled contract waits for an answer. -/
inductive Reaction (S : Signature) where
  /-- The callee is outside: it acts and answers. -/
  | answer (acts : List (Act S)) (reply : S.Reply)
  /-- The callee is a modelled contract, which runs with the given script. -/
  | enter (script : List (Reaction S))

end

section Behaviour

variable {S : Signature} [DecidableEq S.Addr] [DecidableEq S.Slot] (system : System S)

mutual

def Act.run : Act S → List (Frame S) → Bool → World S → World S
  | .call self msg script, stack, readonly, world =>
      (system.enter stack ⟨self, msg, readonly⟩ (Reaction.runAll script) world).1
  | .scope acts commits, stack, readonly, world =>
      let after := Act.runAll acts stack readonly world
      if commits then after else after.revertTo world

def Act.runAll : List (Act S) → List (Frame S) → Bool → World S → World S
  | [], _, _, world => world
  | act :: acts, stack, readonly, world =>
      Act.runAll acts stack readonly (Act.run act stack readonly world)

/-- A reaction as a handler. An outside callee that fails leaves nothing behind. -/
def Reaction.run : Reaction S → Handler S
  | .answer acts reply => fun stack readonly callee world =>
      match callee with
      | some _ => none
      | none =>
          let after := Act.runAll acts stack readonly world
          some (if system.failed reply then after.revertTo world else after, reply)
  | .enter script => fun stack readonly callee world =>
      match callee with
      | none => none
      | some (self, msg) =>
          let (after, result) :=
            system.enter stack ⟨self, msg, readonly⟩ (Reaction.runAll script) world
          some (after, system.relay result)

def Reaction.runAll : List (Reaction S) → List (Handler S)
  | [] => []
  | reaction :: reactions => Reaction.run reaction :: Reaction.runAll reactions

end

theorem Act.runAll_append (earlier later : List (Act S)) (stack : List (Frame S))
    (readonly : Bool) (world : World S) :
    Act.runAll system (earlier ++ later) stack readonly world =
      Act.runAll system later stack readonly
        (Act.runAll system earlier stack readonly world) := by
  induction earlier generalizing world with
  | nil => simp only [List.nil_append, Act.runAll]
  | cons act acts ih =>
      simp only [List.cons_append, Act.runAll]
      exact ih _

end Behaviour

end CallTree
