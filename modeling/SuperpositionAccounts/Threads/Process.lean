/-!
# Processes

A process performs operations of an interface one after another, and what it does
next depends on their results. It ends with a value or with an error. What one
process does is described without the others: `Obeys` says that every operation
is justified by what the process did before, and `Runs` says which point of the
process is reached with which results. An obedient process is obedient at every
point it reaches.
-/

namespace Threads

/-- Operations, and the type of the result of each. -/
structure Interface where
  Op : Type
  Result : Op → Type

/-- An operation that was performed, with its result. -/
structure Entry (I : Interface) where
  op : I.Op
  result : I.Result op

/-- A process over the interface. -/
inductive Proc (I : Interface) (ε α : Type) where
  | ret (value : α)
  | fail (error : ε)
  | perform (op : I.Op) (next : I.Result op → Proc I ε α)

namespace Proc

variable {I : Interface} {ε α β : Type}

def bind : Proc I ε α → (α → Proc I ε β) → Proc I ε β
  | ret value, after => after value
  | fail error, _ => fail error
  | perform op next, after => perform op fun result => (next result).bind after

instance : Monad (Proc I ε) where
  pure := ret
  bind := bind

/-- One operation. -/
def call (op : I.Op) : Proc I ε (I.Result op) :=
  perform op ret

/-- A computation that performs no operation. -/
def ofExcept : Except ε α → Proc I ε α
  | .ok value => ret value
  | .error error => fail error

/-- Go on with the value or the error. -/
def attempt : Proc I ε α → Proc I ε (Except ε α)
  | ret value => ret (.ok value)
  | fail error => ret (.error error)
  | perform op next => perform op fun result => (next result).attempt

/-! ### Justified operations -/

/-- Every operation of the process is good in view of the ones before it, newest first, and the
outcome is as expected. -/
def Obeys (good : List (Entry I) → I.Op → Prop) (expected : List (Entry I) → Except ε α → Prop) :
    List (Entry I) → Proc I ε α → Prop
  | log, ret value => expected log (.ok value)
  | log, fail error => expected log (.error error)
  | log, perform op next =>
    good log op ∧ ∀ result, Obeys good expected (⟨op, result⟩ :: log) (next result)

section Obeys

variable {good : List (Entry I) → I.Op → Prop} {expected : List (Entry I) → Except ε α → Prop}
  {log : List (Entry I)}

@[simp]
theorem obeys_pure {value : α} :
    Obeys good expected log (pure value) ↔ expected log (.ok value) :=
  Iff.rfl

@[simp]
theorem obeys_fail {error : ε} :
    Obeys good expected log (fail error) ↔ expected log (.error error) :=
  Iff.rfl

@[simp]
theorem obeys_ofExcept {outcome : Except ε α} :
    Obeys good expected log (ofExcept outcome) ↔ expected log outcome := by
  cases outcome <;> rfl

/-- What follows a process starts after everything the process did. -/
@[simp]
theorem obeys_bind {first : Proc I ε β} {after : β → Proc I ε α} :
    Obeys good expected log (first >>= after) ↔
      Obeys good (fun log outcome => match outcome with
        | .ok value => Obeys good expected log (after value)
        | .error error => expected log (.error error)) log first := by
  induction first generalizing log with
  | ret value => rfl
  | fail error => rfl
  | perform op next ih => exact and_congr_right fun _ => forall_congr' fun result => ih result

@[simp]
theorem obeys_call {op : I.Op} {expected : List (Entry I) → Except ε (I.Result op) → Prop} :
    Obeys good expected log (call op) ↔
      good log op ∧ ∀ result, expected (⟨op, result⟩ :: log) (.ok result) :=
  Iff.rfl

@[simp]
theorem obeys_attempt {first : Proc I ε α}
    {expected : List (Entry I) → Except ε (Except ε α) → Prop} :
    Obeys good expected log (attempt first) ↔
      Obeys good (fun log outcome => expected log (.ok outcome)) log first := by
  induction first generalizing log with
  | ret value => rfl
  | fail error => rfl
  | perform op next ih => exact and_congr_right fun _ => forall_congr' fun result => ih result

theorem Obeys.mono {weaker : List (Entry I) → I.Op → Prop}
    {laxer : List (Entry I) → Except ε α → Prop} {process : Proc I ε α}
    (obeys : Obeys good expected log process)
    (fewer : ∀ log op, good log op → weaker log op)
    (looser : ∀ log outcome, expected log outcome → laxer log outcome) :
    Obeys weaker laxer log process := by
  induction process generalizing log with
  | ret value => exact looser _ _ obeys
  | fail error => exact looser _ _ obeys
  | perform op next ih => exact ⟨fewer _ _ obeys.1, fun result => ih result (obeys.2 result)⟩

/-- A property of the log that every good operation keeps holds wherever the process is. -/
theorem Obeys.keeps {kept : List (Entry I) → Prop} {process : Proc I ε α}
    (obeys : Obeys good expected log process)
    (step : ∀ log op result, good log op → kept log → kept (⟨op, result⟩ :: log))
    (initially : kept log) :
    Obeys (fun log op => good log op ∧ kept log)
      (fun log outcome => expected log outcome ∧ kept log) log process := by
  induction process generalizing log with
  | ret value => exact ⟨obeys, initially⟩
  | fail error => exact ⟨obeys, initially⟩
  | perform op next ih =>
      exact ⟨⟨obeys.1, initially⟩, fun result =>
        ih result (obeys.2 result) (step log op result obeys.1 initially)⟩

/-- Two descriptions of a process hold together. -/
theorem Obeys.and {other : List (Entry I) → I.Op → Prop}
    {also : List (Entry I) → Except ε α → Prop} {process : Proc I ε α}
    (first : Obeys good expected log process) (second : Obeys other also log process) :
    Obeys (fun log op => good log op ∧ other log op)
      (fun log outcome => expected log outcome ∧ also log outcome) log process := by
  induction process generalizing log with
  | ret value => exact ⟨first, second⟩
  | fail error => exact ⟨first, second⟩
  | perform op next ih =>
      exact ⟨⟨first.1, second.1⟩, fun result => ih result (first.2 result) (second.2 result)⟩

/-- A process that starts later does the same, after what was done before it. -/
theorem Obeys.after {process : Proc I ε α} (obeys : Obeys good expected log process)
    (earlier : List (Entry I)) :
    Obeys (fun all op => ∃ part, all = part ++ earlier ∧ good part op)
      (fun all outcome => ∃ part, all = part ++ earlier ∧ expected part outcome)
      (log ++ earlier) process := by
  induction process generalizing log with
  | ret value => exact ⟨log, rfl, obeys⟩
  | fail error => exact ⟨log, rfl, obeys⟩
  | perform op next ih => exact ⟨⟨log, rfl, obeys.1⟩, fun result => ih result (obeys.2 result)⟩

/-- What holds wherever the process goes on and wherever it ends holds here. -/
theorem Obeys.holds {kept : List (Entry I) → Prop} {process : Proc I ε α}
    (obeys : Obeys good expected log process) (before : ∀ log op, good log op → kept log)
    (after : ∀ log outcome, expected log outcome → kept log) : kept log := by
  cases process with
  | ret value => exact after _ _ obeys
  | fail error => exact after _ _ obeys
  | perform op next => exact before _ _ obeys.1

end Obeys

/-! ### Reached points -/

/-- The process reaches this point with these results, newest first. -/
inductive Runs (process : Proc I ε α) : List (Entry I) → Proc I ε α → Prop where
  | start : Runs process [] process
  | next {log : List (Entry I)} {op : I.Op} {next : I.Result op → Proc I ε α}
      (before : Runs process log (perform op next)) (result : I.Result op) :
      Runs process (⟨op, result⟩ :: log) (next result)

theorem Obeys.of_runs {good : List (Entry I) → I.Op → Prop}
    {expected : List (Entry I) → Except ε α → Prop} {process rest : Proc I ε α}
    {log : List (Entry I)} (obeys : Obeys good expected [] process)
    (runs : Runs process log rest) : Obeys good expected log rest := by
  induction runs with
  | start => exact obeys
  | next _ result ih => exact ih.2 result

theorem Runs.trans {process middle last : Proc I ε α} {earlier later : List (Entry I)}
    (first : Runs process earlier middle) (second : Runs middle later last) :
    Runs process (later ++ earlier) last := by
  induction second with
  | start => exact first
  | next _ result ih => exact .next ih result

/-- The results say where a process is. -/
theorem Runs.unique {process middle last : Proc I ε α} {log : List (Entry I)}
    (runs : Runs process log middle) (again : Runs process log last) : middle = last := by
  induction runs generalizing last with
  | start =>
      cases again with
      | start => rfl
  | next _ result ih =>
      cases again with
      | next before _ =>
          cases ih before
          rfl

theorem Runs.bind {process last : Proc I ε β} {log : List (Entry I)} (runs : Runs process log last)
    (after : β → Proc I ε α) : Runs (process >>= after) log (last >>= after) := by
  induction runs with
  | start => exact .start
  | @next log op next _ result ih =>
      exact @Runs.next _ _ _ _ log op (fun result => next result >>= after) ih result

theorem Runs.attempt {process last : Proc I ε α} {log : List (Entry I)}
    (runs : Runs process log last) : Runs process.attempt log last.attempt := by
  induction runs with
  | start => exact .start
  | @next log op next _ result ih =>
      exact @Runs.next _ _ _ _ log op (fun result => (next result).attempt) ih result

/-- The process comes to this point with some results. -/
def Reaches (process last : Proc I ε α) : Prop :=
  ∃ log, Runs process log last

theorem Reaches.refl (process : Proc I ε α) : Reaches process process :=
  ⟨[], .start⟩

theorem Reaches.trans {process middle last : Proc I ε α} (first : Reaches process middle)
    (second : Reaches middle last) : Reaches process last := by
  rcases first with ⟨earlier, first⟩
  rcases second with ⟨later, second⟩
  exact ⟨later ++ earlier, first.trans second⟩

/-- Any result of the next operation is possible. -/
theorem Reaches.perform {op : I.Op} {next : I.Result op → Proc I ε α} {last : Proc I ε α}
    (result : I.Result op) (rest : Reaches (next result) last) :
    Reaches (.perform op next) last :=
  Reaches.trans ⟨_, .next .start result⟩ rest

theorem Reaches.bind {process : Proc I ε β} {value : β} {after : β → Proc I ε α}
    {last : Proc I ε α} (first : Reaches process (ret value)) (rest : Reaches (after value) last) :
    Reaches (process >>= after) last := by
  rcases first with ⟨log, runs⟩
  exact Reaches.trans ⟨log, runs.bind after⟩ rest

/-- A process that ended goes nowhere. -/
theorem eq_of_fail_reaches {error : ε} {last : Proc I ε α}
    (reaches : Reaches (fail error) last) : last = fail error := by
  rcases reaches with ⟨log, runs⟩
  induction runs with
  | start => rfl
  | next _ _ ih => cases ih

theorem Obeys.of_reaches {good : List (Entry I) → I.Op → Prop}
    {expected : List (Entry I) → Except ε α → Prop} {process : Proc I ε α} {op : I.Op}
    {next : I.Result op → Proc I ε α} (obeys : Obeys good expected [] process)
    (reaches : Reaches process (.perform op next)) : ∃ log, good log op := by
  rcases reaches with ⟨log, runs⟩
  exact ⟨log, (obeys.of_runs runs).1⟩

end Proc

end Threads
