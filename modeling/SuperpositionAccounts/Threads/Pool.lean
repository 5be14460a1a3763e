import Mathlib.Algebra.GroupWithZero.Nat
import Mathlib.Algebra.Order.BigOperators.Group.List
import SuperpositionAccounts.Threads.Process

/-!
# Threads that share a world

Requests arrive at any time and each is served by a thread of its own. A step of
the pool lets one thread perform its next operation on the shared state, starts a
thread, or changes the state from outside. Everything that is left open (which
thread is next, how the world answers) is in the label of the step, so a run is a
list of labels and can be computed.

The history holds every operation with the state before and after it, newest
first. A fact about all runs is an invariant of the state and the history, and
holds at every event of a run with the events before it.
-/

namespace Threads

/-- A shared state that answers operations. What is not determined by the state is a choice. -/
structure World (I : Interface) where
  State : Type
  Choice : Type
  Tick : Type
  answer : State → (op : I.Op) → Choice → I.Result op × State
  /-- The state changes without an operation. -/
  drift : State → Tick → State

variable {I : Interface} {Job ε α : Type}

/-- A thread serves a job: what it did so far, newest first, and what remains. -/
structure Thread (I : Interface) (Job ε α : Type) where
  job : Job
  log : List (Entry I)
  rest : Proc I ε α

/-- An operation of a thread, what the thread had done before, and the states around it. -/
structure Event (W : World I) (Job : Type) where
  thread : ℕ
  job : Job
  past : List (Entry I)
  entry : Entry I
  before : W.State
  after : W.State

structure Config (W : World I) (Job ε α : Type) where
  state : W.State
  threads : List (Thread I Job ε α)
  history : List (Event W Job)

/-- A step of the pool. -/
inductive Label (W : World I) (Job : Type) where
  | arrive (job : Job)
  | drift (tick : W.Tick)
  | perform (thread : ℕ) (choice : W.Choice)

namespace Config

variable {W : World I}

/-- A thread starts. -/
def arrive (serve : Job → Proc I ε α) (config : Config W Job ε α) (job : Job) :
    Config W Job ε α :=
  { config with threads := config.threads ++ [⟨job, [], serve job⟩] }

def drift (config : Config W Job ε α) (tick : W.Tick) : Config W Job ε α :=
  { config with state := W.drift config.state tick }

/-- A thread that stands before an operation performs it. -/
def perform (config : Config W Job ε α) (index : ℕ) (job : Job) (log : List (Entry I))
    (op : I.Op) (next : I.Result op → Proc I ε α) (choice : W.Choice) : Config W Job ε α where
  state := (W.answer config.state op choice).2
  threads := config.threads.set index
    ⟨job, ⟨op, (W.answer config.state op choice).1⟩ :: log,
      next (W.answer config.state op choice).1⟩
  history := ⟨index, job, log, ⟨op, (W.answer config.state op choice).1⟩, config.state,
    (W.answer config.state op choice).2⟩ :: config.history

/-- The step with this label, if the thread it names stands before an operation. -/
def step (serve : Job → Proc I ε α) (config : Config W Job ε α) :
    Label W Job → Option (Config W Job ε α)
  | .arrive job => some (config.arrive serve job)
  | .drift tick => some (config.drift tick)
  | .perform index choice =>
    match config.threads[index]? with
    | some ⟨job, log, .perform op next⟩ => some (config.perform index job log op next choice)
    | _ => none

/-- The steps of a list of labels, one after another. -/
def run (serve : Job → Proc I ε α) (config : Config W Job ε α) :
    List (Label W Job) → Option (Config W Job ε α)
  | [] => some config
  | label :: labels => (config.step serve label).bind fun next => next.run serve labels

section Checked

variable (allow : Config W Job ε α → ℕ → I.Op → Prop)
  [∀ config index op, Decidable (allow config index op)]

/-- The step with this label may be taken. -/
def permits (config : Config W Job ε α) : Label W Job → Bool
  | .perform index _ =>
    match config.threads[index]? with
    | some ⟨_, _, .perform op _⟩ => decide (allow config index op)
    | _ => false
  | _ => true

/-- The steps of a list of labels, if each may be taken. -/
def checkedRun (serve : Job → Proc I ε α) (config : Config W Job ε α) :
    List (Label W Job) → Option (Config W Job ε α)
  | [] => some config
  | label :: labels =>
    if config.permits allow label then
      (config.step serve label).bind fun next => next.checkedRun serve labels
    else none

end Checked

/-- A property of configurations that every step keeps is kept by a run. -/
theorem run_keeps {serve : Job → Proc I ε α} {kept : Config W Job ε α → Prop}
    (arrive : ∀ config job, kept config → kept (config.arrive serve job))
    (drift : ∀ config tick, kept config → kept (config.drift tick))
    (perform : ∀ config index job log op next choice,
      config.threads[index]? = some ⟨job, log, .perform op next⟩ → kept config →
      kept (config.perform index job log op next choice))
    {labels : List (Label W Job)} {config last : Config W Job ε α}
    (ran : config.run serve labels = some last) (holds : kept config) : kept last := by
  induction labels generalizing config with
  | nil =>
      cases ran
      exact holds
  | cons label labels ih =>
      rcases Option.bind_eq_some_iff.mp ran with ⟨middle, stepped, rest⟩
      refine ih rest ?_
      cases label with
      | arrive job =>
          cases stepped
          exact arrive config job holds
      | drift tick =>
          cases stepped
          exact drift config tick holds
      | perform index choice =>
          simp only [Config.step] at stepped
          split at stepped
          · rename_i job log op next stands
            cases stepped
            exact perform config index job log op next choice stands holds
          · cases stepped

/-- The threads after one has started. -/
theorem thread_of_arrive {serve : Job → Proc I ε α} {config : Config W Job ε α} {job : Job}
    {index : ℕ} {thread : Thread I Job ε α}
    (found : (config.arrive serve job).threads[index]? = some thread) :
    config.threads[index]? = some thread ∨ thread = ⟨job, [], serve job⟩ := by
  simp only [arrive] at found
  rw [List.getElem?_append] at found
  split at found
  · exact .inl found
  · rw [List.getElem?_singleton] at found
    split at found
    · cases found
      exact .inr rfl
    · cases found

/-- The threads from before are still there. -/
theorem thread_arrive {serve : Job → Proc I ε α} {config : Config W Job ε α} {index : ℕ}
    {thread : Thread I Job ε α} (found : config.threads[index]? = some thread) (job : Job) :
    (config.arrive serve job).threads[index]? = some thread := by
  have inside := (List.getElem?_eq_some_iff.mp found).1
  simp only [arrive]
  rw [List.getElem?_append_left inside]
  exact found

theorem thread_arrived (serve : Job → Proc I ε α) (config : Config W Job ε α) (job : Job) :
    (config.arrive serve job).threads[config.threads.length]? = some ⟨job, [], serve job⟩ := by
  simp [arrive]

/-- A property that every operation of a thread keeps is kept by the steps of all. -/
theorem thread_perform {config : Config W Job ε α} {index other : ℕ} {job : Job}
    {log : List (Entry I)} {op : I.Op} {next : I.Result op → Proc I ε α} (choice : W.Choice)
    {kept : Thread I Job ε α → Prop}
    (stands : config.threads[index]? = some ⟨job, log, .perform op next⟩)
    (holds : ∃ thread, config.threads[other]? = some thread ∧ kept thread)
    (step : kept ⟨job, log, .perform op next⟩ →
      kept ⟨job, ⟨op, (W.answer config.state op choice).1⟩ :: log,
        next (W.answer config.state op choice).1⟩) :
    ∃ thread, (config.perform index job log op next choice).threads[other]? = some thread ∧
      kept thread := by
  rcases holds with ⟨thread, found, holds⟩
  simp only [perform]
  by_cases same : index = other
  · subst same
    rw [stands] at found
    cases found
    have inside := (List.getElem?_eq_some_iff.mp stands).1
    exact ⟨_, List.getElem?_set_self inside, step holds⟩
  · exact ⟨thread, (List.getElem?_set_ne same).trans found, holds⟩

/-- The threads after one has performed an operation. -/
theorem thread_of_perform {config : Config W Job ε α} {index other : ℕ} {job : Job}
    {log : List (Entry I)} {op : I.Op} {next : I.Result op → Proc I ε α} {choice : W.Choice}
    {thread : Thread I Job ε α}
    (found : (config.perform index job log op next choice).threads[other]? = some thread) :
    other ≠ index ∧ config.threads[other]? = some thread ∨
      other = index ∧ thread = ⟨job, ⟨op, (W.answer config.state op choice).1⟩ :: log,
        next (W.answer config.state op choice).1⟩ := by
  simp only [perform] at found
  rw [List.getElem?_set] at found
  split at found
  · rename_i same
    split at found
    · cases found
      exact .inr ⟨same.symm, rfl⟩
    · cases found
  · rename_i different
    exact .inl ⟨Ne.symm different, found⟩

end Config

section Runs

variable {W : World I} (serve : Job → Proc I ε α) (initial : W.State → Prop)
  (allow : Config W Job ε α → ℕ → I.Op → Prop)

/-- The configurations of the runs that start in an initial state and in which every operation
was allowed where it was performed. -/
inductive Reachable : Config W Job ε α → Prop where
  | start {state : W.State} (init : initial state) : Reachable ⟨state, [], []⟩
  | arrive {config : Config W Job ε α} (reached : Reachable config) (job : Job) :
      Reachable (config.arrive serve job)
  | drift {config : Config W Job ε α} (reached : Reachable config) (tick : W.Tick) :
      Reachable (config.drift tick)
  | perform {config : Config W Job ε α} (reached : Reachable config) {index : ℕ} {job : Job}
      {log : List (Entry I)} {op : I.Op} {next : I.Result op → Proc I ε α}
      (stands : config.threads[index]? = some ⟨job, log, .perform op next⟩)
      (allowed : allow config index op) (choice : W.Choice) :
      Reachable (config.perform index job log op next choice)

variable {serve initial}

variable {allow} in
/-- A step that may be taken extends a run. -/
theorem Reachable.step {label : Label W Job} {config last : Config W Job ε α}
    (reached : Reachable serve initial allow config)
    (allowed : ∀ {index job log op next choice}, label = .perform index choice →
      config.threads[index]? = some ⟨job, log, .perform op next⟩ → allow config index op)
    (stepped : config.step serve label = some last) : Reachable serve initial allow last := by
  cases label with
  | arrive job =>
      cases stepped
      exact reached.arrive job
  | drift tick =>
      cases stepped
      exact reached.drift tick
  | perform index choice =>
      simp only [Config.step] at stepped
      split at stepped
      · rename_i job log op next stands
        cases stepped
        exact reached.perform stands (allowed rfl stands) choice
      · cases stepped

/-- A computed run is a run, if nothing is forbidden. -/
theorem Reachable.run {labels : List (Label W Job)} {config last : Config W Job ε α}
    (reached : Reachable serve initial (fun _ _ _ => True) config)
    (ran : config.run serve labels = some last) :
    Reachable serve initial (fun _ _ _ => True) last := by
  induction labels generalizing config with
  | nil =>
      cases ran
      exact reached
  | cons label labels ih =>
      rcases Option.bind_eq_some_iff.mp ran with ⟨middle, stepped, rest⟩
      exact ih (reached.step (fun _ _ => trivial) stepped) rest

/-- A computed run is a run, if each of its steps was checked. -/
theorem Reachable.checkedRun [∀ config index op, Decidable (allow config index op)]
    {labels : List (Label W Job)} {config last : Config W Job ε α}
    (reached : Reachable serve initial allow config)
    (ran : config.checkedRun allow serve labels = some last) :
    Reachable serve initial allow last := by
  induction labels generalizing config with
  | nil =>
      cases ran
      exact reached
  | cons label labels ih =>
      rw [Config.checkedRun] at ran
      split at ran
      · rename_i permitted
        rcases Option.bind_eq_some_iff.mp ran with ⟨middle, stepped, rest⟩
        refine ih (reached.step (fun same stands => ?_) stepped) rest
        simpa [same, Config.permits, stands] using permitted
      · cases ran

section Facts

variable {allow} {config : Config W Job ε α}

/-- Every thread stands at a point of the process that serves its job. -/
theorem Reachable.thread_runs (reached : Reachable serve initial allow config) :
    ∀ {index : ℕ} {thread : Thread I Job ε α}, config.threads[index]? = some thread →
      Proc.Runs (serve thread.job) thread.log thread.rest := by
  induction reached with
  | start _ => simp
  | arrive _ job ih =>
      intro index thread found
      rcases Config.thread_of_arrive found with old | rfl
      · exact ih old
      · exact .start
  | drift _ _ ih => exact ih
  | perform _ stands _ choice ih =>
      intro other thread found
      rcases Config.thread_of_perform found with ⟨_, old⟩ | ⟨_, rfl⟩
      · exact ih old
      · exact .next (ih stands) _

/-- What a thread did is in the history. -/
theorem Reachable.log_in_history (reached : Reachable serve initial allow config) :
    ∀ {index : ℕ} {thread : Thread I Job ε α}, config.threads[index]? = some thread →
      ∀ entry ∈ thread.log, ∃ event ∈ config.history,
        event.thread = index ∧ event.job = thread.job ∧ event.entry = entry := by
  induction reached with
  | start _ => simp
  | arrive _ job ih =>
      intro index thread found entry member
      rcases Config.thread_of_arrive found with old | rfl
      · exact ih old entry member
      · simp at member
  | drift _ _ ih => exact ih
  | perform _ stands _ choice ih =>
      intro other thread found entry member
      simp only [Config.perform]
      rcases Config.thread_of_perform found with ⟨_, old⟩ | ⟨rfl, rfl⟩
      · rcases ih old entry member with ⟨event, recorded, place⟩
        exact ⟨event, List.mem_cons_of_mem _ recorded, place⟩
      · rcases List.mem_cons.mp member with rfl | older
        · exact ⟨_, List.mem_cons_self, rfl, rfl, rfl⟩
        · rcases ih stands entry older with ⟨event, recorded, place⟩
          exact ⟨event, List.mem_cons_of_mem _ recorded, place⟩

theorem sum_map_set {β : Type} (weight : β → ℕ) {items : List β} {index : ℕ} {old : β}
    (found : items[index]? = some old) (new : β) :
    ((items.set index new).map weight).sum + weight old = (items.map weight).sum + weight new := by
  induction items generalizing index with
  | nil => simp at found
  | cons first rest ih =>
      cases index with
      | zero =>
          simp only [List.getElem?_cons_zero, Option.some.injEq] at found
          subst found
          simp only [List.set_cons_zero, List.map_cons, List.sum_cons]
          omega
      | succ index =>
          have later := ih (by simpa using found)
          simp only [List.set_cons_succ, List.map_cons, List.sum_cons]
          omega

/-- The threads together did what the history holds. -/
theorem Reachable.countP_history (reached : Reachable serve initial allow config)
    (counted : Entry I → Bool) :
    config.history.countP (fun event => counted event.entry) =
      (config.threads.map fun thread => thread.log.countP counted).sum := by
  induction reached with
  | start _ => rfl
  | arrive _ job ih => simp [Config.arrive, ih]
  | drift _ _ ih => exact ih
  | @perform config _ index job log op next stands _ choice ih =>
      have moved := sum_map_set (fun thread => thread.log.countP counted) stands
        ⟨job, ⟨op, (W.answer config.state op choice).1⟩ :: log,
          next (W.answer config.state op choice).1⟩
      simp only [List.countP_cons] at moved
      simp only [Config.perform, List.countP_cons, ih]
      omega

/-- A property that every good operation keeps holds of what each thread did. -/
theorem Reachable.log_keeps {good : Job → List (Entry I) → I.Op → Prop}
    {expected : List (Entry I) → Except ε α → Prop} {kept : List (Entry I) → Prop}
    (reached : Reachable serve initial allow config)
    (obeys : ∀ job, Proc.Obeys (good job) expected [] (serve job))
    (step : ∀ job log op result, good job log op → kept log → kept (⟨op, result⟩ :: log))
    (empty : kept []) {index : ℕ} {thread : Thread I Job ε α}
    (found : config.threads[index]? = some thread) : kept thread.log :=
  have keeps := (obeys thread.job).keeps (step thread.job) empty
  (keeps.of_runs (reached.thread_runs found)).holds (fun _ _ both => both.2) fun _ _ both => both.2

/-- What a thread stands before is good in view of what it did. -/
theorem Reachable.thread_good {good : List (Entry I) → I.Op → Prop}
    {expected : List (Entry I) → Except ε α → Prop} {index : ℕ} {job : Job}
    {log : List (Entry I)} {op : I.Op} {next : I.Result op → Proc I ε α}
    (reached : Reachable serve initial allow config)
    (stands : config.threads[index]? = some ⟨job, log, .perform op next⟩)
    (obeys : Proc.Obeys good expected [] (serve job)) : good log op :=
  (obeys.of_runs (reached.thread_runs stands)).1

/-- What is known of one event: the thread stood before the operation, had done what its past
says, and the world answered in the state before. -/
structure Event.Proper (serve : Job → Proc I ε α) (event : Event W Job)
    (older : List (Event W Job)) : Prop where
  runs : ∃ next, Proc.Runs (serve event.job) event.past (.perform event.entry.op next)
  recorded : ∀ entry ∈ event.past, ∃ earlier ∈ older,
    earlier.thread = event.thread ∧ earlier.job = event.job ∧ earlier.entry = entry
  answered : ∃ choice,
    W.answer event.before event.entry.op choice = (event.entry.result, event.after)

/-- An invariant of the state and the history holds at the end of every run and around every event
with the events before it. -/
theorem Reachable.invariant (Inv : W.State → List (Event W Job) → Prop)
    (start : ∀ {state}, initial state → Inv state [])
    (drift : ∀ {state history} (tick : W.Tick), Inv state history →
      Inv (W.drift state tick) history)
    (step : ∀ {event : Event W Job} {older}, event.Proper serve older →
      Inv event.before older → Inv event.after (event :: older))
    (reached : Reachable serve initial allow config) :
    Inv config.state config.history ∧
      ∀ {event older}, event :: older <:+ config.history →
        event.Proper serve older ∧ Inv event.before older := by
  induction reached with
  | start init => exact ⟨start init, by simp⟩
  | arrive _ _ ih => exact ih
  | drift _ tick ih => exact ⟨drift tick ih.1, ih.2⟩
  | @perform config reached index job log op next stands _ choice ih =>
      have proper : Event.Proper serve
          (⟨index, job, log, ⟨op, (W.answer config.state op choice).1⟩, config.state,
            (W.answer config.state op choice).2⟩ : Event W Job) config.history :=
        ⟨⟨next, reached.thread_runs stands⟩, reached.log_in_history stands, ⟨choice, rfl⟩⟩
      refine ⟨step proper ih.1, ?_⟩
      intro event older suffix
      rcases List.suffix_cons_iff.mp suffix with same | older
      · cases same
        exact ⟨proper, ih.1⟩
      · exact ih.2 older

/-- Every event of a run is proper after the events before it. -/
theorem Reachable.proper (reached : Reachable serve initial allow config) {event : Event W Job}
    {older : List (Event W Job)} (suffix : event :: older <:+ config.history) :
    event.Proper serve older :=
  ((reached.invariant (fun _ _ => True) (fun _ => trivial) (fun _ _ => trivial)
    fun _ _ => trivial).2 suffix).1

/-- An operation of a job is good in view of what its thread did before. -/
theorem Event.Proper.good {event : Event W Job} {older : List (Event W Job)}
    {good : List (Entry I) → I.Op → Prop} {expected : List (Entry I) → Except ε α → Prop}
    (proper : event.Proper serve older)
    (obeys : Proc.Obeys good expected [] (serve event.job)) :
    good event.past event.entry.op := by
  rcases proper.runs with ⟨next, runs⟩
  exact (obeys.of_runs runs).1

/-- An event among some others has the ones before it among them. -/
theorem exists_suffix_of_mem {event : Event W Job} {history : List (Event W Job)}
    (member : event ∈ history) :
    ∃ older, event :: older <:+ history ∧ ∀ earlier ∈ older, earlier ∈ history := by
  rcases List.append_of_mem member with ⟨newer, older, rfl⟩
  exact ⟨older, List.suffix_append _ _, fun earlier recorded => by simp [recorded]⟩

/-- An event before another one of the history, with the events before it. -/
theorem exists_suffix_of_older {event last : Event W Job} {older history : List (Event W Job)}
    (suffix : last :: older <:+ history) (member : event ∈ older) :
    ∃ before, event :: before <:+ history ∧ ∀ earlier ∈ before, earlier ∈ older := by
  rcases exists_suffix_of_mem member with ⟨before, place, among⟩
  exact ⟨before, (place.trans (List.suffix_cons _ _)).trans suffix, among⟩

end Facts

end Runs

end Threads
