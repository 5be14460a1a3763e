import SuperpositionAccounts.Server.Carried
import SuperpositionAccounts.Server.Senders

/-!
# The records of the transactions

`trackTx` writes a row for a transaction after the node took it. An error of the
database is only logged, so a transaction may be without a row, and a row may be
written while the server sees an error. In every run of the server there is still
no row without its transaction, and there are no more new rows than new
transactions.

A request of dry runs writes no row at all, and sends nothing.
-/

namespace SuperpositionAccounts

namespace Go

open Threads

section Runs

variable {Asset : Type} [AssetRegistry Asset] [Inhabited Asset] {env : Env Asset} {r : Resolver}
  {monthAfter : Timestamp → Timestamp} {allow : ServerConfig monthAfter → ℕ → Op → Prop}
  {config : ServerConfig monthAfter}

/-! ### One step -/

/-- A transaction is accepted by an operation that sends it, and the server knows of no other. -/
theorem accepted_of_proper {event : ServerEvent monthAfter}
    {older : List (ServerEvent monthAfter)} (proper : event.Proper (serveHTTP env r) older) :
    (event.after.accepted = event.before.accepted ∧ sentIn event.entry = false) ∨
      ∃ signed, event.entry.op = .sendTransaction signed ∧
        event.after.accepted = signed :: event.before.accepted := by
  rcases event with ⟨_, _, _, ⟨op, result⟩, before, after⟩
  rcases proper.answered with ⟨choice, answered⟩
  dsimp only at answered ⊢
  cases op with
  | sendTransaction signed =>
      rcases answer_sendTransaction before choice signed with ⟨_, lost⟩ | ⟨_, taken⟩
      · cases lost.symm.trans answered
        exact .inl ⟨rfl, rfl⟩
      · cases taken.symm.trans answered
        exact .inr ⟨signed, rfl, rfl⟩
  | _ =>
      have same := congrArg (fun reply => State.accepted (Prod.snd reply)) answered
      refine .inl ⟨same.symm.trans ?_, rfl⟩
      cases choice <;> rfl

/-- The executed transactions grow by what is inserted. -/
theorem executed_of_proper {event : ServerEvent monthAfter}
    {older : List (ServerEvent monthAfter)} (proper : event.Proper (serveHTTP env r) older) :
    event.after.db.executed = event.before.db.executed ∨
      ∃ eoaAddr transactionHash gasLimit desc,
        event.entry.op = .insertExecuted eoaAddr transactionHash gasLimit desc ∧
        event.after.db.executed = ⟨event.before.clock, eoaAddr, transactionHash, gasLimit, desc⟩ ::
          event.before.db.executed := by
  have tables := tables_of_proper proper
  generalize event.entry.op = op at tables ⊢
  cases tables with
  | kept _ _ executed => exact .inl executed
  | created _ _ executed => exact .inl executed
  | requested _ _ _ executed => exact .inl executed
  | tracked _ _ executed => exact .inr ⟨_, _, _, _, rfl, executed⟩

/-! ### The books -/

/-- The row is the record of a transaction that a request sent. -/
def RecordOf (env : Env Asset) (r : Resolver) (request : Request) (signed : SignedTx)
    (row : ExecutedRow) : Prop :=
  row.transactionHash = hashHex (env.txHash signed) ∧ row.gasLimit = signed.tx.gas ∧
    ∃ mutation ∈ request.mutations, ∃ ctx, mutation.SendsTx env r ctx signed ∧
      mutation.recordOf env ctx = some (row.eoaAddr, row.desc)

/-- The row was there from the start, or a transaction was sent for it. -/
def HasTransaction (env : Env Asset) (r : Resolver) (start : State)
    (history : List (ServerEvent monthAfter)) (row : ExecutedRow) : Prop :=
  row ∈ start.db.executed ∨ ∃ event ∈ history, ∃ signed,
    event.entry = ⟨.sendTransaction signed, .ok ()⟩ ∧ RecordOf env r event.job signed row

/-- The tables of records and of transactions, and the events. -/
structure Booked (env : Env Asset) (r : Resolver) (start state : State)
    (history : List (ServerEvent monthAfter)) : Prop where
  rows : ∀ row ∈ state.db.executed, HasTransaction env r start history row
  accepted : ∀ event ∈ history, ∀ signed, event.entry = ⟨.sendTransaction signed, .ok ()⟩ →
    signed ∈ state.accepted
  fewRows : state.db.executed.length ≤
    start.db.executed.length + history.countP fun event => recordedIn event.entry
  manySent : start.accepted.length + (history.countP fun event => sentIn event.entry) ≤
    state.accepted.length

theorem HasTransaction.later {start : State} {history : List (ServerEvent monthAfter)}
    {row : ExecutedRow} (has : HasTransaction env r start history row)
    (event : ServerEvent monthAfter) : HasTransaction env r start (event :: history) row := by
  rcases has with old | ⟨earlier, recorded, found⟩
  · exact .inl old
  · exact .inr ⟨earlier, List.mem_cons_of_mem _ recorded, found⟩

/-- A row is inserted after its transaction was sent by the same request. -/
theorem hasTransaction_of_insert {event : ServerEvent monthAfter}
    {older : List (ServerEvent monthAfter)} (proper : event.Proper (serveHTTP env r) older)
    (start : State) {row : ExecutedRow}
    (inserts : event.entry.op =
      .insertExecuted row.eoaAddr row.transactionHash row.gasLimit row.desc) :
    HasTransaction env r start older row := by
  have books := books_of_proper proper
  rw [inserts] at books
  rcases books rfl with ⟨mutation, member, ctx, _, signed, unrecorded, sends, hash, gas, record⟩
  rcases proper.recorded _ unrecorded.1 with ⟨sending, recorded, _, sameJob, sent⟩
  refine .inr ⟨sending, recorded, signed, sent, hash, gas, mutation, ?_, ctx, sends, record⟩
  rwa [sameJob]

theorem Booked.step {start : State} {event : ServerEvent monthAfter}
    {older : List (ServerEvent monthAfter)} (proper : event.Proper (serveHTTP env r) older)
    (books : Booked env r start event.before older) :
    Booked env r start event.after (event :: older) where
  rows := by
    intro row member
    rcases executed_of_proper proper with same | ⟨_, _, _, _, inserts, grown⟩
    · rw [same] at member
      exact (books.rows row member).later event
    · rw [grown] at member
      rcases List.mem_cons.mp member with rfl | old
      · exact (hasTransaction_of_insert proper start inserts).later event
      · exact (books.rows row old).later event
  accepted := by
    intro other member signed sent
    rcases accepted_of_proper proper with ⟨same, quiet⟩ | ⟨given, sends, grown⟩
    · rw [same]
      rcases List.mem_cons.mp member with rfl | earlier
      · rw [sent] at quiet
        cases quiet
      · exact books.accepted other earlier signed sent
    · rw [grown]
      rcases List.mem_cons.mp member with rfl | earlier
      · rw [sent] at sends
        cases sends
        exact List.mem_cons_self
      · exact List.mem_cons_of_mem _ (books.accepted other earlier signed sent)
  fewRows := by
    have before := books.fewRows
    rcases executed_of_proper proper with same | ⟨_, _, _, _, inserts, grown⟩
    · rw [same, List.countP_cons]
      omega
    · have recorded : recordedIn event.entry = true := by
        rw [recordedIn, inserts]
      rw [grown, List.countP_cons, if_pos recorded, List.length_cons]
      omega
  manySent := by
    have before := books.manySent
    rcases accepted_of_proper proper with ⟨same, quiet⟩ | ⟨_, _, grown⟩
    · rw [same, List.countP_cons_of_neg (by simp [quiet])]
      exact before
    · rw [grown, List.countP_cons, List.length_cons]
      split <;> omega

theorem booked {start : State}
    (reached : Reachable (serveHTTP env r) (fun state => state = start) allow config) :
    Booked env r start config.state config.history := by
  refine (reached.invariant (Booked env r start) ?_ ?_ ?_).1
  · rintro state rfl
    exact ⟨fun row member => .inl member, by simp, by simp, by simp⟩
  · intro state history tick books
    exact ⟨books.rows, books.accepted, books.fewRows, books.manySent⟩
  · intro event older proper books
    exact books.step proper

/-- The requests recorded no more than they sent. -/
theorem recorded_le_sent {initial : State → Prop}
    (reached : Reachable (serveHTTP env r) initial allow config) :
    (config.history.countP fun event => recordedIn event.entry) ≤
      config.history.countP fun event => sentIn event.entry := by
  rw [reached.countP_history recordedIn, reached.countP_history sentIn]
  refine List.sum_le_sum fun thread member => ?_
  rcases List.getElem?_of_mem member with ⟨index, found⟩
  exact reached.log_keeps does_serveHTTP_booked
    (fun _ _ _ result books => Request.Books.accounted result books) (Nat.le_refl 0) found

/-- In every run each new row of the executed transactions is the record of a transaction that the
node accepted, with its hash and its gas and for the address it was sent for, and there are no more
new rows than newly accepted transactions. -/
theorem records_have_transactions {start : State}
    (reached : Reachable (serveHTTP env r) (fun state => state = start) allow config) :
    (∀ row ∈ config.state.db.executed, row ∈ start.db.executed ∨
      ∃ event ∈ config.history, ∃ signed ∈ config.state.accepted,
        event.entry = ⟨.sendTransaction signed, .ok ()⟩ ∧ RecordOf env r event.job signed row) ∧
      config.state.db.executed.length + start.accepted.length ≤
        start.db.executed.length + config.state.accepted.length := by
  have books := booked reached
  refine ⟨?_, ?_⟩
  · intro row member
    rcases books.rows row member with old | ⟨event, recorded, signed, sent, record⟩
    · exact .inl old
    · exact .inr ⟨event, recorded, signed, books.accepted event recorded signed sent, sent, record⟩
  · have rows := books.fewRows.trans (Nat.add_le_add_left (recorded_le_sent reached) _)
    calc config.state.db.executed.length + start.accepted.length
        ≤ start.db.executed.length + (config.history.countP fun event => sentIn event.entry) +
            start.accepted.length := Nat.add_le_add_right rows _
      _ = start.db.executed.length + (start.accepted.length +
            config.history.countP fun event => sentIn event.entry) := by omega
      _ ≤ start.db.executed.length + config.state.accepted.length :=
            Nat.add_le_add_left books.manySent _

/-! ### Dry runs -/

/-- The mutation is a dry run. -/
def Mutation.isDry : Mutation → Bool
  | .createAccountExec _ _ dryrun | .requestSecret _ _ _ _ _ dryrun | .ninelivesMint _ dryrun
  | .claimRewards _ _ dryrun => isDryrun dryrun

/-- All mutations of the request are dry runs. -/
def Request.Dry (request : Request) : Prop :=
  ∀ mutation ∈ request.mutations, mutation.isDry = true

/-- Nothing but the access times of the sender keys, and the clock, may have changed. -/
structure Untouched (before after : State) : Prop where
  secrets : after.db.secrets = before.db.secrets
  nonces : after.db.nonces = before.db.nonces
  executed : after.db.executed = before.db.executed
  accepted : after.accepted = before.accepted

theorem Untouched.trans {before middle after : State} (first : Untouched before middle)
    (second : Untouched middle after) : Untouched before after where
  secrets := second.secrets.trans first.secrets
  nonces := second.nonces.trans first.nonces
  executed := second.executed.trans first.executed
  accepted := second.accepted.trans first.accepted

omit [Inhabited Asset] in
/-- A dry run performs no insert and sends nothing. -/
theorem harmless_of_dry {request : Request} {log : List (Entry operations)} {op : Op}
    (dry : request.Dry) (performs : request.Performs env r log op) :
    op.harmless = true ∨ (∃ ctx, op = .handle ctx) ∨
      ∃ eoaAddr secret, op = .countSecrets eoaAddr secret := by
  have real {mutation : Mutation} (member : mutation ∈ request.mutations)
      (notDry : mutation.isDry = false) : False := by
    rw [dry mutation member] at notDry
    cases notDry
  have creates {mutation : Mutation} (member : mutation ∈ request.mutations) {eoa : Address}
      (creating : mutation.CreatesFor eoa) : False := by
    rcases creating with ⟨_, _, _, rfl, notDry, _⟩
    exact real member notDry
  cases op with
  | handle ctx => exact .inr (.inl ⟨ctx, rfl⟩)
  | countSecrets eoaAddr secret => exact .inr (.inr ⟨eoaAddr, secret, rfl⟩)
  | insertSecret eoaAddr secret =>
      rcases performs with harmless | ⟨_, member, _, _, _, _, creating⟩
      · exact .inl harmless
      · exact (creates member creating).elim
  | insertNonceSecret eoaAddr secret nonce =>
      rcases performs with harmless | ⟨_, member, _, _, _, _, _, _, _, _, _, rfl, notDry, _⟩
      · exact .inl harmless
      · exact (real member notDry).elim
  | insertExecuted eoaAddr transactionHash gasLimit desc =>
      rcases performs with harmless | ⟨mutation, member, _, _, ⟨_, _, creating⟩ | ⟨_, _, spends, _⟩⟩
      · exact .inl harmless
      · exact (creates member creating).elim
      · cases mutation with
        | ninelivesMint _ _ | claimRewards _ _ _ => exact (real member spends).elim
        | _ => exact spends.elim
  | sendTransaction signed =>
      rcases performs with harmless | ⟨mutation, member, _, _, _, admitted⟩
      · exact .inl harmless
      · cases mutation with
        | requestSecret _ _ _ _ _ _ => exact admitted.elim
        | claimRewards _ _ _ => exact (real member admitted).elim
        | _ => exact (real member admitted.1).elim
  | _ => exact .inl rfl

theorem untouched_of_dry {event : ServerEvent monthAfter} {older : List (ServerEvent monthAfter)}
    (proper : event.Proper (serveHTTP env r) older) (dry : event.job.Dry) :
    Untouched event.before event.after := by
  have quiet := harmless_of_dry dry (performs_of_proper proper)
  have accepted : event.after.accepted = event.before.accepted := by
    rcases accepted_of_proper proper with ⟨same, _⟩ | ⟨signed, sends, _⟩
    · exact same
    · simp [sends, Op.harmless] at quiet
  have tables := tables_of_proper proper
  generalize event.entry.op = op at tables quiet
  cases tables with
  | kept secrets nonces executed => exact ⟨secrets, nonces, executed, accepted⟩
  | _ => simp [Op.harmless] at quiet

/-- In every run, whatever requests are served at the same time, the steps of a request of dry runs
leave the secrets, the nonces, the records and the accepted transactions alone, and a run of such
requests ends with those it started with. -/
theorem dry_runs_leave_tables {start : State}
    (reached : Reachable (serveHTTP env r) (fun state => state = start) allow config) :
    (∀ event ∈ config.history, event.job.Dry → Untouched event.before event.after) ∧
      ((∀ event ∈ config.history, event.job.Dry) → Untouched start config.state) := by
  have kept := reached.invariant
    (fun state history => (∀ event ∈ history, event.job.Dry) → Untouched start state)
    (by rintro state rfl _; exact ⟨rfl, rfl, rfl, rfl⟩)
    (fun _ untouched dry => (untouched dry).trans ⟨rfl, rfl, rfl, rfl⟩)
    (by
      intro event older proper untouched dry
      have earlier := untouched fun other member => dry other (List.mem_cons_of_mem _ member)
      exact earlier.trans (untouched_of_dry proper (dry event List.mem_cons_self)))
  refine ⟨?_, kept.1⟩
  intro event recorded dry
  rcases exists_suffix_of_mem recorded with ⟨older, suffix, _⟩
  exact untouched_of_dry (kept.2 suffix).1 dry

end Runs

/-! ### Known answers -/

theorem records_have_transactions_known :
    ∃ config, Known.signingRun = some config ∧ config.state.db.executed.length = 1 ∧
      ∀ row ∈ config.state.db.executed, ∃ event ∈ config.history,
        ∃ signed ∈ config.state.accepted, event.entry = ⟨.sendTransaction signed, .ok ()⟩ ∧
          RecordOf Known.signingEnv Known.resolver event.job signed row := by
  rcases Option.map_eq_some_iff.mp Known.signingRun_ends.2 with ⟨config, ran, counted⟩
  simp only [Prod.mk.injEq] at counted
  have start : Reachable (serveHTTP Known.signingEnv Known.resolver)
      (fun state => state = Known.withKey []) (fun _ _ _ => True)
      (⟨Known.withKey [], [], []⟩ : ServerConfig Known.monthAfter) := .start rfl
  refine ⟨config, ran, counted.1, fun row member => ?_⟩
  rcases (records_have_transactions (start.run ran)).1 row member with old | recorded
  · simp [Known.withKey, Known.migrated] at old
  · exact recorded

namespace Known

/-- The creation of an account with a mint, as a dry run. -/
def dryCreating : Request where
  method := "POST"
  authorization := ""
  mutations := [.createAccountExec creation (some smallMint) (some true)]

def dryRun : Option (ServerConfig monthAfter) :=
  Config.run (serveHTTP mintEnv resolver) ⟨withKey [], [], []⟩
    [.arrive dryCreating, .perform 0 .plain, .perform 0 .plain, .perform 0 .plain,
      .perform 0 (.number 200000), .perform 0 (.number 100000000), .perform 0 (.number 1),
      .perform 0 .plain, .perform 0 (.bytes []), .perform 0 (.random secret)]

theorem dryRun_ends :
    dryRun.map (fun config => (config.history.map fun event => event.job.mutations.map
        Mutation.isDry, config.state.db.senderKeys)) =
      some (List.replicate 9 [true], [⟨1, senderKeyText, some 1700000000⟩]) := by
  decide +kernel

end Known

theorem dry_runs_leave_tables_known :
    ∃ config, Known.dryRun = some config ∧ config.history.length = 9 ∧
      config.state.db.senderKeys = [⟨1, Known.senderKeyText, some 1700000000⟩] ∧
      Untouched (Known.withKey []) config.state := by
  rcases Option.map_eq_some_iff.mp Known.dryRun_ends with ⟨config, ran, ended⟩
  simp only [Prod.mk.injEq] at ended
  have start : Reachable (serveHTTP Known.mintEnv Known.resolver)
      (fun state => state = Known.withKey []) (fun _ _ _ => True)
      (⟨Known.withKey [], [], []⟩ : ServerConfig Known.monthAfter) := .start rfl
  have steps : config.history.length = 9 := by
    simpa using congrArg List.length ended.1
  refine ⟨config, ran, steps, ended.2, (dry_runs_leave_tables (start.run ran)).2 ?_⟩
  intro event recorded mutation member
  have same : event.job.mutations.map Mutation.isDry = [true] :=
    List.eq_of_mem_replicate (ended.1 ▸ List.mem_map_of_mem recorded)
  have one : mutation.isDry ∈ [true] := same ▸ List.mem_map_of_mem member
  simpa using one

end Go

end SuperpositionAccounts
