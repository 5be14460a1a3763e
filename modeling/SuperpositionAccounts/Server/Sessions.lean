import SuperpositionAccounts.Server.Protocol

/-!
# Session secrets

A request whose header names an address and a secret is served as that address.
This file is about all runs of the server, with any interleaving of the requests,
and about where such a secret comes from.

What a step can do to the tables is said once, in `answer_tables`: it keeps them,
or inserts a secret, or inserts a nonce that was not there together with a secret,
or inserts an executed transaction.
Hence every secret of a state was inserted by an event before it, with the expiry
of that time, and nothing removes a row.
-/

namespace SuperpositionAccounts

namespace Go

open Threads

/-! ### One step -/

/-- The tables with addresses around an operation. -/
inductive TableStep (monthAfter : Timestamp → Timestamp) (before after : State) : Op → Prop where
  | kept {op : Op} (secrets : after.db.secrets = before.db.secrets)
      (nonces : after.db.nonces = before.db.nonces)
      (executed : after.db.executed = before.db.executed) : TableStep monthAfter before after op
  | created {eoaAddr secret : String}
      (secrets : after.db.secrets =
        ⟨eoaAddr, some secret, monthAfter before.clock⟩ :: before.db.secrets)
      (nonces : after.db.nonces = before.db.nonces)
      (executed : after.db.executed = before.db.executed) :
      TableStep monthAfter before after (.insertSecret eoaAddr secret)
  | requested {eoaAddr secret : String} {nonce : Int32}
      (fresh : ⟨eoaAddr, nonce⟩ ∉ before.db.nonces)
      (secrets : after.db.secrets =
        ⟨eoaAddr, some secret, monthAfter before.clock⟩ :: before.db.secrets)
      (nonces : after.db.nonces = ⟨eoaAddr, nonce⟩ :: before.db.nonces)
      (executed : after.db.executed = before.db.executed) :
      TableStep monthAfter before after (.insertNonceSecret eoaAddr secret nonce)
  | tracked {eoaAddr transactionHash desc : String} {gasLimit : UInt64}
      (secrets : after.db.secrets = before.db.secrets)
      (nonces : after.db.nonces = before.db.nonces)
      (executed : after.db.executed =
        ⟨before.clock, eoaAddr, transactionHash, gasLimit, desc⟩ :: before.db.executed) :
      TableStep monthAfter before after (.insertExecuted eoaAddr transactionHash gasLimit desc)

/-- A transaction of the database leaves the tables or does what it says. -/
theorem execute_db (transaction : Transaction) (state : State) (choice : Choice) :
    (execute transaction state choice).2.db = state.db ∨
      transaction state.db = .ok (execute transaction state choice).2.db := by
  have committed : (transaction.execute state.db).2 = state.db ∨
      transaction state.db = .ok (transaction.execute state.db).2 := by
    unfold Transaction.execute
    split
    · exact .inr ‹_›
    · exact .inl rfl
  cases choice <;> first | exact .inl rfl | exact committed

theorem accountsInsertNonceSecret3_ok {validUntil : Timestamp} {eoaAddr secret : String}
    {nonce : Int32} {before after : Db}
    (inserted : accountsInsertNonceSecret3 validUntil eoaAddr secret nonce before = .ok after) :
    ⟨eoaAddr, nonce⟩ ∉ before.nonces ∧
      after.secrets = ⟨eoaAddr, some secret, validUntil⟩ :: before.secrets ∧
      after.nonces = ⟨eoaAddr, nonce⟩ :: before.nonces ∧ after.executed = before.executed := by
  simp only [accountsInsertNonceSecret3, insertIntoNonces, insertIntoSecrets] at inserted
  split at inserted
  · cases inserted
  · rename_i fresh
    cases inserted
    exact ⟨fresh, rfl, rfl, rfl⟩

theorem insertIntoExecuted_ok {createdAt : Timestamp} {eoaAddr transactionHash desc : String}
    {gasLimit : UInt64} {before after : Db}
    (inserted : insertIntoExecuted createdAt eoaAddr transactionHash gasLimit desc before =
      .ok after) :
    after.secrets = before.secrets ∧ after.nonces = before.nonces ∧
      after.executed =
        ⟨createdAt, eoaAddr, transactionHash, gasLimit, desc⟩ :: before.executed := by
  unfold insertIntoExecuted at inserted
  split at inserted
  · cases inserted
  · cases inserted
    exact ⟨rfl, rfl, rfl⟩

/-- An operation that leaves the database. -/
theorem TableStep.of_db_eq {monthAfter : Timestamp → Timestamp} {before after : State} {op : Op}
    (same : after.db = before.db) : TableStep monthAfter before after op :=
  .kept (congrArg Db.secrets same) (congrArg Db.nonces same) (congrArg Db.executed same)

theorem answer_tables (monthAfter : Timestamp → Timestamp) (state : State) (op : Op)
    (choice : Choice) :
    TableStep monthAfter state (answer monthAfter state op choice).2 op := by
  cases op with
  | insertSecret eoaAddr secret =>
      rcases execute_db (insertIntoSecrets (monthAfter state.clock) eoaAddr secret) state choice
        with same | ran
      · exact .of_db_eq same
      · have result := (Except.ok.inj ran).symm
        exact .created (congrArg Db.secrets result) ((congrArg Db.nonces result).trans rfl)
          ((congrArg Db.executed result).trans rfl)
  | insertNonceSecret eoaAddr secret nonce =>
      rcases execute_db (accountsInsertNonceSecret3 (monthAfter state.clock) eoaAddr secret nonce)
        state choice with same | ran
      · exact .of_db_eq same
      · rcases accountsInsertNonceSecret3_ok ran with ⟨fresh, secrets, nonces, executed⟩
        exact .requested fresh secrets nonces executed
  | insertExecuted eoaAddr transactionHash gasLimit desc =>
      rcases execute_db (insertIntoExecuted state.clock eoaAddr transactionHash gasLimit desc)
        state choice with same | ran
      · exact .of_db_eq same
      · rcases insertIntoExecuted_ok ran with ⟨secrets, nonces, executed⟩
        exact .tracked secrets nonces executed
  | updateKey id now => cases choice <;> exact .kept rfl rfl rfl
  | sendTransaction signed => cases choice <;> exact .kept rfl rfl rfl
  | _ => exact .kept rfl rfl rfl

/-! ### Runs -/

section Runs

variable {Asset : Type} [AssetRegistry Asset] [Inhabited Asset] {env : Env Asset} {r : Resolver}
  {monthAfter : Timestamp → Timestamp}

/-- An event of a run of the server. -/
abbrev ServerEvent (monthAfter : Timestamp → Timestamp) :=
  Event (world monthAfter) Request

abbrev ServerConfig (monthAfter : Timestamp → Timestamp) :=
  Config (world monthAfter) Request Fault Response

/-- The secrets of the tables before the first request are those of the migration, which are
null. -/
def Migrated (state : State) : Prop :=
  ∀ row ∈ state.db.secrets, row.secret = none

/-- The event put this secret of this address into the table. -/
def Inserted (event : ServerEvent monthAfter) (eoaAddr secret : String) : Prop :=
  (event.entry.op = .insertSecret eoaAddr secret ∨
      ∃ nonce, event.entry.op = .insertNonceSecret eoaAddr secret nonce) ∧
    event.after.db.secrets =
      ⟨eoaAddr, some secret, monthAfter event.before.clock⟩ :: event.before.db.secrets

theorem tables_of_proper {event : ServerEvent monthAfter} {older : List (ServerEvent monthAfter)}
    (proper : event.Proper (serveHTTP env r) older) :
    TableStep monthAfter event.before event.after event.entry.op := by
  rcases proper.answered with ⟨choice, answered⟩
  have step := answer_tables monthAfter event.before event.entry.op choice
  have after : (answer monthAfter event.before event.entry.op choice).2 = event.after :=
    congrArg Prod.snd answered
  rwa [after] at step

/-- What the tables say about the events so far, and the events about the tables. -/
structure Ledger (state : State) (history : List (ServerEvent monthAfter)) : Prop where
  /-- Every secret was inserted by an event, and expires a month after it. -/
  inserted : ∀ row ∈ state.db.secrets, ∀ secret, row.secret = some secret →
    ∃ event ∈ history, Inserted event row.eoaAddr secret ∧
      row.validUntil = monthAfter event.before.clock
  /-- What was inserted is still there. -/
  secrets : ∀ event ∈ history, ∀ eoaAddr secret, Inserted event eoaAddr secret →
    ⟨eoaAddr, some secret, monthAfter event.before.clock⟩ ∈ state.db.secrets
  nonces : ∀ event ∈ history, ∀ eoaAddr secret nonce,
    event.entry.op = .insertNonceSecret eoaAddr secret nonce → Inserted event eoaAddr secret →
      ⟨eoaAddr, nonce⟩ ∈ state.db.nonces

theorem Ledger.start {state : State} (migrated : Migrated state) :
    Ledger state ([] : List (ServerEvent monthAfter)) := by
  refine ⟨?_, by simp, by simp⟩
  intro row member secret stored
  rw [migrated row member] at stored
  cases stored

/-- An event that put nothing into the tables. -/
theorem not_inserted {event : ServerEvent monthAfter} {eoaAddr secret : String}
    (same : event.after.db.secrets = event.before.db.secrets) :
    ¬Inserted event eoaAddr secret := by
  rintro ⟨_, grown⟩
  rw [same] at grown
  exact absurd (congrArg List.length grown) (by simp)

theorem Inserted.unique {event : ServerEvent monthAfter} {eoaAddr secret otherAddr other : String}
    (inserted : Inserted event eoaAddr secret) (again : Inserted event otherAddr other) :
    eoaAddr = otherAddr ∧ secret = other := by
  have same := inserted.2.symm.trans again.2
  simp only [List.cons.injEq, SecretRow.mk.injEq, Option.some.injEq] at same
  exact ⟨same.1.1, same.1.2.1⟩

/-- An event leaves both tables, or inserts a secret and, if it has one, a nonce that was not
there. -/
theorem inserted_or_kept {event : ServerEvent monthAfter}
    (tables : TableStep monthAfter event.before event.after event.entry.op) :
    (event.after.db.secrets = event.before.db.secrets ∧
        event.after.db.nonces = event.before.db.nonces) ∨
      ∃ eoaAddr secret, Inserted event eoaAddr secret ∧
        (∀ row ∈ event.before.db.nonces, row ∈ event.after.db.nonces) ∧
        ∀ nonce, event.entry.op = .insertNonceSecret eoaAddr secret nonce →
          ⟨eoaAddr, nonce⟩ ∉ event.before.db.nonces ∧ ⟨eoaAddr, nonce⟩ ∈ event.after.db.nonces := by
  unfold Inserted
  generalize event.entry.op = op at tables ⊢
  cases tables with
  | kept secrets nonces _ => exact .inl ⟨secrets, nonces⟩
  | tracked secrets nonces _ => exact .inl ⟨secrets, nonces⟩
  | @created eoaAddr secret secrets nonces _ =>
      refine .inr ⟨eoaAddr, secret, ⟨.inl rfl, secrets⟩, ?_, ?_⟩
      · simp [nonces]
      · rintro nonce ⟨⟩
  | @requested eoaAddr secret nonce fresh secrets nonces _ =>
      refine .inr ⟨eoaAddr, secret, ⟨.inr ⟨nonce, rfl⟩, secrets⟩, ?_, ?_⟩
      · simp +contextual [nonces]
      · rintro _ ⟨⟩
        exact ⟨fresh, by simp [nonces]⟩

theorem Ledger.step {event : ServerEvent monthAfter} {older : List (ServerEvent monthAfter)}
    (tables : TableStep monthAfter event.before event.after event.entry.op)
    (ledger : Ledger event.before older) : Ledger event.after (event :: older) := by
  rcases inserted_or_kept tables with ⟨secrets, nonces⟩ | ⟨eoaAddr, secret, grown, more, paired⟩
  · refine ⟨?_, ?_, ?_⟩
    · intro row member secret stored
      rw [secrets] at member
      rcases ledger.inserted row member secret stored with ⟨earlier, recorded, source⟩
      exact ⟨earlier, List.mem_cons_of_mem _ recorded, source⟩
    · intro other member eoaAddr secret inserted
      rw [secrets]
      rcases List.mem_cons.mp member with rfl | earlier
      · exact absurd inserted (not_inserted secrets)
      · exact ledger.secrets other earlier eoaAddr secret inserted
    · intro other member eoaAddr secret nonce performed inserted
      rw [nonces]
      rcases List.mem_cons.mp member with rfl | earlier
      · exact absurd inserted (not_inserted secrets)
      · exact ledger.nonces other earlier eoaAddr secret nonce performed inserted
  · refine ⟨?_, ?_, ?_⟩
    · intro row member other stored
      rw [grown.2] at member
      rcases List.mem_cons.mp member with rfl | before
      · cases stored
        exact ⟨event, List.mem_cons_self, grown, rfl⟩
      · rcases ledger.inserted row before other stored with ⟨earlier, recorded, source⟩
        exact ⟨earlier, List.mem_cons_of_mem _ recorded, source⟩
    · intro other member otherAddr otherSecret inserted
      rcases List.mem_cons.mp member with rfl | earlier
      · rw [inserted.2]
        exact List.mem_cons_self
      · rw [grown.2]
        exact List.mem_cons_of_mem _ (ledger.secrets other earlier _ _ inserted)
    · intro other member otherAddr otherSecret nonce performed inserted
      rcases List.mem_cons.mp member with rfl | earlier
      · rcases grown.unique inserted with ⟨rfl, rfl⟩
        exact (paired nonce performed).2
      · exact more _ (ledger.nonces other earlier _ _ nonce performed inserted)

/-- The tables and the events agree at every point of a run. -/
theorem ledger {allow : ServerConfig monthAfter → ℕ → Op → Prop} {config : ServerConfig monthAfter}
    (reached : Reachable (serveHTTP env r) Migrated allow config) :
    Ledger config.state config.history ∧
      ∀ {event older}, event :: older <:+ config.history →
        event.Proper (serveHTTP env r) older ∧ Ledger event.before older :=
  reached.invariant Ledger Ledger.start (fun _ kept => ⟨kept.1, kept.2, kept.3⟩)
    fun proper kept => kept.step (tables_of_proper proper)

theorem performs_of_proper {event : ServerEvent monthAfter} {older : List (ServerEvent monthAfter)}
    (proper : event.Proper (serveHTTP env r) older) :
    event.job.Performs env r event.past event.entry.op :=
  proper.good (does_serveHTTP event.job)

/-- A count above zero has a row. -/
theorem row_of_count {event : ServerEvent monthAfter} {older : List (ServerEvent monthAfter)}
    {eoaAddr secret : String} {count : ℕ} (proper : event.Proper (serveHTTP env r) older)
    (counted : event.entry = ⟨.countSecrets eoaAddr secret, .ok count⟩) (positive : 0 < count) :
    ∃ row ∈ event.before.db.secrets, row.eoaAddr = eoaAddr ∧ row.secret = some secret := by
  rcases proper.answered with ⟨choice, answered⟩
  rw [counted] at answered
  have result : query (event.before.db.secrets.countP fun row =>
      row.eoaAddr = eoaAddr ∧ row.secret = some secret) choice = .ok count :=
    congrArg Prod.fst answered
  have rows : event.before.db.secrets.countP (fun row =>
      row.eoaAddr = eoaAddr ∧ row.secret = some secret) = count := by
    cases choice <;> cases result <;> rfl
  rw [← rows, List.countP_pos_iff] at positive
  rcases positive with ⟨row, member, found⟩
  exact ⟨row, member, of_decide_eq_true found⟩

section Reached

variable {allow : ServerConfig monthAfter → ℕ → Op → Prop} {config : ServerConfig monthAfter}

/-- A request is served as an address only with a secret that was inserted for it before. -/
theorem served_with_secret (reached : Reachable (serveHTTP env r) Migrated allow config)
    {event : ServerEvent monthAfter} {older : List (ServerEvent monthAfter)} {ctx : Context}
    {eoa : Address} (suffix : event :: older <:+ config.history)
    (handled : event.entry.op = .handle ctx) (authed : ctx.authed = true)
    (named : ctx.eoa = some eoa) :
    ∃ bearer, event.job.BearerOf eoa bearer ∧
      ∃ earlier ∈ older, Inserted earlier (lowerAddr eoa) (toLower bearer) := by
  have proper := reached.proper suffix
  have performs := performs_of_proper proper
  rw [handled] at performs
  rcases performs authed with ⟨other, bearer, count, same, header, positive, last⟩
  cases named.symm.trans same
  have done := List.mem_of_head? last
  rcases proper.recorded _ done with ⟨counting, recorded, _, _, counted⟩
  rcases exists_suffix_of_older suffix recorded with ⟨before, place, among⟩
  have earlier := (ledger reached).2 place
  rcases row_of_count earlier.1 counted positive with ⟨row, member, addr, secret⟩
  rcases earlier.2.inserted row member _ secret with ⟨inserting, first, inserted, _⟩
  rw [addr] at inserted
  exact ⟨bearer, header, inserting, among _ first, inserted⟩

/-- A secret is inserted for an address by a mutation that creates its account, or asks for the
secret with a signature of the address, and is no dry run. -/
theorem authorised_insertion (reached : Reachable (serveHTTP env r) Migrated allow config)
    {event : ServerEvent monthAfter} {older : List (ServerEvent monthAfter)} {eoa : Address}
    {secret : String} (suffix : event :: older <:+ config.history)
    (inserted : Inserted event (lowerAddr eoa) secret) :
    ∃ mutation ∈ event.job.mutations,
      mutation.CreatesFor eoa ∨ ∃ nonce, mutation.RequestsFor env r eoa nonce := by
  have performs := performs_of_proper (reached.proper suffix)
  rcases inserted.1 with creating | ⟨nonce, requesting⟩
  · rw [creating] at performs
    rcases performs with harmless | ⟨mutation, member, _, _, other, same, creates⟩
    · exact absurd harmless Bool.false_ne_true
    · cases lowerAddr_injective same
      exact ⟨mutation, member, .inl creates⟩
  · rw [requesting] at performs
    rcases performs with harmless | ⟨mutation, member, _, _, other, same, requests⟩
    · exact absurd harmless Bool.false_ne_true
    · cases lowerAddr_injective same
      exact ⟨mutation, member, .inr ⟨nonce, requests⟩⟩

/-- Session secrets are obtained and used by their owner. A request is served as an address only
with a secret that a request that was no dry run inserted for the address before. A secret that
was asked for with a signature was signed for by the address, and each nonce of an address gives
at most one, since the nonce and the secret are inserted together or not at all. -/
theorem sessions_belong_to_owner (reached : Reachable (serveHTTP env r) Migrated allow config) :
    (∀ event older ctx eoa, event :: older <:+ config.history → event.entry.op = .handle ctx →
      ctx.authed = true → ctx.eoa = some eoa →
        ∃ bearer, event.job.BearerOf eoa bearer ∧
          ∃ earlier ∈ older, Inserted earlier (lowerAddr eoa) (toLower bearer) ∧
            ∃ mutation ∈ earlier.job.mutations,
              mutation.CreatesFor eoa ∨ ∃ nonce, mutation.RequestsFor env r eoa nonce) ∧
      (∀ event ∈ config.history, ∀ eoaAddr secret nonce,
        event.entry.op = .insertNonceSecret eoaAddr secret nonce →
          (∃ eoa, eoaAddr = lowerAddr eoa ∧
            ∃ mutation ∈ event.job.mutations, mutation.RequestsFor env r eoa nonce) ∧
          (Inserted event eoaAddr secret ∧
              event.after.db.nonces = ⟨eoaAddr, nonce⟩ :: event.before.db.nonces ∨
            event.after.db.secrets = event.before.db.secrets ∧
              event.after.db.nonces = event.before.db.nonces)) ∧
      (∀ event older, event :: older <:+ config.history → ∀ earlier ∈ older,
        ∀ eoaAddr secret other nonce,
          event.entry.op = .insertNonceSecret eoaAddr secret nonce →
          earlier.entry.op = .insertNonceSecret eoaAddr other nonce →
            ¬(Inserted event eoaAddr secret ∧ Inserted earlier eoaAddr other)) ∧
      ∀ validUntil eoaAddr secret nonce db err,
        accountsInsertNonceSecret3 validUntil eoaAddr secret nonce db = .error err →
          (accountsInsertNonceSecret3 validUntil eoaAddr secret nonce).execute db =
            (.error err, db) := by
  refine ⟨?_, ?_, ?_, ?_⟩
  · intro event older ctx eoa suffix handled authed named
    rcases served_with_secret reached suffix handled authed named with
      ⟨bearer, header, earlier, recorded, inserted⟩
    refine ⟨bearer, header, earlier, recorded, inserted, ?_⟩
    rcases exists_suffix_of_older suffix recorded with ⟨before, whole, _⟩
    exact authorised_insertion reached whole inserted
  · intro event recorded eoaAddr secret nonce requesting
    rcases exists_suffix_of_mem recorded with ⟨older, suffix, _⟩
    have proper := reached.proper suffix
    have performs := performs_of_proper proper
    have tables := tables_of_proper proper
    refine ⟨?_, ?_⟩
    · rw [requesting] at performs
      rcases performs with harmless | ⟨mutation, member, _, _, eoa, same, requests⟩
      · exact absurd harmless Bool.false_ne_true
      · exact ⟨eoa, same, mutation, member, requests⟩
    · rw [requesting] at tables
      cases tables with
      | kept secrets nonces _ => exact .inr ⟨secrets, nonces⟩
      | requested _ secrets nonces _ => exact .inl ⟨⟨.inr ⟨nonce, requesting⟩, secrets⟩, nonces⟩
  · rintro event older suffix earlier recorded eoaAddr secret other nonce requesting before
      ⟨inserted, first⟩
    rcases (ledger reached).2 suffix with ⟨proper, books⟩
    have used := books.nonces earlier recorded eoaAddr other nonce before first
    have tables := tables_of_proper proper
    rw [requesting] at tables
    cases tables with
    | kept secrets _ _ => exact not_inserted secrets inserted
    | requested fresh _ _ _ => exact fresh used
  · intro validUntil eoaAddr secret nonce db err failed
    simp only [Transaction.execute, failed]

end Reached

end Runs

/-! ### Known answers: the owner 0x9d8a.. asks for a secret and uses it -/

namespace Known

def owner : Address :=
  Bytes.ofNat 20 0x9d8a62f656a8d1615c1294fd71e9cfb3e4855a4f

/-- The digest the owner signs for the nonce 7, and the signature. -/
def ownerDigest : Bytes 32 :=
  Bytes.ofNat 32 0x250469a0f9686c56411ff10b8959f9d6caab2b5111b141feb2fbb52555803aa0

def ownerSig : Bytes 65 :=
  Bytes.ofNat 65 0xe9351ec7aa194534a5f1f51aaaf61e52065784ae4620cebe790bfd3feca6cd9255607e8fd0fc2f329b6b930b2ed39cc62c016a63e145aee55a51883729dc02ac00

/-- The libraries on the inputs of the run below. -/
def env : Env KnownAsset where
  usdc := .usdc
  sum512 _ := Bytes.ofNat 64 0
  progDalek _ := .error ("", "exit status 1")
  keccak256 preimage :=
    if preimage = secretPreimage knownKey 7 then ownerDigest else Bytes.ofNat 32 0
  sigToAddr digest sig :=
    if digest = ownerDigest ∧ sig = ownerSig then .ok owner else .error "recovery failed"
  hexToECDSA _ := .error "invalid length, need 256 bits"
  keyAddr _ := default
  signTx _ _ := .error "invalid chain id for signer"
  txHash _ := default
  addrString := lowerAddr
  freshString _ := ""
  thirtyPercent gas := gas * 3 / 10

def resolver : Resolver where
  chainId := 55244
  minimumAmount := 0
  accountsFactoryAddr := Bytes.ofNat 20 0x4444444444444444444444444444444444444444
  claimantHelperAddr := Bytes.ofNat 20 0x3333333333333333333333333333333333333333
  safetyRouterAddr := Bytes.ofNat 20 0x6666666666666666666666666666666666666666
  accPubKey := knownKey
  urlAlarm := ""
  featureClaimDisabled := false
  featureMintDisabled := false
  featureCheckCode := false
  adminSecret := "admin"

/-- The runs are in November. -/
def monthAfter (time : Timestamp) : Timestamp :=
  time + 30 * 86400

/-- The tables after the migration, with a row of an account from before it. -/
def migrated : State where
  clock := 1700000000
  db :=
    { secrets := [⟨"0x1111111111111111111111111111111111111111", none, 1700000000⟩]
      nonces := []
      senderKeys := []
      executed := [] }
  accepted := []

def secret : Bytes 32 :=
  Bytes.ofNat 32 0xabababababababababababababababababababababababababababababababab

def asking : Request where
  method := "POST"
  authorization := ""
  mutations := [.requestSecret "0x9d8A62f656a8d1615C1294fd71e9CFb3E4855A4F" 7 27
    "e9351ec7aa194534a5f1f51aaaf61e52065784ae4620cebe790bfd3feca6cd92"
    "55607e8fd0fc2f329b6b930b2ed39cc62c016a63e145aee55a51883729dc02ac" none]

def bearer : String :=
  "ABABABABABABABABABABABABABABABABABABABABABABABABABABABABABABABAB"

def presenting : Request where
  method := "POST"
  authorization := "9d8A62f656a8d1615C1294fd71e9CFb3E4855A4F:" ++ bearer
  mutations := []

/-- The owner asks for a secret and uses it some seconds later. -/
def session (seconds : ℕ) : List (Label (world monthAfter) Request) :=
  [.arrive asking, .perform 0 .plain, .perform 0 (.random secret), .perform 0 .plain,
    .drift seconds, .arrive presenting, .perform 1 .plain, .perform 1 .plain]

def sessionRun (seconds : ℕ) : Option (ServerConfig monthAfter) :=
  Config.run (serveHTTP env resolver) ⟨migrated, [], []⟩ (session seconds)

theorem reached_of_sessionRun {seconds : ℕ} {config : ServerConfig monthAfter}
    (ran : sessionRun seconds = some config) :
    Reachable (serveHTTP env resolver) Migrated (fun _ _ _ => True) config :=
  .run (.start (by simp [Migrated, migrated])) ran

/-- The operation, the header, the clock and the secrets of the last event. -/
def lastEvent (config : ServerConfig monthAfter) :
    Option (Op × String × Timestamp × List SecretRow) :=
  config.history.head?.map fun event =>
    (event.entry.op, event.job.authorization, event.before.clock, event.before.db.secrets)

def authed : Op :=
  .handle { isAdmin := false, authed := true, eoa := some owner }

def row : SecretRow where
  eoaAddr := lowerAddr owner
  secret := some (toLower bearer)
  validUntil := 1702592000

def rows : List SecretRow :=
  [row, ⟨"0x1111111111111111111111111111111111111111", none, 1700000000⟩]

/-- How a session of 100 seconds and one of forty days end. -/
theorem sessionRun_ends :
    (sessionRun 100).bind lastEvent =
      some (authed, presenting.authorization, 1700000100, rows) ∧
    (sessionRun 100).map (fun config =>
      (config.history.length, config.history.all fun event =>
        1700000000 ≤ event.before.clock ∧ event.before.clock ≤ 1700000100)) = some (5, true) ∧
    (sessionRun (40 * 86400)).bind lastEvent =
      some (authed, presenting.authorization, 1703456000, rows) := by
  decide +kernel

/-- The last event of a session: the request is served as the owner. -/
theorem last_of_sessionRun {seconds : ℕ} {clock : Timestamp} {rows : List SecretRow}
    (last : (sessionRun seconds).bind lastEvent =
      some (authed, presenting.authorization, clock, rows)) :
    ∃ config event older, sessionRun seconds = some config ∧ config.history = event :: older ∧
      event.entry.op = authed ∧ event.job.authorization = presenting.authorization ∧
      event.before.clock = clock ∧ event.before.db.secrets = rows := by
  rcases Option.bind_eq_some_iff.mp last with ⟨config, ran, final⟩
  rcases Option.map_eq_some_iff.mp final with ⟨event, newest, same⟩
  rcases List.head?_eq_some_iff.mp newest with ⟨older, history⟩
  simp only [Prod.mk.injEq] at same
  exact ⟨config, event, older, ran, history, same⟩

theorem bearerOf_presenting {request : Request}
    (header : request.authorization = presenting.authorization) :
    request.BearerOf owner bearer := by
  refine ⟨"9d8A62f656a8d1615C1294fd71e9CFb3E4855A4F", ?_, by decide, by decide, ?_⟩
  · rw [header]
    decide +kernel
  · exact ⟨List.replicate 32 0xab, by decide +kernel⟩

end Known

theorem sessions_belong_to_owner_known :
    ∃ config event older, Known.sessionRun 100 = some config ∧
      config.history = event :: older ∧ event.entry.op = Known.authed ∧
      ∃ bearer, event.job.BearerOf Known.owner bearer ∧
        ∃ earlier ∈ older, Inserted earlier (lowerAddr Known.owner) (toLower bearer) := by
  rcases Known.last_of_sessionRun Known.sessionRun_ends.1 with
    ⟨config, event, older, ran, history, served, _⟩
  have owned := (sessions_belong_to_owner (Known.reached_of_sessionRun ran)).1 event older _ _
    (history ▸ List.suffix_rfl) served rfl rfl
  rcases owned with ⟨bearer, header, earlier, recorded, inserted, _⟩
  exact ⟨config, event, older, ran, history, served, bearer, header, earlier, recorded, inserted⟩

end Go

end SuperpositionAccounts
