import SuperpositionAccounts.Server.Convertor
import SuperpositionAccounts.Threads.Pool

/-!
# What the server works on

A request of the server makes statements to the database and calls to a node of
the chain. This file gives these operations and what they do: the tables of
`db/migrations`, with the functions written in them, and the transactions the
node accepted.

A statement of the database runs as one transaction: it takes effect as a whole
or not at all. The server may see an error without any effect, or with the whole
effect if the connection breaks before the reply. `accounts_get_private_key_2`
is the exception: its update does not run its subquery again when it had to wait
for a row, so the subquery and the update are two operations. The node accepts
or refuses transactions as it likes.
-/

namespace SuperpositionAccounts

namespace Go

open Threads

/-! ### The database -/

/-- Seconds since some beginning. -/
abbrev Timestamp := ℕ

/-- A row of `accounts_secrets_2`. The secret is null in the rows that were migrated. -/
structure SecretRow where
  eoaAddr : String
  secret : Option String
  validUntil : Timestamp
deriving DecidableEq

/-- A row of `accounts_secrets_nonces_2`. -/
structure NonceRow where
  eoaAddr : String
  nonce : Int32
deriving DecidableEq

/-- A row of `accounts_sender_keys_1`. -/
structure KeyRow where
  id : ℕ
  privateKey : String
  lastAccessed : Option Timestamp
deriving DecidableEq

/-- A row of `accounts_executed_transactions_2`. -/
structure ExecutedRow where
  createdAt : Timestamp
  eoaAddr : String
  transactionHash : String
  gasLimit : UInt64
  desc : String
deriving DecidableEq

structure Db where
  secrets : List SecretRow
  nonces : List NonceRow
  senderKeys : List KeyRow
  executed : List ExecutedRow

/-- A transaction of the database: the tables it leaves, or why it is rolled back. -/
abbrev Transaction := Db → Except String Db

/-- Insert a secret; the expiry is the default of its column. -/
def insertIntoSecrets (validUntil : Timestamp) (eoaAddr secret : String) : Transaction := fun db =>
  .ok { db with secrets := ⟨eoaAddr, some secret, validUntil⟩ :: db.secrets }

/-- Insert a nonce; the pair of address and nonce is unique. -/
def insertIntoNonces (eoaAddr : String) (nonce : Int32) : Transaction := fun db =>
  if ⟨eoaAddr, nonce⟩ ∈ db.nonces then
    .error "pq: duplicate key value violates unique constraint"
  else
    .ok { db with nonces := ⟨eoaAddr, nonce⟩ :: db.nonces }

def accountsInsertNonceSecret3 (validUntil : Timestamp) (eoaAddr secret : String) (nonce : Int32) :
    Transaction := fun db => do
  let db ← insertIntoNonces eoaAddr nonce db
  insertIntoSecrets validUntil eoaAddr secret db

/-- Insert an executed transaction; the column of the gas limit has 32 bits with a sign. -/
def insertIntoExecuted (createdAt : Timestamp) (eoaAddr transactionHash : String)
    (gasLimit : UInt64) (desc : String) : Transaction := fun db =>
  if 2 ^ 31 ≤ gasLimit.toNat then
    .error ("pq: value \"" ++ toString gasLimit.toNat ++ "\" is out of range for type integer")
  else
    .ok { db with
      executed := ⟨createdAt, eoaAddr, transactionHash, gasLimit, desc⟩ :: db.executed }

/-- Commit, or roll back. -/
def Transaction.execute (transaction : Transaction) (db : Db) : Except String Unit × Db :=
  match transaction db with
  | .ok db => (.ok (), db)
  | .error err => (.error err, db)

/-- The row was accessed no later than the other; rows that never were come first. -/
def KeyRow.first (row other : KeyRow) : Bool :=
  match row.lastAccessed, other.lastAccessed with
  | none, _ => true
  | some _, none => false
  | some mine, some theirs => mine ≤ theirs

/-- The rows that may be the first of `ORDER BY last_accessed ASC NULLS FIRST`. -/
def leastAccessed (rows : List KeyRow) : List KeyRow :=
  rows.filter fun row => rows.all row.first

/-- `SET last_accessed = now WHERE id = id`, with the private key of the row. -/
def updateAccessed (id : Option ℕ) (now : Timestamp) (rows : List KeyRow) :
    Option String × List KeyRow :=
  ((rows.find? fun row => some row.id = id).map KeyRow.privateKey,
    rows.map fun row => if some row.id = id then { row with lastAccessed := some now } else row)

/-! ### The chain -/

/-- A transaction as `client.Send` builds it. -/
structure Tx where
  chainId : ℕ
  nonce : ℕ
  gasFeeCap : ℕ
  gasTipCap : ℕ
  gas : UInt64
  value : ℕ
  data : List UInt8
  target : Address
deriving DecidableEq

/-- A signed transaction, with the address its signature recovers to. -/
structure SignedTx where
  tx : Tx
  sender : Address
  signature : Bytes 65
deriving DecidableEq

/-- The message of an estimate or a simulation. -/
structure CallMsg where
  caller : Address
  target : Address
  data : List UInt8
  value : ℕ
deriving DecidableEq

/-! ### Operations -/

/-- The values of a request's context that the resolvers read. -/
structure Context where
  isAdmin : Bool
  authed : Bool
  eoa : Option Address
deriving DecidableEq

/-- A request without any of them. -/
def Context.background : Context where
  isAdmin := false
  authed := false
  eoa := none

inductive Op where
  /-- The GraphQL handler takes over with this context. -/
  | handle (ctx : Context)
  | countSecrets (eoaAddr secret : String)
  | insertSecret (eoaAddr secret : String)
  | insertNonceSecret (eoaAddr secret : String) (nonce : Int32)
  | insertExecuted (eoaAddr transactionHash : String) (gasLimit : UInt64) (desc : String)
  /-- The subquery of `accounts_get_private_key_2`, at the start of its transaction. -/
  | selectKey
  /-- The update of `accounts_get_private_key_2` for the row and the time of its start. -/
  | updateKey (id : Option ℕ) (now : Timestamp)
  | randRead
  | postAlarm (text : String)
  | estimateGas (msg : CallMsg)
  | headerBaseFee
  | suggestGasTipCap
  | pendingNonceAt (sender : Address)
  | callContract (msg : CallMsg)
  | sendTransaction (signed : SignedTx)
  | codeAt (addr : Address)
deriving DecidableEq

@[reducible]
def Op.Result : Op → Type
  | .handle _ => Unit
  | .countSecrets _ _ => Except String ℕ
  | .insertSecret _ _ => Except String Unit
  | .insertNonceSecret _ _ _ => Except String Unit
  | .insertExecuted _ _ _ _ => Except String Unit
  | .selectKey => Except String (Option ℕ × Timestamp)
  | .updateKey _ _ => Except String (Option String)
  | .randRead => Bytes 32
  | .postAlarm _ => Bool
  | .estimateGas _ => Except String UInt64
  | .headerBaseFee => Except String ℕ
  | .suggestGasTipCap => Except String ℕ
  | .pendingNonceAt _ => Except String ℕ
  | .callContract _ => Except String (List UInt8)
  | .sendTransaction _ => Except String Unit
  | .codeAt _ => Except String (List UInt8)

@[reducible]
def operations : Interface where
  Op := Op
  Result := Op.Result

/-- The clock, the tables, and the transactions the node accepted. -/
structure State where
  clock : Timestamp
  db : Db
  accepted : List SignedTx

/-- How many transactions of the sender were accepted. -/
def State.acceptedOf (state : State) (sender : Address) : ℕ :=
  state.accepted.countP fun signed => signed.sender = sender

/-- What the state does not determine about an answer. -/
inductive Choice where
  | plain
  /-- The operation fails and has no effect. -/
  | unreached (err : String)
  /-- The operation takes effect and its reply is lost. -/
  | unacknowledged (err : String)
  | number (number : ℕ)
  | bytes (bytes : List UInt8)
  | random (bytes : Bytes 32)

/-- Execute a transaction of the database, with what may go wrong around it. -/
def execute (transaction : Transaction) (state : State) : Choice → Except String Unit × State
  | .unreached err => (.error err, state)
  | .unacknowledged err => (.error err, { state with db := (transaction.execute state.db).2 })
  | _ => ((transaction.execute state.db).1, { state with db := (transaction.execute state.db).2 })

/-- A query leaves the state as it is. -/
def query {α : Type} (value : α) : Choice → Except String α
  | .unreached err | .unacknowledged err => .error err
  | _ => .ok value

/-- The answer to an operation. The end of a month is computed by the database. -/
def answer (monthAfter : Timestamp → Timestamp) (state : State) :
    (op : Op) → Choice → op.Result × State
  | .handle _, _ => ((), state)
  | .countSecrets eoaAddr secret, choice =>
    (query (state.db.secrets.countP fun row => row.eoaAddr = eoaAddr ∧ row.secret = some secret)
      choice, state)
  | .insertSecret eoaAddr secret, choice =>
    execute (insertIntoSecrets (monthAfter state.clock) eoaAddr secret) state choice
  | .insertNonceSecret eoaAddr secret nonce, choice =>
    execute (accountsInsertNonceSecret3 (monthAfter state.clock) eoaAddr secret nonce) state choice
  | .insertExecuted eoaAddr transactionHash gasLimit desc, choice =>
    execute (insertIntoExecuted state.clock eoaAddr transactionHash gasLimit desc) state choice
  | .selectKey, choice =>
    -- rows that were accessed at the same time come in any order
    let candidates := leastAccessed state.db.senderKeys
    let place := match choice with
      | .number place => place
      | _ => 0
    (query ((candidates[place]?.or candidates.head?).map KeyRow.id, state.clock) choice, state)
  | .updateKey id now, choice =>
    let (privateKey, rows) := updateAccessed id now state.db.senderKeys
    match choice with
    | .unreached err => (.error err, state)
    | .unacknowledged err =>
      (.error err, { state with db := { state.db with senderKeys := rows } })
    | _ => (.ok privateKey, { state with db := { state.db with senderKeys := rows } })
  | .randRead, choice => (match choice with
    | .random bytes => bytes
    | _ => default, state)
  | .postAlarm _, choice => (match choice with
    | .unreached _ => false
    | _ => true, state)
  | .estimateGas _, choice => (match choice with
    | .number gas => .ok (UInt64.ofNat gas)
    | other => query 0 other, state)
  | .headerBaseFee, choice | .suggestGasTipCap, choice => (match choice with
    | .number fee => .ok fee
    | other => query 0 other, state)
  | .pendingNonceAt sender, choice => (query (state.acceptedOf sender) choice, state)
  | .callContract _, choice | .codeAt _, choice => (match choice with
    | .bytes bytes => .ok bytes
    | other => query [] other, state)
  | .sendTransaction signed, choice => match choice with
    | .unreached err => (.error err, state)
    | .unacknowledged err => (.error err, { state with accepted := signed :: state.accepted })
    | _ => (.ok (), { state with accepted := signed :: state.accepted })

/-- The shared state of the requests; the clock goes on between operations. -/
@[reducible]
def world (monthAfter : Timestamp → Timestamp) : World operations where
  State := State
  Choice := Choice
  Tick := ℕ
  answer := answer monthAfter
  drift state seconds := { state with clock := state.clock + seconds }

end Go

end SuperpositionAccounts
