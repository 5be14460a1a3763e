import SuperpositionAccounts.Server.MintPolicy

/-!
# The nonces of the sender keys

A transaction gets the number of its sender's accepted transactions as its nonce,
and is sent in a later operation. If the number is read while no transaction of
the sender waits to be sent, it stays right until then: in all runs in which this
is so the nonces of a sender are all different. Nothing in the server sees to it.
Two requests that select a key before either has updated the table get the same
one, and both may read the number before either has sent.
-/

namespace SuperpositionAccounts

namespace Go

open Threads

variable {monthAfter : Timestamp → Timestamp}

/-! ### One step -/

section Accepted

variable (state : State) (op : Op) (choice : Choice) (sender : Address)

/-- A transaction gets to the node or it does not, whatever is reported. -/
theorem answer_sendTransaction (signed : SignedTx) :
    (∃ err, answer monthAfter state (.sendTransaction signed) choice = (.error err, state)) ∨
      ∃ reply, answer monthAfter state (.sendTransaction signed) choice =
        (reply, { state with accepted := signed :: state.accepted }) := by
  cases choice with
  | unreached err => exact .inl ⟨err, rfl⟩
  | _ => exact .inr ⟨_, rfl⟩

theorem acceptedOf_cons (signed : SignedTx) :
    ({ state with accepted := signed :: state.accepted } : State).acceptedOf sender =
      state.acceptedOf sender + if signed.sender = sender then 1 else 0 := by
  simp [State.acceptedOf, List.countP_cons]

/-- An operation that sends nothing of the sender leaves its transactions. -/
theorem acceptedOf_answer
    (quiet : ∀ signed, op = .sendTransaction signed → signed.sender ≠ sender) :
    (answer monthAfter state op choice).2.acceptedOf sender = state.acceptedOf sender := by
  cases op with
  | sendTransaction signed =>
      rcases answer_sendTransaction state choice signed with ⟨_, lost⟩ | ⟨_, taken⟩
      · rw [lost]
      · rw [taken, acceptedOf_cons, if_neg (quiet signed rfl), Nat.add_zero]
  | _ => cases choice <;> rfl

theorem acceptedOf_le_answer :
    state.acceptedOf sender ≤ (answer monthAfter state op choice).2.acceptedOf sender := by
  cases op with
  | sendTransaction signed =>
      rcases answer_sendTransaction state choice signed with ⟨_, lost⟩ | ⟨_, taken⟩
      · rw [lost]
      · rw [taken, acceptedOf_cons]
        exact Nat.le_add_right _ _
  | _ => cases choice <;> exact le_rfl

theorem acceptedOf_sent {signed : SignedTx}
    (sent : (answer monthAfter state (.sendTransaction signed) choice).1 = .ok ()) :
    state.acceptedOf signed.sender <
      (answer monthAfter state (.sendTransaction signed) choice).2.acceptedOf signed.sender := by
  rcases answer_sendTransaction state choice signed with ⟨_, lost⟩ | ⟨_, taken⟩
  · rw [lost] at sent
    cases sent
  · rw [taken, acceptedOf_cons, if_pos rfl]
    exact Nat.lt_succ_self _

theorem nonce_of_answer {nonce : ℕ}
    (read : (answer monthAfter state (.pendingNonceAt sender) choice).1 = .ok nonce) :
    nonce = state.acceptedOf sender := by
  change query (state.acceptedOf sender) choice = .ok nonce at read
  cases choice with
  | unreached err | unacknowledged err => cases read
  | _ =>
      cases read
      rfl

end Accepted

/-- The transaction that a request is about to send. -/
def awaited (thread : Thread operations Request Fault Response) : Option SignedTx :=
  match thread.rest with
  | .perform (.sendTransaction signed) _ => some signed
  | _ => none

/-- The request of this number is about to send the transaction. -/
def Awaits (config : ServerConfig monthAfter) (index : ℕ) (signed : SignedTx) : Prop :=
  ∃ thread, config.threads[index]? = some thread ∧ awaited thread = some signed

/-- The number of a sender's transactions is read only while none of them waits to be sent. -/
def Orderly (config : ServerConfig monthAfter) (_ : ℕ) : Op → Prop
  | .pendingNonceAt sender =>
    ∀ thread ∈ config.threads, ∀ signed ∈ awaited thread, signed.sender ≠ sender
  | _ => True

instance (config : ServerConfig monthAfter) (index : ℕ) (op : Op) :
    Decidable (Orderly config index op) := by
  cases op <;> unfold Orderly <;> infer_instance

/-- The node took the transaction and the request reports it as sent. -/
def Sent (event : ServerEvent monthAfter) (signed : SignedTx) : Prop :=
  event.entry = ⟨.sendTransaction signed, .ok ()⟩

/-- The sender and the nonce, if the event is of this kind. -/
def sentNonce (event : ServerEvent monthAfter) : Option (Address × ℕ) :=
  match event.entry with
  | ⟨.sendTransaction signed, .ok ()⟩ => some (signed.sender, signed.tx.nonce)
  | _ => none

/-- The senders and the nonces of all transactions that were reported as sent. -/
def sentNonces (config : ServerConfig monthAfter) : List (Address × ℕ) :=
  config.history.filterMap sentNonce

theorem sent_of_sentNonce {event : ServerEvent monthAfter} {sender : Address} {nonce : ℕ}
    (known : sentNonce event = some (sender, nonce)) :
    ∃ signed, Sent event signed ∧ signed.sender = sender ∧ signed.tx.nonce = nonce := by
  unfold sentNonce at known
  split at known
  · rename_i signed taken
    cases known
    exact ⟨signed, taken, rfl, rfl⟩
  · cases known

section Runs

variable {Asset : Type} [AssetRegistry Asset] [Inhabited Asset] {env : Env Asset} {r : Resolver}
  {initial : State → Prop} {allow : ServerConfig monthAfter → ℕ → Op → Prop}
  {config : ServerConfig monthAfter}

/-- A request that is about to send has just read the nonce. -/
theorem nonce_just_read (reached : Reachable (serveHTTP env r) initial allow config) {index : ℕ}
    {thread : Thread operations Request Fault Response} {signed : SignedTx}
    (found : config.threads[index]? = some thread) (awaits : awaited thread = some signed) :
    thread.log.head? = some ⟨.pendingNonceAt signed.sender, .ok signed.tx.nonce⟩ := by
  rcases thread with ⟨request, log, rest⟩
  unfold awaited at awaits
  split at awaits
  · rename_i next stands
    cases awaits
    dsimp only at stands
    subst stands
    rcases reached.thread_good found (does_serveHTTP request) with harmless | ⟨_, _, _, _, performs⟩
    · exact absurd harmless Bool.false_ne_true
    · exact performs.1
  · cases awaits

/-- A new request is not about to send. -/
theorem awaits_of_arrive (reached : Reachable (serveHTTP env r) initial allow config)
    {request : Request} {index : ℕ} {signed : SignedTx}
    (awaits : Awaits (config.arrive (serveHTTP env r) request) index signed) :
    Awaits config index signed := by
  rcases awaits with ⟨thread, found, stands⟩
  rcases Config.thread_of_arrive found with old | rfl
  · exact ⟨thread, old, stands⟩
  · cases nonce_just_read (reached.arrive request) found stands

section Perform

variable {index : ℕ} {request : Request} {log : List (Entry operations)} {op : Op}
  {next : op.Result → Proc operations Fault Response}
  (reached : Reachable (serveHTTP env r) initial allow config)
  (stands : config.threads[index]? = some ⟨request, log, .perform op next⟩)
  (allowed : allow config index op) (choice : Choice)

include reached stands allowed

/-- A request comes to be about to send only by reading the number of its sender's
transactions. -/
theorem awaits_of_perform {other : ℕ} {signed : SignedTx}
    (awaits : Awaits (config.perform index request log op next choice) other signed) :
    other ≠ index ∧ Awaits config other signed ∨
      other = index ∧ op = .pendingNonceAt signed.sender ∧
        signed.tx.nonce = config.state.acceptedOf signed.sender := by
  rcases awaits with ⟨thread, found, waits⟩
  rcases Config.thread_of_perform found with ⟨different, old⟩ | ⟨same, rfl⟩
  · exact .inl ⟨different, thread, old, waits⟩
  · have last := nonce_just_read (reached.perform stands allowed choice) found waits
    simp only [List.head?_cons, Option.some.injEq, Entry.mk.injEq] at last
    rcases last with ⟨rfl, answered⟩
    exact .inr ⟨same, rfl, nonce_of_answer _ _ _ (eq_of_heq answered)⟩

end Perform

/-- The books on the transactions of each sender. -/
structure Sequenced (config : ServerConfig monthAfter) : Prop where
  next : ∀ {index signed}, Awaits config index signed →
    signed.tx.nonce = config.state.acceptedOf signed.sender
  alone : ∀ {index other signed rival}, Awaits config index signed → Awaits config other rival →
    signed.sender = rival.sender → index = other
  used : ∀ {event signed}, event ∈ config.history → Sent event signed →
    signed.tx.nonce < config.state.acceptedOf signed.sender
  distinct : config.history.Pairwise fun event earlier => ∀ {signed rival}, Sent event signed →
    Sent earlier rival → signed.sender = rival.sender → signed.tx.nonce ≠ rival.tx.nonce

theorem Sequenced.arrive (books : Sequenced config)
    (reached : Reachable (serveHTTP env r) initial allow config) (request : Request) :
    Sequenced (config.arrive (serveHTTP env r) request) where
  next awaits := books.next (awaits_of_arrive reached awaits)
  alone awaits against := books.alone (awaits_of_arrive reached awaits)
    (awaits_of_arrive reached against)
  used := books.used
  distinct := books.distinct

theorem awaits_sendTransaction {index : ℕ} {request : Request} {log : List (Entry operations)}
    {signed : SignedTx} {next : Except String Unit → Proc operations Fault Response}
    (stands : config.threads[index]? =
      some ⟨request, log, .perform (.sendTransaction signed) next⟩) :
    Awaits config index signed :=
  ⟨_, stands, rfl⟩

/-- A transaction that is sent had the next nonce of its sender, which is used from now on. -/
theorem Sequenced.sent_now (books : Sequenced config) {index : ℕ} {request : Request}
    {log : List (Entry operations)} {op : Op} {next : op.Result → Proc operations Fault Response}
    (stands : config.threads[index]? = some ⟨request, log, .perform op next⟩) {choice : Choice}
    {signed : SignedTx}
    (sent : (⟨op, (answer monthAfter config.state op choice).1⟩ : Entry operations) =
      ⟨.sendTransaction signed, .ok ()⟩) :
    signed.tx.nonce = config.state.acceptedOf signed.sender ∧
      config.state.acceptedOf signed.sender <
        (answer monthAfter config.state op choice).2.acceptedOf signed.sender := by
  simp only [Entry.mk.injEq] at sent
  rcases sent with ⟨rfl, taken⟩
  exact ⟨books.next (awaits_sendTransaction stands), acceptedOf_sent _ _ (eq_of_heq taken)⟩

theorem Sequenced.perform (books : Sequenced config) {index : ℕ} {request : Request}
    {log : List (Entry operations)} {op : Op} {next : op.Result → Proc operations Fault Response}
    (reached : Reachable (serveHTTP env r) initial Orderly config)
    (stands : config.threads[index]? = some ⟨request, log, .perform op next⟩)
    (allowed : Orderly config index op) (choice : Choice) :
    Sequenced (config.perform index request log op next choice) where
  next awaits := by
    rename_i other signed
    rcases awaits_of_perform reached stands allowed choice awaits with
      ⟨different, waits⟩ | ⟨_, rfl, right⟩
    · -- nothing of this sender was sent, since one request at most is about to
      refine (books.next waits).trans (acceptedOf_answer _ _ _ _ ?_).symm
      rintro sent rfl same
      exact different (books.alone waits (awaits_sendTransaction stands) same.symm)
    · exact right
  alone awaits against same := by
    rename_i first second signed rival
    rcases awaits_of_perform reached stands allowed choice awaits with
      ⟨_, waits⟩ | ⟨here, read, _⟩ <;>
    rcases awaits_of_perform reached stands allowed choice against with
      ⟨_, other⟩ | ⟨there, asked, _⟩
    · exact books.alone waits other same
    · subst asked
      rcases waits with ⟨thread, found, about⟩
      exact absurd same (allowed thread (List.mem_of_getElem? found) signed about)
    · subst read
      rcases other with ⟨thread, found, about⟩
      exact absurd same.symm (allowed thread (List.mem_of_getElem? found) rival about)
    · exact here.trans there.symm
  used recorded sent := by
    rename_i event signed
    rcases List.mem_cons.mp recorded with rfl | older
    · rcases books.sent_now stands sent with ⟨right, more⟩
      exact right ▸ more
    · exact Nat.lt_of_lt_of_le (books.used older sent) (acceptedOf_le_answer _ _ _ _)
  distinct := by
    refine List.pairwise_cons.mpr ⟨?_, books.distinct⟩
    intro earlier recorded signed rival sent before same
    rw [(books.sent_now stands sent).1, same]
    exact Nat.ne_of_gt (books.used recorded before)

theorem sequenced (reached : Reachable (serveHTTP env r) initial Orderly config) :
    Sequenced config := by
  induction reached with
  | start _ =>
      refine ⟨?_, ?_, ?_, .nil⟩
      · rintro index signed ⟨thread, found, _⟩
        simp at found
      · rintro index other signed rival ⟨thread, found, _⟩
        simp at found
      · intro event signed recorded
        simp at recorded
  | arrive reached request books => exact books.arrive reached request
  | drift _ _ books => exact ⟨books.next, books.alone, books.used, books.distinct⟩
  | perform reached stands allowed choice books =>
      exact books.perform reached stands allowed choice

/-- If the number of a sender's transactions is never read while one of them waits to be sent, no
two transactions that are reported as sent have both the same sender and the same nonce. -/
theorem sent_nonces_distinct (reached : Reachable (serveHTTP env r) initial Orderly config) :
    (sentNonces config).Nodup := by
  refine (sequenced reached).distinct.filterMap _ ?_
  rintro event earlier distinct ⟨sender, nonce⟩ sent pair first rfl
  rcases sent_of_sentNonce sent with ⟨signed, taken, ofSender, ofNonce⟩
  rcases sent_of_sentNonce first with ⟨rival, before, rivalSender, rivalNonce⟩
  exact distinct taken before (ofSender.trans rivalSender.symm) (ofNonce.trans rivalNonce.symm)

end Runs

/-! ### Known answers: two requests and two sender keys -/

namespace Known

/-- The signatures of the transactions of the runs below, with the first key. -/
def sendersEnv : Env KnownAsset :=
  { mintEnv with
    signTx := fun _ tx => .ok (if tx.gasTipCap = 1 then
        Bytes.ofNat 65 0x6a42804481e0c47081fde4fa769d4519594fe946491b75c9f74e7204d5020a350b8c793761b3e406e3781f15f0d38e6933d2618d8bce7cf3a4328aa6e74deaa201
      else if tx.nonce = 0 then
        Bytes.ofNat 65 0x23432b021e555e911ad82d4b697f42a0a048d1886acc0f3be4787759b848ef0132b8eb8b857bc3fa11deade8376240bc7c4666bfeec303ac60d22d21e9a11f4b01
      else
        Bytes.ofNat 65 0xf46659b442129538705acab47f426c14240d4373c17fbe7bfe6794e86ef78ffb2174324fb46aa76e368ff1092f7178c6e3b1b75307c89e22ff24a4af15c2a24b00) }

/-- The tables with two sender keys that were never used. -/
def twoKeys : State :=
  { migrated with
    db := { migrated.db with
      senderKeys := [⟨1, senderKeyText, none⟩,
        ⟨2, "4747474747474747474747474747474747474747474747474747474747474747", none⟩] } }

def creatingFor (eoaAddr : String) : Request where
  method := "POST"
  authorization := ""
  mutations := [.createAccountExec { creation with eoaAddr } none none]

/-- Two requests arrive and select a key before either has updated the table, then prepare their
transactions. The fees have risen when the second asks for them. -/
def prepared : List (Label (world monthAfter) Request) :=
  [.arrive (creatingFor "0x2222222222222222222222222222222222222222"),
    .arrive (creatingFor "0x3333333333333333333333333333333333333333"),
    .perform 0 .plain, .perform 1 .plain, .perform 0 .plain, .perform 1 .plain,
    .perform 0 .plain, .perform 1 .plain,
    .perform 0 (.number 200000), .perform 0 (.number 100000000), .perform 0 (.number 1),
    .perform 1 (.number 200000), .perform 1 (.number 120000000), .perform 1 (.number 2)]

end Known

/-- What is sent if both read the nonce first, and if one sends after the other. -/
theorem sentNonces_prepared :
    ((Config.run (serveHTTP Known.sendersEnv Known.resolver) ⟨Known.twoKeys, [], []⟩
        (Known.prepared ++ [.perform 0 .plain, .perform 1 .plain, .perform 0 .plain,
          .perform 1 .plain]) : Option (ServerConfig Known.monthAfter)).map sentNonces) =
      some [(Known.owner, 0), (Known.owner, 0)] ∧
    ((Config.checkedRun Orderly (serveHTTP Known.sendersEnv Known.resolver)
        ⟨Known.twoKeys, [], []⟩ (Known.prepared ++ [.perform 0 .plain, .perform 0 .plain,
          .perform 1 .plain, .perform 1 .plain]) :
            Option (ServerConfig Known.monthAfter)).map sentNonces) =
      some [(Known.owner, 1), (Known.owner, 0)] := by
  decide +kernel

/-- Both requests read the nonce before either has sent: the second transaction replaces the
first. -/
theorem nonce_sent_twice :
    ((Config.run (serveHTTP Known.sendersEnv Known.resolver) ⟨Known.twoKeys, [], []⟩
        (Known.prepared ++ [.perform 0 .plain, .perform 1 .plain, .perform 0 .plain,
          .perform 1 .plain]) : Option (ServerConfig Known.monthAfter)).map sentNonces) =
      some [(Known.owner, 0), (Known.owner, 0)] :=
  sentNonces_prepared.1

/-- One sends after the other. -/
theorem sent_nonces_distinct_known :
    ∃ config : ServerConfig Known.monthAfter,
      Config.checkedRun Orderly (serveHTTP Known.sendersEnv Known.resolver)
          ⟨Known.twoKeys, [], []⟩ (Known.prepared ++ [.perform 0 .plain, .perform 0 .plain,
            .perform 1 .plain, .perform 1 .plain]) = some config ∧
        sentNonces config = [(Known.owner, 1), (Known.owner, 0)] ∧ (sentNonces config).Nodup := by
  rcases Option.map_eq_some_iff.mp sentNonces_prepared.2 with ⟨config, computed, nonces⟩
  have start : Reachable (serveHTTP Known.sendersEnv Known.resolver) (fun _ => True) Orderly
      (⟨Known.twoKeys, [], []⟩ : ServerConfig Known.monthAfter) := .start trivial
  exact ⟨config, computed, nonces, sent_nonces_distinct (start.checkedRun _ computed)⟩

end Go

end SuperpositionAccounts
