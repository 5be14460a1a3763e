import SuperpositionAccounts.Server.Expiry
import SuperpositionAccounts.Server.Records

/-!
# What an answer tells a client

A client sees the answers to its mutations and nothing of what the server did for
them. Here the answers of a request are read back: each mutation did a part of
the operations of its request, and its answer says what that part holds. A hash
is the hash of the one transaction that the node acknowledged, a secret is in the
table, and an error means that the node acknowledged nothing, unless the secret
of a new account could not be stored. The secret of a dry run is in no table.

Nothing is ever deleted, so what an answer tells stays true. A client can use a
secret from then on, whatever the server does for others.
-/

namespace SuperpositionAccounts

namespace Go

open Threads Threads.Proc Result SuperpositionAccounts.Go.Action

/-! ### Acknowledged transactions -/

/-- The node acknowledged no transaction. -/
def Unsent (part : List (Entry operations)) : Prop :=
  part.countP sentIn = 0

/-- The node acknowledged one transaction, and it is this one. -/
def SentOnce (part : List (Entry operations)) (signed : SignedTx) : Prop :=
  ⟨.sendTransaction signed, .ok ()⟩ ∈ part ∧ part.countP sentIn = 1

section Acknowledged

variable {part : List (Entry operations)} {signed : SignedTx} {entry : Entry operations}

theorem unsent_nil : Unsent [] :=
  rfl

theorem Unsent.cons (unsent : Unsent part) (quiet : sentIn entry = false) :
    Unsent (entry :: part) := by
  unfold Unsent
  rw [List.countP_cons_of_neg (by simp [quiet])]
  exact unsent

theorem Unsent.sent (unsent : Unsent part) (signed : SignedTx) :
    SentOnce (⟨.sendTransaction signed, .ok ()⟩ :: part) signed := by
  refine ⟨List.mem_cons_self, ?_⟩
  rw [List.countP_cons_of_pos (by rfl)]
  exact congrArg Nat.succ unsent

theorem SentOnce.cons (sent : SentOnce part signed) (quiet : sentIn entry = false) :
    SentOnce (entry :: part) signed := by
  refine ⟨List.mem_cons_of_mem _ sent.1, ?_⟩
  rw [List.countP_cons_of_neg (by simp [quiet])]
  exact sent.2

end Acknowledged

/-! ### How an action settles -/

/-- Whatever the results of its operations are, the action ends as it should. -/
def Settles {α : Type} (settled : List (Entry operations) → Result α → Prop)
    (log : List (Entry operations)) (action : Action α) : Prop :=
  Obeys (fun _ _ => True) settled log action

section Rules

variable {α β : Type} {settled : List (Entry operations) → Result α → Prop}
  {log : List (Entry operations)}

theorem settles_pure {value : α} (holds : settled log (.ok value)) :
    Settles settled log (pure value) :=
  holds

theorem settles_fail {fault : Fault} (holds : settled log (.error fault)) :
    Settles settled log (.fail fault) :=
  holds

theorem settles_perform {op : Op} {after : op.Result → Action α}
    (continued : ∀ result, Settles settled (⟨op, result⟩ :: log) (after result)) :
    Settles settled log (perform op >>= after) :=
  ⟨trivial, continued⟩

/-- An operation that is not acknowledged as a transaction. -/
theorem settles_quiet {op : Op} {after : op.Result → Action α}
    (quiet : ∀ result, sentIn ⟨op, result⟩ = false) (unsent : Unsent log)
    (continued : ∀ result, Unsent (⟨op, result⟩ :: log) →
      Settles settled (⟨op, result⟩ :: log) (after result)) :
    Settles settled log (perform op >>= after) :=
  settles_perform fun result => continued result (unsent.cons (quiet result))

theorem settles_bind {first : Action β} {after : β → Action α}
    {middle : List (Entry operations) → Result β → Prop} (settles : Settles middle log first)
    (failed : ∀ log fault, middle log (.error fault) → settled log (.error fault))
    (continued : ∀ log value, middle log (.ok value) → Settles settled log (after value)) :
    Settles settled log (first >>= after) := by
  refine obeys_bind.mpr (Obeys.mono settles (fun _ _ _ => trivial) ?_)
  intro log outcome reached
  cases outcome with
  | ok value => exact continued log value reached
  | error fault => exact failed log fault reached

theorem settles_attempt {first : Action β} {after : Result β → Action α}
    {middle : List (Entry operations) → Result β → Prop} (settles : Settles middle log first)
    (continued : ∀ log outcome, middle log outcome → Settles settled log (after outcome)) :
    Settles settled log (attempt first >>= after) := by
  refine obeys_bind.mpr (obeys_attempt.mpr (Obeys.mono settles (fun _ _ _ => trivial) ?_))
  exact fun log outcome reached => continued log outcome reached

theorem settles_check {note : String} {result : Except String β} {after : β → Action α}
    (failed : ∀ fault, settled log (.error fault))
    (continued : ∀ value, result = .ok value → Settles settled log (after value)) :
    Settles settled log (check note result >>= after) := by
  cases result with
  | ok value => exact continued value rfl
  | error text => exact failed _

theorem settles_ofResult {result : Result β} {after : β → Action α}
    (failed : ∀ fault, settled log (.error fault))
    (continued : ∀ value, result = .ok value → Settles settled log (after value)) :
    Settles settled log (ofResult result >>= after) := by
  cases result with
  | ok value => exact continued value rfl
  | error fault => exact failed fault

theorem settles_guard {condition : Prop} [Decidable condition] {text : String}
    {after : Unit → Action α} (failed : ∀ fault, settled log (.error fault))
    (continued : ¬condition → Settles settled log (after ())) :
    Settles settled log (if condition then err text >>= after else after ()) := by
  split
  · exact failed _
  · rename_i passed
    exact continued passed

/-- Harmless operations send nothing, however they end. -/
theorem settles_harmless {action : Action α} {ensures : List (Entry operations) → α → Prop}
    (does : Does (fun _ op => op.harmless) ensures log action) (unsent : Unsent log) :
    Settles (fun log _ => Unsent log) log action := by
  refine Obeys.mono (Obeys.keeps does ?_ unsent) (fun _ _ _ => trivial) fun _ _ both => both.2
  intro log op result harmless unsent
  exact unsent.cons (sentIn_of_not_booked (Op.booked_of_harmless harmless) result)

end Rules

/-! ### What an answer tells -/

section Told

variable {Asset : Type} (env : Env Asset)

/-- The answer of a mint or a claim. -/
def SpendTold (dryrun : Option Bool) (part : List (Entry operations)) : Result Data → Prop
  | .ok data =>
    if isDryrun dryrun then Unsent part
    else ∃ signed, SentOnce part signed ∧ data = .text (hashHex (env.txHash signed))
  | .error _ => Unsent part

/-- The answer of a creation. The account is sent for before its secret is stored. -/
def CreationTold (eoaS : String) (dryrun : Option Bool) (part : List (Entry operations)) :
    Result Data → Prop
  | .ok data =>
    if isDryrun dryrun then Unsent part
    else ∃ signed secret, SentOnce part signed ∧ ⟨.insertSecret eoaS secret, .ok ()⟩ ∈ part ∧
      data = .created (hashHex (env.txHash signed)) secret
  | .error fault =>
    Unsent part ∨ ∃ signed secret text, SentOnce part signed ∧
      part.head? = some ⟨.insertSecret eoaS secret, .error text⟩ ∧
      fault = .err "error inserting secret"

/-- The answer of a request for a secret. -/
def SecretTold (eoaS : String) (nonce : Int32) (dryrun : Option Bool)
    (part : List (Entry operations)) : Result Data → Prop
  | .ok data =>
    Unsent part ∧ ∃ secret, data = .text secret ∧
      (isDryrun dryrun = false → ⟨.insertNonceSecret eoaS secret nonce, .ok ()⟩ ∈ part)
  | .error _ => Unsent part

/-- What the answer of a mutation tells about the operations that were performed for it. -/
def Mutation.Told (part : List (Entry operations)) : Mutation → Result Data → Prop
  | .createAccountExec createAccount _ dryrun =>
    CreationTold env (lowerAddr (hexToAddress createAccount.eoaAddr)) dryrun part
  | .requestSecret eoaAddr nonce _ _ _ dryrun =>
    SecretTold (lowerAddr (hexToAddress eoaAddr)) nonce dryrun part
  | .ninelivesMint _ dryrun | .claimRewards _ _ dryrun => SpendTold env dryrun part

variable {env} [AssetRegistry Asset] [Inhabited Asset] {r : Resolver}
  {log : List (Entry operations)}

/-- How sending settles. -/
def SendTold (dryrun : Bool) (log : List (Entry operations)) : Result (SignedTx × UInt64) → Prop
  | .ok (signed, _) => if dryrun then Unsent log else SentOnce log signed
  | .error _ => Unsent log

section Sending

variable {router : Address} {useSafetyRouter : Bool} {chainId : ℕ} {key : PrivateKey}
  {sender dest : Address} {dryrun : Bool}

omit [AssetRegistry Asset] [Inhabited Asset] in
theorem settles_send {b : List UInt8} {eth : Option ℕ} (unsent : Unsent log) :
    Settles (SendTold dryrun) log
      (send env router useSafetyRouter chainId key sender dest b eth dryrun) := by
  unfold send
  refine settles_quiet (fun _ => rfl) unsent fun _ unsent => ?_
  refine settles_check (fun _ => unsent) fun gasLimit _ => ?_
  refine settles_quiet (fun _ => rfl) unsent fun _ unsent => ?_
  refine settles_check (fun _ => unsent) fun baseFee _ => ?_
  refine settles_quiet (fun _ => rfl) unsent fun _ unsent => ?_
  refine settles_check (fun _ => unsent) fun gasTipCap _ => ?_
  refine settles_quiet (fun _ => rfl) unsent fun _ unsent => ?_
  refine settles_check (fun _ => unsent) fun nonce _ => ?_
  refine settles_check (fun _ => unsent) fun signature _ => ?_
  cases dryrun with
  | true =>
      rw [if_pos rfl]
      refine settles_quiet (fun _ => rfl) unsent fun _ unsent => ?_
      exact settles_check (fun _ => unsent) fun _ _ => settles_pure unsent
  | false =>
      rw [if_neg Bool.false_ne_true]
      refine settles_perform fun reply => ?_
      cases reply with
      | ok taken => exact settles_pure (unsent.sent _)
      | error text => exact settles_fail (unsent.cons rfl)

omit [Inhabited Asset] in
theorem settles_sendArguments {args : Args Asset} (unsent : Unsent log) :
    Settles (SendTold dryrun) log
      (sendArguments env router useSafetyRouter chainId key sender dest args dryrun) := by
  unfold sendArguments
  split
  · exact settles_fail unsent
  · exact settles_send unsent

end Sending

/-- The alarm may be posted before an error is returned. -/
theorem settles_alarm {settled : List (Entry operations) → Result Data → Prop}
    {ignored : Prop} [Decidable ignored] {url text final : String} (unsent : Unsent log)
    (failed : ∀ log fault, Unsent log → settled log (.error fault)) :
    Settles settled log
      (if ignored then activateSoftAlarm url text >>= fun _ => err final else err final) := by
  split
  · refine settles_bind (settles_harmless
      (does_activateSoftAlarm (fun _ _ harmless => harmless) url text) unsent) failed ?_
    exact fun log _ unsent => settles_fail (failed log _ unsent)
  · exact settles_fail (failed log _ unsent)

omit [AssetRegistry Asset] [Inhabited Asset] in
theorem settles_pickPrivateKey (unsent : Unsent log) (note : String) :
    Settles (fun log _ => Unsent log) log (orFatal note (pickPrivateKey env)) :=
  settles_harmless (does_orFatal (does_pickPrivateKey fun _ _ harmless => harmless)) unsent

theorem settles_executeCreation {createAccount : Model.CreateAccount} {f : FreshBackwards Asset}
    {dryrun : Option Bool} (unsent : Unsent log) :
    Settles (CreationTold env (lowerAddr (hexToAddress createAccount.eoaAddr)) dryrun) log
      (executeCreation env r (hexToAddress createAccount.eoaAddr) f dryrun) := by
  unfold executeCreation
  refine settles_bind (settles_pickPrivateKey unsent _) (fun _ _ => .inl) ?_
  rintro log ⟨key, sender⟩ unsent
  refine settles_attempt (settles_sendArguments unsent) fun log outcome told => ?_
  split
  · exact settles_alarm told fun _ _ => .inl
  · exact settles_fail (.inl told)
  · rename_i signed gasLimit
    refine settles_perform fun secret => ?_
    unfold SendTold at told
    cases dry : isDryrun dryrun with
    | true =>
        simp only [dry, if_true] at told
        refine settles_pure ?_
        simp only [CreationTold, dry, if_true]
        exact told.cons rfl
    | false =>
        simp only [dry, Bool.false_eq_true, if_false] at told
        refine settles_perform fun inserted => ?_
        cases inserted with
        | error text =>
            exact settles_fail (.inr ⟨signed, _, text, (told.cons rfl).cons rfl, rfl, rfl⟩)
        | ok _ =>
            refine settles_perform fun tracked => settles_pure ?_
            simp only [CreationTold, dry, Bool.false_eq_true, if_false]
            exact ⟨signed, _, ((told.cons rfl).cons rfl).cons rfl, by simp, rfl⟩

theorem settles_createAccountExec (createAccount : Model.CreateAccount)
    (mint : Option Model.Mint) (dryrun : Option Bool) (unsent : Unsent log) :
    Settles (CreationTold env (lowerAddr (hexToAddress createAccount.eoaAddr)) dryrun) log
      (createAccountExec env r createAccount mint dryrun) := by
  have failed (fault : Fault) : CreationTold env (lowerAddr (hexToAddress createAccount.eoaAddr))
      dryrun log (.error fault) := .inl unsent
  unfold createAccountExec
  refine settles_ofResult failed fun untagged _ => settles_guard failed fun _ => ?_
  cases mint with
  | none => exact settles_executeCreation unsent
  | some given =>
      exact settles_ofResult failed fun f _ => settles_executeCreation unsent

omit [AssetRegistry Asset] [Inhabited Asset] in
/-- After the arguments of a mint or a claim were sent, they are recorded and their hash is
returned. -/
theorem settles_tracked {dryrun : Option Bool} {signed : SignedTx} {gasLimit : UInt64}
    (told : SendTold (isDryrun dryrun) log (.ok (signed, gasLimit))) (eoaS desc : String) :
    Settles (SpendTold env dryrun) log (do
      if !isDryrun dryrun then
        trackTx eoaS (hashHex (env.txHash signed)) gasLimit desc
      return .text (hashHex (env.txHash signed))) := by
  unfold SendTold at told
  cases dry : isDryrun dryrun with
  | true =>
      simp only [dry, if_true] at told
      refine settles_pure ?_
      simp only [SpendTold, dry, if_true]
      exact told
  | false =>
      simp only [dry, Bool.false_eq_true, if_false] at told
      refine settles_perform fun tracked => settles_pure ?_
      simp only [SpendTold, dry, Bool.false_eq_true, if_false]
      exact ⟨signed, told.cons rfl, rfl⟩

theorem settles_ninelivesMint (ctx : Context) (mint : Model.Mint) (dryrun : Option Bool)
    (unsent : Unsent log) :
    Settles (SpendTold env dryrun) log (ninelivesMint env r ctx mint dryrun) := by
  unfold ninelivesMint
  refine settles_guard (fun _ => unsent) fun _ => ?_
  refine settles_bind (settles_harmless (does_checkMinimum mint.amount) unsent)
    (fun _ _ unsent => unsent) fun log _ unsent => ?_
  refine settles_guard (fun _ => unsent) fun _ => ?_
  split
  · exact settles_fail unsent
  · refine settles_bind (settles_pickPrivateKey unsent _) (fun _ _ unsent => unsent) ?_
    rintro log ⟨key, sender⟩ unsent
    dsimp only
    split
    · exact settles_alarm unsent fun _ _ unsent => unsent
    · exact settles_fail unsent
    · refine settles_check (fun _ => unsent) fun solveV2 _ => ?_
      refine settles_attempt (settles_sendArguments unsent) fun log outcome told => ?_
      split
      · exact settles_alarm told fun _ _ unsent => unsent
      · exact settles_fail told
      · exact settles_tracked told _ _

theorem settles_claimRewards (ctx : Context) (markets : Pools String) (msTs : String)
    (dryrun : Option Bool) (unsent : Unsent log) :
    Settles (SpendTold env dryrun) log (claimRewards env r ctx markets msTs dryrun) := by
  unfold claimRewards
  refine settles_guard (fun _ => unsent) fun _ => settles_guard (fun _ => unsent) fun _ => ?_
  split
  · exact settles_fail unsent
  · refine settles_bind (settles_pickPrivateKey unsent _) (fun _ _ unsent => unsent) ?_
    rintro log ⟨key, sender⟩ unsent
    refine settles_ofResult (fun _ => unsent) fun f _ => ?_
    refine settles_check (fun _ => unsent) fun solveV2 _ => ?_
    refine settles_attempt (settles_sendArguments unsent) fun log outcome told => ?_
    split
    · refine settles_bind (settles_harmless
        (does_activateSoftAlarm (fun _ _ harmless => harmless) _ _) told)
        (fun _ _ unsent => unsent) ?_
      exact fun _ _ unsent => settles_fail unsent
    · exact settles_fail told
    · exact settles_tracked told _ _

omit [AssetRegistry Asset] [Inhabited Asset] in
theorem settles_requestSecret (eoaAddr : String) (nonce sigV : Int32) (sigR sigS : String)
    (dryrun : Option Bool) (unsent : Unsent log) :
    Settles (SecretTold (lowerAddr (hexToAddress eoaAddr)) nonce dryrun) log
      (requestSecret env r eoaAddr nonce sigV sigR sigS dryrun) := by
  have failed (fault : Fault) : SecretTold (lowerAddr (hexToAddress eoaAddr)) nonce dryrun log
      (.error fault) := unsent
  unfold requestSecret
  refine settles_guard failed fun _ => settles_ofResult failed fun rBytes _ => ?_
  refine settles_ofResult failed fun sBytes _ => settles_guard failed fun _ => ?_
  refine settles_guard failed fun _ => settles_check failed fun recovered _ => ?_
  refine settles_guard failed fun _ => ?_
  refine settles_bind (settles_harmless (does_checkCode (fun _ _ harmless => harmless) _) unsent)
    (fun _ _ unsent => unsent) fun log _ unsent => ?_
  refine settles_perform fun secret => ?_
  cases dry : isDryrun dryrun with
  | true =>
      refine settles_pure ⟨unsent.cons rfl, _, rfl, ?_⟩
      rw [dry]
      nofun
  | false =>
      refine settles_perform fun inserted => ?_
      cases inserted with
      | error text => exact settles_fail ((unsent.cons rfl).cons rfl)
      | ok _ =>
          exact settles_pure ⟨(unsent.cons rfl).cons rfl, _, rfl, fun _ => List.mem_cons_self⟩

/-- Every answer tells what was done for it. -/
theorem settles_resolve (ctx : Context) (mutation : Mutation) (unsent : Unsent log) :
    Settles (fun part => mutation.Told env part) log (resolve env r ctx mutation) := by
  cases mutation with
  | createAccountExec createAccount mint dryrun =>
      exact settles_createAccountExec createAccount mint dryrun unsent
  | requestSecret eoaAddr nonce sigV sigR sigS dryrun =>
      exact settles_requestSecret eoaAddr nonce sigV sigR sigS dryrun unsent
  | ninelivesMint mint dryrun => exact settles_ninelivesMint ctx mint dryrun unsent
  | claimRewards markets msTs dryrun => exact settles_claimRewards ctx markets msTs dryrun unsent

end Told

/-! ### The parts of a request -/

section Requests

variable {Asset : Type} [AssetRegistry Asset] [Inhabited Asset] (env : Env Asset) (r : Resolver)

/-- The operations of a mutation that is served with this context. -/
def Mutation.Owns (ctx : Context) (mutation : Mutation) : Op → Prop
  | .handle _ | .countSecrets _ _ => False
  | .insertSecret eoaAddr _ => ∃ eoa, eoaAddr = lowerAddr eoa ∧ mutation.CreatesFor eoa
  | .insertNonceSecret eoaAddr _ nonce =>
    ∃ eoa, eoaAddr = lowerAddr eoa ∧ mutation.RequestsFor env r eoa nonce
  | .insertExecuted eoaAddr transactionHash gasLimit desc =>
    ∃ signed, mutation.SendsTx env r ctx signed ∧
      transactionHash = hashHex (env.txHash signed) ∧ gasLimit = signed.tx.gas ∧
      mutation.recordOf env ctx = some (eoaAddr, desc)
  | .sendTransaction signed => mutation.SendsTx env r ctx signed
  | _ => True

/-- The mutations did these steps one after another, newest first, and each was answered as its
part of them tells. -/
def ToldAll (ctx : Context) :
    List Mutation → List (Result Data) → List (Entry operations) → Prop
  | [], [], steps => steps = []
  | mutation :: mutations, outcome :: outcomes, steps =>
    ∃ part rest, steps = rest ++ part ∧ mutation.Told env part outcome ∧
      (∀ entry ∈ part, mutation.Owns env r ctx entry.op) ∧ ToldAll ctx mutations outcomes rest
  | _, _, _ => False

variable {env r} {log : List (Entry operations)}

theorem Mutation.owns_of_performs {ctx : Context} {mutation : Mutation} {op : Op}
    (performs : mutation.Performs env r ctx log op) (books : mutation.Books env r ctx log op) :
    mutation.Owns env r ctx op := by
  cases op with
  | insertExecuted eoaAddr transactionHash gasLimit desc =>
      rcases books with ⟨signed, _, sends, hash, gas, record⟩
      exact ⟨signed, sends, hash, gas, record⟩
  | sendTransaction signed => exact books
  | _ => exact performs

theorem told_resolve (ctx : Context) (mutation : Mutation) :
    Settles (fun part outcome => mutation.Told env part outcome ∧
      ∀ entry ∈ part, mutation.Owns env r ctx entry.op) [] (resolve env r ctx mutation) := by
  have performs : Does (mutation.Performs env r ctx) (fun _ _ => True) []
      (resolve env r ctx mutation) := does_resolve ctx mutation
  have books : Does (mutation.Books env r ctx) (fun _ _ => True) []
      (resolve env r ctx mutation) := does_resolve_booked ctx mutation (Nat.le_refl 0)
  have told : Settles (fun part => mutation.Told env part) [] (resolve env r ctx mutation) :=
    settles_resolve ctx mutation unsent_nil
  have settles := (Obeys.and performs books).and told
  refine Obeys.mono (Obeys.keeps settles ?_ nofun) (fun _ _ _ => trivial)
    fun _ _ both => ⟨both.1.2, both.2⟩
  rintro log op result ⟨⟨performs, books⟩, _⟩ owned entry member
  rcases List.mem_cons.mp member with rfl | older
  · exact Mutation.owns_of_performs performs books
  · exact owned entry older

theorem told_resolveAll (ctx : Context) (mutations : List Mutation)
    (earlier : List (Entry operations)) :
    Does (fun _ _ => True) (fun log outcomes => ∃ steps, log = steps ++ earlier ∧
      ToldAll env r ctx mutations outcomes steps) earlier (resolveAll env r ctx mutations) := by
  induction mutations generalizing earlier with
  | nil => exact does_pure ⟨[], rfl, rfl⟩
  | cons mutation mutations ih =>
      have first : Does (fun _ _ => True) (fun log outcome => ∃ part, log = part ++ earlier ∧
          mutation.Told env part outcome ∧ ∀ entry ∈ part, mutation.Owns env r ctx entry.op)
          earlier (attempt (resolve env r ctx mutation)) := by
        refine obeys_attempt.mpr (Obeys.mono (Obeys.after (told_resolve ctx mutation) earlier)
          (fun _ _ _ => trivial) ?_)
        rintro log outcome told _ ⟨⟩
        exact told
      refine does_bind first ?_
      rintro log outcome ⟨part, rfl, told, owned⟩
      split
      · exact does_fail _
      · refine does_bind (ih (part ++ earlier)) ?_
        rintro log outcomes ⟨rest, rfl, all⟩
        refine does_pure ⟨rest ++ part, ?_, part, rest, rfl, told, owned, all⟩
        rw [List.append_assoc]

theorem told_serveGraph (ctx : Context) (mutations : List Mutation)
    (before : List (Entry operations)) :
    Does (fun _ _ => True) (fun log response => ∀ outcomes, response = .graph outcomes →
      ∃ ctx steps before, log = steps ++ ⟨.handle ctx, ()⟩ :: before ∧
        ToldAll env r ctx mutations outcomes steps) before (serveGraph env r ctx mutations) := by
  refine does_perform trivial fun _ => does_bind (told_resolveAll ctx mutations _) ?_
  rintro log outcomes ⟨steps, rfl, all⟩
  refine does_pure ?_
  rintro _ ⟨⟩
  exact ⟨ctx, steps, before, rfl, all⟩

theorem told_serveHTTP (request : Request) :
    Does (fun _ _ => True) (fun log response => ∀ outcomes, response = .graph outcomes →
      ∃ ctx steps before, log = steps ++ ⟨.handle ctx, ()⟩ :: before ∧
        ToldAll env r ctx request.mutations outcomes steps) [] (serveHTTP env r request) := by
  unfold serveHTTP
  split
  · exact does_pure nofun
  split
  · exact told_serveGraph _ _ _
  split
  · exact told_serveGraph _ _ _
  split
  · dsimp only
    split
    · exact does_pure nofun
    split
    · exact does_pure nofun
    refine does_perform trivial fun counted => ?_
    split
    · exact does_fail _
    · exact does_pure nofun
    · exact told_serveGraph _ _ _
  · exact does_pure nofun

end Requests

/-! ### What stays -/

/-- Rows and accepted transactions are only added. -/
structure State.Grows (before after : State) : Prop where
  secrets : before.db.secrets ⊆ after.db.secrets
  executed : before.db.executed ⊆ after.db.executed
  accepted : before.accepted ⊆ after.accepted

/-- What an operation is known to have done is in the state. -/
def Kept (state : State) : Entry operations → Prop
  | ⟨.sendTransaction signed, .ok ()⟩ => signed ∈ state.accepted
  | ⟨.insertSecret eoaAddr secret, .ok ()⟩ => state.HasSecret eoaAddr secret
  | ⟨.insertNonceSecret eoaAddr secret _, .ok ()⟩ => state.HasSecret eoaAddr secret
  | ⟨.insertExecuted eoaAddr transactionHash gasLimit desc, .ok ()⟩ =>
    ∃ row ∈ state.db.executed, row.eoaAddr = eoaAddr ∧ row.transactionHash = transactionHash ∧
      row.gasLimit = gasLimit ∧ row.desc = desc
  | _ => True

theorem State.HasSecret.mono {before after : State} {eoaAddr secret : String}
    (grows : before.Grows after) (has : before.HasSecret eoaAddr secret) :
    after.HasSecret eoaAddr secret := by
  rcases has with ⟨row, member, found⟩
  exact ⟨row, grows.secrets member, found⟩

theorem Kept.mono {before after : State} {entry : Entry operations} (grows : before.Grows after)
    (kept : Kept before entry) : Kept after entry := by
  unfold Kept at kept ⊢
  split
  · exact grows.accepted kept
  · exact kept.mono grows
  · exact kept.mono grows
  · rcases kept with ⟨row, member, found⟩
    exact ⟨row, grows.executed member, found⟩
  · trivial

section Steps

variable (monthAfter : Timestamp → Timestamp) (state : State) (op : Op) (choice : Choice)

theorem grows_answer : state.Grows (answer monthAfter state op choice).2 := by
  have accepted : state.accepted ⊆ (answer monthAfter state op choice).2.accepted := by
    cases op with
    | sendTransaction signed =>
        rcases answer_sendTransaction state choice signed with ⟨_, lost⟩ | ⟨_, taken⟩
        · rw [lost]
          exact List.Subset.refl _
        · rw [taken]
          exact List.subset_cons_self _ _
    | _ => cases choice <;> exact List.Subset.refl _
  cases answer_tables monthAfter state op choice with
  | kept secrets _ executed =>
      exact ⟨secrets ▸ List.Subset.refl _, executed ▸ List.Subset.refl _, accepted⟩
  | created secrets _ executed =>
      exact ⟨secrets ▸ List.subset_cons_self _ _, executed ▸ List.Subset.refl _, accepted⟩
  | requested _ secrets _ executed =>
      exact ⟨secrets ▸ List.subset_cons_self _ _, executed ▸ List.Subset.refl _, accepted⟩
  | tracked secrets _ executed =>
      exact ⟨secrets ▸ List.Subset.refl _, executed ▸ List.subset_cons_self _ _, accepted⟩

/-- A transaction of the database that reports success has run. -/
theorem ran_of_execute {transaction : Transaction} {state : State} {choice : Choice}
    (reported : (execute transaction state choice).1 = .ok ()) :
    transaction state.db = .ok (execute transaction state choice).2.db := by
  have ran : (transaction.execute state.db).1 = .ok () →
      transaction state.db = .ok (transaction.execute state.db).2 := by
    unfold Transaction.execute
    split
    · exact fun _ => ‹_›
    · nofun
  cases choice with
  | unreached err => cases reported
  | unacknowledged err => cases reported
  | _ => exact ran reported

theorem kept_answer :
    Kept (answer monthAfter state op choice).2 ⟨op, (answer monthAfter state op choice).1⟩ := by
  cases op with
  | sendTransaction signed =>
      rcases answer_sendTransaction state choice signed with ⟨_, lost⟩ | ⟨reply, taken⟩
      · rw [lost]
        trivial
      · rw [taken]
        cases reply with
        | error _ => trivial
        | ok _ => exact List.mem_cons_self
  | insertSecret eoaAddr secret =>
      cases reported : (answer monthAfter state (.insertSecret eoaAddr secret) choice).1 with
      | error _ => trivial
      | ok _ =>
          have ran : insertIntoSecrets (monthAfter state.clock) eoaAddr secret state.db = .ok _ :=
            ran_of_execute reported
          have result := Except.ok.inj ran
          refine ⟨⟨eoaAddr, some secret, monthAfter state.clock⟩, ?_, rfl, rfl⟩
          exact congrArg Db.secrets result ▸ List.mem_cons_self
  | insertNonceSecret eoaAddr secret nonce =>
      cases reported :
          (answer monthAfter state (.insertNonceSecret eoaAddr secret nonce) choice).1 with
      | error _ => trivial
      | ok _ =>
          rcases accountsInsertNonceSecret3_ok (ran_of_execute reported) with ⟨_, secrets, _⟩
          refine ⟨⟨eoaAddr, some secret, monthAfter state.clock⟩, ?_, rfl, rfl⟩
          exact secrets ▸ List.mem_cons_self
  | insertExecuted eoaAddr transactionHash gasLimit desc =>
      cases reported : (answer monthAfter state
          (.insertExecuted eoaAddr transactionHash gasLimit desc) choice).1 with
      | error _ => trivial
      | ok _ =>
          rcases insertIntoExecuted_ok (ran_of_execute reported) with ⟨_, _, executed⟩
          refine ⟨⟨state.clock, eoaAddr, transactionHash, gasLimit, desc⟩, ?_, rfl, rfl, rfl, rfl⟩
          exact executed ▸ List.mem_cons_self
  | _ => trivial

end Steps

/-! ### Answers in a run -/

section Runs

variable {Asset : Type} [AssetRegistry Asset] [Inhabited Asset] {env : Env Asset} {r : Resolver}
  {monthAfter : Timestamp → Timestamp} {initial : State → Prop}
  {allow : ServerConfig monthAfter → ℕ → Op → Prop} {config : ServerConfig monthAfter}

/-- What a request is known to have done is in the state. -/
theorem kept_of_reachable (reached : Reachable (serveHTTP env r) initial allow config) {index : ℕ}
    {thread : Thread operations Request Fault Response}
    (found : config.threads[index]? = some thread) :
    ∀ entry ∈ thread.log, Kept config.state entry := by
  have all : ∀ event ∈ config.history, Kept config.state event.entry := by
    refine (reached.invariant (fun state history => ∀ event ∈ history, Kept state event.entry)
      (fun _ => nofun) (fun _ kept => kept) ?_).1
    rintro event older proper kept other member
    rcases proper.answered with ⟨choice, answered⟩
    have result := congrArg Prod.fst answered
    have after := congrArg Prod.snd answered
    dsimp only at result after
    rcases List.mem_cons.mp member with rfl | earlier
    · have now := kept_answer monthAfter other.before other.entry.op choice
      rwa [result, after] at now
    · have grows := grows_answer monthAfter event.before event.entry.op choice
      rw [after] at grows
      exact (kept other earlier).mono grows
  intro entry member
  rcases reached.log_in_history found entry member with ⟨event, recorded, _, _, rfl⟩
  exact all event recorded

end Runs

/-! ### Using a secret -/

/-- The answer gives the client a secret of the address. -/
def Mutation.Grants (eoa : Address) (secret : String) : Mutation → Data → Prop
  | .createAccountExec createAccount _ dryrun, .created _ given =>
    isDryrun dryrun = false ∧ hexToAddress createAccount.eoaAddr = eoa ∧ given = secret
  | .requestSecret eoaAddr _ _ _ _ dryrun, .text given =>
    isDryrun dryrun = false ∧ hexToAddress eoaAddr = eoa ∧ given = secret
  | _, _ => False

section Secrets

variable {Asset : Type} [AssetRegistry Asset] [Inhabited Asset] {env : Env Asset} {r : Resolver}

/-- The part of a request that one of its answers tells about. -/
theorem ToldAll.exists_part {ctx : Context} {mutations : List Mutation}
    {outcomes : List (Result Data)} {steps : List (Entry operations)}
    (all : ToldAll env r ctx mutations outcomes steps) {place : ℕ} {mutation : Mutation}
    {outcome : Result Data} (asked : mutations[place]? = some mutation)
    (told : outcomes[place]? = some outcome) :
    ∃ part, part ⊆ steps ∧ mutation.Told env part outcome := by
  induction mutations generalizing outcomes steps place with
  | nil => cases asked
  | cons first mutations ih =>
      cases outcomes with
      | nil => cases told
      | cons answer outcomes =>
          rcases all with ⟨part, rest, rfl, here, _, later⟩
          cases place with
          | zero =>
              cases asked
              cases told
              exact ⟨part, List.subset_append_right _ _, here⟩
          | succ place =>
              rcases ih later asked told with ⟨part, inside, there⟩
              exact ⟨part, List.subset_append_of_subset_left _ inside, there⟩

omit [AssetRegistry Asset] [Inhabited Asset] in
/-- A secret that a client was given is in the table. -/
theorem hasSecret_of_told {mutation : Mutation} {part : List (Entry operations)} {data : Data}
    {eoa : Address} {secret : String} {state : State} (told : mutation.Told env part (.ok data))
    (grants : mutation.Grants eoa secret data) (kept : ∀ entry ∈ part, Kept state entry) :
    state.HasSecret (lowerAddr eoa) secret := by
  cases mutation with
  | createAccountExec createAccount mint dryrun =>
      cases data with
      | text _ => exact grants.elim
      | created hash given =>
          rcases grants with ⟨real, rfl, rfl⟩
          simp only [Mutation.Told, CreationTold, real, Bool.false_eq_true, if_false] at told
          rcases told with ⟨signed, secret, _, inserted, same⟩
          cases same
          exact kept _ inserted
  | requestSecret eoaAddr nonce sigV sigR sigS dryrun =>
      cases data with
      | created _ _ => exact grants.elim
      | text given =>
          rcases grants with ⟨real, rfl, rfl⟩
          rcases told with ⟨_, secret, same, inserted⟩
          cases same
          exact kept _ (inserted real)
  | ninelivesMint mint dryrun => cases data <;> exact grants.elim
  | claimRewards markets msTs dryrun => cases data <;> exact grants.elim

/-- The handler is given the context once, and keeps it. -/
theorem does_serveGraph_of (eoa : Address) (mutations : List Mutation)
    (log : List (Entry operations)) :
    Does (fun _ op => ∀ ctx, op = .handle ctx → ctx = .of eoa)
      (fun log response =>
        (∃ outcomes, response = .graph outcomes) ∧ ⟨.handle (.of eoa), ()⟩ ∈ log) log
      (serveGraph env r (.of eoa) mutations) := by
  refine does_perform (fun _ same => (Op.handle.inj same).symm) fun _ => ?_
  let handled (log : List (Entry operations)) : Prop := ⟨.handle (.of eoa), ()⟩ ∈ log
  have first : handled (⟨.handle (.of eoa), ()⟩ :: log) := List.mem_cons_self
  have later (entry : Entry operations) {log : List (Entry operations)} (before : handled log) :
      handled (entry :: log) := List.mem_cons_of_mem _ before
  have all : Does (fun _ op => ∀ ctx, op = .handle ctx → ctx = .of eoa) (fun _ _ => True)
      (⟨.handle (.of eoa), ()⟩ :: log) (resolveAll env r (.of eoa) mutations) := by
    refine does_resolveAll _ ?_
    rintro mutation _ log op performs ctx rfl
    exact performs.elim
  have kept : Does (fun _ op => ∀ ctx, op = .handle ctx → ctx = .of eoa) (fun log _ => handled log)
      (⟨.handle (.of eoa), ()⟩ :: log) (resolveAll env r (.of eoa) mutations) :=
    Obeys.mono (Obeys.keeps all (fun _ _ _ _ => later _) first) (fun _ _ both => both.1)
      fun _ _ both _ _ => both.2
  exact does_bind kept fun _ outcomes before => does_pure ⟨⟨outcomes, rfl⟩, before⟩

/-- A request with an address and a secret is served as the address, unless no row is counted. -/
theorem does_serveHTTP_bearer {request : Request} {eoa : Address} {bearer : String}
    (header : request.BearerOf eoa bearer) (method : request.method ≠ "OPTIONS")
    (notAdmin : request.authorization ≠ r.adminSecret) :
    Does (fun _ op => ∀ ctx, op = .handle ctx → ctx = .of eoa)
      (fun log response =>
        ⟨.countSecrets (lowerAddr eoa) (toLower bearer), .ok 0⟩ ∈ log ∨
          (∃ outcomes, response = .graph outcomes) ∧ ⟨.handle (.of eoa), ()⟩ ∈ log) []
      (serveHTTP env r request) := by
  rw [serveHTTP_of_presents ⟨header, method, notAdmin⟩]
  refine does_perform (fun _ other => by cases other) fun counted => ?_
  rcases counted with text | _ | count
  · exact does_fail _
  · exact does_pure (.inl List.mem_cons_self)
  · refine Obeys.mono (does_serveGraph_of _ request.mutations _) (fun _ _ justified => justified) ?_
    exact fun _ _ reached response same => .inr (reached response same)

/-- Wherever such a request is. -/
theorem handled_of_runs {request : Request} {eoa : Address} {bearer : String}
    (header : request.BearerOf eoa bearer) (method : request.method ≠ "OPTIONS")
    (notAdmin : request.authorization ≠ r.adminSecret) {log : List (Entry operations)}
    {rest : Action Response} (runs : Proc.Runs (serveHTTP env r request) log rest) :
    (∀ ctx, ⟨.handle ctx, ()⟩ ∈ log → ctx = .of eoa) ∧
      ∀ response, rest = .ret response →
        ⟨.countSecrets (lowerAddr eoa) (toLower bearer), .ok 0⟩ ∈ log ∨
          (∃ outcomes, response = .graph outcomes) ∧ ⟨.handle (.of eoa), ()⟩ ∈ log := by
  let named (log : List (Entry operations)) : Prop :=
    ∀ ctx, ⟨.handle ctx, ()⟩ ∈ log → ctx = .of eoa
  have step (log : List (Entry operations)) (op : Op) (result : op.Result)
      (justified : ∀ ctx, op = .handle ctx → ctx = .of eoa) (before : named log) :
      named (⟨op, result⟩ :: log) := by
    intro ctx member
    rcases List.mem_cons.mp member with same | older
    · exact justified ctx (congrArg Entry.op same).symm
    · exact before ctx older
  have nothing : named [] := nofun
  have here := Obeys.of_runs
    (Obeys.keeps (does_serveHTTP_bearer header method notAdmin) step nothing) runs
  refine ⟨here.holds (fun _ _ both => both.2) fun _ _ both => both.2, ?_⟩
  rintro response rfl
  exact here.1 response rfl

variable {monthAfter : Timestamp → Timestamp} {initial : State → Prop}
  {allow : ServerConfig monthAfter → ℕ → Op → Prop} {config last : ServerConfig monthAfter}

variable (env r) in
/-- The thread serves the request, and counted a row whenever it counted. -/
structure Welcomes (request : Request) (eoaAddr secret : String)
    (thread : Thread operations Request Fault Response) : Prop where
  job : thread.job = request
  runs : Proc.Runs (serveHTTP env r request) thread.log thread.rest
  counted : ∀ count, ⟨.countSecrets eoaAddr secret, .ok count⟩ ∈ thread.log → count ≠ 0

/-- A request that arrives while the secret is in the table finds it there. -/
theorem welcomes_of_run {request : Request} {eoaAddr secret : String}
    (has : config.state.HasSecret eoaAddr secret) {labels : List (Label (world monthAfter) Request)}
    (ran : (config.arrive (serveHTTP env r) request).run (serveHTTP env r) labels = some last) :
    ∃ thread, last.threads[config.threads.length]? = some thread ∧
      Welcomes env r request eoaAddr secret thread := by
  let kept (now : ServerConfig monthAfter) : Prop :=
    now.state.HasSecret eoaAddr secret ∧ ∃ thread,
      now.threads[config.threads.length]? = some thread ∧
      Welcomes env r request eoaAddr secret thread
  have start : kept (config.arrive (serveHTTP env r) request) :=
    ⟨has, _, Config.thread_arrived _ _ _, rfl, .start, nofun⟩
  have still : kept last := by
    refine Config.run_keeps ?_ ?_ ?_ ran start
    · rintro now job ⟨has, thread, found, welcomes⟩
      exact ⟨has, thread, Config.thread_arrive found job, welcomes⟩
    · rintro now tick ⟨has, found⟩
      exact ⟨has, found⟩
    · rintro now index job log op next choice stands ⟨has, found⟩
      refine ⟨has.mono (grows_answer monthAfter now.state op choice), ?_⟩
      refine Config.thread_perform choice stands found ?_
      rintro ⟨rfl, runs, counted⟩
      refine ⟨rfl, .next runs _, ?_⟩
      intro count member
      rcases List.mem_cons.mp member with same | older
      · injection same with sameOp sameResult
        subst sameOp
        exact ne_zero_of_counted monthAfter has (eq_of_heq sameResult).symm
      · exact counted count older
  exact still.2

/-- Once a client was given a secret, and not by a dry run, every request that arrives later with a
spelling of the address and the secret is handed over as no one but the address, whatever else the
server does in between. If it is answered, it was served and not refused. There is no answer if the
count of the secrets fails, which ends the server. -/
theorem answered_secret_serves (reached : Reachable (serveHTTP env r) initial allow config)
    {index : ℕ} {request : Request} {log : List (Entry operations)}
    {outcomes : List (Result Data)}
    (answered : config.threads[index]? = some ⟨request, log, .ret (.graph outcomes)⟩)
    {place : ℕ} {mutation : Mutation} {data : Data} {eoa : Address} {bearer : String}
    (asked : request.mutations[place]? = some mutation)
    (told : outcomes[place]? = some (.ok data))
    (grants : mutation.Grants eoa (toLower bearer) data) {later : Request}
    (header : later.BearerOf eoa bearer) (method : later.method ≠ "OPTIONS")
    (notAdmin : later.authorization ≠ r.adminSecret)
    {labels : List (Label (world monthAfter) Request)}
    (ran : (config.arrive (serveHTTP env r) later).run (serveHTTP env r) labels = some last) :
    ∃ thread, last.threads[config.threads.length]? = some thread ∧ thread.job = later ∧
      (∀ ctx, ⟨.handle ctx, ()⟩ ∈ thread.log → ctx = .of eoa) ∧
      ∀ response, thread.rest = .ret response →
        (∃ outcomes, response = .graph outcomes) ∧ ⟨.handle (.of eoa), ()⟩ ∈ thread.log := by
  have runs := reached.thread_runs answered
  rcases Obeys.of_runs (told_serveHTTP (r := r) request) runs _ rfl outcomes rfl with
    ⟨ctx, steps, before, rfl, all⟩
  rcases all.exists_part asked told with ⟨part, inside, tells⟩
  have has : config.state.HasSecret (lowerAddr eoa) (toLower bearer) := by
    refine hasSecret_of_told tells grants ?_
    intro entry member
    exact kept_of_reachable reached answered entry
      (List.mem_append_left _ (inside member))
  rcases welcomes_of_run has ran with ⟨thread, found, rfl, runs, counted⟩
  rcases handled_of_runs header method notAdmin runs with ⟨handled, ended⟩
  refine ⟨thread, found, rfl, handled, ?_⟩
  intro response ends
  rcases ended response ends with none | served
  · exact absurd rfl (counted 0 none)
  · exact served

end Secrets

/-! ### Known answers: a hash, and a secret that is used -/

namespace Known

def answerOf (thread : Thread operations Request Fault Response) :
    Option (List (Result Data)) :=
  match thread.rest with
  | .ret (.graph outcomes) => some outcomes
  | _ => none

theorem eq_of_answerOf {thread : Thread operations Request Fault Response}
    {outcomes : List (Result Data)} (told : answerOf thread = some outcomes) :
    thread = ⟨thread.job, thread.log, .ret (.graph outcomes)⟩ := by
  rcases thread with ⟨job, log, rest⟩
  unfold answerOf at told
  dsimp only at told ⊢
  split at told
  · cases told
    rfl
  · cases told

/-- The data of an answer, if it is no error. -/
def dataOf : Result Data → Option Data
  | .ok data => some data
  | .error _ => none

theorem eq_ok_of_dataOf {outcome : Result Data} {data : Data} (told : dataOf outcome = some data) :
    outcome = .ok data := by
  cases outcome with
  | ok given => exact congrArg Except.ok (Option.some.inj told)
  | error fault => cases told

/-- For whom a mutation asks for a secret. -/
def requester : Mutation → Option Address
  | .requestSecret eoaAddr _ _ _ _ none => some (hexToAddress eoaAddr)
  | _ => none

theorem grants_of_requester {mutation : Mutation} {eoa : Address}
    (asks : requester mutation = some eoa) (secret : String) :
    mutation.Grants eoa secret (.text secret) := by
  unfold requester at asks
  split at asks
  · cases asks
    exact ⟨rfl, rfl, rfl⟩
  · cases asks

/-- The owner asks for a secret. -/
def askedRun : Option (ServerConfig monthAfter) :=
  Config.run (serveHTTP env resolver) ⟨migrated, [], []⟩
    [.arrive asking, .perform 0 .plain, .perform 0 (.random secret), .perform 0 .plain]

theorem reached_of_askedRun {config : ServerConfig monthAfter} (ran : askedRun = some config) :
    Reachable (serveHTTP env resolver) Migrated (fun _ _ _ => True) config :=
  .run (.start (by simp [Migrated, migrated])) ran

/-- The owner shows the secret forty days later. -/
def presentedRun (config : ServerConfig monthAfter) : Option (ServerConfig monthAfter) :=
  (config.arrive (serveHTTP env resolver) presenting).run (serveHTTP env resolver)
    [.drift (40 * 86400), .perform 1 .plain, .perform 1 .plain]

theorem askedRun_answers :
    (askedRun.bind fun config => config.threads[0]?.bind fun thread =>
      (answerOf thread).bind fun outcomes => (presentedRun config).bind fun last =>
        last.threads[1]?.bind fun later => (answerOf later).map fun _ =>
          (config.threads.length, thread.job.mutations.map requester, outcomes.map dataOf)) =
      some (1, [some owner], [some (.text (toLower bearer))]) := by
  decide +kernel

end Known

theorem answered_secret_serves_known :
    ∃ config last thread, Known.askedRun = some config ∧ Known.presentedRun config = some last ∧
      last.threads[1]? = some thread ∧ thread.job = Known.presenting ∧
      ⟨.handle (.of Known.owner), ()⟩ ∈ thread.log := by
  rcases Option.bind_eq_some_iff.mp Known.askedRun_answers with ⟨config, ran, answers⟩
  rcases Option.bind_eq_some_iff.mp answers with ⟨thread, found, answers⟩
  rcases Option.bind_eq_some_iff.mp answers with ⟨outcomes, told, answers⟩
  rcases Option.bind_eq_some_iff.mp answers with ⟨last, presented, answers⟩
  rcases Option.bind_eq_some_iff.mp answers with ⟨later, foundLater, answers⟩
  rcases Option.map_eq_some_iff.mp answers with ⟨replies, replied, same⟩
  simp only [Prod.mk.injEq] at same
  rcases same with ⟨one, requesters, given⟩
  rw [Known.eq_of_answerOf told] at found
  rcases List.map_eq_singleton_iff.mp requesters with ⟨mutation, mutations, asks⟩
  rcases List.map_eq_singleton_iff.mp given with ⟨outcome, rfl, data⟩
  have header : Known.presenting.BearerOf Known.owner Known.bearer :=
    Known.bearerOf_presenting rfl
  have served := answered_secret_serves (Known.reached_of_askedRun ran) found
    (congrArg (fun list : List Mutation => list[0]?) mutations)
    (congrArg some (Known.eq_ok_of_dataOf data)) (Known.grants_of_requester asks _) header
    (by decide) (by decide) presented
  rcases served with ⟨thread, foundThread, job, _, ended⟩
  rw [one, foundLater] at foundThread
  cases foundThread
  refine ⟨config, last, later, ran, presented, foundLater, job, (ended (.graph replies) ?_).2⟩
  rw [Known.eq_of_answerOf replied]

end Go

end SuperpositionAccounts
