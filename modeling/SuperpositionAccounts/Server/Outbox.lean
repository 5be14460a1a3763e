import SuperpositionAccounts.Server.Sending

/-!
# What the server sends and what it records

A mutation sends at most one kind of transaction: a creation to the factory, or a
solve to the account of the address it is served as, through the router. A record
is written only for a transaction that the node took, and only one for each. This
file follows the code of the mutations once for both; `Server.Carried` reads the
transactions as the contracts do.
-/

namespace SuperpositionAccounts

namespace Go

open Threads Threads.Proc Result SuperpositionAccounts.Go.Action

/-! ### The books of a request -/

/-- The node took a transaction. -/
def sentIn : Entry operations → Bool
  | ⟨.sendTransaction _, .ok ()⟩ => true
  | _ => false

/-- A record was written, or tried. -/
def recordedIn (entry : Entry operations) : Bool :=
  match entry.op with
  | .insertExecuted _ _ _ _ => true
  | _ => false

/-- There are no more records than transactions. -/
def Accounted (log : List (Entry operations)) : Prop :=
  log.countP recordedIn ≤ log.countP sentIn

/-- The transaction was sent, and there are fewer records than transactions. -/
def Unrecorded (log : List (Entry operations)) (signed : SignedTx) : Prop :=
  ⟨.sendTransaction signed, .ok ()⟩ ∈ log ∧ log.countP recordedIn < log.countP sentIn

/-- The operations of the books. -/
def Op.booked : Op → Bool
  | .sendTransaction _ | .insertExecuted _ _ _ _ => true
  | _ => false

theorem Op.booked_of_harmless {op : Op} (harmless : op.harmless) : op.booked = false := by
  cases op with
  | sendTransaction _ | insertExecuted _ _ _ _ => cases harmless
  | _ => rfl

theorem sentIn_of_not_booked {op : Op} (quiet : op.booked = false) (result : op.Result) :
    sentIn ⟨op, result⟩ = false := by
  cases op with
  | sendTransaction signed => cases quiet
  | _ => rfl

theorem recordedIn_of_not_booked {op : Op} (quiet : op.booked = false) (result : op.Result) :
    recordedIn ⟨op, result⟩ = false := by
  cases op with
  | insertExecuted eoaAddr transactionHash gasLimit desc => cases quiet
  | _ => rfl

theorem Accounted.cons {log : List (Entry operations)} {op : Op} {result : op.Result}
    (accounted : Accounted log)
    (covered : recordedIn ⟨op, result⟩ = true → log.countP recordedIn < log.countP sentIn) :
    Accounted (⟨op, result⟩ :: log) := by
  unfold Accounted at accounted ⊢
  rw [List.countP_cons, List.countP_cons]
  split
  · rename_i recorded
    have more := covered recorded
    omega
  · omega

theorem Accounted.quiet {log : List (Entry operations)} {op : Op} {result : op.Result}
    (accounted : Accounted log) (quiet : op.booked = false) :
    Accounted (⟨op, result⟩ :: log) :=
  accounted.cons fun recorded => by
    rw [recordedIn_of_not_booked quiet] at recorded
    cases recorded

theorem Accounted.sent {log : List (Entry operations)} (accounted : Accounted log)
    (signed : SignedTx) : Unrecorded (⟨.sendTransaction signed, .ok ()⟩ :: log) signed := by
  refine ⟨List.mem_cons_self, ?_⟩
  rw [List.countP_cons_of_neg (by simp [recordedIn]), List.countP_cons_of_pos (by rfl)]
  exact Nat.lt_succ_of_le accounted

theorem Unrecorded.quiet {log : List (Entry operations)} {signed : SignedTx} {op : Op}
    {result : op.Result} (unrecorded : Unrecorded log signed) (quiet : op.booked = false) :
    Unrecorded (⟨op, result⟩ :: log) signed := by
  refine ⟨List.mem_cons_of_mem _ unrecorded.1, ?_⟩
  rw [List.countP_cons_of_neg (by simp [recordedIn_of_not_booked quiet]),
    List.countP_cons_of_neg (by simp [sentIn_of_not_booked quiet])]
  exact unrecorded.2

/-! ### What the mutations send -/

section Mutations

variable {Asset : Type} [AssetRegistry Asset] [Inhabited Asset] (env : Env Asset) (r : Resolver)

/-- The transaction carries one solve to the account of the address, which is the owner of what is
taken. -/
def SendsSolve (eoa : Address) (args : SolveArgs Asset) (signed : SignedTx) : Prop :=
  ∃ sent b, createSolveV2 env.sum512 env.progDalek (Vec.singleton args) eoa eoa = .ok sent ∧
    sent.serialize = some b ∧
    signed.tx.Carries r.safetyRouterAddr true (getClientAddr env r.accountsFactoryAddr eoa) b none

/-- The arguments of a creation, with the mint that is tagged onto it. -/
def BuildsCreation (createAccount : Model.CreateAccount) (mint : Option Model.Mint)
    (f : FreshBackwards Asset) : Prop :=
  ∃ untagged : Untagged Asset,
    createAccountToFreshBackwardsGraph r.accPubKey createAccount = .ok untagged ∧
    (mint = none ∧ f = untagged.val ∨
      ∃ given, mint = some given ∧
        tagFreshBackwardsWithMintGraph env.sum512 env.progDalek untagged env.usdc given.market
          given.outcome given.amount given.referrer (hexToAddress createAccount.eoaAddr)
          given.permit given.msTs = .ok f)

/-- The transaction is one that the mutation sends when it is served with this context. -/
def Mutation.SendsTx (ctx : Context) (mutation : Mutation) (signed : SignedTx) : Prop :=
  match mutation with
  | .createAccountExec createAccount mint dryrun =>
    isDryrun dryrun = false ∧ isHexAddress createAccount.eoaAddr = true ∧
      ∃ f b, BuildsCreation env r createAccount mint f ∧ (freshArgs f).serialize = some b ∧
        signed.tx.Carries r.safetyRouterAddr false r.accountsFactoryAddr b none
  | .requestSecret _ _ _ _ _ _ => False
  | .ninelivesMint mint dryrun =>
    isDryrun dryrun = false ∧ ctx.authed = true ∧ ∃ eoa f, ctx.eoa = some eoa ∧
      createSolveArgsSigArgsMintGraph env.sum512 env.progDalek env.usdc mint.market mint.outcome
        mint.amount mint.referrer eoa mint.permit mint.msTs = .ok f ∧
      SendsSolve env r eoa f.args signed
  | .claimRewards markets msTs dryrun =>
    isDryrun dryrun = false ∧ ctx.authed = true ∧ ∃ eoa f, ctx.eoa = some eoa ∧
      createPayoffForOtherArgsGraph env.sum512 env.progDalek r.claimantHelperAddr eoa markets
        msTs = .ok f ∧
      SendsSolve env r eoa f.args signed

/-- The address and the description a mutation records its transaction with. -/
def Mutation.recordOf (ctx : Context) : Mutation → Option (String × String)
  | .createAccountExec createAccount _ _ =>
    some (lowerAddr (hexToAddress createAccount.eoaAddr), "create account")
  | .requestSecret _ _ _ _ _ _ => none
  | .ninelivesMint _ _ => ctx.eoa.map fun eoa => (env.addrString eoa, "mint")
  | .claimRewards _ _ _ => ctx.eoa.map fun eoa => (env.addrString eoa, "claim rewards")

/-- What a mutation puts into the books, after what its request did before. -/
def Mutation.Books (ctx : Context) (mutation : Mutation) (log : List (Entry operations)) :
    Op → Prop
  | .sendTransaction signed => mutation.SendsTx env r ctx signed
  | .insertExecuted eoaAddr transactionHash gasLimit desc =>
    ∃ signed, Unrecorded log signed ∧ mutation.SendsTx env r ctx signed ∧
      transactionHash = hashHex (env.txHash signed) ∧ gasLimit = signed.tx.gas ∧
      mutation.recordOf env ctx = some (eoaAddr, desc)
  | _ => True

theorem Mutation.books_quiet (ctx : Context) (mutation : Mutation) (log : List (Entry operations))
    (op : Op) (quiet : op.booked = false) : mutation.Books env r ctx log op := by
  cases op with
  | sendTransaction _ | insertExecuted _ _ _ _ => cases quiet
  | _ => trivial

theorem Mutation.books_harmless (ctx : Context) (mutation : Mutation)
    (log : List (Entry operations)) (op : Op) (harmless : op.harmless) :
    mutation.Books env r ctx log op :=
  mutation.books_quiet env r ctx log op (Op.booked_of_harmless harmless)

variable {env r} {ctx : Context} {mutation : Mutation} {log : List (Entry operations)}

/-- The books stay in order. -/
theorem Mutation.Books.accounted {op : Op} (result : op.Result)
    (books : mutation.Books env r ctx log op) (accounted : Accounted log) :
    Accounted (⟨op, result⟩ :: log) := by
  refine accounted.cons fun recorded => ?_
  cases op with
  | insertExecuted _ _ _ _ =>
      rcases books with ⟨signed, unrecorded, _⟩
      exact unrecorded.2
  | _ => cases recorded

/-- What an action ensures, with the books in order. -/
theorem Does.accounted {α : Type} {action : Action α}
    {ensures : List (Entry operations) → α → Prop}
    (does : Does (mutation.Books env r ctx) ensures log action) (accounted : Accounted log) :
    Does (mutation.Books env r ctx) (fun log value => ensures log value ∧ Accounted log) log
      action := by
  refine Obeys.mono (Obeys.keeps does (fun _ _ result => Mutation.Books.accounted result) accounted)
    (fun _ _ both => both.1) ?_
  rintro log outcome ⟨reached, kept⟩ value same
  exact ⟨reached value same, kept⟩

/-- The books are in order whatever the outcome of an attempt is. -/
theorem does_attempt_accounted {α : Type} {first : Action α}
    {middle : List (Entry operations) → α → Prop}
    (does : Does (mutation.Books env r ctx) middle log first) (accounted : Accounted log) :
    Does (mutation.Books env r ctx) (fun log outcome =>
      (∀ value, outcome = .ok value → middle log value) ∧ Accounted log) log (attempt first) := by
  refine obeys_attempt.mpr (Obeys.mono
    (Obeys.keeps does (fun _ _ result => Mutation.Books.accounted result) accounted)
    (fun _ _ both => both.1) ?_)
  rintro log outcome holds _ ⟨⟩
  exact holds

section Sending

variable {router : Address} {useSafetyRouter : Bool} {chainId : ℕ} {key : PrivateKey}
  {sender dest : Address} {dryrun : Bool}

omit [AssetRegistry Asset] [Inhabited Asset] in
/-- What `send` hands over carries what it was given, and it returns the transaction that the node
took and its gas. -/
theorem does_send_booked {good : List (Entry operations) → Op → Prop}
    (quiet : ∀ log op, op.booked = false → good log op) {b : List UInt8} {eth : Option ℕ}
    (sends : dryrun = false → ∀ log signed,
      signed.tx.Carries router useSafetyRouter dest b eth → good log (.sendTransaction signed))
    (accounted : Accounted log) :
    Does good (fun log (signed, gasLimit) => dryrun = false →
        Unrecorded log signed ∧ signed.tx.Carries router useSafetyRouter dest b eth ∧
          gasLimit = signed.tx.gas) log
      (send env router useSafetyRouter chainId key sender dest b eth dryrun) := by
  unfold send
  refine does_perform (quiet _ _ rfl) fun _ => does_check fun gasLimit _ => ?_
  refine does_perform (quiet _ _ rfl) fun _ => does_check fun baseFee _ => ?_
  refine does_perform (quiet _ _ rfl) fun _ => does_check fun gasTipCap _ => ?_
  refine does_perform (quiet _ _ rfl) fun _ => does_check fun nonce _ => ?_
  refine does_check fun signature _ => ?_
  cases dryrun with
  | true =>
      rw [if_pos rfl]
      refine does_perform (quiet _ _ rfl) fun _ => does_check fun _ _ => ?_
      exact does_pure fun real => by cases real
  | false =>
      rw [if_neg Bool.false_ne_true]
      refine does_perform (sends rfl _ _ ⟨rfl, rfl, rfl⟩) fun reply => ?_
      refine does_check fun _ taken => does_pure fun _ => ?_
      subst taken
      refine ⟨Accounted.sent ?_ _, ⟨rfl, rfl, rfl⟩, rfl⟩
      exact (((accounted.quiet rfl).quiet rfl).quiet rfl).quiet rfl

omit [Inhabited Asset] in
theorem does_sendArguments_booked {good : List (Entry operations) → Op → Prop}
    (quiet : ∀ log op, op.booked = false → good log op) {args : Args Asset}
    {sendsTx : SignedTx → Prop}
    (sends : dryrun = false → ∀ b signed, args.serialize = some b →
      signed.tx.Carries router useSafetyRouter dest b none → sendsTx signed)
    (booked : ∀ log signed, sendsTx signed → good log (.sendTransaction signed))
    (accounted : Accounted log) :
    Does good (fun log (signed, gasLimit) => dryrun = false →
        Unrecorded log signed ∧ sendsTx signed ∧ gasLimit = signed.tx.gas) log
      (sendArguments env router useSafetyRouter chainId key sender dest args dryrun) := by
  unfold sendArguments
  split
  · exact does_fail _
  · rename_i b written
    refine Obeys.mono (does_send_booked quiet (fun real log signed carries =>
      booked log signed (sends real b signed written carries)) accounted)
      (fun _ _ justified => justified) ?_
    rintro log outcome reached ⟨signed, gasLimit⟩ same real
    rcases reached _ same real with ⟨unrecorded, carries, gas⟩
    exact ⟨unrecorded, sends real b signed written carries, gas⟩

end Sending

theorem does_alarm_booked {ignored : Prop} [Decidable ignored] {url text final : String}
    {ensures : List (Entry operations) → Data → Prop} :
    Does (mutation.Books env r ctx) ensures log
      (if ignored then activateSoftAlarm url text >>= fun _ => err final else err final) := by
  split
  · refine does_bind (does_activateSoftAlarm (mutation.books_harmless env r ctx) url text) ?_
    exact fun _ _ _ => does_fail _
  · exact does_fail _

theorem does_pickPrivateKey_booked (accounted : Accounted log) (note : String) :
    Does (mutation.Books env r ctx) (fun log _ => Accounted log) log
      (orFatal note (pickPrivateKey env)) := by
  refine Obeys.mono (Does.accounted (does_orFatal (does_pickPrivateKey
    (mutation.books_harmless env r ctx))) accounted) (fun _ _ justified => justified) ?_
  exact fun _ _ reached value same => (reached value same).2

theorem does_executeCreation_booked {createAccount : Model.CreateAccount}
    {mint : Option Model.Mint} {dryrun : Option Bool} {f : FreshBackwards Asset}
    (accepted : isHexAddress createAccount.eoaAddr = true)
    (built : BuildsCreation env r createAccount mint f) (accounted : Accounted log) :
    Does ((Mutation.createAccountExec createAccount mint dryrun).Books env r ctx)
      (fun _ _ => True) log
      (executeCreation env r (hexToAddress createAccount.eoaAddr) f dryrun) := by
  have quiet := Mutation.books_quiet env r ctx (.createAccountExec createAccount mint dryrun)
  unfold executeCreation
  refine does_bind (does_pickPrivateKey_booked accounted _) fun log (key, sender) accounted => ?_
  refine does_bind (does_attempt_accounted (does_sendArguments_booked quiet
    (fun real b signed written carries => (⟨real, accepted, f, b, built, written, carries⟩ :
      (Mutation.createAccountExec createAccount mint dryrun).SendsTx env r ctx signed))
    (fun _ _ sends => sends) accounted) accounted) fun log outcome reached => ?_
  split
  · exact does_alarm_booked
  · exact does_fail _
  · rename_i signed gasLimit
    refine does_perform (quiet _ _ rfl) fun secret => ?_
    split
    · rename_i real
      rcases reached.1 _ rfl (by simpa using real) with ⟨unrecorded, sends, gas⟩
      refine does_perform (quiet _ _ rfl) fun inserted => ?_
      split
      · exact does_fail _
      · refine does_trackTx ⟨signed, (unrecorded.quiet rfl).quiet rfl, sends, rfl, gas, rfl⟩ ?_
        exact fun _ => does_pure trivial
    · exact does_pure trivial

theorem does_createAccountExec_booked (createAccount : Model.CreateAccount)
    (mint : Option Model.Mint) (dryrun : Option Bool) (accounted : Accounted log) :
    Does ((Mutation.createAccountExec createAccount mint dryrun).Books env r ctx)
      (fun _ _ => True) log (createAccountExec env r createAccount mint dryrun) := by
  unfold createAccountExec
  refine does_ofResult fun untagged made => does_guard fun refused => ?_
  have accepted : isHexAddress createAccount.eoaAddr = true := by simpa using refused
  have created := ok_of_wrap_eq_ok made
  cases mint with
  | none =>
      exact does_executeCreation_booked accepted ⟨untagged, created, .inl ⟨rfl, rfl⟩⟩ accounted
  | some given =>
      refine does_ofResult fun f tagged => ?_
      exact does_executeCreation_booked accepted
        ⟨untagged, created, .inr ⟨given, rfl, ok_of_wrap_eq_ok tagged⟩⟩ accounted

theorem does_ninelivesMint_booked (ctx : Context) (mint : Model.Mint) (dryrun : Option Bool)
    (accounted : Accounted log) :
    Does ((Mutation.ninelivesMint mint dryrun).Books env r ctx) (fun _ _ => True) log
      (ninelivesMint env r ctx mint dryrun) := by
  have quiet := Mutation.books_quiet env r ctx (.ninelivesMint mint dryrun)
  unfold ninelivesMint
  refine does_guard fun _ => does_bind (Does.accounted (does_checkMinimum mint.amount) accounted) ?_
  rintro log _ ⟨_, accounted⟩
  refine does_guard fun refused => ?_
  split
  · exact does_fail _
  · rename_i eoa named
    refine does_bind (does_pickPrivateKey_booked accounted _) fun log (key, sender) accounted => ?_
    dsimp only
    split
    · exact does_alarm_booked
    · exact does_fail _
    · rename_i f signs
      refine does_check fun solveV2 made => ?_
      refine does_bind (does_attempt_accounted (does_sendArguments_booked quiet
        (fun real b signed written carries => (⟨real, by simpa using refused, eoa, f, named, signs,
          solveV2, b, made, written, carries⟩ :
          (Mutation.ninelivesMint mint dryrun).SendsTx env r ctx signed))
        (fun _ _ sends => sends) accounted) accounted) fun log outcome reached => ?_
      split
      · exact does_alarm_booked
      · exact does_fail _
      · rename_i signed gasLimit
        split
        · rename_i real
          rcases reached.1 _ rfl (by simpa using real) with ⟨unrecorded, sends, gas⟩
          refine does_trackTx ⟨signed, unrecorded, sends, rfl, gas, ?_⟩ fun _ => does_pure trivial
          rw [Mutation.recordOf, named]
          rfl
        · exact does_pure trivial

theorem does_claimRewards_booked (ctx : Context) (markets : Pools String) (msTs : String)
    (dryrun : Option Bool) (accounted : Accounted log) :
    Does ((Mutation.claimRewards markets msTs dryrun).Books env r ctx) (fun _ _ => True) log
      (claimRewards env r ctx markets msTs dryrun) := by
  have quiet := Mutation.books_quiet env r ctx (.claimRewards markets msTs dryrun)
  unfold claimRewards
  refine does_guard fun _ => does_guard fun refused => ?_
  split
  · exact does_fail _
  · rename_i eoa named
    refine does_bind (does_pickPrivateKey_booked accounted _) fun log (key, sender) accounted => ?_
    refine does_ofResult fun f signs => does_check fun solveV2 made => ?_
    refine does_bind (does_attempt_accounted (does_sendArguments_booked quiet
      (fun real b signed written carries => (⟨real, by simpa using refused, eoa, f, named,
        ok_of_wrap_eq_ok signs, solveV2, b, made, written, carries⟩ :
        (Mutation.claimRewards markets msTs dryrun).SendsTx env r ctx signed))
      (fun _ _ sends => sends) accounted) accounted) fun log outcome reached => ?_
    split
    · refine does_bind (does_activateSoftAlarm (Mutation.books_harmless env r ctx _) _ _) ?_
      exact fun _ _ _ => does_fail _
    · exact does_fail _
    · rename_i signed gasLimit
      split
      · rename_i real
        rcases reached.1 _ rfl (by simpa using real) with ⟨unrecorded, sends, gas⟩
        refine does_trackTx ⟨signed, unrecorded, sends, rfl, gas, ?_⟩ fun _ => does_pure trivial
        rw [Mutation.recordOf, named]
        rfl
      · exact does_pure trivial

/-- Asking for a secret puts nothing into the books. -/
theorem does_requestSecret_booked (eoaAddr : String) (nonce sigV : Int32) (sigR sigS : String)
    (dryrun : Option Bool) :
    Does ((Mutation.requestSecret eoaAddr nonce sigV sigR sigS dryrun).Books env r ctx)
      (fun _ _ => True) log (requestSecret env r eoaAddr nonce sigV sigR sigS dryrun) := by
  have performs : Does ((Mutation.requestSecret eoaAddr nonce sigV sigR sigS dryrun).Performs env r
      ctx) (fun _ _ => True) log (requestSecret env r eoaAddr nonce sigV sigR sigS dryrun) :=
    does_requestSecret eoaAddr nonce sigV sigR sigS dryrun
  refine Obeys.mono performs ?_ fun _ _ reached => reached
  intro log op performs
  cases op with
  | sendTransaction signed => exact performs.2.elim
  | insertExecuted _ _ _ _ =>
      rcases performs with ⟨_, _, _, _, _, other, _⟩ | ⟨_, _, spends, _⟩
      · cases other
      · exact spends.elim
  | _ => trivial

theorem does_resolve_booked (ctx : Context) (mutation : Mutation) (accounted : Accounted log) :
    Does (mutation.Books env r ctx) (fun _ _ => True) log (resolve env r ctx mutation) := by
  cases mutation with
  | createAccountExec createAccount mint dryrun =>
      exact does_createAccountExec_booked _ _ _ accounted
  | requestSecret eoaAddr nonce sigV sigR sigS dryrun => exact does_requestSecret_booked _ _ _ _ _ _
  | ninelivesMint mint dryrun => exact does_ninelivesMint_booked _ _ _ accounted
  | claimRewards markets msTs dryrun => exact does_claimRewards_booked _ _ _ _ accounted

/-- The mutations of a request, each after the ones before it. -/
theorem does_resolveAll_booked {good : List (Entry operations) → Op → Prop} (ctx : Context)
    {mutations : List Mutation}
    (books : ∀ mutation ∈ mutations, ∀ log op, mutation.Books env r ctx log op → good log op) :
    ∀ {log}, Accounted log →
      Does good (fun _ _ => True) log (resolveAll env r ctx mutations) := by
  induction mutations with
  | nil => exact fun _ => does_pure trivial
  | cons mutation rest ih =>
      intro log accounted
      have resolves : Does (mutation.Books env r ctx) (fun _ _ => True) log
          (resolve env r ctx mutation) := does_resolve_booked ctx mutation accounted
      have first := does_attempt_accounted resolves accounted
      refine does_bind (Obeys.mono first (books mutation (by simp)) fun _ _ kept => kept) ?_
      rintro log outcome ⟨_, accounted⟩
      split
      · exact does_fail _
      · refine does_bind (ih (fun other member => books other ?_) accounted) fun _ _ _ => ?_
        · exact List.mem_cons_of_mem _ member
        · exact does_pure trivial

end Mutations

/-! ### What a request puts into the books -/

section Requests

variable {Asset : Type} [AssetRegistry Asset] [Inhabited Asset] (env : Env Asset) (r : Resolver)

/-- What a request puts into the books is put there by one of its mutations, with the context that
the request was handed over with. -/
def Request.Books (request : Request) (log : List (Entry operations)) (op : Op) : Prop :=
  op.booked = true → ∃ mutation ∈ request.mutations, ∃ ctx,
    ⟨.handle ctx, ()⟩ ∈ log ∧ mutation.Books env r ctx log op

variable {env r}

theorem does_serveGraph_booked {request : Request} {log : List (Entry operations)} (ctx : Context)
    (accounted : Accounted log) :
    Does (request.Books env r) (fun _ _ => True) log
      (serveGraph env r ctx request.mutations) := by
  refine does_perform (fun booked => by cases booked) fun _ => ?_
  let handled (log : List (Entry operations)) : Prop := ⟨.handle ctx, ()⟩ ∈ log
  have first : handled (⟨.handle ctx, ()⟩ :: log) := List.mem_cons_self
  have later (entry : Entry operations) {log : List (Entry operations)} (before : handled log) :
      handled (entry :: log) := List.mem_cons_of_mem _ before
  have all : Does (fun log op => ∃ mutation ∈ request.mutations, mutation.Books env r ctx log op)
      (fun _ _ => True) (⟨.handle ctx, ()⟩ :: log) (resolveAll env r ctx request.mutations) :=
    does_resolveAll_booked ctx (fun mutation member _ _ books => ⟨mutation, member, books⟩)
      (accounted.quiet rfl)
  have booked : Does (request.Books env r) (fun _ _ => True) (⟨.handle ctx, ()⟩ :: log)
      (resolveAll env r ctx request.mutations) := by
    refine Obeys.mono (Obeys.keeps all (fun _ _ _ _ => later _) first) ?_
      fun _ _ reached => reached.1
    rintro log op ⟨⟨mutation, member, books⟩, before⟩ _
    exact ⟨mutation, member, ctx, before, books⟩
  exact does_bind booked fun _ _ _ => does_pure trivial

theorem does_serveHTTP_booked (request : Request) :
    Does (request.Books env r) (fun _ _ => True) [] (serveHTTP env r request) := by
  have empty : Accounted [] := Nat.le_refl 0
  unfold serveHTTP
  split
  · exact does_pure trivial
  split
  · exact does_serveGraph_booked _ empty
  split
  · exact does_serveGraph_booked _ empty
  split
  · dsimp only
    split
    · exact does_pure trivial
    split
    · exact does_pure trivial
    refine does_perform (fun booked => by cases booked) fun counted => ?_
    split
    · exact does_fail _
    · exact does_pure trivial
    · exact does_serveGraph_booked _ (empty.quiet rfl)
  · exact does_pure trivial

theorem Request.Books.accounted {request : Request} {log : List (Entry operations)} {op : Op}
    (result : op.Result) (books : request.Books env r log op) (accounted : Accounted log) :
    Accounted (⟨op, result⟩ :: log) := by
  cases booked : op.booked with
  | false => exact accounted.quiet booked
  | true =>
      rcases books booked with ⟨mutation, _, ctx, _, books⟩
      exact books.accounted result accounted

end Requests

end Go

end SuperpositionAccounts
