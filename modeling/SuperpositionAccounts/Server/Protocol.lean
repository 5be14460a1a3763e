import SuperpositionAccounts.Server.Resolvers

/-!
# What a request performs

For each part of the server's code, the operations it performs and what holds
when it does. The operations that matter to other requests are the inserts, the
handing over to the GraphQL handler and the sending of transactions; the others
are harmless. The results about whole runs use only the lemma about `serveHTTP`.
-/

namespace SuperpositionAccounts

namespace Go

open Threads Threads.Proc Result SuperpositionAccounts.Go.Action

/-- The operations nothing is said about. -/
def Op.harmless : Op → Bool
  | .handle _ | .countSecrets _ _ | .insertSecret _ _ | .insertNonceSecret _ _ _
  | .insertExecuted _ _ _ _ | .sendTransaction _ => false
  | _ => true

/-- Every operation of the action is good in view of the ones before it, and a value it returns is
as promised. Nothing is said of its errors. -/
def Does {α : Type} (good : List (Entry operations) → Op → Prop)
    (ensures : List (Entry operations) → α → Prop) (log : List (Entry operations))
    (action : Action α) : Prop :=
  Obeys good (fun log outcome => ∀ value, outcome = .ok value → ensures log value) log action

section Rules

variable {α β : Type} {good : List (Entry operations) → Op → Prop}
  {ensures : List (Entry operations) → α → Prop} {log : List (Entry operations)}

theorem does_pure {value : α} (holds : ensures log value) :
    Does good ensures log (pure value) := by
  rintro _ ⟨⟩
  exact holds

theorem does_fail (fault : Fault) : Does good ensures log (.fail fault) := by
  rintro _ ⟨⟩

theorem does_perform {op : Op} {after : op.Result → Action α} (justified : good log op)
    (continued : ∀ result, Does good ensures (⟨op, result⟩ :: log) (after result)) :
    Does good ensures log (perform op >>= after) :=
  ⟨justified, continued⟩

theorem does_bind {first : Action β} {after : β → Action α}
    {middle : List (Entry operations) → β → Prop} (does : Does good middle log first)
    (continued : ∀ log value, middle log value → Does good ensures log (after value)) :
    Does good ensures log (first >>= after) := by
  refine obeys_bind.mpr (Obeys.mono does (fun _ _ justified => justified) ?_)
  intro log outcome reached
  cases outcome with
  | ok value => exact continued log value (reached value rfl)
  | error fault => rintro _ ⟨⟩

theorem does_ofResult {result : Result β} {after : β → Action α}
    (continued : ∀ value, result = .ok value → Does good ensures log (after value)) :
    Does good ensures log (ofResult result >>= after) := by
  cases result with
  | ok value => exact continued value rfl
  | error fault => exact does_fail fault

theorem does_check {note : String} {result : Except String β} {after : β → Action α}
    (continued : ∀ value, result = .ok value → Does good ensures log (after value)) :
    Does good ensures log (check note result >>= after) := by
  cases result with
  | ok value => exact continued value rfl
  | error text => exact does_fail _

/-- A test that ends the action with an error. -/
theorem does_guard {condition : Prop} [Decidable condition] {text : String}
    {after : Unit → Action α} (continued : ¬condition → Does good ensures log (after ())) :
    Does good ensures log (if condition then err text >>= after else after ()) := by
  split
  · exact does_fail _
  · rename_i passed
    exact continued passed

theorem does_attempt {first : Action α}
    {ensures : List (Entry operations) → Except Fault α → Prop}
    {middle : List (Entry operations) → α → Prop} (does : Does good middle log first)
    (holds : ∀ log outcome, (∀ value, outcome = .ok value → middle log value) →
      ensures log outcome) :
    Does good ensures log (attempt first) := by
  refine obeys_attempt.mpr (Obeys.mono does (fun _ _ justified => justified) ?_)
  rintro log outcome reached _ ⟨⟩
  exact holds log outcome reached

theorem does_orFatal {note : String} {action : Action α} (does : Does good ensures log action) :
    Does good ensures log (orFatal note action) := by
  refine does_bind (does_attempt does fun _ _ reached => reached) ?_
  intro log outcome reached
  split
  · exact does_pure (reached _ rfl)
  · exact does_fail _
  · exact does_fail _

end Rules

/-! ### Sending -/

section Sending

variable {good : List (Entry operations) → Op → Prop} {log : List (Entry operations)}
  {Asset : Type} [AssetRegistry Asset] [Inhabited Asset] {env : Env Asset}

theorem does_activateSoftAlarm (harmless : ∀ log op, op.harmless → good log op)
    (url text : String) : Does good (fun _ _ => True) log (activateSoftAlarm url text) := by
  unfold activateSoftAlarm
  split
  · refine does_perform (harmless _ _ rfl) fun posted => ?_
    split
    · exact does_fail _
    · exact does_pure trivial
  · exact does_pure trivial

theorem does_trackTx {α : Type} {ensures : List (Entry operations) → α → Prop}
    {eoaS txHash desc : String} {gasLimit : UInt64} {after : Unit → Action α}
    (justified : good log (.insertExecuted eoaS txHash gasLimit desc))
    (continued : ∀ log, Does good ensures log (after ())) :
    Does good ensures log (trackTx eoaS txHash gasLimit desc >>= after) :=
  does_perform justified fun _ => continued _

omit [AssetRegistry Asset] [Inhabited Asset] in
theorem does_pickPrivateKey (harmless : ∀ log op, op.harmless → good log op) :
    Does good (fun _ (key, sender) => sender = env.keyAddr key) log (pickPrivateKey env) := by
  unfold pickPrivateKey
  refine does_perform (harmless _ _ rfl) fun selected => ?_
  refine does_check fun (id, now) _ => ?_
  refine does_perform (harmless _ _ rfl) fun updated => ?_
  refine does_check fun text _ => ?_
  cases text with
  | none => exact does_fail _
  | some text => exact does_check fun key _ => does_pure rfl

/-- The transaction holds what `Send` was given, for the account or for the router. -/
structure Tx.Carries (tx : Tx) (router : Address) (useSafetyRouter : Bool) (dest : Address)
    (b_ : List UInt8) (eth : Option ℕ) : Prop where
  target : tx.target = if useSafetyRouter then router else dest
  data : tx.data = if useSafetyRouter then List.replicate 12 0 ++ dest.toList ++ b_ else b_
  value : tx.value = eth.getD 0

omit [AssetRegistry Asset] [Inhabited Asset] in
/-- A transaction is sent right after its nonce was read, unless the request is a dry run. -/
theorem does_send (harmless : ∀ log op, op.harmless → good log op) {router : Address}
    {useSafetyRouter : Bool} {chainId : ℕ} {key : PrivateKey} {sender dest : Address}
    {b : List UInt8} {eth : Option ℕ} {dryrun : Bool} (owner : sender = env.keyAddr key)
    (sends : dryrun = false → ∀ log signed,
      log.head? = some ⟨.pendingNonceAt signed.sender, .ok signed.tx.nonce⟩ →
        signed.tx.Carries router useSafetyRouter dest b eth → good log (.sendTransaction signed)) :
    Does good (fun _ _ => True) log
      (send env router useSafetyRouter chainId key sender dest b eth dryrun) := by
  unfold send
  refine does_perform (harmless _ _ rfl) fun _ => does_check fun gasLimit _ => ?_
  refine does_perform (harmless _ _ rfl) fun _ => does_check fun baseFee _ => ?_
  refine does_perform (harmless _ _ rfl) fun _ => does_check fun gasTipCap _ => ?_
  refine does_perform (harmless _ _ rfl) fun read => does_check fun nonce given => ?_
  refine does_check fun signature _ => ?_
  subst given owner
  cases dryrun with
  | true =>
      rw [if_pos rfl]
      refine does_perform (harmless _ _ rfl) fun _ => does_check fun _ _ => ?_
      exact does_pure trivial
  | false =>
      rw [if_neg Bool.false_ne_true]
      refine does_perform (sends rfl _ _ rfl ⟨rfl, rfl, rfl⟩) fun _ => ?_
      exact does_check fun _ _ => does_pure trivial

omit [Inhabited Asset] in
theorem does_sendArguments (harmless : ∀ log op, op.harmless → good log op) {router : Address}
    {useSafetyRouter : Bool} {chainId : ℕ} {key : PrivateKey} {sender dest : Address}
    {args : Args Asset} {dryrun : Bool} (owner : sender = env.keyAddr key)
    (sends : dryrun = false → ∀ log signed,
      log.head? = some ⟨.pendingNonceAt signed.sender, .ok signed.tx.nonce⟩ →
        good log (.sendTransaction signed)) :
    Does good (fun _ _ => True) log
      (sendArguments env router useSafetyRouter chainId key sender dest args dryrun) := by
  unfold sendArguments
  split
  · exact does_fail _
  · exact does_send harmless owner fun real log signed read _ => sends real log signed read

end Sending

/-! ### Mutations -/

section Mutations

variable {Asset : Type} [AssetRegistry Asset] (env : Env Asset) (r : Resolver)

/-- The mutation creates the account of this address, and not as a dry run. -/
def Mutation.CreatesFor (mutation : Mutation) (eoa : Address) : Prop :=
  ∃ createAccount mint dryrun, mutation = .createAccountExec createAccount mint dryrun ∧
    isDryrun dryrun = false ∧ isHexAddress createAccount.eoaAddr = true ∧
    hexToAddress createAccount.eoaAddr = eoa

/-- The mutation asks for a secret of this address with this nonce, not as a dry run, and with a
signature over the nonce that recovers to the address. -/
def Mutation.RequestsFor (mutation : Mutation) (eoa : Address) (nonce : Int32) : Prop :=
  ∃ eoaAddr sigV sigR sigS dryrun, mutation = .requestSecret eoaAddr nonce sigV sigR sigS dryrun ∧
    isDryrun dryrun = false ∧ isHexAddress eoaAddr = true ∧ hexToAddress eoaAddr = eoa ∧
    ∃ rBytes sBytes, hexDecodeString sigR = .ok rBytes ∧ hexDecodeString sigS = .ok sBytes ∧
      Borsh.ofLeBytes sBytes.reverse ≤ secpMaxS ∧ 0 ≤ sigV ∧ sigV ≤ 255 ∧
      env.sigToAddr (env.keccak256 (secretPreimage r.accPubKey nonce))
        (secretSig rBytes sBytes sigV) = .ok eoa

/-- What was checked of a mutation that sends a transaction. -/
def Mutation.Admitted : Mutation → Prop
  | .createAccountExec createAccount mint dryrun =>
    isDryrun dryrun = false ∧
      (∃ fresh : Untagged Asset,
        createAccountToFreshBackwardsGraph r.accPubKey createAccount = .ok fresh) ∧
      isHexAddress createAccount.eoaAddr = true ∧
      ∀ given, mint = some given → ∃ signed, createSolveArgsSigArgsMintGraph env.sum512
        env.progDalek env.usdc given.market given.outcome given.amount given.referrer
        (hexToAddress createAccount.eoaAddr) given.permit given.msTs = .ok signed
  | .requestSecret _ _ _ _ _ _ => False
  | .ninelivesMint mint dryrun =>
    isDryrun dryrun = false ∧ r.featureMintDisabled = false ∧
      ∃ amt, setString mint.amount = some amt ∧ r.minimumAmount ≤ amt
  | .claimRewards _ _ dryrun => isDryrun dryrun = false

/-- The mutation mints or claims, and not as a dry run. -/
def Mutation.Spends : Mutation → Prop
  | .ninelivesMint _ dryrun | .claimRewards _ _ dryrun => isDryrun dryrun = false
  | _ => False

/-- What a mutation performs, after what its request did before. -/
def Mutation.Performs (ctx : Context) (mutation : Mutation) (log : List (Entry operations)) :
    Op → Prop
  | .handle _ | .countSecrets _ _ => False
  | .insertSecret eoaAddr _ => ∃ eoa, eoaAddr = lowerAddr eoa ∧ mutation.CreatesFor eoa
  | .insertNonceSecret eoaAddr _ nonce =>
    ∃ eoa, eoaAddr = lowerAddr eoa ∧ mutation.RequestsFor env r eoa nonce
  | .insertExecuted eoaAddr _ _ _ =>
    (∃ eoa, eoaAddr = lowerAddr eoa ∧ mutation.CreatesFor eoa) ∨
      ∃ eoa, eoaAddr = env.addrString eoa ∧ mutation.Spends ∧ ctx.authed = true ∧
        ctx.eoa = some eoa
  | .sendTransaction signed =>
    log.head? = some ⟨.pendingNonceAt signed.sender, .ok signed.tx.nonce⟩ ∧
      mutation.Admitted env r
  | _ => True

theorem Mutation.performs_harmless (ctx : Context) (mutation : Mutation)
    (log : List (Entry operations)) (op : Op) (harmless : op.harmless) :
    mutation.Performs env r ctx log op := by
  cases op <;> trivial

variable {env r} [Inhabited Asset] {ctx : Context} {log : List (Entry operations)}

omit [Inhabited Asset] in
theorem does_alarm (mutation : Mutation) {ignored : Prop} [Decidable ignored]
    {url text final : String} {ensures : List (Entry operations) → Data → Prop} :
    Does (mutation.Performs env r ctx) ensures log
      (if ignored then activateSoftAlarm url text >>= fun _ => err final else err final) := by
  split
  · refine does_bind (does_activateSoftAlarm (mutation.performs_harmless env r ctx) url text) ?_
    exact fun _ _ _ => does_fail _
  · exact does_fail _

theorem does_executeCreation {createAccount : Model.CreateAccount} {mint : Option Model.Mint}
    {dryrun : Option Bool} {f : FreshBackwards Asset}
    (accepted : isHexAddress createAccount.eoaAddr = true)
    (admitted : isDryrun dryrun = false →
      (Mutation.createAccountExec createAccount mint dryrun).Admitted env r) :
    Does ((Mutation.createAccountExec createAccount mint dryrun).Performs env r ctx)
      (fun _ _ => True) log
      (executeCreation env r (hexToAddress createAccount.eoaAddr) f dryrun) := by
  have harmless := Mutation.performs_harmless env r ctx
    (.createAccountExec createAccount mint dryrun)
  unfold executeCreation
  refine does_bind (does_orFatal (does_pickPrivateKey harmless)) fun log (key, sender) owner => ?_
  refine does_bind (does_attempt (does_sendArguments harmless owner
    fun real log signed read => ⟨read, admitted real⟩) fun _ _ _ => trivial)
    fun log outcome _ => ?_
  split
  · exact does_alarm _
  · exact does_fail _
  · refine does_perform (harmless _ _ rfl) fun secret => ?_
    split
    · rename_i real
      have creates : (Mutation.createAccountExec createAccount mint dryrun).CreatesFor
          (hexToAddress createAccount.eoaAddr) :=
        ⟨createAccount, mint, dryrun, rfl, by simpa using real, accepted, rfl⟩
      refine does_perform ⟨_, rfl, creates⟩ fun inserted => ?_
      split
      · exact does_fail _
      · exact does_trackTx (.inl ⟨_, rfl, creates⟩) fun _ => does_pure trivial
    · exact does_pure trivial

omit [Inhabited Asset] in
theorem mint_of_tagFreshBackwards {sum512 : List UInt8 → Bytes 64} {prog : Program}
    {fresh : Untagged Asset} {asset : Asset} {market outcome amount referrer : String}
    {recipient : Address} {permit : Option Model.Permit} {msTs : String}
    {tagged : FreshBackwards Asset}
    (made : tagFreshBackwardsWithMintGraph sum512 prog fresh asset market outcome amount referrer
      recipient permit msTs = .ok tagged) :
    ∃ signed, createSolveArgsSigArgsMintGraph sum512 prog asset market outcome amount referrer
      recipient permit msTs = .ok signed := by
  unfold tagFreshBackwardsWithMintGraph at made
  cases signs : createSolveArgsSigArgsMintGraph sum512 prog asset market outcome amount referrer
      recipient permit msTs with
  | ok signed => exact ⟨signed, rfl⟩
  | error fault =>
      rw [signs] at made
      cases made

theorem does_createAccountExec (createAccount : Model.CreateAccount) (mint : Option Model.Mint)
    (dryrun : Option Bool) :
    Does ((Mutation.createAccountExec createAccount mint dryrun).Performs env r ctx)
      (fun _ _ => True) log (createAccountExec env r createAccount mint dryrun) := by
  unfold createAccountExec
  refine does_ofResult fun fresh created => ?_
  refine does_guard fun refused => ?_
  have accepted : isHexAddress createAccount.eoaAddr = true := by simpa using refused
  cases mint with
  | none =>
      exact does_executeCreation accepted fun real =>
        ⟨real, ⟨fresh, ok_of_wrap_eq_ok created⟩, accepted, fun _ none => by cases none⟩
  | some given =>
      refine does_ofResult fun f tagged => does_executeCreation accepted fun real => ?_
      refine ⟨real, ⟨fresh, ok_of_wrap_eq_ok created⟩, accepted, ?_⟩
      rintro _ ⟨⟩
      exact mint_of_tagFreshBackwards (ok_of_wrap_eq_ok tagged)

omit [AssetRegistry Asset] [Inhabited Asset] in
theorem does_checkCode {good : List (Entry operations) → Op → Prop}
    (harmless : ∀ log op, op.harmless → good log op) (eoa : Address) :
    Does good (fun _ _ => True) log (checkCode env r eoa) := by
  unfold checkCode
  split
  · refine does_perform (harmless _ _ rfl) fun code => ?_
    split
    · exact does_fail _
    · exact does_fail _
    · exact does_pure trivial
  · exact does_pure trivial

omit [Inhabited Asset] in
theorem does_requestSecret (eoaAddr : String) (nonce sigV : Int32) (sigR sigS : String)
    (dryrun : Option Bool) :
    Does ((Mutation.requestSecret eoaAddr nonce sigV sigR sigS dryrun).Performs env r ctx)
      (fun _ _ => True) log (requestSecret env r eoaAddr nonce sigV sigR sigS dryrun) := by
  have harmless := Mutation.performs_harmless env r ctx
    (.requestSecret eoaAddr nonce sigV sigR sigS dryrun)
  unfold requestSecret
  refine does_guard fun refused => ?_
  refine does_ofResult fun rBytes decodedR => does_ofResult fun sBytes decodedS => ?_
  refine does_guard fun malleable => does_guard fun outside => ?_
  refine does_check fun recovered recovers => does_guard fun other => ?_
  have insertsRow : isDryrun dryrun = false →
      (Mutation.requestSecret eoaAddr nonce sigV sigR sigS dryrun).RequestsFor env r
        (hexToAddress eoaAddr) nonce := by
    intro real
    refine ⟨eoaAddr, sigV, sigR, sigS, dryrun, rfl, real, by simpa using refused, rfl, rBytes,
      sBytes, ok_of_wrap_eq_ok decodedR, ok_of_wrap_eq_ok decodedS, Nat.not_lt.mp malleable, ?_⟩
    rw [not_or, Int32.not_lt, Int32.not_lt] at outside
    rw [ne_eq, not_not] at other
    exact ⟨outside.1, outside.2, other ▸ recovers⟩
  refine does_bind (does_checkCode harmless _) fun log _ _ => ?_
  refine does_perform (harmless _ _ rfl) fun secret => ?_
  split
  · rename_i real
    refine does_perform ⟨_, rfl, insertsRow (by simpa using real)⟩ fun inserted => ?_
    split
    · exact does_fail _
    · exact does_pure trivial
  · exact does_pure trivial

omit [AssetRegistry Asset] [Inhabited Asset] in
theorem does_checkMinimum {good : List (Entry operations) → Op → Prop} (amount : String) :
    Does good (fun _ _ => ∃ amt, setString amount = some amt ∧ r.minimumAmount ≤ amt) log
      (checkMinimum r amount) := by
  unfold checkMinimum
  split
  · exact does_fail _
  · rename_i amt number
    split
    · exact does_fail _
    · rename_i large
      exact does_pure ⟨amt, number, Int.not_lt.mp large⟩

theorem does_ninelivesMint (ctx : Context) (mint : Model.Mint) (dryrun : Option Bool) :
    Does ((Mutation.ninelivesMint mint dryrun).Performs env r ctx) (fun _ _ => True) log
      (ninelivesMint env r ctx mint dryrun) := by
  have harmless := Mutation.performs_harmless env r ctx (.ninelivesMint mint dryrun)
  unfold ninelivesMint
  refine does_guard fun enabled => ?_
  refine does_bind (does_checkMinimum mint.amount) fun log _ large => does_guard fun refused => ?_
  split
  · exact does_fail _
  · rename_i eoa named
    refine does_bind (does_orFatal (does_pickPrivateKey harmless)) fun log (key, sender) owner => ?_
    dsimp only
    split
    · exact does_alarm _
    · exact does_fail _
    · refine does_check fun solveV2 _ => ?_
      refine does_bind (does_attempt (does_sendArguments harmless owner
        fun real log signed read => ⟨read, real, by simpa using enabled, large⟩)
        fun _ _ _ => trivial) fun log outcome _ => ?_
      split
      · exact does_alarm _
      · exact does_fail _
      · split
        · rename_i real
          have spends : isDryrun dryrun = false := by simpa using real
          exact does_trackTx (.inr ⟨eoa, rfl, spends, by simpa using refused, named⟩)
            fun _ => does_pure trivial
        · exact does_pure trivial

theorem does_claimRewards (ctx : Context) (markets : Pools String) (msTs : String)
    (dryrun : Option Bool) :
    Does ((Mutation.claimRewards markets msTs dryrun).Performs env r ctx) (fun _ _ => True) log
      (claimRewards env r ctx markets msTs dryrun) := by
  have harmless := Mutation.performs_harmless env r ctx (.claimRewards markets msTs dryrun)
  unfold claimRewards
  refine does_guard fun _ => does_guard fun refused => ?_
  split
  · exact does_fail _
  · rename_i eoa named
    refine does_bind (does_orFatal (does_pickPrivateKey harmless)) fun log (key, sender) owner => ?_
    refine does_ofResult fun f _ => does_check fun solveV2 _ => ?_
    refine does_bind (does_attempt (does_sendArguments harmless owner
      fun real log signed read => ⟨read, real⟩) fun _ _ _ => trivial) fun log outcome _ => ?_
    split
    · refine does_bind (does_activateSoftAlarm harmless _ _) fun _ _ _ => does_fail _
    · exact does_fail _
    · split
      · rename_i real
        have spends : isDryrun dryrun = false := by simpa using real
        exact does_trackTx (.inr ⟨eoa, rfl, spends, by simpa using refused, named⟩)
          fun _ => does_pure trivial
      · exact does_pure trivial

/-- Every operation of a mutation is one of those it is said to perform. -/
theorem does_resolve (ctx : Context) (mutation : Mutation) :
    Does (mutation.Performs env r ctx) (fun _ _ => True) log (resolve env r ctx mutation) := by
  cases mutation with
  | createAccountExec createAccount mint dryrun => exact does_createAccountExec _ _ _
  | requestSecret eoaAddr nonce sigV sigR sigS dryrun => exact does_requestSecret _ _ _ _ _ _
  | ninelivesMint mint dryrun => exact does_ninelivesMint _ _ _
  | claimRewards markets msTs dryrun => exact does_claimRewards _ _ _ _

/-- The mutations of a request, each after the ones before it. -/
theorem does_resolveAll {good : List (Entry operations) → Op → Prop} (ctx : Context)
    {mutations : List Mutation}
    (performs : ∀ mutation ∈ mutations, ∀ log op,
      mutation.Performs env r ctx log op → good log op) :
    ∀ {log}, Does good (fun _ _ => True) log (resolveAll env r ctx mutations) := by
  induction mutations with
  | nil => exact does_pure trivial
  | cons mutation rest ih =>
      intro log
      have first : Does good (fun _ _ => True) log (resolve env r ctx mutation) :=
        Obeys.mono (does_resolve ctx mutation) (performs mutation (by simp)) fun _ _ kept => kept
      refine does_bind (does_attempt first fun _ _ _ => trivial) fun log outcome _ => ?_
      split
      · exact does_fail _
      · refine does_bind (ih fun mutation member => performs mutation ?_) fun _ _ _ => ?_
        · exact List.mem_cons_of_mem _ member
        · exact does_pure trivial

end Mutations

/-! ### Requests -/

section Requests

variable {Asset : Type} [AssetRegistry Asset] [Inhabited Asset] (env : Env Asset) (r : Resolver)

/-- The header is a spelling of the address and a secret in hexadecimal digits. -/
def Request.BearerOf (request : Request) (eoa : Address) (bearer : String) : Prop :=
  ∃ eoaText : String, request.authorization.toList = eoaText.toList ++ ':' :: bearer.toList ∧
    isHexAddress eoaText = true ∧ hexToAddress eoaText = eoa ∧ Succeeds (hexDecodeString bearer)

theorem append_colon_inj {left right front back : List Char} (leftPlain : ':' ∉ left)
    (rightPlain : ':' ∉ right) (same : left ++ ':' :: front = right ++ ':' :: back) :
    left = right ∧ front = back := by
  induction left generalizing right with
  | nil =>
      cases right with
      | nil => exact ⟨rfl, (List.cons.inj same).2⟩
      | cons c rest =>
          exact absurd (List.cons.inj same).1 (by simp at rightPlain; exact rightPlain.1)
  | cons c rest ih =>
      cases right with
      | nil => exact absurd (List.cons.inj same).1.symm (by simp at leftPlain; exact leftPlain.1)
      | cons d others =>
          simp only [List.mem_cons, not_or] at leftPlain rightPlain
          rcases List.cons.inj same with ⟨rfl, tails⟩
          rcases ih leftPlain.2 rightPlain.2 tails with ⟨rfl, backs⟩
          exact ⟨rfl, backs⟩

/-- A header names one address and one secret. -/
theorem Request.BearerOf.unique {request : Request} {eoa other : Address}
    {bearer otherBearer : String} (header : request.BearerOf eoa bearer)
    (again : request.BearerOf other otherBearer) : eoa = other ∧ bearer = otherBearer := by
  rcases header with ⟨left, spelled, accepted, rfl, _⟩
  rcases again with ⟨right, respelled, reaccepted, rfl, _⟩
  rw [spelled] at respelled
  rcases append_colon_inj (colon_not_mem accepted) (colon_not_mem reaccepted) respelled with
    ⟨sameText, sameBearer⟩
  exact ⟨congrArg hexToAddress (String.toList_inj.mp sameText), String.toList_inj.mp sameBearer⟩

/-- The request may be served with this context: as the address of its header, if as any. -/
def Request.Admits (request : Request) (ctx : Context) : Prop :=
  ctx.authed = true → ∃ eoa bearer, ctx.eoa = some eoa ∧ request.BearerOf eoa bearer

/-- What a request performs, after what it did before. -/
def Request.Performs (request : Request) (log : List (Entry operations)) : Op → Prop
  | .handle ctx => ctx.authed = true → ∃ eoa bearer count, ctx.eoa = some eoa ∧
      request.BearerOf eoa bearer ∧ 0 < count ∧
      log.head? = some ⟨.countSecrets (lowerAddr eoa) (toLower bearer), .ok count⟩
  | .countSecrets _ _ => True
  | op => op.harmless ∨ ∃ mutation ∈ request.mutations, ∃ ctx, request.Admits ctx ∧
      mutation.Performs env r ctx log op

variable {env r}

theorem eq_of_splitOn {text left right : List Char} (parts : text.splitOn ':' = [left, right]) :
    text = left ++ ':' :: right := by
  have joined : [':'].intercalate (text.splitOn ':') = text := List.intercalate_splitOn ':'
  rw [parts] at joined
  simpa [List.intercalate] using joined.symm

theorem does_serveGraph {request : Request} {log : List (Entry operations)} {ctx : Context}
    (handled : request.Performs env r log (.handle ctx)) :
    Does (request.Performs env r) (fun _ _ => True) log
      (serveGraph env r ctx request.mutations) := by
  have admits : request.Admits ctx := by
    intro authed
    rcases handled authed with ⟨eoa, bearer, _, named, header, _⟩
    exact ⟨eoa, bearer, named, header⟩
  refine does_perform handled fun _ => ?_
  refine does_bind (does_resolveAll ctx ?_) fun _ _ _ => does_pure trivial
  intro mutation member log op performed
  cases op with
  | handle _ => exact performed.elim
  | countSecrets _ _ => trivial
  | _ => exact .inr ⟨mutation, member, ctx, admits, performed⟩

/-- Every operation of a request is one of those it is said to perform. -/
theorem does_serveHTTP (request : Request) :
    Does (request.Performs env r) (fun _ _ => True) [] (serveHTTP env r request) := by
  unfold serveHTTP
  split
  · exact does_pure trivial
  split
  · exact does_serveGraph fun authed => by cases authed
  split
  · exact does_serveGraph fun authed => by cases authed
  split
  · rename_i eoaText secretText parts
    dsimp only
    split
    · exact does_pure trivial
    · rename_i refused
      split
      · exact does_pure trivial
      · rename_i bytes decoded
        refine does_perform trivial fun counted => ?_
        split
        · exact does_fail _
        · exact does_pure trivial
        · rename_i count positive
          refine does_serveGraph fun _ => ?_
          have spelled := eq_of_splitOn parts
          refine ⟨hexToAddress (String.ofList eoaText), String.ofList secretText, count,
            congrArg some (hexToAddress_lowerAddr _), ?_, Nat.pos_of_ne_zero ?_, rfl⟩
          · refine ⟨String.ofList eoaText, ?_, by simpa using refused, rfl, bytes, decoded⟩
            simpa using spelled
          · rintro rfl
            exact positive rfl
  · exact does_pure trivial

/-- A request is served as the address of its header, if as any. -/
theorem admits_serveHTTP (request : Request) :
    Does (fun log _ => ∀ ctx, ⟨.handle ctx, ()⟩ ∈ log → request.Admits ctx)
      (fun log _ => ∀ ctx, ⟨.handle ctx, ()⟩ ∈ log → request.Admits ctx) []
      (serveHTTP env r request) := by
  have performs : Does (request.Performs env r) (fun _ _ => True) [] (serveHTTP env r request) :=
    does_serveHTTP request
  let admitted (log : List (Entry operations)) : Prop :=
    ∀ ctx, ⟨.handle ctx, ()⟩ ∈ log → request.Admits ctx
  have nothing : admitted [] := nofun
  refine Obeys.mono (Obeys.keeps performs ?_ nothing) (fun _ _ both => both.2)
    fun _ _ both _ _ => both.2
  intro log op result performs admitted ctx member authed
  rcases List.mem_cons.mp member with same | older
  · cases same
    rcases performs authed with ⟨eoa, bearer, _, named, header, _⟩
    exact ⟨eoa, bearer, named, header⟩
  · exact admitted ctx older authed

end Requests

end Go

end SuperpositionAccounts
