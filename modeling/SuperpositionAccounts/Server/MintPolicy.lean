import SuperpositionAccounts.Server.Accepted
import SuperpositionAccounts.Server.Sending
import SuperpositionAccounts.Server.Sessions

/-!
# The policy on mints

Minting can be disabled, and a mint has a minimum amount. `NinelivesMint` checks
both before anything else, but reads the amount without looking whether it is a
number. `CreateAccountExec` signs and sends the same arguments for an account it
creates and makes neither check. For every configuration and every mutation this
file decides whether the policy holds.
-/

namespace SuperpositionAccounts

namespace Go

open Threads Threads.Proc Result SuperpositionAccounts.Go.Action

variable {Asset : Type} [AssetRegistry Asset] [Inhabited Asset] (env : Env Asset) (r : Resolver)

/-- The mint of a mutation. -/
def Mutation.carriedMint : Mutation → Option Model.Mint
  | .createAccountExec _ mint _ => mint
  | .ninelivesMint mint _ => some mint
  | _ => none

/-- Minting is enabled and the amount is large enough. -/
def MintAllowed (mint : Model.Mint) : Prop :=
  r.featureMintDisabled = false ∧
    ∃ amount : ℤ, Numeral mint.amount amount ∧ r.minimumAmount ≤ amount

/-- A mutation with a mint sends a transaction only if the mint is allowed, and ends with an error
if its amount is no number. -/
def PolicyHolds (ctx : Context) (mutation : Mutation) : Prop :=
  ∀ mint, mutation.carriedMint = some mint →
    (ComesToSend (resolve env r ctx mutation) → MintAllowed r mint) ∧
    ((∀ amount, ¬Numeral mint.amount amount) →
      (∀ data, ¬Reaches (resolve env r ctx mutation) (.ret data)) ∧
        ∀ fault, Reaches (resolve env r ctx mutation) (.fail fault) → ∃ text, fault = .err text)

/-- What the requests have to meet for the policy to hold. -/
def PolicyCondition : Mutation → Prop
  | .createAccountExec createAccount (some mint) dryrun =>
    (createAccount.WellFormed → isHexAddress createAccount.eoaAddr = true → mint.WellFormed →
        isDryrun dryrun = false → MintAllowed r mint) ∧
      ((∀ amount, ¬Numeral mint.amount amount) → Unbroken createAccount.checks ∧
        (createAccount.WellFormed → isHexAddress createAccount.eoaAddr = true →
          ¬Overlong 8 mint.outcome))
  | .ninelivesMint mint _ => r.featureMintDisabled = true ∨ ∃ amount, Numeral mint.amount amount
  | _ => True

/-- Some key of the table can sign. -/
def Env.CanSign : Prop :=
  ∃ text key, env.hexToECDSA text = .ok key ∧ ∀ tx, ∃ signature, env.signTx key tx = .ok signature

/-! ### Runs that send -/

variable {env r}

/-- A creation whose arguments were built is sent, unless it is a dry run. -/
theorem comesToSend_executeCreation (canSign : env.CanSign) (eoa : Address)
    (f : FreshBackwards Asset) {dryrun : Option Bool} (real : isDryrun dryrun = false) :
    ComesToSend (executeCreation env r eoa f dryrun) := by
  rcases canSign with ⟨text, key, known, signs⟩
  unfold executeCreation
  refine sends_later (reaches_orFatal (reaches_pickPrivateKey known)) ?_
  refine sends_inside ?_
  rw [real]
  exact comesToSend_send signs

theorem comesToSend_createAccountExec (answers : env.progDalek.Answers) (canSign : env.CanSign)
    {createAccount : Model.CreateAccount} {mint : Model.Mint} {dryrun : Option Bool}
    (formed : createAccount.WellFormed) (accepted : isHexAddress createAccount.eoaAddr = true)
    (mintFormed : mint.WellFormed) (real : isDryrun dryrun = false) :
    ComesToSend (createAccountExec env r createAccount (some mint) dryrun) := by
  have builds : Succeeds (createAccountToFreshBackwardsGraph r.accPubKey createAccount :
      Result (Untagged Asset)) := (succeeds_createAccount_iff _ _).mpr formed
  rcases builds with ⟨fresh, built⟩
  rcases (succeeds_tag_iff answers env.sum512 fresh env.usdc mint
    (hexToAddress createAccount.eoaAddr)).mpr mintFormed with ⟨f, tagged⟩
  unfold createAccountExec
  refine sends_ofResult (by rw [built]; rfl) ?_
  refine sends_guard (by simp [accepted]) ?_
  exact sends_ofResult (by rw [tagged]; rfl)
    (comesToSend_executeCreation canSign _ _ real)

/-! ### Requests whose amount is no number -/

/-- A part that was not read ends the action, with an error unless it panicked. -/
theorem ofResult_wrap_fails {α β : Type} {result : Result β} (failed : ¬Succeeds result)
    (note : String) :
    ∃ fault, (∀ after : β → Action α, ofResult (wrap note result) >>= after = .fail fault) ∧
      ((∃ text, fault = .err text) ↔ ¬Panics result) := by
  cases result with
  | ok value => exact absurd (succeeds_ok value) failed
  | error fault =>
      cases fault with
      | err text => exact ⟨.err (note ++ text), fun _ => rfl, by simp [Panics, Errs, errorf]⟩
      | panic text => exact ⟨.panic text, fun _ => rfl, by simp [Panics, Errs, errorf]⟩
      | fatal text => exact ⟨.fatal text, fun _ => rfl, by simp [Panics, Errs, errorf]⟩

/-- An action that is an error, or not, at once. -/
theorem fails_with_err_iff {α : Type} {fault : Fault} :
    ((∀ value : α, ¬Reaches (.fail fault : Action α) (.ret value)) ∧
        ∀ other, Reaches (.fail fault : Action α) (.fail other) → ∃ text, other = .err text) ↔
      ∃ text, fault = .err text := by
  constructor
  · intro ends
    exact ends.2 fault (.refl _)
  · intro isErr
    refine ⟨fun value reaches => ?_, fun other reaches => ?_⟩
    · cases eq_of_fail_reaches reaches
    · cases eq_of_fail_reaches reaches
      exact isErr

variable (r) in
theorem createAccountExec_unread (answers : env.progDalek.Answers)
    (createAccount : Model.CreateAccount) {mint : Model.Mint} (dryrun : Option Bool)
    (unread : ∀ amount, ¬Numeral mint.amount amount) :
    ∃ fault, createAccountExec env r createAccount (some mint) dryrun = .fail fault ∧
      ((∃ text, fault = .err text) ↔ Unbroken createAccount.checks ∧
        (createAccount.WellFormed → isHexAddress createAccount.eoaAddr = true →
          ¬Overlong 8 mint.outcome)) := by
  have formed : Succeeds (createAccountToFreshBackwardsGraph r.accPubKey createAccount :
      Result (Untagged Asset)) ↔ createAccount.WellFormed := succeeds_createAccount_iff _ _
  have calm : ¬Panics (createAccountToFreshBackwardsGraph r.accPubKey createAccount :
      Result (Untagged Asset)) ↔ Unbroken createAccount.checks :=
    not_panics_createAccount_iff _ _
  unfold createAccountExec
  by_cases built : Succeeds (createAccountToFreshBackwardsGraph r.accPubKey createAccount :
    Result (Untagged Asset))
  · have wellFormed := formed.mp built
    rcases built with ⟨fresh, made⟩
    have unbroken : Unbroken createAccount.checks := calm.mp (by simp [made])
    by_cases accepted : isHexAddress createAccount.eoaAddr = true
    · have unsigned : ¬Succeeds (tagFreshBackwardsWithMintGraph env.sum512 env.progDalek fresh
          env.usdc mint.market mint.outcome mint.amount mint.referrer
          (hexToAddress createAccount.eoaAddr) mint.permit mint.msTs) := by
        rw [succeeds_tag_iff answers]
        rintro ⟨_, ⟨amount, numeral, _⟩, _⟩
        exact unread amount numeral
      rcases ofResult_wrap_fails unsigned "mint tagging: " with ⟨fault, fails, isErr⟩
      refine ⟨fault, ?_, ?_⟩
      · rw [made]
        exact (if_neg (by simp [accepted])).trans (fails _)
      · rw [isErr, not_panics_tag_iff _ _ _ _ _ _ unread]
        exact ⟨fun short => ⟨unbroken, fun _ _ => short⟩, fun both => both.2 wellFormed accepted⟩
    · refine ⟨.err "not eoa address", ?_, ?_⟩
      · rw [made]
        exact if_pos (by simpa using accepted)
      · exact iff_of_true ⟨_, rfl⟩ ⟨unbroken, fun _ other => absurd other accepted⟩
  · rcases ofResult_wrap_fails built "create account: " with ⟨fault, fails, isErr⟩
    refine ⟨fault, fails _, ?_⟩
    rw [isErr, calm]
    exact (and_iff_left fun wellFormed => absurd (formed.mpr wellFormed) built).symm

/-! ### The policy -/

/-- What was checked of a mutation that sends. -/
theorem admitted_of_comesToSend {ctx : Context} {mutation : Mutation}
    (sends : ComesToSend (resolve env r ctx mutation)) : mutation.Admitted env r := by
  rcases sends with ⟨signed, next, reaches, _⟩
  rcases Obeys.of_reaches (does_resolve ctx mutation) reaches with ⟨log, _, admitted⟩
  exact admitted

theorem policyHolds_createAccountExec_iff (answers : env.progDalek.Answers)
    (canSign : env.CanSign) (ctx : Context) (createAccount : Model.CreateAccount)
    (mint : Model.Mint) (dryrun : Option Bool) :
    PolicyHolds env r ctx (.createAccountExec createAccount (some mint) dryrun) ↔
      PolicyCondition r (.createAccountExec createAccount (some mint) dryrun) := by
  simp only [PolicyHolds, Mutation.carriedMint, Option.some.injEq, forall_eq', PolicyCondition]
  refine and_congr ?_ (forall_congr' fun unread => ?_)
  · constructor
    · intro policy formed accepted mintFormed real
      exact policy (comesToSend_createAccountExec answers canSign formed accepted mintFormed real)
    · intro condition sends
      rcases admitted_of_comesToSend sends with ⟨real, built, accepted, minted⟩
      exact condition ((succeeds_createAccount_iff _ _).mp built) accepted
        ((succeeds_mint_iff answers _ _ _ _).mp (minted mint rfl)) real
  · rcases createAccountExec_unread r answers createAccount dryrun unread with
      ⟨fault, fails, isErr⟩
    rw [resolve, fails, fails_with_err_iff, isErr]

theorem ninelivesMint_disabled (disabled : r.featureMintDisabled = true) (ctx : Context)
    (mint : Model.Mint) (dryrun : Option Bool) :
    ninelivesMint env r ctx mint dryrun = .fail (.err "mint disabled") :=
  if_pos disabled

/-- An amount that is no number is compared all the same. -/
theorem ninelivesMint_unread (enabled : r.featureMintDisabled ≠ true) (ctx : Context)
    {mint : Model.Mint} (dryrun : Option Bool) (unread : setString mint.amount = none) :
    ninelivesMint env r ctx mint dryrun =
      .fail (.panic "runtime error: invalid memory address or nil pointer dereference") := by
  refine (if_neg enabled).trans ?_
  rw [checkMinimum, unread]
  rfl

theorem policyHolds_ninelivesMint_iff (ctx : Context) (mint : Model.Mint) (dryrun : Option Bool) :
    PolicyHolds env r ctx (.ninelivesMint mint dryrun) ↔
      PolicyCondition r (.ninelivesMint mint dryrun) := by
  simp only [PolicyHolds, Mutation.carriedMint, Option.some.injEq, forall_eq', PolicyCondition]
  have allowed : ComesToSend (resolve env r ctx (.ninelivesMint mint dryrun)) →
      MintAllowed r mint := by
    intro sends
    rcases admitted_of_comesToSend sends with ⟨_, enabled, amount, number, large⟩
    exact ⟨enabled, amount, (setString_eq_some_iff _ _).mp number, large⟩
  rw [and_iff_right allowed]
  by_cases disabled : r.featureMintDisabled = true
  · refine iff_of_true (fun _ => ?_) (.inl disabled)
    rw [resolve, ninelivesMint_disabled disabled]
    exact fails_with_err_iff.mpr ⟨_, rfl⟩
  · cases spelled : setString mint.amount with
    | some amount =>
        have numeral := (setString_eq_some_iff _ _).mp spelled
        exact iff_of_true (fun unread => absurd numeral (unread amount)) (.inr ⟨amount, numeral⟩)
    | none =>
        have unread : ∀ amount, ¬Numeral mint.amount amount := by
          intro amount numeral
          rw [← setString_eq_some_iff, spelled] at numeral
          cases numeral
        refine iff_of_false (fun ends => ?_) ?_
        · have isErr := ends unread
          rw [resolve, ninelivesMint_unread disabled ctx dryrun spelled,
            fails_with_err_iff] at isErr
          rcases isErr with ⟨text, panics⟩
          cases panics
        · rintro (off | ⟨amount, numeral⟩)
          · exact disabled off
          · exact unread amount numeral

/-- For which mutations the policy on mints holds, in every configuration. -/
theorem mint_policy_iff (answers : env.progDalek.Answers) (canSign : env.CanSign) (ctx : Context)
    (mutation : Mutation) : PolicyHolds env r ctx mutation ↔ PolicyCondition r mutation := by
  cases mutation with
  | createAccountExec createAccount mint dryrun =>
      cases mint with
      | none => exact iff_of_true (fun _ carried => by cases carried) trivial
      | some mint => exact policyHolds_createAccountExec_iff answers canSign ctx _ mint dryrun
  | requestSecret _ _ _ _ _ _ => exact iff_of_true (fun _ carried => by cases carried) trivial
  | ninelivesMint mint dryrun => exact policyHolds_ninelivesMint_iff ctx mint dryrun
  | claimRewards _ _ _ => exact iff_of_true (fun _ carried => by cases carried) trivial

/-! ### Known answers: a mint of one unit, with minting disabled and a minimum of five -/

namespace Known

def senderKeyText : String :=
  "4646464646464646464646464646464646464646464646464646464646464646"

def senderKey : PrivateKey :=
  Bytes.ofNat 32 0x4646464646464646464646464646464646464646464646464646464646464646

/-- The signing program and the transaction's signature on the inputs of the run below. -/
def mintEnv : Env KnownAsset :=
  { Known.env with
    sum512 := nonceSum512
    progDalek := nonceProgram
    hexToECDSA := fun text =>
      if text = senderKeyText then .ok senderKey else .error "invalid length, need 256 bits"
    keyAddr := fun key => if key = senderKey then owner else default
    signTx := fun _ _ => .ok (Bytes.ofNat 65
      0x7f1bb42643c4484db2b250a1e7b8bf358ee077df3a0c6f99d32558d81ebd39d93f53bb5af38f1eb36f5172ae4be670dd8bfcc2beb224a6927559178b31ea4de701) }

def mintDisabled : Resolver :=
  { resolver with featureMintDisabled := true, minimumAmount := 5000000 }

def creation : Model.CreateAccount where
  eoaAddr := "0x2222222222222222222222222222222222222222"
  sigV := 27
  sigR := "7777777777777777777777777777777777777777777777777777777777777777"
  sigS := "6666666666666666666666666666666666666666666666666666666666666666"
  authority := none

def smallMint : Model.Mint where
  market := nonceMint.market
  outcome := nonceMint.outcome
  amount := "1000000"
  permit := none
  referrer := ""
  msTs := "1"

def creating : Request where
  method := "POST"
  authorization := ""
  mutations := [.createAccountExec creation (some smallMint) none]

def creationRun : Option (ServerConfig monthAfter) :=
  Config.run (serveHTTP mintEnv mintDisabled)
    ⟨{ migrated with db := { migrated.db with senderKeys := [⟨1, senderKeyText, none⟩] } }, [], []⟩
    [.arrive creating, .perform 0 .plain, .perform 0 .plain, .perform 0 .plain,
      .perform 0 (.number 200000), .perform 0 (.number 100000000), .perform 0 (.number 1),
      .perform 0 .plain, .perform 0 .plain]

/-- The calldata of the mint. -/
def smallMintCd : Vec UInt8 :=
  newMint (Bytes.ofNat 8 0x0102030405060708) (Bytes.ofNat 32 1000000) default
    (Bytes.ofNat 20 0x2222222222222222222222222222222222222222)

end Known

/-- An account creation sends a mint below the minimum while minting is disabled, and a mint whose
amount is no number panics. -/
theorem disabled_mint_sent :
    (Known.creationRun.map fun config => config.state.accepted.map fun signed =>
        (signed.sender, decide (Known.smallMintCd.toList <:+: signed.tx.data))) =
      some [(Known.owner, true)] ∧
    resolve Known.mintEnv Known.resolver .background
        (.ninelivesMint { Known.smallMint with amount := "one" } none) =
      .fail (.panic "runtime error: invalid memory address or nil pointer dereference") := by
  refine ⟨by decide +kernel, ?_⟩
  have enabled : Known.resolver.featureMintDisabled ≠ true := Bool.false_ne_true
  have unread : setString "one" = none := by decide
  rw [resolve]
  exact ninelivesMint_unread enabled .background none unread

/-- `NinelivesMint` keeps the policy for an amount that is a number. -/
theorem mint_policy_known :
    PolicyHolds Known.mintEnv Known.mintDisabled .background
      (.ninelivesMint Known.smallMint none) := by
  have canSign : Known.mintEnv.CanSign := by
    refine ⟨Known.senderKeyText, Known.senderKey, ?_, fun _ => ⟨_, rfl⟩⟩
    simp only [Known.mintEnv, if_true]
  exact (mint_policy_iff nonceProgram_answers canSign _ _).mpr (.inl rfl)

end Go

end SuperpositionAccounts
