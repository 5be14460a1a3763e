import SuperpositionAccounts.Account.Success
import SuperpositionAccounts.CallTree.Surroundings
import SuperpositionAccounts.Tokens.Ledger

/-!
# What a solve lets its target spend

A solve pulls the tokens of its `from` entries into the account and approves its
target for each of them. The tokens here are standard ones: they keep a ledger,
and their calls change nothing else. A pull adds to the account's balance, while
an approval overwrites the one before. So the target may spend what was pulled
exactly if no entry takes something of a token that a later entry names again.
-/

namespace SuperpositionAccounts

open CallTree Tokens

/-! ### Standard tokens -/

/-- What a call that succeeds does to the ledger, if the account makes it. A transfer also uses up
some of the account's own allowance. Of other contracts nothing is said. -/
def TokenStep (self : Address) (before after : Ledger Address) : Query → Prop
  | .permit token owner spender value _ _ _ _ =>
    after = before.setAllowance token owner spender value.toNat
  | .transferFrom token sender recipient amount =>
    amount.toNat ≤ before.balance token sender ∧
      ∃ left, after = (before.transfer token sender recipient amount.toNat).setAllowance token
        sender self left
  | .approve token spender amount => after = before.setAllowance token self spender amount.toNat
  | .balanceOf _ _ | .codeHash _ | .allowed _ _ => after = before
  | .call _ _ | .create2 _ _ | .delegate _ _ => True

/-- Surroundings whose state has the ledger of standard tokens. -/
structure Standard (account : Address) (around : Surroundings accountSignature)
    (ledger : around.State → Ledger Address) : Prop where
  succeeds : ∀ state query, (around.respond state query).1.ok = true →
    TokenStep account (ledger state) (ledger (around.respond state query).2) query
  fails : ∀ state query, (around.respond state query).1.ok = false →
    ledger (around.respond state query).2 = ledger state

section Solve

variable {self : Address} {around : Surroundings accountSignature}
  {ledger : around.State → Ledger Address} {good : Query → around.State → Prop}
  {own : Slot → U} {state : around.State}

/-- A question of the account that moves nothing. -/
theorem Standard.ledger_kept (standard : Standard self around ledger) (query : Query)
    (still : ∀ before after, TokenStep self before after query → after = before) :
    ledger (around.respond state query).2 = ledger state := by
  cases outcome : (around.respond state query).1.ok with
  | true => exact still _ _ (standard.succeeds state query outcome)
  | false => exact standard.fails state query outcome

theorem tells_callOrRevert {query : Query}
    {post : Unit → (Slot → U) → around.State → Prop} (asks : good query state)
    (holds : (around.respond state query).1.ok = true →
      post () own (around.respond state query).2) :
    Prog.Tells around good post (callOrRevert query) own state :=
  ⟨asks, Prog.tells_require holds⟩

theorem tells_exchange {slot : Slot} :
    Prog.Tells around good (fun _ _ after => after = state) (exchange slot) own state := by
  refine (Prog.tells_bind (S := accountSignature)).mpr ?_
  exact (Prog.tells_bind (S := accountSignature)).mpr (Prog.tells_require fun _ => rfl)

variable {Asset : Type} [AssetRegistry Asset] {imm : Imm}

/-- The token and the amount of an entry. -/
def pull (imm : Imm) (fromArgs : FromArgs Asset) : Option Address × ℕ :=
  (AssetRegistry.addr fromArgs.asset imm.network, fromArgs.toTake.toNat)

/-- What the entries take of a token. -/
def pulled (imm : Imm) (token : Address) (entries : List (FromArgs Asset)) : ℕ :=
  total (some token) (entries.map (pull imm))

/-- The account got what the entries take, and the target may spend as much. -/
def SpendsWhatWasPulled (imm : Imm) (self target : Address) (entries : List (FromArgs Asset))
    (before now : Ledger Address) : Prop :=
  ∀ entry ∈ entries, ∀ token, AssetRegistry.addr entry.asset imm.network = some token →
    now.balance token self = before.balance token self + pulled imm token entries ∧
      now.allowance token self target = pulled imm token entries

/-- Of the entries that name the same token all but the last take nothing. -/
def OnlyLastTakes (imm : Imm) (entries : List (FromArgs Asset)) : Prop :=
  entries.Pairwise fun entry later =>
    AssetRegistry.addr entry.asset imm.network = AssetRegistry.addr later.asset imm.network →
      entry.toTake.toNat = 0

/-- The queries of a solve before and after it calls the target. -/
def Query.isCall : Query → Bool
  | .call _ _ => true
  | _ => false

theorem tells_usePermit (standard : Standard self around ledger)
    (quiet : ∀ query state, query.isCall = false → good query state) (permitOwner : Address)
    (permit : Permit Asset) :
    Prog.Tells around good (fun _ _ after => (ledger after).balance = (ledger state).balance)
      (usePermit imm self permitOwner permit) own state := by
  rw [usePermit, Prog.tells_bind]
  refine Prog.tells_unwrap fun token _ => tells_callOrRevert (quiet _ _ rfl) fun outcome => ?_
  rw [standard.succeeds _ _ outcome, Ledger.balance_setAllowance]

theorem tells_usePermit_forM (standard : Standard self around ledger)
    (quiet : ∀ query state, query.isCall = false → good query state) (permitOwner : Address)
    (permits : List (Permit Asset)) :
    Prog.Tells around good (fun _ _ after => (ledger after).balance = (ledger state).balance)
      (permits.forM (usePermit imm self permitOwner)) own state := by
  let invariant (_ : List (Permit Asset)) (after : around.State) : Prop :=
    (ledger after).balance = (ledger state).balance
  have initial : invariant permits state := rfl
  refine Prog.tells_forM ?_ initial
  intro permit _ own before kept
  exact (tells_usePermit standard quiet permitOwner permit).mono fun _ _ _ same => same.trans kept

/-- One entry: the pull adds to the balance, the approval overwrites the allowance. -/
theorem tells_takeFrom (standard : Standard self around ledger)
    (quiet : ∀ query state, query.isCall = false → good query state)
    {transferOwner : Address} (different : transferOwner ≠ self) (target : Address)
    (fromArgs : FromArgs Asset) :
    Prog.Tells around good (fun _ _ after =>
        (∃ token, AssetRegistry.addr fromArgs.asset imm.network = some token) ∧
        ∀ token,
          (ledger after).balance token self = (ledger state).balance token self +
            (if (pull imm fromArgs).1 = some token then (pull imm fromArgs).2 else 0) ∧
          (ledger after).allowance token self target =
            if (pull imm fromArgs).1 = some token then (pull imm fromArgs).2
            else (ledger state).allowance token self target)
      (takeFrom imm self transferOwner target fromArgs) own state := by
  rw [takeFrom, Prog.tells_bind]
  refine Prog.tells_unwrap fun token found => ?_
  rw [Prog.tells_bind]
  refine tells_callOrRevert (quiet _ _ rfl) fun moved => ?_
  refine tells_callOrRevert (quiet _ _ rfl) fun approved => ?_
  rcases standard.succeeds _ _ moved with ⟨_, left, transferred⟩
  refine ⟨⟨token, found⟩, fun other => ?_⟩
  rw [standard.succeeds _ _ approved, transferred]
  simp only [pull, found, Option.some.injEq]
  constructor
  · rw [Ledger.balance_setAllowance, Ledger.balance_setAllowance,
      Ledger.balance_transfer_recipient _ different]
  · rw [Ledger.allowance_setAllowance_same,
      Ledger.allowance_setAllowance_of_ne _ (Ne.symm different), Ledger.allowance_transfer]

/-- All entries: the amounts are added up in the balance and written one over the other in the
allowance. -/
theorem tells_takeFrom_forM (standard : Standard self around ledger)
    (quiet : ∀ query state, query.isCall = false → good query state)
    {transferOwner : Address} (different : transferOwner ≠ self) (target : Address)
    (entries : List (FromArgs Asset)) :
    Prog.Tells around good (fun _ _ after =>
        (∀ entry ∈ entries, ∃ token,
          AssetRegistry.addr entry.asset imm.network = some token) ∧
        ∀ token,
          (ledger after).balance token self =
            (ledger state).balance token self + pulled imm token entries ∧
          (ledger after).allowance token self target =
            final (some token) ((ledger state).allowance token self target)
              (entries.map (pull imm)))
      (entries.forM (takeFrom imm self transferOwner target)) own state := by
  let invariant (rest : List (FromArgs Asset)) (after : around.State) : Prop :=
    (∀ entry ∈ entries, entry ∈ rest ∨ ∃ token,
      AssetRegistry.addr entry.asset imm.network = some token) ∧
    ∀ token,
      (ledger after).balance token self + pulled imm token rest =
        (ledger state).balance token self + pulled imm token entries ∧
      final (some token) ((ledger after).allowance token self target) (rest.map (pull imm)) =
        final (some token) ((ledger state).allowance token self target) (entries.map (pull imm))
  have initial : invariant entries state := ⟨fun _ member => .inl member, fun _ => ⟨rfl, rfl⟩⟩
  refine (Prog.tells_forM ?_ initial).mono ?_
  · rintro entry rest own before ⟨known, sums⟩
    refine (tells_takeFrom standard quiet different target entry).mono ?_
    rintro _ _ after ⟨named, taken⟩
    refine ⟨?_, fun token => ?_⟩
    · intro other member
      rcases known other member with found | found
      · rcases List.mem_cons.mp found with rfl | later
        · exact .inr named
        · exact .inl later
      · exact .inr found
    · have balance := (sums token).1
      have allowance := (sums token).2
      rw [pulled, List.map_cons, total] at balance
      rw [List.map_cons, final] at allowance
      rw [(taken token).1, (taken token).2]
      exact ⟨by rw [← balance, pulled]; omega, allowance⟩
  · rintro _ _ after ⟨known, sums⟩
    refine ⟨fun entry member => (known entry member).resolve_left (by simp), fun token => ?_⟩
    exact sums token

theorem tells_checkAuthority (standard : Standard self around ledger)
    (quiet : ∀ query state, query.isCall = false → good query state) (target : Address) :
    Prog.Tells around good (fun _ _ after => ledger after = ledger state)
      (checkAuthority target) own state := by
  refine (Prog.tells_bind (S := accountSignature)).mpr ?_
  change Prog.Tells around good _ (if (own .authority).isSome then _ else _) own state
  split
  · refine ⟨quiet _ _ rfl, quiet _ _ rfl, Prog.tells_require fun _ => ?_⟩
    exact (standard.ledger_kept (.allowed _ _) fun _ _ same => same).trans
      (standard.ledger_kept (.codeHash target) fun _ _ same => same)
  · rfl

theorem tells_checkUnspent
    (quiet : ∀ query state, query.isCall = false → good query state) (platform : Platform)
    (fromArgs : FromArgs Asset) :
    Prog.Tells around good (fun _ _ _ => True) (checkUnspent platform imm self fromArgs) own
      state := by
  rw [checkUnspent, Prog.tells_bind]
  refine Prog.tells_unwrap fun token _ => ⟨quiet _ _ rfl, ?_⟩
  refine (Prog.tells_bind (S := accountSignature)).mpr ?_
  refine (Prog.tells_bind (S := accountSignature)).mpr (Prog.tells_require fun _ => ?_)
  exact Prog.tells_require fun _ => trivial

/-- The sums agree exactly if the overwriting loses nothing. -/
theorem spendsWhatWasPulled_iff {target : Address} {entries : List (FromArgs Asset)}
    {before now : Ledger Address} (allowed : Address → ℕ)
    (named : ∀ entry ∈ entries, ∃ token, AssetRegistry.addr entry.asset imm.network = some token)
    (sums : ∀ token, now.balance token self = before.balance token self +
        pulled imm token entries ∧
      now.allowance token self target = final (some token) (allowed token)
        (entries.map (pull imm))) :
    SpendsWhatWasPulled imm self target entries before now ↔ OnlyLastTakes imm entries := by
  have overwritten := final_eq_total_iff (fun key => key.elim 0 allowed)
    (entries.map (pull imm))
  rw [List.pairwise_map] at overwritten
  refine Iff.trans ⟨?_, ?_⟩ overwritten
  · intro spends key member
    rw [List.map_map] at member
    rcases List.mem_map.mp member with ⟨entry, inside, rfl⟩
    rcases named entry inside with ⟨token, found⟩
    have allowance := (spends entry inside token found).2
    rw [(sums token).2] at allowance
    rw [Function.comp_apply, pull, found]
    exact allowance
  · intro equal entry inside token found
    refine ⟨(sums token).1, ?_⟩
    rw [(sums token).2]
    refine equal (some token) ?_
    rw [List.map_map]
    exact List.mem_map.mpr ⟨entry, inside, found⟩

/-- At the moment a solve calls its target, the account got the sum of what the entries take of
each token and the target may spend that sum, exactly if of the entries that name the same token
all but the last take nothing. -/
theorem target_spends_pulled_iff (standard : Standard self around ledger) (platform : Platform)
    (permitOwner : Address) {transferOwner : Address} (different : transferOwner ≠ self)
    (args : SolveArgs Asset) :
    ∀ moment ∈ ((solveItem platform imm self permitOwner transferOwner args).converse around own
        state).1,
      moment.1 = .call args.target args.cd.toList →
        (SpendsWhatWasPulled imm self args.target args.fromArgs.toList (ledger state)
          (ledger moment.2) ↔ OnlyLastTakes imm args.fromArgs.toList) := by
  let good (query : Query) (now : around.State) : Prop :=
    query = .call args.target args.cd.toList →
      (SpendsWhatWasPulled imm self args.target args.fromArgs.toList (ledger state) (ledger now) ↔
        OnlyLastTakes imm args.fromArgs.toList)
  have quiet : ∀ query now, query.isCall = false → good query now := by
    rintro query now silent rfl
    cases silent
  suffices tells : Prog.Tells around good (fun _ _ _ => True)
      (solveItem platform imm self permitOwner transferOwner args) own state from tells.moment
  rw [solveItem]
  refine tells_exchange.bind fun _ own begun same => ?_
  subst same
  refine (tells_usePermit_forM standard quiet permitOwner _).bind fun _ own permitted kept => ?_
  refine (tells_takeFrom_forM standard quiet different args.target _).bind ?_
  rintro _ own taken ⟨named, sums⟩
  refine (tells_checkAuthority standard quiet args.target).bind fun _ own asked same => ?_
  refine (Prog.tells_bind (S := accountSignature)).mpr ?_
  refine ⟨fun _ => ?_, Prog.tells_require fun _ => ?_⟩
  · rw [same]
    refine spendsWhatWasPulled_iff _ named fun token => ⟨?_, (sums token).2⟩
    rw [(sums token).1, kept]
  · let unspent (_ : List (FromArgs Asset)) (_ : around.State) : Prop := True
    have initial : unspent args.fromArgs.toList (around.respond asked
      (.call args.target args.cd.toList)).2 := trivial
    refine Prog.tells_forM ?_ initial
    exact fun entry _ _ _ _ => tells_checkUnspent quiet platform entry

/-- What a solve asks among tokens it asks in a run on a chain where no account is called and the
tokens give the answers. -/
theorem solveItem_run_of_converse {stack : List (Frame accountSignature)}
    {frame : Frame accountSignature} (writable : frame.readonly = false) (platform : Platform)
    (permitOwner transferOwner : Address) (args : SolveArgs Asset)
    (world : World accountSignature) :
    let system := accounts Asset platform imm.network fun _ _ _ => none
    let program := solveItem platform imm frame.self permitOwner transferOwner args
    let conversation := program.converse around (world.store frame.self) state
    ∃ after : World accountSignature,
      program.run system stack frame
          (Reaction.runAll system (Prog.replies around conversation.1)) world =
        Prog.outcomeOf conversation.2 after ∧
      after.trace.filterMap Prog.queryOf =
        (conversation.1.map Prod.fst).reverse ++ world.trace.filterMap Prog.queryOf := by
  intro system program conversation
  exact Prog.run_converse system writable program world state fun _ _ _ => rfl

end Solve

/-! ### A token that is named twice -/

namespace Known

def usdc : Address :=
  Bytes.ofNat 20 0xaf88d065e77c8cc2239327c5edb3a432268e5831

def owner : Address :=
  Bytes.ofNat 20 0x4444444444444444444444444444444444444444

/-- A refusal without data. -/
def refused : Reply :=
  ⟨false, U.zero, none, []⟩

/-- Tokens as an account meets them: they check balances and allowances, and no permit is signed.
Other contracts accept every call and leave the tokens alone. -/
def tokens : Surroundings accountSignature where
  State := Ledger Address
  respond ledger
    | .permit _ _ _ _ _ _ _ _ => (refused, ledger)
    | .transferFrom token sender recipient amount =>
      let allowed := ledger.allowance token sender account
      if amount.toNat ≤ ledger.balance token sender ∧ amount.toNat ≤ allowed then
        (accepted, (ledger.transfer token sender recipient amount.toNat).setAllowance token sender
          account (allowed - amount.toNat))
      else (refused, ledger)
    | .approve token spender amount =>
      (accepted, ledger.setAllowance token account spender amount.toNat)
    | .balanceOf token holder =>
      (⟨true, Bytes.ofNat 32 (ledger.balance token holder), none, []⟩, ledger)
    | _ => (accepted, ledger)

theorem standard_tokens : Standard account tokens fun ledger => ledger where
  succeeds ledger query success := by
    cases query with
    | permit token owner spender value deadline v r s => cases success
    | transferFrom token sender recipient amount =>
        simp only [tokens] at success ⊢
        split at success
        next enough => rw [if_pos enough]; exact ⟨enough.1, _, rfl⟩
        next => cases success
    | approve token spender amount => rfl
    | balanceOf token holder => rfl
    | codeHash target => rfl
    | allowed authority hash => rfl
    | call target cd => trivial
    | create2 init salt => trivial
    | delegate implementation cd => trivial
  fails ledger query failure := by
    cases query with
    | permit token owner spender value deadline v r s => rfl
    | transferFrom token sender recipient amount =>
        simp only [tokens] at failure ⊢
        split at failure
        next => cases failure
        next poor => rw [if_neg poor]
    | _ => cases failure

/-- The owner has ten and lets the account take them. The account has two of its own. -/
def ledger : Ledger Address where
  balance token holder := if token = usdc then
    if holder = owner then 10 else if holder = account then 2 else 0 else 0
  allowance token holder taker :=
    if token = usdc ∧ holder = owner ∧ taker = account then 10 else 0

/-- Two entries for the same token. -/
def takeTwice (first second : ℕ) : SolveArgs KnownAsset :=
  { solve with
    fromArgs := ⟨[⟨.usdc, Bytes.ofNat 32 first, U.zero⟩, ⟨.usdc, Bytes.ofNat 32 second, U.zero⟩],
      by simp⟩ }

def imm : Imm :=
  ⟨.arbitrum, Bytes.ofNat 20 0⟩

/-- What the account asks while it serves the item, with the ledger at the time. -/
def moments (args : SolveArgs KnownAsset) : List (Query × Ledger Address) :=
  ((solveItem solvePlatform imm account owner owner args).converse tokens (store account) ledger).1

/-- The fifth query of two pulls is the call of the target. -/
def callMoment (args : SolveArgs KnownAsset) : Query × Ledger Address :=
  (moments args).getD 4 (.call account [], ledger)

theorem callMoment_mem {args : SolveArgs KnownAsset} (long : 4 < (moments args).length) :
    callMoment args ∈ moments args := by
  rw [callMoment, List.getD_eq_getElem?_getD, List.getElem?_eq_getElem long, Option.getD_some]
  exact List.getElem_mem long

end Known

/-- Two pulls of five and three: the account got eight, but the target may spend three. -/
theorem repeated_asset_underapproved :
    Standard Known.account Known.tokens (fun ledger => ledger) ∧ Known.owner ≠ Known.account ∧
    Known.callMoment (Known.takeTwice 5 3) ∈ Known.moments (Known.takeTwice 5 3) ∧
    (Known.callMoment (Known.takeTwice 5 3)).1 =
      .call (Known.takeTwice 5 3).target (Known.takeTwice 5 3).cd.toList ∧
    Known.ledger.balance Known.usdc Known.account = 2 ∧
    (Known.callMoment (Known.takeTwice 5 3)).2.balance Known.usdc Known.account = 2 + 8 ∧
    (Known.callMoment (Known.takeTwice 5 3)).2.allowance Known.usdc Known.account
      (Known.takeTwice 5 3).target = 3 ∧
    ¬ SpendsWhatWasPulled Known.imm Known.account (Known.takeTwice 5 3).target
      (Known.takeTwice 5 3).fromArgs.toList Known.ledger
      (Known.callMoment (Known.takeTwice 5 3)).2 := by
  have allowance : (Known.callMoment (Known.takeTwice 5 3)).2.allowance Known.usdc Known.account
      (Known.takeTwice 5 3).target = 3 := by decide +kernel
  refine ⟨Known.standard_tokens, by decide, Known.callMoment_mem (by decide +kernel),
    by decide +kernel, by decide, by decide +kernel, allowance, ?_⟩
  intro spends
  have sums := (spends _ List.mem_cons_self Known.usdc rfl).2
  rw [allowance] at sums
  exact absurd sums (by decide +kernel)

/-- If the first of two entries takes nothing, the target may spend what the second takes. -/
theorem target_spends_pulled_known :
    Known.callMoment (Known.takeTwice 0 5) ∈ Known.moments (Known.takeTwice 0 5) ∧
    (Known.callMoment (Known.takeTwice 0 5)).1 =
      .call (Known.takeTwice 0 5).target (Known.takeTwice 0 5).cd.toList ∧
    SpendsWhatWasPulled Known.imm Known.account (Known.takeTwice 0 5).target
      (Known.takeTwice 0 5).fromArgs.toList Known.ledger
      (Known.callMoment (Known.takeTwice 0 5)).2 := by
  have member : Known.callMoment (Known.takeTwice 0 5) ∈ Known.moments (Known.takeTwice 0 5) :=
    Known.callMoment_mem (by decide +kernel)
  have called : (Known.callMoment (Known.takeTwice 0 5)).1 =
      .call (Known.takeTwice 0 5).target (Known.takeTwice 0 5).cd.toList := by decide +kernel
  refine ⟨member, called, ?_⟩
  refine (target_spends_pulled_iff Known.standard_tokens Known.solvePlatform Known.owner
    (by decide) (Known.takeTwice 0 5) _ member called).mpr ?_
  rw [OnlyLastTakes]
  decide +kernel

end SuperpositionAccounts
