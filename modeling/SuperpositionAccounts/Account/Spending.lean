import Mathlib.Algebra.Order.Group.Multiset
import Mathlib.Data.Multiset.Bind
import SuperpositionAccounts.Account.Gas
import SuperpositionAccounts.Account.Transcripts
import SuperpositionAccounts.CallTree.Tally

/-!
# What an account makes tokens do

Permits, transfers and approvals are the calls by which an account changes what
tokens keep. Each request lists those that it asks for. Over a whole run, with
any calls back into the account, the account has made exactly the token calls
that its completed requests list, each as often as it is listed. Every such
request is signed with the key of the account, and no nonce occurs twice among
them.
-/

namespace SuperpositionAccounts

open CallTree

/-- The call changes what a token keeps. -/
def Query.isTokenCall : Query → Bool
  | .permit _ _ _ _ _ _ _ _ | .transferFrom _ _ _ _ | .approve _ _ _ => true
  | _ => false

/-- The token calls among what a frame has asked. -/
def tokenCalls (exchanges : List Exchange) : List Query :=
  (exchanges.map Prod.fst).filter Query.isTokenCall

@[simp]
theorem tokenCalls_append (first later : List Exchange) :
    tokenCalls (first ++ later) = tokenCalls first ++ tokenCalls later := by
  simp [tokenCalls]

theorem tokenCalls_inTurn {α : Type} {part : α → List Exchange → Prop}
    {listed : α → List Query} {items : List α} {exchanges : List Exchange}
    (turns : InTurn part items exchanges)
    (pass : ∀ item some, part item some → tokenCalls some = listed item) :
    tokenCalls exchanges = items.flatMap listed := by
  induction turns with
  | nil => rfl
  | cons one _ ih => rw [tokenCalls_append, List.flatMap_cons, pass _ _ one, ih]

theorem tokenCalls_makes {query : Query} {exchanges : List Exchange}
    (makes : Makes query exchanges) :
    tokenCalls exchanges = if query.isTokenCall then [query] else [] := by
  rcases makes with ⟨reply, _, rfl⟩
  exact List.filter_cons

/-! ### What a request lists -/

section Listed

variable {Asset : Type} [AssetRegistry Asset] (network : Network) (self : Address)

def Permit.tokenCalls (permitOwner : Address) (permit : Permit Asset) : List Query :=
  (AssetRegistry.addr permit.asset network).toList.map fun token =>
    .permit token permitOwner self U.max (U.ofUInt64 permit.deadline) permit.v permit.r permit.s

def FromArgs.tokenCalls (transferOwner target : Address) (fromArgs : FromArgs Asset) :
    List Query :=
  (AssetRegistry.addr fromArgs.asset network).toList.flatMap fun token =>
    [.transferFrom token transferOwner self fromArgs.toTake,
      .approve token target fromArgs.toTake]

def SolveArgs.tokenCalls (permitOwner transferOwner : Address) (args : SolveArgs Asset) :
    List Query :=
  args.permit.toList.flatMap (Permit.tokenCalls network self permitOwner) ++
    args.fromArgs.toList.flatMap (FromArgs.tokenCalls network self transferOwner args.target)

def Transfer.tokenCalls (transfer : Transfer Asset) : List Query :=
  (AssetRegistry.addr transfer.asset network).toList.flatMap fun token =>
    (transfer.permit.toList.map fun permit => .permit token transfer.fromAddr self U.max
      (U.ofUInt64 permit.deadline) permit.v permit.r permit.s) ++
      [.transferFrom token transfer.fromAddr transfer.recipient transfer.amt]

/-- The permit for the gas token and the charge. -/
def SolveV3Args.gasCalls (clearinghouse ethOwner : Address) (args : SolveV3Args Asset) :
    List Query :=
  (AssetRegistry.addr args.gasToken network).toList.flatMap fun token =>
    (args.gasTokenPermit.toList.map fun permit => .permit token ethOwner self U.max
      (U.ofUInt64 permit.deadline) permit.v permit.r permit.s) ++
      [.transferFrom token ethOwner clearinghouse (U.ofUInt64 args.gasTokenAmt)]

/-- The token calls that a request lists, for an account with this owner. -/
def Args.tokenCalls (clearinghouse ethOwner : Address) : Args Asset → List Query
  | .solve args =>
      args.toList.flatMap fun item => item.args.tokenCalls network self ethOwner ethOwner
  | .solveV2 args _ =>
      args.args.toList.flatMap (SolveArgs.tokenCalls network self args.permitOwner
        args.transferOwner)
  | .solveV3 args _ => args.gasCalls network self clearinghouse ethOwner ++
      args.args.toList.flatMap (SolveArgs.tokenCalls network self ethOwner ethOwner)
  | .transferOnly args _ => args.args.toList.flatMap (Transfer.tokenCalls network self)
  | _ => []

def Request.tokenCalls (clearinghouse ethOwner : Address) : Request Asset → List Query
  | .args given => given.tokenCalls network self clearinghouse ethOwner
  | _ => []

end Listed

/-! ### What is done is what is listed -/

section Done

variable {Asset : Type} [AssetRegistry Asset] {network : Network} {self : Address}
  {permitOwner transferOwner : Address} {authority : U} {exchanges : List Exchange}

theorem tokenCalls_permits {permit : Permit Asset}
    (permits : Permits network self permitOwner permit exchanges) :
    tokenCalls exchanges = permit.tokenCalls network self permitOwner := by
  rcases permits with ⟨token, located, makes⟩
  rw [tokenCalls_makes makes, Permit.tokenCalls, located]
  rfl

theorem tokenCalls_takes {target : Address} {fromArgs : FromArgs Asset}
    (takes : Takes network self transferOwner target fromArgs exchanges) :
    tokenCalls exchanges = fromArgs.tokenCalls network self transferOwner target := by
  rcases takes with ⟨token, pulled, approved, located, pulls, approves, rfl⟩
  rw [tokenCalls_append, tokenCalls_makes pulls, tokenCalls_makes approves, FromArgs.tokenCalls,
    located]
  rfl

theorem tokenCalls_clears {target : Address} (clears : Clears authority target exchanges) :
    tokenCalls exchanges = [] := by
  rcases clears with ⟨_, rfl⟩ | ⟨_, codeHash, verdict, _, rfl⟩
  · rfl
  · rfl

theorem tokenCalls_leaves {fromArgs : FromArgs Asset}
    (leaves : Leaves network self fromArgs exchanges) : tokenCalls exchanges = [] := by
  rcases leaves with ⟨token, reply, _, _, _, rfl⟩
  rfl

theorem tokenCalls_solves {args : SolveArgs Asset}
    (solves : Solves network self authority permitOwner transferOwner args exchanges) :
    tokenCalls exchanges = args.tokenCalls network self permitOwner transferOwner := by
  rcases solves with
    ⟨permits, takes, clears, calls, leaves, permitted, taken, cleared, called, left, rfl⟩
  have unchecked := tokenCalls_inTurn left fun fromArgs _ => tokenCalls_leaves
  rw [tokenCalls_append, tokenCalls_append, tokenCalls_append, tokenCalls_append,
    tokenCalls_inTurn permitted fun permit _ => tokenCalls_permits,
    tokenCalls_inTurn taken fun fromArgs _ => tokenCalls_takes, tokenCalls_clears cleared,
    tokenCalls_makes called, unchecked, SolveArgs.tokenCalls]
  simp [Query.isTokenCall]

theorem tokenCalls_transfers {transfer : Transfer Asset}
    (transfers : Transfers network self transfer exchanges) :
    tokenCalls exchanges = transfer.tokenCalls network self := by
  rcases transfers with ⟨token, permits, moves, located, permitted, moved, rfl⟩
  rw [tokenCalls_append, tokenCalls_makes moved, Transfer.tokenCalls, located]
  cases given : transfer.permit with
  | none =>
      rw [given] at permitted
      rw [permitted]
      rfl
  | some permit =>
      rw [given] at permitted
      rw [tokenCalls_makes permitted]
      rfl

theorem tokenCalls_deploys {platform : Platform} {pubKey : U} {eoaAddr : Address}
    {solveArgs : Vec (SolveArgsSigArgs Asset)} {given : Address} {output : List UInt8}
    (deploys : Deploys self platform pubKey eoaAddr solveArgs given output exchanges) :
    tokenCalls exchanges = [] := by
  rcases deploys with ⟨implAddr, created, migrates, solves, _, _, migrated, solved, _, rfl⟩
  have none : tokenCalls solves = [] := by
    split at solved
    · rw [solved]
      rfl
    · exact tokenCalls_makes solved
  change tokenCalls (migrates ++ solves) = []
  rw [tokenCalls_append, tokenCalls_makes migrated, none]
  rfl

variable {platform : Platform} {clearinghouse : Address} {key owner : U} {output : List UInt8}

omit [AssetRegistry Asset] in
theorem tokenCalls_permitsGas {args : SolveV3Args Asset} {token : Address}
    (permits : PermitsGas self owner.addr token args.gasToken args.gasTokenPermit exchanges) :
    tokenCalls exchanges = args.gasTokenPermit.toList.map fun permit =>
      .permit token owner.addr self U.max (U.ofUInt64 permit.deadline) permit.v permit.r
        permit.s := by
  cases given : args.gasTokenPermit with
  | none =>
      rw [given] at permits
      obtain rfl : exchanges = [] := permits
      rfl
  | some permit =>
      rw [given] at permits
      exact tokenCalls_makes permits.2

/-- A request that is done has made the token calls that it lists. -/
theorem tokenCalls_done {args : Args Asset}
    (done : args.Done network self platform clearinghouse key owner authority output exchanges) :
    SuperpositionAccounts.tokenCalls exchanges =
      args.tokenCalls network self clearinghouse owner.addr := by
  cases args with
  | freshBackwards pubKey eoaAddr v r s solveArgs given => exact tokenCalls_deploys done.2.2.2
  | solve args =>
      rw [tokenCalls_inTurn done.2.2 fun item _ => tokenCalls_solves, List.flatMap_map]
      rfl
  | solveV2 args sig => exact tokenCalls_inTurn done.2.2 fun item _ => tokenCalls_solves
  | solveV3 args sig =>
      rcases done with ⟨_, _, token, permits, charges, solves, located, permitted, charged, solved,
        rfl⟩
      rw [tokenCalls_append, tokenCalls_append, tokenCalls_permitsGas permitted,
        tokenCalls_makes charged, tokenCalls_inTurn solved fun item _ => tokenCalls_solves,
        Args.tokenCalls, SolveV3Args.gasCalls, located]
      simp [Query.isTokenCall]
  | transferOnly args sig => exact tokenCalls_inTurn done.2.2.2 fun item _ => tokenCalls_transfers
  | statement args sig =>
      rw [done.2.2]
      rfl
  | assetsVersion => exact done.elim
  | _ =>
      rw [done.2]
      rfl

/-- A request that is done was signed, if it lists token calls. -/
theorem signed_of_done {args : Args Asset}
    (done : args.Done network self platform clearinghouse key owner authority output exchanges)
    (lists : args.tokenCalls network self clearinghouse owner.addr ≠ []) :
    args.signed self ≠ [] ∧ ∀ checked ∈ args.signed self,
      platform.precompiles.edphverifyPre checked.1 key checked.2 = true := by
  cases args with
  | solve args =>
      refine ⟨?_, ?_⟩
      · intro empty
        apply lists
        rw [Args.tokenCalls, List.map_eq_nil_iff.mp empty]
        rfl
      · intro checked member
        rcases List.mem_map.mp member with ⟨item, inside, rfl⟩
        exact done.1 item inside
  | solveV2 args sig => exact ⟨nofun, List.forall_mem_singleton.mpr done.1⟩
  | solveV3 args sig => exact ⟨nofun, List.forall_mem_singleton.mpr done.1⟩
  | transferOnly args sig => exact ⟨nofun, List.forall_mem_singleton.mpr done.1⟩
  | _ => exact absurd rfl lists

end Done

/-! ### Whole runs -/

section Runs

variable (Asset : Type) [AssetRegistry Asset] (platform : Platform) (network : Network)
  (self : Address)

/-- The token call that an event tells of, if the account made it. -/
def madeTokenCall (event : Event accountSignature) : Option Query :=
  match event.action with
  | .asked query _ => if event.frame.self = self ∧ query.isTokenCall = true then some query else none
  | _ => none

/-- The request that an event completes, if the account did it. -/
def completedRequest (event : Event accountSignature) : Option (Request Asset) :=
  match event.action with
  | .completed _ =>
      if event.frame.self = self then (requestOf Asset platform event.frame).toOption else none
  | _ => none

/-- Each token call of the account weighs itself, and each request what it lists. -/
def tokenTally (ethOwner : Address) : Tally accountSignature (Multiset Query) where
  self := self
  weight (query : Query) _ := if query.isTokenCall then {query} else 0
  charge frame := match requestOf Asset platform frame with
    | .ok request => ↑(request.tokenCalls network self (Bytes.ofNat 20 0) ethOwner)
    | .error _ => 0

variable {Asset platform network self} {ethOwner : Address}

/-- A sum of multisets that are given as lists. -/
theorem sum_map_coe {α β : Type} (listed : α → List β) (items : List α) :
    (items.map fun item => (↑(listed item) : Multiset β)).sum = ↑(items.flatMap listed) :=
  Multiset.coe_bind items listed

theorem tokenTally_total (exchanges : List Exchange) :
    (tokenTally Asset platform network self ethOwner).total exchanges =
      ↑(tokenCalls exchanges) := by
  have each (exchange : Exchange) :
      (tokenTally Asset platform network self ethOwner).weight exchange.1 exchange.2 =
        ↑(tokenCalls [exchange]) := by
    change (if exchange.1.isTokenCall then ({exchange.1} : Multiset Query) else 0) =
      ↑([exchange.1].filter Query.isTokenCall)
    rw [List.filter_cons]
    split
    · rfl
    · rfl
  have all : exchanges.flatMap (fun exchange => tokenCalls [exchange]) = tokenCalls exchanges := by
    induction exchanges with
    | nil => rfl
    | cons exchange rest ih =>
        rw [List.flatMap_cons, ih, ← tokenCalls_append]
        rfl
  simp only [Tally.total, each]
  rw [sum_map_coe, all]

/-- The calls that the account made weigh themselves. -/
theorem tokenTally_spent (log : List (Event accountSignature)) :
    (tokenTally Asset platform network self ethOwner).spent log =
      ↑(log.filterMap (madeTokenCall self)) := by
  have each (event : Event accountSignature) :
      (tokenTally Asset platform network self ethOwner).weightOf event =
        ↑(madeTokenCall self event).toList := by
    rcases event with ⟨stack, frame, action, store⟩
    cases action with
    | asked query reply =>
        by_cases own : frame.self = self
        · by_cases token : Query.isTokenCall query = true
          · simp [Tally.weightOf, tokenTally, madeTokenCall, own, token]
          · simp [Tally.weightOf, tokenTally, madeTokenCall, own, token]
        · simp [Tally.weightOf, tokenTally, madeTokenCall, own]
    | _ => rfl
  rw [Tally.spent, List.filterMap_eq_flatMap_toList, ← sum_map_coe]
  exact congrArg List.sum (List.map_congr_left fun event _ => each event)

/-- The requests that the account completed weigh what they list. -/
theorem tokenTally_charged (log : List (Event accountSignature)) :
    (tokenTally Asset platform network self ethOwner).charged log =
      ↑((log.filterMap (completedRequest Asset platform self)).flatMap
        (Request.tokenCalls network self (Bytes.ofNat 20 0) ethOwner)) := by
  have each (event : Event accountSignature) :
      (tokenTally Asset platform network self ethOwner).chargeOf event =
        ↑((completedRequest Asset platform self event).toList.flatMap
          (Request.tokenCalls network self (Bytes.ofNat 20 0) ethOwner)) := by
    rcases event with ⟨stack, frame, action, store⟩
    cases action with
    | completed output =>
        by_cases own : frame.self = self
        · cases read : requestOf Asset platform frame <;>
            simp [Tally.chargeOf, tokenTally, completedRequest, own, read, Except.toOption]
        · simp [Tally.chargeOf, tokenTally, completedRequest, own]
    | _ => rfl
  rw [Tally.charged, List.filterMap_eq_flatMap_toList, List.flatMap_assoc, ← sum_map_coe]
  exact congrArg List.sum (List.map_congr_left fun event _ => each event)

theorem uses_eq_count (nonce : U) (log : List (Event accountSignature)) :
    uses Asset platform self nonce log =
      ((log.filterMap (completedRequest Asset platform self)).flatMap
        Request.nonces).count nonce := by
  have each (event : Event accountSignature) :
      (nonceTicket Asset platform self nonce).eventUses event =
        ((completedRequest Asset platform self event).toList.flatMap
          Request.nonces).count nonce := by
    rcases event with ⟨stack, frame, action, store⟩
    cases action with
    | completed output =>
        by_cases own : frame.self = self
        · cases read : requestOf Asset platform frame <;>
            simp [Ticket.eventUses, nonceTicket, frameNonces, completedRequest, own, read,
              Except.toOption]
        · simp [Ticket.eventUses, nonceTicket, completedRequest, own]
    | _ => rfl
  rw [List.filterMap_eq_flatMap_toList, List.flatMap_assoc, List.count_flatMap]
  exact congrArg List.sum (List.map_congr_left fun event _ => each event)

theorem of_completedRequest {event : Event accountSignature} {request : Request Asset}
    (completes : completedRequest Asset platform self event = some request) :
    ∃ output, event.frame.self = self ∧ event.action = .completed output ∧
      requestOf Asset platform event.frame = .ok request := by
  rcases event with ⟨stack, frame, action, store⟩
  cases action with
  | completed output =>
      simp only [completedRequest] at completes
      split at completes
      · rename_i own
        refine ⟨output, own, rfl, ?_⟩
        cases read : requestOf Asset platform frame with
        | ok given =>
            rw [read] at completes
            exact congrArg Except.ok (Option.some.inj completes)
        | error message =>
            rw [read] at completes
            cases completes
      · cases completes
  | _ => cases completes

/-- The calls of a request that is done weigh what its frame is charged with. -/
theorem tokenTally_weighs {key owner authority : U} {frame : Frame accountSignature}
    {output : List UInt8} {exchanges : List Exchange}
    (done : DoneFor Asset platform network self key owner authority frame output exchanges) :
    (tokenTally Asset platform network self owner.addr).total exchanges =
      (tokenTally Asset platform network self owner.addr).charge frame := by
  rcases done with ⟨request, read, done⟩
  rw [tokenTally_total, tokenTally]
  simp only [read]
  cases request with
  | args given => rw [tokenCalls_done done, Request.tokenCalls]
  | beacon =>
      rw [done.2]
      rfl
  | migrate edKey evmOwner implAddr authorityAddr =>
      rw [done.2.2.2]
      rfl

variable (Asset platform network self) in
/-- Over any run, with any calls back, a settled account has made exactly the token calls that the
requests list which it completed, each as often as it is listed. Each of these requests that lists
any is signed with the key of the account, and no nonce occurs twice in them. -/
theorem token_calls_as_requested
    (callee : (Address → Slot → U) → Frame accountSignature → Query → Option (Address × Call))
    (store : Address → Slot → U) (settled : store self .version = U.two)
    (acts : List (Act accountSignature)) :
    let after := Act.runAll (accounts Asset platform network callee) acts [] false
      (World.start store)
    let owner := (store self .ethereumOwner).addr
    let requests := after.log.filterMap (completedRequest Asset platform self)
    (after.log.filterMap (madeTokenCall self)).Perm
        (requests.flatMap (Request.tokenCalls network self (Bytes.ofNat 20 0) owner)) ∧
      (∀ request ∈ requests,
        request.tokenCalls network self (Bytes.ofNat 20 0) owner ≠ [] →
        ∃ args, request = .args args ∧ args.signed self ≠ [] ∧ ∀ checked ∈ args.signed self,
          platform.precompiles.edphverifyPre checked.1 (store self (.ed25519Slot U.zero))
            checked.2 = true) ∧
      (requests.flatMap Request.nonces).Nodup := by
  intro after owner requests
  have known := asKnown_settledWords settled
  refine ⟨?_, ?_, ?_⟩
  · have balanced : (tokenTally Asset platform network self owner).spent after.log =
        (tokenTally Asset platform network self owner).charged after.log :=
      Tally.spent_eq_charged (fun _ own => (accounts_yields Asset _ _ _ own).mono
        fun _ _ done => tokenTally_weighs done) known acts
    rw [tokenTally_spent, tokenTally_charged] at balanced
    exact Multiset.coe_eq_coe.mp balanced
  · intro request member lists
    rcases List.mem_filterMap.mp member with ⟨event, logged, completes⟩
    rcases of_completedRequest completes with ⟨output, own, completed, read⟩
    rcases System.transcribed_log (fun _ => accounts_yields Asset _ _ _) known acts logged own
      completed with ⟨exchanges, other, reread, done⟩
    cases read.symm.trans reread
    cases request with
    | args given => exact ⟨given, rfl, signed_of_done done lists⟩
    | _ => exact absurd rfl lists
  · rw [List.nodup_iff_count_le_one]
    intro nonce
    have step : NonceStep Asset platform self nonce (World.start store).toState after.toState :=
      (nonce_guarantee Asset platform network callee self nonce).runAll acts fun _ _ _ => trivial
    have once := step.uses_le
    rw [← uses_eq_count]
    exact once

end Runs

/-- One signed request is submitted twice: two charges, for two requests. -/
theorem token_calls_as_requested_known :
    let requests := EmptyGas.twice.filterMap
      (completedRequest KnownAsset EmptyGas.platform Known.account)
    requests.length = 2 ∧
      (EmptyGas.twice.filterMap (madeTokenCall Known.account)).length = 2 ∧
      (EmptyGas.twice.filterMap (madeTokenCall Known.account)).Perm
        (requests.flatMap (Request.tokenCalls .arbitrum Known.account (Bytes.ofNat 20 0)
          (Known.store Known.account .ethereumOwner).addr)) := by
  intro requests
  refine ⟨by decide +kernel, by decide +kernel, ?_⟩
  exact (token_calls_as_requested KnownAsset EmptyGas.platform .arbitrum Known.account
    (fun _ _ _ => none) Known.store rfl [EmptyGas.submit, EmptyGas.submit]).1

end SuperpositionAccounts
