import SuperpositionAccounts.Account.Transcripts
import SuperpositionAccounts.CallTree.Prospect
import SuperpositionAccounts.Factory.Creation
import SuperpositionAccounts.Router.Routing
import SuperpositionAccounts.Server.Carried

/-!
# From the server to the account

The server computes where the account of an address is, has it created by the
factory and later sends it solves through the router. Here its transactions meet
the contracts they are for. A creation that takes effect has made an account of
the address, with the server's key, at the place the server computed. A solve is
handed on by the router as it is, and the account can complete it.
-/

namespace SuperpositionAccounts

open CallTree

namespace Chain

variable {Asset : Type} [AssetRegistry Asset]

/-- The server works for the factory of the chain, and both hash alike. The program that signs for
the server has the key that the server names. -/
structure Served (chain : Chain) (env : Go.Env Asset) (r : Go.Resolver) : Prop where
  factory : r.accountsFactoryAddr = chain.factory
  router : r.safetyRouterAddr ≠ chain.factory
  keccak256 : env.keccak256 = chain.platform.keccak256
  initCode : chain.initCode = Metamorphic.initCode chain.factory
  sum512 : env.sum512 = chain.platform.precompiles.sha512
  signs : env.progDalek.SignsWith chain.platform.precompiles r.accPubKey

variable {chain : Chain} {env : Go.Env Asset} {r : Go.Resolver}

omit [AssetRegistry Asset] in
/-- The server computes the address that `CREATE2` gives. -/
theorem Served.getClientAddr (served : chain.Served env r) (eoa : Address) :
    Go.getClientAddr env r.accountsFactoryAddr eoa = chain.accountOf eoa := by
  have hashed : Go.makeMetamorphicBeaconProxyHash env chain.factory =
      chain.platform.keccak256 chain.initCode := by
    rw [served.initCode, ← served.keccak256]
    rfl
  rw [Go.getClientAddr, served.factory, hashed, served.keccak256]
  exact Go.bytesToAddress_toList (U.addr _)

theorem readRequest_of_deserialize {data : List UInt8} {args : Args Asset}
    (read : Borsh.deserialize data = some (args, [])) (platform : Platform) :
    readRequest platform data = .ok (.args args) := by
  rw [Borsh.eq_toVec_append_of_deserialize read, List.append_nil]
  exact readRequest_toVec platform args

/-! ### Creations -/

section Creation

variable {precompiles : Precompiles} {eoa : Address} {tx : Go.Tx}

/-- What the factory has done when it completed a creation that the server sent. -/
theorem creates_of_carries (documented : chain.Documented)
    (carries : Go.CarriesCreation env r precompiles eoa tx) {sender : Address} {readonly : Bool}
    {stack : List (Frame chainSignature)} {world after : World chainSignature}
    {output : List UInt8}
    (runs : (chain.code (world.store chain.factory (.slot .slotImpl)).addr).isAccount = true)
    (completes : (chain.system Asset).Completes stack
      ⟨chain.factory, .call ⟨sender, tx.data⟩, readonly⟩ world output after) :
    ∃ authority, ∃ solves : Vec (SolveArgsSigArgs Asset),
      world.store (chain.accountOf eoa) .code = U.zero ∧
      output = (U.ofBytes (chain.accountOf eoa)).toList ∧
      chain.Creates (chain.accountOf eoa) r.accPubKey eoa authority solves world.store after := by
  rcases carries with ⟨v, sigR, sigS, solves, authority, _, read, _⟩
  rcases creates_of_request documented runs (readRequest_of_deserialize read _) completes with
    ⟨_, unused, given, creates⟩
  exact ⟨authorityOf authority, solves, unused, given, creates⟩

end Creation

/-! ### Solves -/

/-- What an account asks while it solves these items. -/
def solving (items : List (SolveArgs Asset)) : Query → Prop
  | .call called _ => ∃ item ∈ items, called = item.target
  | .create2 _ _ | .delegate _ _ => False
  | _ => True

/-- A solve creates nothing, delegates to nobody and calls its target only. -/
theorem solving_of_solves {network : Network} {self permitOwner transferOwner : Address}
    {authority : U} {items : List (SolveArgs Asset)} {args : SolveArgs Asset} (member : args ∈ items)
    {exchanges : List Exchange}
    (solves : Solves network self authority permitOwner transferOwner args exchanges) :
    ∀ exchange ∈ exchanges, solving items exchange.1 := by
  rcases solves with
    ⟨permits, takes, clears, calls, leaves, permitted, taken, cleared, called, left, rfl⟩
  intro exchange inside
  simp only [List.mem_append] at inside
  rcases inside with inPermits | inTakes | inClears | inCalls | inLeaves
  · rcases permitted.exists_of_mem inPermits with ⟨_, _, _, ⟨_, _, _, _, rfl⟩, found⟩
    rw [List.mem_singleton.mp found]
    trivial
  · rcases taken.exists_of_mem inTakes with
      ⟨_, _, _, ⟨_, _, _, _, ⟨_, _, rfl⟩, ⟨_, _, rfl⟩, rfl⟩, found⟩
    rcases List.mem_pair.mp found with rfl | rfl
    · trivial
    · trivial
  · rcases cleared with ⟨_, rfl⟩ | ⟨_, _, _, _, rfl⟩
    · cases inClears
    · rcases List.mem_pair.mp inClears with rfl | rfl
      · trivial
      · trivial
  · rcases called with ⟨_, _, rfl⟩
    rw [List.mem_singleton.mp inCalls]
    exact ⟨args, member, rfl⟩
  · rcases left.exists_of_mem inLeaves with ⟨_, _, _, ⟨_, _, _, _, _, rfl⟩, found⟩
    rw [List.mem_singleton.mp found]
    trivial

/-- The request asks the account to solve these items. -/
def Asks (items : List (SolveArgs Asset)) : Args Asset → Prop
  | .solve args => args.toList.map (·.args) = items
  | .solveV2 args _ => args.args.toList = items
  | _ => False

section Asks

variable {items : List (SolveArgs Asset)} {args : Args Asset} (asks : Asks items args)

include asks

omit [AssetRegistry Asset] in
theorem Asks.movesFunds : args.operation.isSome := by
  cases args <;> first | rfl | exact asks.elim

omit [AssetRegistry Asset] in
theorem Asks.nonces : args.nonces = items.map fun item => U.ofBytes item.msTs := by
  cases args with
  | solve args =>
      rw [← asks, List.map_map]
      rfl
  | solveV2 args sig => exact congrArg (List.map _) asks
  | _ => exact asks.elim

theorem Asks.solving {network : Network} {self clearinghouse : Address} {platform : Platform}
    {key owner authority : U} {output : List UInt8} {exchanges : List Exchange}
    (done : args.Done network self platform clearinghouse key owner authority output exchanges) :
    ∀ exchange ∈ exchanges, solving items exchange.1 := by
  intro exchange member
  cases args with
  | solve args =>
      rcases done with ⟨_, _, solved⟩
      rcases solved.exists_of_mem member with ⟨other, inside, some, solves, found⟩
      exact solving_of_solves (asks ▸ inside) solves exchange found
  | solveV2 args sig =>
      rcases done with ⟨_, _, solved⟩
      rcases solved.exists_of_mem member with ⟨other, inside, some, solves, found⟩
      exact solving_of_solves (asks ▸ inside) solves exchange found
  | _ => exact asks.elim

end Asks

/-- The account runs the account contract with the key, is not locked and has used none of the
nonces. Neither a target nor a token is a contract of the system. -/
structure Ready (chain : Chain) (account : Address) (key : U) (items : List (SolveArgs Asset))
    (store : Address → Cell → U) : Prop where
  apart : account ≠ chain.factory
  hasCode : store account .code ≠ U.zero
  runs : (chain.code (slots store account .slotImpl).addr).isAccount = true
  settled : slots store account .version = U.two
  key : slots store account (.ed25519Slot U.zero) = key
  unlocked : slots store account .reentrancy = U.zero
  unused : ∀ item ∈ items, slots store account (.timestamps (U.ofBytes item.msTs)) = U.zero
  targets : ∀ item ∈ items, store item.target .code = U.zero
  tokens : ∀ store frame query, chain.route store frame query = none

section Ready

variable {account : Address} {key : U} {items : List (SolveArgs Asset)} {args : Args Asset}
  {stack : List (Frame chainSignature)} {world : World chainSignature}

omit [AssetRegistry Asset] in
/-- The account contract sees the slots of its account, and the targets stay without code. -/
theorem ready_simulation (items : List (SolveArgs Asset)) (frame : Frame accountSignature)
    (farStack : List (Frame chainSignature)) (farFrame : Frame chainSignature)
    (same : frame.self = farFrame.self) :
    Simulation (S := accountSignature) Cell.slot Ask.account (fun _ _ => False) [] frame
      (fun _ _ => False) farStack farFrame
      (fun near far => near.store = slots far.store ∧
        ∀ item ∈ items, far.store item.target .code = U.zero) where
  loaded slot related := by
    rw [related.1, same]
    rfl
  written slot word related := by
    refine ⟨?_, ?_⟩
    · funext address other
      simp [World.write, slots, related.1, same]
    · intro item member
      have other : Cell.code ≠ Cell.slot slot := by
        rintro ⟨⟩
      rw [World.write_store_of_ne (S := chainSignature) _ _ (Or.inr other)]
      exact related.2 item member
  noted _ related := related
  asked _ _ related := related
  others _ never := never.elim

omit [AssetRegistry Asset] in
theorem Ready.known (ready : chain.Ready account key items world.store) :
    AsKnown (S := accountSignature) account (settledWords key
      (slots world.store account .ethereumOwner) (slots world.store account .authority))
      (slots world.store) := by
  intro slot
  cases slot with
  | ed25519Slot index =>
      rintro rfl
      exact ready.key
  | version => exact ready.settled
  | _ => trivial

/-- The account contract can complete the solves of a ready account. -/
theorem Ready.can_solve (ready : chain.Ready account key items world.store)
    (asks : Asks items args) (valid : args.Valid chain.platform chain.network key)
    (distinct : args.nonces.Nodup) {implementation : Address} {call : Call}
    (isAccount : (chain.code implementation).isAccount = true)
    (read : readRequest chain.platform call.calldata = .ok (.args args)) :
    (chain.runCode Asset implementation account call).can (chain.system Asset) stack
      ⟨account, .run implementation call, false⟩ (fun _ _ => True) world := by
  let imm : Imm := ⟨chain.network, Bytes.ofNat 20 0⟩
  let near : World accountSignature := World.start (slots world.store)
  have holds : args.Valid chain.platform imm.network
      (near.store account (.ed25519Slot U.zero)) := by
    change args.Valid chain.platform chain.network (slots world.store account _)
    rwa [ready.key]
  have fresh : FreshNonces account args.nonces near := by
    refine ⟨distinct, ?_⟩
    intro nonce member
    rw [asks.nonces] at member
    rcases List.mem_map.mp member with ⟨item, inside, rfl⟩
    exact ready.unused item inside
  have possible : (entry chain.platform imm account args).can
      (accounts Asset chain.platform chain.network fun _ _ _ => none) [] (alone account)
      (fun _ _ => True) near :=
    can_entry (rfl : (alone account).readonly = false) (fun _ _ => rfl) asks.movesFunds holds
      fresh ready.unlocked
  have yields : (entry chain.platform imm account args).Yields
      (settledWords key (slots world.store account .ethereumOwner)
        (slots world.store account .authority))
      fun _ exchanges => ∀ exchange ∈ exchanges, solving items exchange.1 := by
    apply (entry_yields args).mono
    exact fun _ _ done => asks.solving done
  rw [runCode_account Asset isAccount, userEntrypoint]
  simp only [read, serve]
  apply Prog.can_mono (S := chainSignature) _ ((ready_simulation items (alone account) stack
    ⟨account, .run implementation call, false⟩ rfl).can_embed rfl _ yields ⟨rfl, ready.targets⟩
    possible ready.known)
  · intro _ _ _
    trivial
  · intro near far query related asked
    cases query with
    | call called cd =>
        rcases asked with ⟨item, member, rfl⟩
        exact if_neg (fun hasCode => hasCode (related.2 item member))
    | create2 init salt => exact asked.elim
    | delegate code cd => exact asked.elim
    | _ => exact congrArg (Option.map _) (ready.tokens _ _ _)

section Delegation

variable (post : List UInt8 → (Address → Cell → U) → Prop)

/-- A delegation returns what the code returns. -/
theorem canEnd_delegateTo {frame : Frame chainSignature} {implementation : Address}
    {calldata : List UInt8}
    (completes : (chain.system Asset).CanComplete (frame :: stack)
      ⟨frame.self, .run implementation ⟨frame.msg.sender, calldata⟩, frame.readonly⟩ world
      fun output after => post output after.store) :
    (delegateTo implementation calldata).CanEnd (chain.system Asset) stack frame world
      fun output after => post output after.store := by
  have inherits : (frame.readonly ||
      (chain.system Asset).static (.account (.delegate implementation calldata))) =
        frame.readonly := Bool.or_false _
  rw [delegateTo, Prog.request_bind]
  apply Prog.canEnd_called (S := chainSignature) rfl (by rw [inherits]; exact completes)
  intro output middle holds
  exact Prog.canEnd_require rfl (Prog.canEnd_pure holds)

/-- A call that is no migration completes if the account's code completes. -/
theorem canComplete_account {call : Call} (apart : account ≠ chain.factory)
    (hasCode : world.store account .code ≠ U.zero)
    (noMigration : Evm.slice call.calldata 0 4 ≠ selMigrate)
    (completes : (chain.system Asset).CanComplete (⟨account, .call call, false⟩ :: stack)
      ⟨account, .run (slots world.store account .slotImpl).addr call, false⟩
      (world.record stack ⟨account, .call call, false⟩ .entered)
      fun output after => post output after.store) :
    (chain.system Asset).CanComplete stack ⟨account, .call call, false⟩ world
      fun output after => post output after.store := by
  apply System.canComplete_of_canEnd (S := chainSignature) _ fun _ _ holds => holds
  change (chain.answerCall account call).CanEnd _ _ _ _ _
  rw [answerCall, if_neg apart, Prog.sload_bind]
  apply Prog.canEnd_load
  rw [World.record_store, if_neg hasCode, proxy, if_neg noMigration, Prog.sload_bind]
  exact Prog.canEnd_load (canEnd_delegateTo post completes)

end Delegation

/-- A ready account can complete a valid request to solve. -/
theorem Ready.completes (ready : chain.Ready account key items world.store)
    (asks : Asks items args) (valid : args.Valid chain.platform chain.network key)
    (distinct : args.nonces.Nodup) (sender : Address) :
    (chain.system Asset).CanComplete stack ⟨account, .call ⟨sender, Borsh.toVec args⟩, false⟩
      world fun _ _ => True := by
  have read : readRequest chain.platform (Borsh.toVec args) = .ok (.args args) :=
    readRequest_toVec _ _
  have noMigration : Evm.slice (Borsh.toVec args) 0 4 ≠ selMigrate := by
    have other := Metamorphic.not_migrates_of_args args []
    rwa [List.append_nil] at other
  let outer : Frame chainSignature := ⟨account, .call ⟨sender, Borsh.toVec args⟩, false⟩
  let inner : Frame chainSignature := ⟨account,
    .run (slots world.store account .slotImpl).addr ⟨sender, Borsh.toVec args⟩, false⟩
  let started := (world.record stack outer .entered).record (outer :: stack) inner .entered
  have still : chain.Ready account key items started.store := ready
  have possible : ((chain.system Asset).program inner.self inner.msg).can (chain.system Asset)
      (outer :: stack) inner (fun _ _ => True) started :=
    still.can_solve asks valid distinct ready.runs read
  apply canComplete_account (fun _ _ => True) ready.apart ready.hasCode noMigration
  exact System.canComplete_of_canEnd (S := chainSignature) (Prog.canEnd_of_can possible)
    fun _ _ holds => holds

end Ready

section Servers

variable [Inhabited Asset] {monthAfter : Go.Timestamp → Go.Timestamp}
  {allow : Go.ServerConfig monthAfter → ℕ → Go.Op → Prop} {config : Go.ServerConfig monthAfter}
  {event : Go.ServerEvent monthAfter} {signed : Go.SignedTx}

/-- A transaction of the server is one of two, as the contracts of the chain read it. -/
theorem carries_of_sent (served : chain.Served env r)
    (reached : Threads.Reachable (Go.serveHTTP env r) Go.Migrated allow config)
    (recorded : event ∈ config.history) (sent : event.entry.op = .sendTransaction signed) :
    signed.tx.value = 0 ∧
      ((∃ eoa, Go.CarriesCreation env r chain.platform.precompiles eoa signed.tx ∧
          ∃ mutation ∈ event.job.mutations, mutation.CreatesFor eoa) ∨
        ∃ eoa, Go.CarriesSolve env r chain.platform.precompiles eoa signed.tx) := by
  rcases Threads.exists_suffix_of_mem recorded with ⟨older, suffix, _⟩
  have books := Go.books_of_proper (reached.proper suffix)
  rw [sent] at books
  rcases books rfl with ⟨mutation, member, ctx, _, sends⟩
  rcases Go.Mutation.SendsTx.carries served.signs served.sum512 sends with
    ⟨value, ⟨eoa, creation, creates⟩ | ⟨eoa, solve, _⟩⟩
  · exact ⟨value, .inl ⟨eoa, creation, mutation, member, creates⟩⟩
  · exact ⟨value, .inr ⟨eoa, solve⟩⟩

/-- Whenever the factory completes a transaction of the server, there was no code at the address
that the server computes for the address in the request, there is from then on, and the factory
returned it. As long as only the account contract runs for it, and not for its owner, the account
there has the server's key and belongs to the address. -/
theorem sent_creation_makes_account (documented : chain.Documented) (served : chain.Served env r)
    (reached : Threads.Reachable (Go.serveHTTP env r) Go.Migrated allow config)
    (recorded : event ∈ config.history) (sent : event.entry.op = .sendTransaction signed)
    (toFactory : signed.tx.target = chain.factory) :
    ∃ eoa, (∃ mutation ∈ event.job.mutations, mutation.CreatesFor eoa) ∧
      ∀ (store : Address → Cell → U) (sender : Address) (script : List (Reaction chainSignature)),
        let account := Go.getClientAddr env r.accountsFactoryAddr eoa
        let result := (chain.system Asset).enter []
          ⟨chain.factory, .call ⟨sender, signed.tx.data⟩, false⟩
          (Reaction.runAll (chain.system Asset) script) (World.start store)
        store chain.factory .code ≠ U.zero →
        (chain.code (store chain.factory (.slot .slotImpl)).addr).isAccount = true →
        (store account .code = U.zero → store account (.slot .version) = U.zero) →
        ∀ output, result.2 = .ok output →
          store account .code = U.zero ∧ output = (U.ofBytes account).toList ∧
          ∃ authority, ∀ acts,
            let later := Act.runAll (chain.system Asset) acts [] false result.1
            later.store account .code ≠ U.zero ∧
            (later.Entered (chain.Undisturbed account eoa) →
              Owned account r.accPubKey eoa authority (store chain.factory (.slot .slotImpl))
                (slots later.store)) := by
  rcases carries_of_sent served reached recorded sent with
    ⟨_, ⟨eoa, creation, asked⟩ | ⟨_, _, _, _, toRouter, _⟩⟩
  · refine ⟨eoa, asked, ?_⟩
    intro store sender script account result deployed runs vacant output succeeded
    have completes : (chain.system Asset).Completes []
        ⟨chain.factory, .call ⟨sender, signed.tx.data⟩, false⟩ (World.start store) output
        result.1 := ⟨script, Prod.ext rfl succeeded⟩
    have located : account = chain.accountOf eoa := served.getClientAddr eoa
    rcases creates_of_carries documented creation runs completes with
      ⟨authority, solves, unused, given, creates⟩
    rw [← located] at unused given creates
    change store account .code = U.zero at unused
    have apart : account ≠ chain.factory := by
      intro same
      rw [same] at unused
      exact deployed unused
    refine ⟨unused, given, authority, ?_⟩
    intro acts later
    refine ⟨(code_guarantee chain Asset account).runAll acts (fun _ _ _ => trivial)
      creates.hasCode, ?_⟩
    intro respected
    -- the account is owned after its creation, and stays so
    have early : result.1.Entered (chain.Undisturbed account eoa) :=
      respected.of_suffix (Act.trace_suffix_runAll _ acts [] false _)
    have owned := (creates.owned documented apart runs (vacant unused) early).1
    have stays : Stays account r.accPubKey eoa authority (store chain.factory (.slot .slotImpl))
        (slots result.1.store) (slots later.store) :=
      (stays_guarantee Asset apart).runAll acts respected
    exact (stays owned).1
  · exact absurd (toRouter.symm.trans toFactory) served.router

omit [Inhabited Asset] in
/-- The assets of the server's solves are on the network if its token is. -/
theorem payable_of_moves {usdc : Asset} {claimantHelper eoa : Address} {item : SolveArgs Asset}
    (moves : Go.Moves usdc claimantHelper eoa item) {network : Network}
    (listed : (AssetRegistry.addr usdc network).isSome = true) : item.Payable network := by
  cases moves with
  | mint permits market outcome amount referrer msTs =>
      refine ⟨?_, ?_⟩
      · intro permit member
        rw [permits permit member]
        exact listed
      · intro fromArgs member
        rw [List.mem_singleton.mp member]
        exact listed
  | claim pools msTs => exact ⟨nofun, nofun⟩

/-- A transaction of the server that does not go to the factory is a solve for an address. If the
code of its account is the expected one, the router calls the account at the place that the server
computes, with the solve and without value. Whenever that account is ready, some behaviour of the
tokens and the target lets it complete the call. -/
theorem sent_solve_can_complete (served : chain.Served env r)
    (listed : (AssetRegistry.addr env.usdc chain.network).isSome = true)
    (reached : Threads.Reachable (Go.serveHTTP env r) Go.Migrated allow config)
    (recorded : event ∈ config.history) (sent : event.entry.op = .sendTransaction signed)
    (elsewhere : signed.tx.target ≠ chain.factory) (short : signed.tx.data.length < 2 ^ 64) :
    signed.tx.target = r.safetyRouterAddr ∧
      ∃ eoa item sig payload, Go.Moves env.usdc r.claimantHelperAddr eoa item ∧
        let account := Go.getClientAddr env r.accountsFactoryAddr eoa
        signed.tx.data = List.replicate 12 0 ++ account.toList ++ Evm.Payload.bytes payload ∧
        payload.bytes = Borsh.toVec (Args.solveV2 (Go.ownSolve eoa item) sig) ∧
        (∀ host steps own answer sender,
          Router.Expected (answer r.safetyRouterAddr (.codeHash account)) →
            Router.routed host (steps + 37) own answer sender signed.tx =
              some ([.call account 0 payload],
                (answer r.safetyRouterAddr (.call account 0 payload)).outcome)) ∧
        ∀ (stack : List (Frame chainSignature)) (world : World chainSignature),
          chain.Ready account r.accPubKey [item] world.store →
          ∃ output after, (chain.system Asset).Completes stack
            ⟨account, .call ⟨r.safetyRouterAddr, payload.bytes⟩, false⟩ world output after := by
  rcases carries_of_sent served reached recorded sent with
    ⟨value, ⟨_, ⟨_, _, _, _, _, toFactory, _⟩, _⟩ | ⟨eoa, solve⟩⟩
  · exact absurd (toFactory.trans served.factory) elsewhere
  · rcases solve with ⟨item, sig, bytes, toRouter, data, read, moves, verified⟩
    have fits : bytes.length + 32 < 2 ^ 64 := by
      rw [data] at short
      simp only [List.length_append, List.length_replicate, List.Vector.toList_length] at short
      omega
    have written : bytes = Borsh.toVec (Args.solveV2 (Go.ownSolve eoa item) sig) :=
      (Borsh.eq_toVec_append_of_deserialize read).trans (List.append_nil _)
    refine ⟨toRouter, eoa, item, sig, ⟨bytes, by omega⟩, moves, data, written, ?_, ?_⟩
    · intro host steps own answer sender expected
      have carries : signed.tx.Carries r.safetyRouterAddr true
          (Go.getClientAddr env r.accountsFactoryAddr eoa) bytes
          ((none : Option Evm.Word).map BitVec.toNat) := ⟨toRouter, data, value⟩
      rw [Router.routed_of_carries host steps own fits carries, if_pos expected]
    · intro stack world ready
      have valid : (Args.solveV2 (Go.ownSolve eoa item) sig).Valid chain.platform chain.network
          r.accPubKey := by
        refine ⟨verified, ?_⟩
        intro other member
        rw [List.mem_singleton.mp member]
        exact payable_of_moves moves listed
      have asks : Asks [item] (Args.solveV2 (Go.ownSolve eoa item) sig) := rfl
      rcases ready.completes asks valid (List.nodup_singleton _) r.safetyRouterAddr with
        ⟨output, after, completes, _⟩
      rw [← written] at completes
      exact ⟨output, after, completes⟩

end Servers

/-! ### Known answers: an owner has an account created, and mints -/

namespace Known

open Go.Known (resolver signingEnv signingPrecompiles ownersMint handedOver)

/-- Keccak-256 of what the server and the factory hash below. -/
def serverKeccak256 (preimage : List UInt8) : U :=
  if preimage = asciiBytes "upgradeToAndCall(address,bytes)" then
    Bytes.ofNat 32 0x4f1ef2866b98625bdfefae89411f7a82754ac4089eff8e78c8832329a538337f
  else if preimage = 0x19 :: asciiBytes "Ethereum Signed Message:\n153" ++
      preimageTxt Go.knownKey (Bytes.ofNat 20 0) then
    digest
  else
    ownersMint.keccak256 preimage

def serverEnv : Go.Env KnownAsset :=
  { signingEnv with keccak256 := serverKeccak256 }

/-- The chain that the server works for. -/
def servedChain : Chain where
  factory := resolver.accountsFactoryAddr
  network := .arbitrum
  platform := { platform with precompiles := signingPrecompiles, keccak256 := serverKeccak256 }
  decodeUpgrade _ := none
  code address := if address = implementation then .account else .empty
  route _ _ _ := none

theorem served : servedChain.Served serverEnv resolver where
  factory := rfl
  router := by decide
  keccak256 := rfl
  initCode := rfl
  sum512 := rfl
  signs := Go.Known.signingEnv_signsWith

theorem documented_servedChain : servedChain.Documented where
  readWords := documented.readWords
  selector := by decide +kernel

/-- The request of the owner, with the signature of `calldata`. -/
def enrolling : Go.Request where
  method := "POST"
  authorization := ""
  mutations := [.createAccountExec
    { eoaAddr := "0x9d8A62f656a8d1615C1294fd71e9CFb3E4855A4F"
      sigV := 28
      sigR := "c84ee115013293517eb4093c0dfdb14850f2793e8bb2bca959530cce9cd6f145"
      sigS := "722c0643991594df65892478af7f3b310deefe386592d44bb41afa2d654033aa"
      authority := none } none none]

/-- The owner has the account created, asks for a secret and mints with it. -/
def serverRun : Option (Go.ServerConfig Go.Known.monthAfter) :=
  Threads.Config.run (Go.serveHTTP serverEnv resolver) ⟨Go.Known.withKey [], [], []⟩
    ([.arrive enrolling, .perform 0 .plain, .perform 0 .plain, .perform 0 .plain,
      .perform 0 (.number 200000), .perform 0 (.number 100000000), .perform 0 (.number 1),
      .perform 0 .plain, .perform 0 .plain, .arrive Go.Known.asking, .perform 1 .plain,
      .perform 1 (.random Go.Known.secret), .perform 1 .plain, .arrive ownersMint.minting] ++
      Go.Known.mintSteps 2)

theorem reached_of_serverRun {config : Go.ServerConfig Go.Known.monthAfter}
    (ran : serverRun = some config) :
    Threads.Reachable (Go.serveHTTP serverEnv resolver) Go.Migrated (fun _ _ _ => True) config :=
  .run (.start (by simp [Go.Migrated, Go.Known.withKey])) ran

/-- For whom a mutation creates an account. -/
def creator : Go.Mutation → Option Address
  | .createAccountExec createAccount _ _ => some (Go.hexToAddress createAccount.eoaAddr)
  | _ => none

theorem creator_of_createsFor {mutation : Go.Mutation} {eoa : Address}
    (creates : mutation.CreatesFor eoa) : creator mutation = some eoa := by
  rcases creates with ⟨createAccount, mint, dryrun, rfl, _, _, rfl⟩
  rfl

/-- The targets of the solve in the calldata for the router. -/
def solveTargets (data : List UInt8) : List Address :=
  match (Borsh.deserialize (data.drop 32) : Option (Args KnownAsset × List UInt8)) with
  | some (.solveV2 args _, _) => args.args.toList.map (·.target)
  | _ => []

theorem solveTargets_ownSolve (account eoa : Address) (item : SolveArgs KnownAsset) (sig : Sig) :
    solveTargets (List.replicate 12 0 ++ account.toList ++
      Borsh.toVec (Args.solveV2 (Go.ownSolve eoa item) sig)) = [item.target] := by
  have dropped : (List.replicate 12 0 ++ account.toList ++
      Borsh.toVec (Args.solveV2 (Go.ownSolve eoa item) sig)).drop 32 =
      Borsh.toVec (Args.solveV2 (Go.ownSolve eoa item) sig) :=
    List.drop_left' (by simp)
  rw [solveTargets, dropped, Borsh.deserialize_toVec]
  rfl

def mintingAccount : Address :=
  Bytes.ofNat 20 0x3565a7aa26d4ba8ea1679e099dbbab92370c945f

def market : Address :=
  Bytes.ofNat 20 0x1111111111111111111111111111111111111111

/-- The transaction creates the account of the owner. -/
def Enrols (event : Go.ServerEvent Go.Known.monthAfter) (signed : Go.SignedTx) : Prop :=
  signed.tx.target = servedChain.factory ∧
    event.job.mutations.map creator = [some eoaAddr] ∧ signed.tx.data = calldata Vec.empty

instance (event : Go.ServerEvent Go.Known.monthAfter) (signed : Go.SignedTx) :
    Decidable (Enrols event signed) :=
  inferInstanceAs (Decidable (_ ∧ _ ∧ _))

/-- The transaction mints in the market with the account of the owner. -/
def Mints (signed : Go.SignedTx) : Prop :=
  signed.tx.target ≠ servedChain.factory ∧ signed.tx.data.length < 2 ^ 64 ∧
    signed.tx.data.take 32 = List.replicate 12 0 ++ mintingAccount.toList ∧
    solveTargets signed.tx.data = [market]

instance (signed : Go.SignedTx) : Decidable (Mints signed) :=
  inferInstanceAs (Decidable (_ ∧ _ ∧ _ ∧ _))

theorem serverRun_ends :
    serverRun.any (fun config =>
      config.history.any (fun event => (handedOver event).any fun signed => Enrols event signed) &&
      config.history.any (fun event => (handedOver event).any fun signed => Mints signed)) =
    true := by
  decide +kernel

theorem sent_of_any {config : Go.ServerConfig Go.Known.monthAfter}
    {chosen : Go.ServerEvent Go.Known.monthAfter → Go.SignedTx → Bool}
    (found : config.history.any (fun event => (handedOver event).any (chosen event)) = true) :
    ∃ event ∈ config.history, ∃ signed, event.entry.op = .sendTransaction signed ∧
      chosen event signed = true := by
  rcases List.any_eq_true.mp found with ⟨event, recorded, handed⟩
  rcases (Option.any_eq_true _ _).mp handed with ⟨signed, same, holds⟩
  exact ⟨event, recorded, signed, Go.Known.sent_of_handedOver same, holds⟩

def servedStore : Address → Cell → U := fun address cell =>
  if address = servedChain.factory then
    store SuperpositionAccounts.Known.admin Metamorphic.Known.factory cell
  else
    U.zero

/-- The factory runs the calldata of the creation. -/
def enrolled (data : List UInt8) :
    World chainSignature × Except chainSignature.Err chainSignature.Output :=
  (servedChain.system KnownAsset).enter []
    ⟨servedChain.factory, .call ⟨SuperpositionAccounts.Known.relayer, data⟩, false⟩
    (Reaction.runAll (servedChain.system KnownAsset)
      [.enter [.enter [], .enter [.enter [.enter []], .enter []]]])
    (World.start servedStore)

/-- An account with the server's key that nobody has used yet. -/
def readyStore : Address → Cell → U := fun address cell =>
  if address = mintingAccount then
    match cell with
    | .code => U.one
    | .slot .slotImpl => U.ofBytes implementation
    | .slot .version => U.two
    | .slot (.ed25519Slot _) => Go.knownKey
    | _ => U.zero
  else
    U.zero

theorem ready_of_target {item : SolveArgs KnownAsset} (target : item.target = market) :
    servedChain.Ready mintingAccount Go.knownKey [item] readyStore where
  apart := by decide
  hasCode := by decide
  runs := by decide
  settled := rfl
  key := rfl
  unlocked := rfl
  unused := by
    intro other member
    rfl
  targets := by
    intro other member
    rw [List.mem_singleton.mp member, target]
    decide
  tokens _ _ _ := rfl

end Known

theorem sent_creation_makes_account_known :
    ∃ config event signed authority, Known.serverRun = some config ∧ event ∈ config.history ∧
      event.entry.op = .sendTransaction signed ∧
      let result := Known.enrolled signed.tx.data
      result.2 = .ok (U.ofBytes Known.mintingAccount).toList ∧
      Owned Known.mintingAccount Go.knownKey Known.eoaAddr authority
        (U.ofBytes Known.implementation) (slots result.1.store) := by
  rcases (Option.any_eq_true _ _).mp Known.serverRun_ends with ⟨config, ran, found⟩
  rcases Known.sent_of_any ((Bool.and_eq_true _ _).mp found).1 with
    ⟨event, recorded, signed, sent, enrols⟩
  rcases of_decide_eq_true enrols with ⟨toFactory, creators, data⟩
  rcases sent_creation_makes_account Known.documented_servedChain Known.served
    (Known.reached_of_serverRun ran) recorded sent toFactory with
    ⟨eoa, ⟨mutation, member, creates⟩, makes⟩
  obtain rfl : eoa = Known.eoaAddr := by
    have inside := List.mem_map_of_mem (f := Known.creator) member
    rw [creators, Known.creator_of_createsFor creates] at inside
    exact Option.some.inj (List.mem_singleton.mp inside)
  have located : Go.getClientAddr Known.serverEnv Go.Known.resolver.accountsFactoryAddr
      Known.eoaAddr = Known.mintingAccount := by
    decide +kernel
  have succeeded : (Known.enrolled (Known.calldata Vec.empty)).2 =
      .ok (U.ofBytes Known.mintingAccount).toList := by
    decide +kernel
  have respected : (Known.enrolled (Known.calldata Vec.empty)).1.Entered
      (Known.servedChain.Undisturbed Known.mintingAccount Known.eoaAddr) := by
    decide +kernel
  rw [located] at makes
  rcases makes Known.servedStore SuperpositionAccounts.Known.relayer
    [.enter [.enter [], .enter [.enter [.enter []], .enter []]]] (by decide) (by decide)
    (fun _ => rfl) _ (data ▸ succeeded) with ⟨_, _, authority, later⟩
  refine ⟨config, event, signed, authority, ran, recorded, sent, data ▸ succeeded, ?_⟩
  exact (later []).2 (data ▸ respected)

theorem sent_solve_can_complete_known :
    ∃ config event signed, ∃ item : SolveArgs KnownAsset, ∃ payload,
      Known.serverRun = some config ∧ event ∈ config.history ∧
      event.entry.op = .sendTransaction signed ∧
      signed.tx.target = Go.Known.resolver.safetyRouterAddr ∧
      item.target = Known.market ∧
      Known.servedChain.Ready Known.mintingAccount Go.knownKey [item] Known.readyStore ∧
      ∃ output after, (Known.servedChain.system KnownAsset).Completes []
        ⟨Known.mintingAccount, .call ⟨Go.Known.resolver.safetyRouterAddr,
          Evm.Payload.bytes payload⟩, false⟩ (World.start Known.readyStore) output after := by
  rcases (Option.any_eq_true _ _).mp Known.serverRun_ends with ⟨config, ran, found⟩
  rcases Known.sent_of_any ((Bool.and_eq_true _ _).mp found).2 with
    ⟨event, recorded, signed, sent, mints⟩
  rcases of_decide_eq_true mints with ⟨elsewhere, short, account, targets⟩
  rcases sent_solve_can_complete Known.served rfl (Known.reached_of_serverRun ran) recorded sent
    elsewhere short with ⟨toRouter, eoa, item, sig, payload, _, data, written, _, completes⟩
  have located : Go.getClientAddr Known.serverEnv Go.Known.resolver.accountsFactoryAddr eoa =
      Known.mintingAccount := by
    rw [data, List.take_left' (by simp)] at account
    exact List.Vector.toList_injective (List.append_cancel_left account)
  have target : item.target = Known.market := by
    rw [data, written, Known.solveTargets_ownSolve] at targets
    exact List.singleton_injective targets
  rw [located] at completes
  have ready := Known.ready_of_target target
  exact ⟨config, event, signed, item, payload, ran, recorded, sent, toRouter, target, ready,
    completes [] (World.start Known.readyStore) ready⟩

end Chain

end SuperpositionAccounts
