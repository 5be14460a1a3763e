import SuperpositionAccounts.Factory.Accounts
import SuperpositionAccounts.Factory.ProxyCode

/-!
# The run of a request for an account

A `FreshBackwards` request makes the factory create the account of an owner, have
it migrated and let it solve. Three contracts call each other on the way. What a
request that succeeds has done is read off its run, frame by frame: the factory,
its code, the new proxy, the beacon, and the code of the account.

Anyone may be called while the account solves. From the migration on the account
is owned, and stays so unless its owner or foreign code interferes.
-/

namespace SuperpositionAccounts

open CallTree

namespace Chain

/-- What is documented of the functions that are not in this repository. -/
structure Documented (chain : Chain) : Prop where
  readWords : ∀ first second third fourth : U,
    chain.platform.readWords
      (first.toList ++ second.toList ++ third.toList ++ fourth.toList) =
        .ok (first, second, third, fourth)
  selector : chain.upgradeToAndCallSelector = [0x4f, 0x1e, 0xf2, 0x86]

section Runs

variable {chain : Chain} {Asset : Type} [AssetRegistry Asset]
  {stack : List (Frame chainSignature)} {frame : Frame chainSignature}
  {script : List (Reaction chainSignature)} {world after : World chainSignature}
  {output : List UInt8}

/-- An answer that reports success is that of a frame that completed. -/
theorem relay_ok {outcome : Except Revert (List UInt8)} (succeeded : (relay outcome).ok = true) :
    ∃ output, outcome = .ok output := by
  cases outcome with
  | ok output => exact ⟨output, rfl⟩
  | error err =>
      cases err with
      | panic message => cases succeeded
      | reason message => cases succeeded
      | bubble data => cases succeeded
      | reentrant => cases succeeded
      | halted => cases succeeded

/-- A call whose success is checked is a frame that completes. -/
theorem completes_of_called {α : Type} {value : α} {query : Ask} {self : Address} {msg : Message}
    {next : Reply → Prog chainSignature α}
    (called : chain.callee world.store frame query = some (self, msg))
    (checked : ∀ {reply rest middle}, (next reply).Ends (chain.system Asset) stack frame rest
      middle value after → reply.ok = true)
    (ends : (Prog.ask query next : Prog chainSignature α).Ends (chain.system Asset) stack frame
      script world value after) :
    ∃ returned middle rest,
      (chain.system Asset).Completes (frame :: stack)
          ⟨self, msg, frame.readonly || (chain.system Asset).static query⟩ world returned
          middle ∧
        (next (relay (.ok returned))).Ends (chain.system Asset) stack frame rest
          (middle.record stack frame (.asked query (relay (.ok returned)))) value after := by
  rw [Prog.ends_called (S := chainSignature) called] at ends
  rcases ends with ⟨inner, rest, _, ends⟩
  rcases relay_ok (checked ends) with ⟨returned, completed⟩
  dsimp only at ends
  rw [completed] at ends
  exact ⟨returned, _, rest, ⟨inner, Prod.ext rfl completed⟩, ends⟩

/-- A delegation that succeeds is a frame of the same address that completes. -/
theorem completes_of_delegateTo {implementation : Address} {calldata : List UInt8}
    (ends : (delegateTo implementation calldata).Ends (chain.system Asset) stack frame script
      world output after) :
    ∃ middle, (chain.system Asset).Completes (frame :: stack)
        ⟨frame.self, .run implementation ⟨frame.msg.sender, calldata⟩, frame.readonly⟩ world
        output middle ∧ middle.Quiet after := by
  rw [delegateTo, Prog.request_bind] at ends
  rcases completes_of_called rfl (fun ends => (Prog.ends_require.mp ends).1) ends with
    ⟨returned, middle, rest, completes, ends⟩
  rw [Prog.ends_require, Prog.ends_pure] at ends
  rcases ends with ⟨_, rfl, rfl⟩
  have inherits : (frame.readonly ||
      (chain.system Asset).static (.account (.delegate implementation calldata))) =
        frame.readonly := Bool.or_false _
  rw [inherits] at completes
  exact ⟨middle, completes, World.quiet_record _ _ _ _⟩

/-! ### The factory and its beacon -/

omit [AssetRegistry Asset] in
theorem not_upgrade_nil (documented : chain.Documented) :
    Deployment.msgSig [] ≠ chain.upgradeToAndCallSelector := by
  rw [documented.selector]
  decide

/-- A request does not start like an upgrade. -/
theorem not_upgrade_of_args (documented : chain.Documented) {calldata : List UInt8}
    {args : Args Asset} (read : readRequest chain.platform calldata = .ok (.args args)) :
    Deployment.msgSig calldata ≠ chain.upgradeToAndCallSelector := by
  rcases eq_toVec_of_readRequest read with ⟨rest, rfl⟩
  rw [documented.selector]
  intro starts
  have first : (Deployment.msgSig (Borsh.toVec args ++ rest)).head? = some args.tag := rfl
  rw [starts] at first
  have bound := args.tag_le
  rw [← Option.some.inj first] at bound
  exact absurd bound (by decide)

/-- Who is not the admin has the factory run its implementation. -/
theorem completes_factory {call : Call} {readonly : Bool}
    (notUpgrade : Deployment.msgSig call.calldata ≠ chain.upgradeToAndCallSelector)
    (completes : (chain.system Asset).Completes stack ⟨chain.factory, .call call, readonly⟩ world
      output after) :
    ∃ start middle, start.store = world.store ∧
      (chain.system Asset).Completes (⟨chain.factory, .call call, readonly⟩ :: stack)
        ⟨chain.factory, .run (world.store chain.factory (.slot .slotImpl)).addr call, readonly⟩
        start output middle ∧
      middle.Quiet after := by
  rcases completes.ends with ⟨script, last, ends, rfl⟩
  change (chain.answerCall chain.factory call).Ends _ _ _ _ _ _ _ at ends
  rw [answerCall, if_pos rfl, fallback, Prog.sload_bind, Prog.ends_load] at ends
  split at ends
  · rw [upgrade, Prog.ends_require] at ends
    exact absurd (of_decide_eq_true ends.1) notUpgrade
  · rw [Prog.sload_bind, Prog.ends_load] at ends
    rcases completes_of_delegateTo ends with ⟨middle, completes, quiet⟩
    refine ⟨_, middle, ?_, completes, quiet.trans (World.quiet_record _ _ _ _)⟩
    rfl

/-- Asking the beacon changes nothing, whether it answers or not. -/
theorem enter_beacon_store (documented : chain.Documented)
    (runs : (chain.code (world.store chain.factory (.slot .slotImpl)).addr).isAccount = true)
    (caller : Address) (readonly : Bool) (script : List (Reaction chainSignature)) :
    ((chain.system Asset).enter stack ⟨chain.factory, .call ⟨caller, []⟩, readonly⟩
      (Reaction.runAll (chain.system Asset) script) world).1.store = world.store := by
  cases outcome : ((chain.system Asset).enter stack ⟨chain.factory, .call ⟨caller, []⟩, readonly⟩
    (Reaction.runAll (chain.system Asset) script) world).2 with
  | error err => exact congrArg State.store ((chain.system Asset).enter_failed outcome)
  | ok output =>
      have completes : (chain.system Asset).Completes stack
          ⟨chain.factory, .call ⟨caller, []⟩, readonly⟩ world output _ :=
        ⟨script, Prod.ext rfl outcome⟩
      rcases completes_factory (not_upgrade_nil documented) completes with
        ⟨start, middle, same, completes, quiet⟩
      rcases completes.ends with ⟨_, last, ends, rfl⟩
      change (chain.runCode Asset _ chain.factory ⟨caller, []⟩).Ends _ _ _ _ _ _ _ at ends
      have served : userEntrypoint Asset chain.platform chain.network chain.factory
          ⟨caller, []⟩ = readSlot .slotImpl := rfl
      rw [runCode_account Asset runs, served, readSlot, Prog.embed_bind, Prog.embed_sload,
        Prog.sload_bind, Prog.ends_load, Prog.embed_pure, Prog.ends_pure] at ends
      rcases ends with ⟨_, rfl⟩
      rw [quiet.store]
      exact same

/-! ### The account -/

omit [AssetRegistry Asset] in
theorem word_relay (word : U) : (relay (.ok word.toList)).word = word := by
  apply List.Vector.eq
  change (word.toList ++ List.replicate 32 0).take 32 = word.toList
  rw [List.take_append_of_le_length (by simp)]
  simp

/-- A creation finds no code and leaves some. -/
theorem of_completes_create {account : Address} {readonly : Bool}
    (completes : (chain.system Asset).Completes stack ⟨account, .create, readonly⟩ world output
      after) :
    world.store account .code = U.zero ∧ readonly = false ∧
      output = (U.ofBytes account).toList ∧
      after.store = (world.write account .code U.one).store := by
  rcases completes.ends with ⟨script, last, ends, rfl⟩
  change (createAccount account).Ends _ _ _ _ _ _ _ at ends
  rw [createAccount, Prog.sload_bind, Prog.ends_load, Prog.ends_require, Prog.sstore_bind,
    Prog.ends_store, Prog.ends_pure] at ends
  rcases ends with ⟨vacant, writable, rfl, rfl⟩
  exact ⟨of_decide_eq_true vacant, writable, rfl, rfl⟩

/-- A call of an account runs the code of an implementation: for a migration the one that the
beacon names, otherwise its own. -/
theorem completes_account (documented : chain.Documented) {account : Address} {call : Call}
    {readonly : Bool} (apart : account ≠ chain.factory)
    (hasCode : world.store account .code ≠ U.zero)
    (runs : Evm.slice call.calldata 0 4 = selMigrate →
      (chain.code (world.store chain.factory (.slot .slotImpl)).addr).isAccount = true)
    (completes : (chain.system Asset).Completes stack ⟨account, .call call, readonly⟩ world output
      after) :
    ∃ implementation start middle, start.store = world.store ∧
      (chain.system Asset).Completes (⟨account, .call call, readonly⟩ :: stack)
        ⟨account, .run implementation call, readonly⟩ start output middle ∧
      middle.Quiet after := by
  rcases completes.ends with ⟨script, last, ends, rfl⟩
  change (chain.answerCall account call).Ends _ _ _ _ _ _ _ at ends
  rw [answerCall, if_neg apart, Prog.sload_bind, Prog.ends_load, World.record_store,
    if_neg hasCode, proxy] at ends
  split at ends
  · rename_i migrates
    rw [Prog.request_bind, Prog.ends_called (S := chainSignature) rfl] at ends
    rcases ends with ⟨inner, rest, _, ends⟩
    rcases completes_of_delegateTo ends with ⟨middle, completes, quiet⟩
    refine ⟨_, _, middle, ?_, completes, quiet.trans (World.quiet_record _ _ _ _)⟩
    exact enter_beacon_store documented (by exact runs migrates) account _ inner
  · rw [Prog.sload_bind, Prog.ends_load] at ends
    rcases completes_of_delegateTo ends with ⟨middle, completes, quiet⟩
    refine ⟨_, _, middle, ?_, completes, quiet.trans (World.quiet_record _ _ _ _)⟩
    rfl

/-! ### The account contract in the system -/

section Embedded

variable {α β : Type} {value : α}

theorem ends_load {slot : Slot} {continuation : accountSignature.Word → Contract α} :
    ((Prog.sload slot >>= continuation : Contract α).embed Message Cell.slot Ask.account).Ends
        (chain.system Asset) stack frame script world value after ↔
      ((continuation (world.store frame.self (.slot slot))).embed Message Cell.slot
        Ask.account).Ends (chain.system Asset) stack frame script world value after :=
  Iff.rfl

theorem ends_sstore {slot : Slot} {word : U} {continuation : Unit → Contract α} :
    ((Prog.sstore slot word >>= continuation : Contract α).embed Message Cell.slot
        Ask.account).Ends (chain.system Asset) stack frame script world value after ↔
      frame.readonly = false ∧
        ((continuation ()).embed Message Cell.slot Ask.account).Ends (chain.system Asset) stack
          frame script (world.write frame.self (.slot slot) word) value after :=
  Prog.ends_store

theorem ends_assert {condition : Bool} {message : String} {continuation : Unit → Contract α} :
    ((assert condition message >>= continuation : Contract α).embed Message Cell.slot
        Ask.account).Ends (chain.system Asset) stack frame script world value after ↔
      condition = true ∧ ((continuation ()).embed Message Cell.slot Ask.account).Ends
        (chain.system Asset) stack frame script world value after := by
  rw [Prog.embed_bind, assert, Prog.embed_require]
  exact Prog.ends_require

/-- A request whose success is checked is a frame that completes. -/
theorem completes_of_request {query : Query} {self : Address} {msg : Message}
    {err : Reply → Revert} {continuation : Reply → Contract α}
    (called : chain.callee world.store frame (.account query) = some (self, msg))
    (ends : ((Prog.request query >>= fun reply : Reply =>
        Prog.require reply.ok (err reply) >>= fun _ => continuation reply : Contract α).embed
          Message Cell.slot Ask.account).Ends (chain.system Asset) stack frame script world value
            after) :
    ∃ returned middle rest,
      (chain.system Asset).Completes (frame :: stack)
          ⟨self, msg, frame.readonly || (chain.system Asset).static (.account query)⟩ world
          returned middle ∧
        ((continuation (relay (.ok returned))).embed Message Cell.slot Ask.account).Ends
          (chain.system Asset) stack frame rest
          (middle.record stack frame (.asked (.account query) (relay (.ok returned)))) value
          after := by
  have inner (reply : Reply) : (Prog.require reply.ok (err reply) >>= fun _ =>
      continuation reply : Contract α).embed Message Cell.slot Ask.account =
        Prog.require (S := chainSignature) reply.ok (err reply) >>= fun _ =>
          (continuation reply).embed Message Cell.slot Ask.account := by
    rw [Prog.embed_bind, Prog.embed_require]
  rw [Prog.embed_bind, Prog.embed_request, Prog.request_bind] at ends
  simp only [inner] at ends
  rcases completes_of_called called (fun ends => (Prog.ends_require.mp ends).1) ends with
    ⟨returned, middle, rest, completes, ends⟩
  exact ⟨returned, middle, rest, completes, (Prog.ends_require.mp ends).2⟩

theorem ends_return {result : α} :
    ((pure result : Contract α).embed Message Cell.slot Ask.account).Ends (chain.system Asset)
        stack frame script world value after ↔ result = value ∧ world = after :=
  Prog.ends_pure

end Embedded

/-! ### Migrating and solving -/

/-- The calldata of the migration that a creation makes. -/
def migrateCalldata (key : U) (eoaAddr : Address) (implAddr : U) (authority : Address) :
    List UInt8 :=
  selMigrate ++ key.toList ++ (U.ofBytes eoaAddr).toList ++ implAddr.toList ++
    (U.ofBytes authority).toList

theorem readRequest_migrateCalldata (documented : chain.Documented) (key : U) (eoaAddr : Address)
    (implAddr : U) (authority : Address) :
    (readRequest chain.platform (migrateCalldata key eoaAddr implAddr authority) :
      Except String (Request Asset)) =
        .ok (.migrate key (U.ofBytes eoaAddr) implAddr (U.ofBytes authority)) := by
  have long : 4 < (migrateCalldata key eoaAddr implAddr authority).length := by
    simp [migrateCalldata, selMigrate]
  have starts : (migrateCalldata key eoaAddr implAddr authority).take 4 = selMigrate := rfl
  have rest : (migrateCalldata key eoaAddr implAddr authority).drop 4 = key.toList ++
      (U.ofBytes eoaAddr).toList ++ implAddr.toList ++ (U.ofBytes authority).toList := rfl
  rw [readRequest, if_neg (by omega), if_pos ⟨long, starts⟩, rest, documented.readWords]

/-- A first migration makes the account its owner's. -/
theorem owned_of_migration (documented : chain.Documented) {account implementation sender : Address}
    {key implAddr : U} {eoaAddr authority : Address} {readonly : Bool}
    (isAccount : (chain.code implementation).isAccount = true)
    (blank : world.store account (.slot .version) = U.zero)
    (completes : (chain.system Asset).Completes stack ⟨account, .run implementation
      ⟨sender, migrateCalldata key eoaAddr implAddr authority⟩, readonly⟩ world output after) :
    Owned account key eoaAddr authority implAddr (slots after.store) := by
  rcases completes.ends with ⟨script, last, ends, rfl⟩
  change (chain.runCode Asset implementation account _).Ends _ _ _ _ _ _ _ at ends
  have early : U.zero.toNat ≤ U.one.toNat := by decide
  rw [runCode_account Asset isAccount, userEntrypoint] at ends
  simp only [readRequest_migrateCalldata documented, serve] at ends
  rw [entryMigrate, ends_assert, ends_load, World.record_store, blank, migrateLevelZero,
    if_pos rfl, migrateLevelOne, if_pos early] at ends
  simp only [Prog.bind_assoc, Prog.pure_bind, checkMigrator, if_true] at ends
  rw [ends_assert, ends_assert, ends_sstore, ends_sstore, ends_sstore, ends_assert, ends_sstore,
    ends_sstore, ends_sstore, ends_return] at ends
  rcases ends with ⟨_, _, _, _, _, _, _, _, _, _, _, rfl⟩
  refine ⟨?_, ?_, ?_, ?_, ?_, ?_⟩
  all_goals simp [slots, World.write]

/-- An owned account that solves has used the nonces it was given. -/
theorem spent_of_solve {account implementation sender : Address} {key implAddr : U}
    {eoaAddr authority : Address} {readonly : Bool} {args : Vec (SolveArgsSigArgs Asset)}
    (apart : account ≠ chain.factory)
    (isAccount : (chain.code implementation).isAccount = true)
    (owned : Owned account key eoaAddr authority implAddr (slots world.store))
    (completes : (chain.system Asset).Completes stack ⟨account, .run implementation
      ⟨sender, Borsh.toVec (Args.solve args)⟩, readonly⟩ world output after)
    (respected : after.Entered (chain.Undisturbed account eoaAddr)) :
    Spent account key eoaAddr authority implAddr (slots world.store) (Args.solve args).nonces
      (slots after.store) := by
  rcases completes.ends with ⟨script, last, ends, rfl⟩
  change (chain.runCode Asset implementation account _).Ends _ _ _ _ _ _ _ at ends
  rw [runCode_account Asset isAccount, userEntrypoint] at ends
  simp only [readRequest_toVec, serve] at ends
  apply ends.satisfies (stays_guarantee Asset apart) (respected.of_suffix (List.suffix_cons _ _))
  have consuming : Consuming
      (fun world after => Stays account key eoaAddr authority implAddr world.store after.store)
      [] (alone account) (fun done after => Spent account key eoaAddr authority implAddr
        (slots world.store) done after.store) := consuming_spent rfl
  apply wp_embed_stays
  exact consuming.wp_entry (.solve args) (Spent.initial owned)

theorem hasCode_of_completes {account : Address}
    (hadCode : world.store account .code ≠ U.zero)
    (completes : (chain.system Asset).Completes stack frame world output after) :
    after.store account .code ≠ U.zero := by
  rcases completes with ⟨script, entered⟩
  have guarantee := code_guarantee chain Asset account
  have kept : HasCode account world.toState ((chain.system Asset).enter stack frame
      (Reaction.runAll (chain.system Asset) script) world).1.toState :=
    guarantee.enter (Reaction.runAll_keepsTrace (chain.system Asset) script)
      (guarantee.reactions script) fun _ _ _ => trivial
  rw [entered] at kept
  exact kept hadCode

/-! ### The request -/

section Request

variable {key : U} {eoaAddr : Address} {v : UInt8} {r s : U}
  {solveArgs : Vec (SolveArgsSigArgs Asset)} {authority : Option Address}

/-- The authority of a request that names none is zero. -/
def authorityOf (authority : Option Address) : Address :=
  authority.getD (Bytes.ofNat 20 0)

/-- The account is asked to solve, if there is something to solve. -/
theorem ends_solving {msg : Message} {account : Address}
    (hasCode : world.store account .code ≠ U.zero)
    (ends : ((if (!solveArgs.toList.isEmpty) = true then do
          callOrRevert (.call account (Borsh.toVec (Args.solve solveArgs)))
          return (U.ofBytes account).toList
        else return (U.ofBytes account).toList : Contract (List UInt8)).embed Message Cell.slot
          Ask.account).Ends (chain.system Asset) stack ⟨chain.factory, msg, false⟩ script world
            output after) :
    output = (U.ofBytes account).toList ∧
      ((solveArgs.toList = [] ∧ world.Quiet after) ∨
        ∃ returned solved, (chain.system Asset).Completes (⟨chain.factory, msg, false⟩ :: stack)
            ⟨account, .call ⟨chain.factory, Borsh.toVec (Args.solve solveArgs)⟩, false⟩ world
            returned solved ∧ solved.Quiet after) := by
  cases solving : solveArgs.toList with
  | nil =>
      rw [solving, if_neg (by simp), ends_return] at ends
      rcases ends with ⟨rfl, rfl⟩
      exact ⟨rfl, Or.inl ⟨rfl, World.Quiet.refl _⟩⟩
  | cons first others =>
      have called : chain.callee world.store ⟨chain.factory, msg, false⟩
          (.account (.call account (Borsh.toVec (Args.solve solveArgs)))) =
            some (account, .call ⟨chain.factory, Borsh.toVec (Args.solve solveArgs)⟩) :=
        if_pos hasCode
      rw [solving, if_pos (by simp), callOrRevert, Prog.bind_assoc] at ends
      rcases completes_of_request called ends with ⟨returned, solved, rest, completes, ends⟩
      rw [ends_return] at ends
      rcases ends with ⟨rfl, rfl⟩
      exact ⟨rfl, Or.inr ⟨returned, solved, completes, World.quiet_record _ _ _ _⟩⟩

variable (chain) in
/-- A new account is made at an address, migrated and asked to solve. -/
def Creates (account : Address) (key : U) (eoaAddr authority : Address)
    (solveArgs : Vec (SolveArgsSigArgs Asset)) (before : Address → Cell → U)
    (after : World chainSignature) : Prop :=
  ∃ stack made migrated settled answered,
    made.store = ((World.start (S := chainSignature) before).write account .code U.one).store ∧
    (chain.system Asset).Completes stack ⟨account, .call ⟨chain.factory, migrateCalldata key
      eoaAddr (before chain.factory (.slot .slotImpl)) authority⟩, false⟩ made answered
      migrated ∧
    migrated.Quiet settled ∧
    ((solveArgs.toList = [] ∧ settled.Quiet after) ∨
      ∃ returned solved,
        (chain.system Asset).Completes stack
          ⟨account, .call ⟨chain.factory, Borsh.toVec (Args.solve solveArgs)⟩, false⟩ settled
          returned solved ∧ solved.Quiet after)

theorem Creates.quiet {account : Address} {before : Address → Cell → U} {authority : Address}
    {middle : World chainSignature}
    (creates : chain.Creates account key eoaAddr authority solveArgs before middle)
    (quiet : middle.Quiet after) :
    chain.Creates account key eoaAddr authority solveArgs before after := by
  rcases creates with ⟨stack, made, migrated, settled, answered, created, migrates, settles,
    solving⟩
  refine ⟨stack, made, migrated, settled, answered, created, migrates, settles, ?_⟩
  rcases solving with ⟨empty, earlier⟩ | ⟨returned, solved, solves, earlier⟩
  · exact Or.inl ⟨empty, earlier.trans quiet⟩
  · exact Or.inr ⟨returned, solved, solves, earlier.trans quiet⟩

/-- What the code of the factory has done when a request for a new account succeeds. -/
theorem ends_freshBackwards {msg : Message} {readonly : Bool}
    (ends : ((entryFreshBackwards chain.platform chain.factory key eoaAddr v r s solveArgs
      authority).embed Message Cell.slot Ask.account).Ends (chain.system Asset) stack
        ⟨chain.factory, msg, readonly⟩ script world output after) :
    chain.platform.ecrecoverPost
        (makePreimage chain.platform key (authorityOf authority)) v r s = some eoaAddr ∧
      world.store (chain.accountOf eoaAddr) .code = U.zero ∧
      output = (U.ofBytes (chain.accountOf eoaAddr)).toList ∧
      chain.Creates (chain.accountOf eoaAddr) key eoaAddr (authorityOf authority) solveArgs
        world.store after := by
  rw [entryFreshBackwards, ends_assert, ends_assert] at ends
  rcases ends with ⟨_, _, ends⟩
  rw [Prog.embed_bind, Prog.embed_unwrap, Prog.ends_unwrap] at ends
  rcases ends with ⟨signer, recovered, ends⟩
  rw [ends_assert, ends_load, ends_assert] at ends
  rcases ends with ⟨same, _, ends⟩
  cases of_decide_eq_true same
  have creates : chain.callee world.store ⟨chain.factory, msg, readonly⟩
      (.account (.create2 (chain.platform.makeMetamorphicEvmfnBeaconProxy chain.factory)
        eoaAddr.toList)) = some (chain.accountOf eoaAddr, .create) := if_pos ⟨rfl, rfl⟩
  rcases completes_of_request creates ends with ⟨_, made, _, completes, ends⟩
  rcases of_completes_create completes with ⟨vacant, writable, rfl, created⟩
  have notStatic : readonly = false := (Bool.or_eq_false_iff.mp writable).1
  subst notStatic
  rw [word_relay, U.addr_ofBytes] at ends
  have hasCode : made.store (chain.accountOf eoaAddr) .code ≠ U.zero := by
    rw [created, World.write_store_self (S := chainSignature)]
    decide
  have calls : chain.callee made.store ⟨chain.factory, msg, false⟩
      (.account (.call (chain.accountOf eoaAddr) (migrateCalldata key eoaAddr
        (world.store chain.factory (.slot .slotImpl)) (authorityOf authority)))) =
      some (chain.accountOf eoaAddr, .call ⟨chain.factory, migrateCalldata key eoaAddr
        (world.store chain.factory (.slot .slotImpl)) (authorityOf authority)⟩) :=
    if_pos hasCode
  rcases completes_of_request (by exact calls) ends with
    ⟨answered, migrated, rest, completes, ends⟩
  have stillCode : migrated.store (chain.accountOf eoaAddr) .code ≠ U.zero :=
    hasCode_of_completes (by exact hasCode) completes
  rcases ends_solving (by exact stillCode) ends with ⟨rfl, solving⟩
  refine ⟨recovered, vacant, rfl, _, _, migrated, _, answered, ?_, completes,
    World.quiet_record _ _ _ _, solving⟩
  exact created

/-- A request for a new account that succeeds. -/
theorem creates_of_request (documented : chain.Documented) {sender : Address}
    {calldata : List UInt8} {readonly : Bool}
    (runs : (chain.code (world.store chain.factory (.slot .slotImpl)).addr).isAccount = true)
    (read : readRequest chain.platform calldata =
      .ok (.args (.freshBackwards key eoaAddr v r s solveArgs authority)))
    (completes : (chain.system Asset).Completes stack
      ⟨chain.factory, .call ⟨sender, calldata⟩, readonly⟩ world output after) :
    chain.platform.ecrecoverPost
        (makePreimage chain.platform key (authorityOf authority)) v r s = some eoaAddr ∧
      world.store (chain.accountOf eoaAddr) .code = U.zero ∧
      output = (U.ofBytes (chain.accountOf eoaAddr)).toList ∧
      chain.Creates (chain.accountOf eoaAddr) key eoaAddr (authorityOf authority) solveArgs
        world.store after := by
  rcases completes_factory (not_upgrade_of_args documented read) completes with
    ⟨start, middle, same, completes, quiet⟩
  rcases completes.ends with ⟨script, last, ends, rfl⟩
  change (chain.runCode Asset _ chain.factory _).Ends _ _ _ _ _ _ _ at ends
  rw [runCode_account Asset runs, userEntrypoint] at ends
  simp only [read, serve, entry] at ends
  rcases ends_freshBackwards ends with ⟨signed, vacant, given, creates⟩
  rw [World.record_store, same] at vacant creates
  exact ⟨signed, vacant, given, creates.quiet ((World.quiet_record _ _ _ _).trans quiet)⟩

/-- A creation that takes effect leaves code. -/
theorem Creates.hasCode {account : Address} {before : Address → Cell → U} {authority : Address}
    (creates : chain.Creates account key eoaAddr authority solveArgs before after) :
    after.store account .code ≠ U.zero := by
  rcases creates with ⟨_, made, migrated, settled, _, created, migrates, settles, solving⟩
  have madeCode : made.store account .code ≠ U.zero := by
    rw [created, World.write_store_self (S := chainSignature)]
    decide
  have settledCode : settled.store account .code ≠ U.zero := by
    rw [settles.store]
    exact hasCode_of_completes madeCode migrates
  rcases solving with ⟨_, quiet⟩ | ⟨_, solved, solves, quiet⟩
  · rw [quiet.store]
    exact settledCode
  · rw [quiet.store]
    exact hasCode_of_completes settledCode solves

/-- The account contract solved a request for an account. -/
def Solved (chain : Chain) (account : Address) (solveArgs : Vec (SolveArgsSigArgs Asset))
    (log : List (Event chainSignature)) : Prop :=
  ∃ event ∈ log, ∃ implementation output, (chain.code implementation).isAccount = true ∧
    event.frame.self = account ∧
    event.frame.msg =
      .run implementation ⟨chain.factory, Borsh.toVec (Args.solve solveArgs)⟩ ∧
    event.action = .completed output

/-- If nothing but the account contract ran for the account, and not for its owner, the account is
the owner's, and the solve requests are done. -/
theorem Creates.owned (documented : chain.Documented) {account : Address}
    {before : Address → Cell → U} {authority : Address} (apart : account ≠ chain.factory)
    (runs : (chain.code (before chain.factory (.slot .slotImpl)).addr).isAccount = true)
    (blank : before account (.slot .version) = U.zero)
    (creates : chain.Creates account key eoaAddr authority solveArgs before after)
    (respected : after.Entered (chain.Undisturbed account eoaAddr)) :
    Owned account key eoaAddr authority (before chain.factory (.slot .slotImpl))
        (slots after.store) ∧
      (∀ nonce ∈ (Args.solve solveArgs).nonces,
        after.store account (.slot (.timestamps nonce)) = U.one) ∧
      (solveArgs.toList ≠ [] → chain.Solved account solveArgs after.log) := by
  rcases creates with ⟨_, made, migrated, settled, _, created, migrates, settles, solving⟩
  have kept {other : Address} {slot : Slot} :
      made.store other (.slot slot) = before other (.slot slot) := by
    rw [created]
    exact World.write_store_of_ne (S := chainSignature) _ _ (Or.inr nofun)
  have madeCode : made.store account .code ≠ U.zero := by
    rw [created, World.write_store_self (S := chainSignature)]
    decide
  -- the migration ran the account contract on an empty account
  rcases completes_account documented apart madeCode (fun _ => by rw [kept]; exact runs)
    migrates with ⟨_, start, middle, same, runsMigration, migrationQuiet⟩
  have later : settled.trace <:+ after.trace := by
    rcases solving with ⟨_, quiet⟩ | ⟨_, solved, solves, quiet⟩
    · exact quiet.trace
    · exact solves.trace_suffix.trans quiet.trace
  have middleRespected : middle.Entered (chain.Undisturbed account eoaAddr) :=
    respected.of_suffix ((migrationQuiet.trace.trans settles.trace).trans later)
  rcases runsMigration.allowed middleRespected rfl with ⟨isAccount, _⟩
  have owned : Owned account key eoaAddr authority (before chain.factory (.slot .slotImpl))
      (slots settled.store) := by
    rw [settles.store, migrationQuiet.store]
    exact owned_of_migration documented isAccount (by rw [same, kept, blank]) runsMigration
  have settledCode : settled.store account .code ≠ U.zero := by
    rw [settles.store]
    exact hasCode_of_completes madeCode migrates
  rcases solving with ⟨empty, quiet⟩ | ⟨_, solved, solves, quiet⟩
  · rw [quiet.store]
    refine ⟨owned, ?_, fun some => absurd empty some⟩
    simp [Args.nonces, empty]
  · have noMigration : Evm.slice (Borsh.toVec (Args.solve solveArgs)) 0 4 ≠ selMigrate := by
      have other := Metamorphic.not_migrates_of_args (Args.solve solveArgs) []
      rwa [List.append_nil] at other
    rcases completes_account documented apart settledCode
      (fun starts => absurd starts noMigration) solves with
      ⟨implementation, start, last, same, runsSolve, solveQuiet⟩
    have lastRespected : last.Entered (chain.Undisturbed account eoaAddr) :=
      respected.of_suffix (solveQuiet.trace.trans quiet.trace)
    rcases runsSolve.allowed lastRespected rfl with ⟨isAccount, _⟩
    have spent := spent_of_solve apart isAccount (by rw [same]; exact owned) runsSolve
      lastRespected
    rw [quiet.store, solveQuiet.store]
    refine ⟨spent.1, fun nonce member => spent.2 nonce (Or.inr member), fun _ => ?_⟩
    rcases runsSolve.ends with ⟨_, final, _, rfl⟩
    exact ⟨_, (solveQuiet.log.trans quiet.log).subset List.mem_cons_self, implementation, _,
      isAccount, rfl, rfl, rfl⟩

end Request

end Runs

end Chain

end SuperpositionAccounts
