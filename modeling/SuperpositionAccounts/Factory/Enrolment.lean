import SuperpositionAccounts.Factory.Onboarding

/-!
# When an account can be created

A creation runs through the factory, its code, the new proxy, the beacon and the
code of the new account. `Factory.Requests` reads off what a creation that
succeeded has done; here it is put together, frame by frame, from what it needs.
The factory can complete a request exactly if it names a key and an owner, is
signed by that owner, the factory has an implementation and the account was not
made before. Its first solves only need to be valid for the key in the request.

The beacon does not answer its own admin, see `Factory.Creation`, so neither the
sender nor the new account may be the admin.
-/

namespace SuperpositionAccounts

open CallTree

namespace Chain

section Prospects

variable {chain : Chain} {Asset : Type} [AssetRegistry Asset]
  {stack : List (Frame chainSignature)} {frame : Frame chainSignature}
  {world : World chainSignature}

/-! ### The account contract in the system -/

section Embedded

variable {α : Type} {post : α → World chainSignature → Prop}

theorem canEnd_return {value : α} (holds : post value world) :
    ((pure value : Contract α).embed Message Cell.slot Ask.account).CanEnd (chain.system Asset)
      stack frame world post :=
  Prog.canEnd_pure holds

theorem canEnd_sload {slot : Slot} {continuation : accountSignature.Word → Contract α}
    (continued : ((continuation (world.store frame.self (.slot slot))).embed Message Cell.slot
      Ask.account).CanEnd (chain.system Asset) stack frame world post) :
    ((Prog.sload slot >>= continuation : Contract α).embed Message Cell.slot Ask.account).CanEnd
      (chain.system Asset) stack frame world post :=
  continued

theorem canEnd_sstore {slot : Slot} {word : U} {continuation : Unit → Contract α}
    (mayWrite : frame.readonly = false)
    (continued : ((continuation ()).embed Message Cell.slot Ask.account).CanEnd
      (chain.system Asset) stack frame (world.write frame.self (.slot slot) word) post) :
    ((Prog.sstore slot word >>= continuation : Contract α).embed Message Cell.slot
      Ask.account).CanEnd (chain.system Asset) stack frame world post :=
  Prog.canEnd_store mayWrite continued

theorem canEnd_assert {condition : Bool} {message : String} {continuation : Unit → Contract α}
    (passes : condition = true)
    (continued : ((continuation ()).embed Message Cell.slot Ask.account).CanEnd
      (chain.system Asset) stack frame world post) :
    ((assert condition message >>= continuation : Contract α).embed Message Cell.slot
      Ask.account).CanEnd (chain.system Asset) stack frame world post := by
  rw [Prog.embed_bind, assert, Prog.embed_require]
  exact Prog.canEnd_require passes continued

/-- A contract of the system is called and completes. -/
theorem canEnd_request {query : Query} {self : Address} {msg : Message} {err : Reply → Revert}
    {continuation : Reply → Contract α} {reached : List UInt8 → World chainSignature → Prop}
    (called : chain.callee world.store frame (.account query) = some (self, msg))
    (completes : (chain.system Asset).CanComplete (frame :: stack)
      ⟨self, msg, frame.readonly || (chain.system Asset).static (.account query)⟩ world reached)
    (continued : ∀ output middle, reached output middle →
      ((continuation (relay (.ok output))).embed Message Cell.slot Ask.account).CanEnd
        (chain.system Asset) stack frame
        (middle.record stack frame (.asked (.account query) (relay (.ok output)))) post) :
    ((Prog.request query >>= fun reply : Reply =>
      Prog.require reply.ok (err reply) >>= fun _ => continuation reply : Contract α).embed
        Message Cell.slot Ask.account).CanEnd (chain.system Asset) stack frame world post := by
  rw [Prog.embed_bind, Prog.embed_request, Prog.request_bind]
  apply Prog.canEnd_called (S := chainSignature) called completes
  intro output middle holds
  rw [Prog.embed_bind, Prog.embed_require]
  exact Prog.canEnd_require rfl (continued output middle holds)

end Embedded

/-! ### Frames -/

variable (post : List UInt8 → (Address → Cell → U) → Prop)

/-- An address without code gets some. -/
theorem canComplete_create {account : Address} (vacant : world.store account .code = U.zero) :
    (chain.system Asset).CanComplete stack ⟨account, .create, false⟩ world fun output after =>
      output = (U.ofBytes account).toList ∧
        after.store = (world.write account .code U.one).store := by
  apply System.canComplete_of_canEnd (S := chainSignature) _ fun _ _ holds => holds
  change (createAccount account).CanEnd _ _ _ _ _
  rw [createAccount, Prog.sload_bind]
  apply Prog.canEnd_load
  apply Prog.canEnd_require (decide_eq_true vacant)
  rw [Prog.sstore_bind]
  exact Prog.canEnd_store rfl (Prog.canEnd_pure ⟨rfl, rfl⟩)

/-- The factory runs its implementation for everyone but its admin. -/
theorem canComplete_factory {call : Call} {readonly : Bool}
    (notAdmin : call.sender ≠ (world.store chain.factory .slotAdmin).addr)
    (completes : (chain.system Asset).CanComplete
      (⟨chain.factory, .call call, readonly⟩ :: stack)
      ⟨chain.factory, .run (world.store chain.factory (.slot .slotImpl)).addr call, readonly⟩
      (world.record stack ⟨chain.factory, .call call, readonly⟩ .entered)
      fun output after => post output after.store) :
    (chain.system Asset).CanComplete stack ⟨chain.factory, .call call, readonly⟩ world
      fun output after => post output after.store := by
  apply System.canComplete_of_canEnd (S := chainSignature) _ fun _ _ holds => holds
  change (chain.answerCall chain.factory call).CanEnd _ _ _ _ _
  rw [answerCall, if_pos rfl, fallback, Prog.sload_bind]
  apply Prog.canEnd_load
  rw [World.record_store, if_neg notAdmin, Prog.sload_bind]
  exact Prog.canEnd_load (canEnd_delegateTo post completes)

/-- The beacon names the implementation of the factory to everyone but its admin. -/
theorem canComplete_beacon {caller : Address} {readonly : Bool}
    (notAdmin : caller ≠ (world.store chain.factory .slotAdmin).addr)
    (runs : (chain.code (world.store chain.factory (.slot .slotImpl)).addr).isAccount = true) :
    (chain.system Asset).CanComplete stack ⟨chain.factory, .call ⟨caller, []⟩, readonly⟩ world
      fun output after => output = (world.store chain.factory (.slot .slotImpl)).toList ∧
        after.store = world.store := by
  apply canComplete_factory (fun output store =>
    output = (world.store chain.factory (.slot .slotImpl)).toList ∧ store = world.store) notAdmin
  apply System.canComplete_of_canEnd (S := chainSignature) _ fun _ _ holds => holds
  change (chain.runCode Asset _ chain.factory ⟨caller, []⟩).CanEnd _ _ _ _ _
  have served : userEntrypoint Asset chain.platform chain.network chain.factory
      ⟨caller, []⟩ = readSlot .slotImpl := rfl
  rw [runCode_account Asset runs, served, readSlot]
  exact canEnd_sload (canEnd_return ⟨rfl, rfl⟩)

omit [AssetRegistry Asset] in
theorem namedBy_relay (word : U) : namedBy (relay (.ok word.toList)) = word.addr := by
  have whole : Evm.slice word.toList 0 32 = word.toList := by
    have same := Evm.slice_zero_length word.toList
    rwa [List.Vector.toList_length] at same
  apply congrArg U.addr
  apply List.Vector.eq
  exact whole

/-- What a first migration makes of the storage of an account. -/
def migrated (key owner implAddr authority : U) (own : Cell → U) : Cell → U
  | .slot (.ed25519Slot index) =>
      if index = U.zero then key else own (.slot (.ed25519Slot index))
  | .slot .ed25519Count => U.one
  | .slot .ethereumOwner => owner
  | .slot .authority => authority
  | .slot .slotImpl => implAddr
  | .slot .version => U.two
  | cell => own cell

/-- The account contract migrates an address that it has not migrated yet. -/
theorem canComplete_migration (documented : chain.Documented)
    {account implementation sender : Address} {key implAddr : U} {eoaAddr authority : Address}
    (isAccount : (chain.code implementation).isAccount = true)
    (blank : world.store account (.slot .version) = U.zero) (hasKey : key.isSome = true)
    (hasOwner : (U.ofBytes eoaAddr).isSome = true) (hasImpl : implAddr.isSome = true) :
    (chain.system Asset).CanComplete stack ⟨account, .run implementation
      ⟨sender, migrateCalldata key eoaAddr implAddr authority⟩, false⟩ world fun _ after =>
        after.store = Function.update world.store account (migrated key (U.ofBytes eoaAddr)
          implAddr (U.ofBytes authority) (world.store account)) := by
  apply System.canComplete_of_canEnd (S := chainSignature) _ fun _ _ holds => holds
  change (chain.runCode Asset implementation account _).CanEnd _ _ _ _ _
  have early : U.zero.toNat ≤ U.one.toNat := by decide
  rw [runCode_account Asset isAccount, userEntrypoint]
  simp only [readRequest_migrateCalldata documented, serve]
  rw [entryMigrate]
  apply canEnd_assert hasImpl
  apply canEnd_sload
  rw [World.record_store, blank, migrateLevelZero, if_pos rfl, migrateLevelOne, if_pos early]
  simp only [Prog.bind_assoc, Prog.pure_bind, checkMigrator, if_true]
  apply canEnd_assert hasKey
  apply canEnd_assert hasOwner
  apply canEnd_sstore rfl
  apply canEnd_sstore rfl
  apply canEnd_sstore rfl
  apply canEnd_assert hasImpl
  apply canEnd_sstore rfl
  apply canEnd_sstore rfl
  apply canEnd_sstore rfl
  apply canEnd_return
  simp only [World.record_store, World.write_store, Function.update_idem, Function.update_self]
  apply congrArg (Function.update world.store account)
  funext cell
  cases cell with
  | slot slot =>
      cases slot with
      | ed25519Slot index =>
          simp only [Function.update_apply, reduceCtorEq, Cell.slot.injEq,
            Slot.ed25519Slot.injEq, if_false]
          rfl
      | _ => rfl
  | _ => rfl

/-- A new account has the code migrate it that the beacon names. -/
theorem canComplete_migrate (documented : chain.Documented) {account sender : Address}
    {key implAddr : U} {eoaAddr authority : Address} (apart : account ≠ chain.factory)
    (notAdmin : account ≠ (world.store chain.factory .slotAdmin).addr)
    (runs : (chain.code (world.store chain.factory (.slot .slotImpl)).addr).isAccount = true)
    (hasCode : world.store account .code ≠ U.zero)
    (blank : world.store account (.slot .version) = U.zero) (hasKey : key.isSome = true)
    (hasOwner : (U.ofBytes eoaAddr).isSome = true) (hasImpl : implAddr.isSome = true) :
    (chain.system Asset).CanComplete stack ⟨account, .call
      ⟨sender, migrateCalldata key eoaAddr implAddr authority⟩, false⟩ world fun _ after =>
        after.store = Function.update world.store account (migrated key (U.ofBytes eoaAddr)
          implAddr (U.ofBytes authority) (world.store account)) := by
  apply System.canComplete_of_canEnd (S := chainSignature) _ fun _ _ holds => holds
  change (chain.answerCall account _).CanEnd _ _ _ _ _
  have migrates : Evm.slice (migrateCalldata key eoaAddr implAddr authority) 0 4 =
      selMigrate := rfl
  rw [answerCall, if_neg apart, Prog.sload_bind]
  apply Prog.canEnd_load
  rw [World.record_store, if_neg hasCode, proxy, if_pos migrates, Prog.request_bind]
  apply Prog.canEnd_called (S := chainSignature) rfl
    (canComplete_beacon (by exact notAdmin) (by exact runs))
  rintro output middle ⟨rfl, same⟩
  change (delegateTo (namedBy (relay (.ok (world.store chain.factory (.slot .slotImpl)).toList)))
    _).CanEnd _ _ _ _ _
  rw [namedBy_relay]
  apply canEnd_delegateTo fun _ store => store = Function.update world.store account
    (migrated key (U.ofBytes eoaAddr) implAddr (U.ofBytes authority) (world.store account))
  have unchanged : middle.store = world.store := same
  have still : middle.store account (.slot .version) = U.zero := by
    rw [unchanged]
    exact blank
  refine System.CanComplete.mono
    (canComplete_migration documented runs (by exact still) hasKey hasOwner hasImpl) ?_
  intro _ after stored
  rw [stored, World.record_store, unchanged]

/-! ### The request -/

section Request

variable {key : U} {eoaAddr : Address} {v : UInt8} {r s : U}
  {solveArgs : Vec (SolveArgsSigArgs Asset)} {authority : Option Address}

/-- The factory runs the account contract and is called by someone else than its admin. -/
structure Serves (chain : Chain) (sender account : Address) (store : Address → Cell → U) :
    Prop where
  deployed : store chain.factory .code ≠ U.zero
  runs : (chain.code (store chain.factory (.slot .slotImpl)).addr).isAccount = true
  senderApart : sender ≠ (store chain.factory .slotAdmin).addr
  accountApart : account ≠ (store chain.factory .slotAdmin).addr
  blank : store account .code = U.zero → ∀ slot, store account (.slot slot) = U.zero

/-- The first solves of an account are valid for its key. Neither their targets nor the tokens are
contracts of the system. -/
structure Starts (chain : Chain) (account : Address) (key : U)
    (solveArgs : Vec (SolveArgsSigArgs Asset)) (store : Address → Cell → U) : Prop where
  valid : (Args.solve solveArgs).Valid chain.platform chain.network key
  distinct : (Args.solve solveArgs).nonces.Nodup
  targets : ∀ solve ∈ solveArgs.toList, solve.args.target ≠ account ∧
    store solve.args.target .code = U.zero
  tokens : solveArgs.toList ≠ [] → ∀ store frame query, chain.route store frame query = none

/-- What a request for an account needs. -/
structure Enrollable (chain : Chain) (key : U) (eoaAddr : Address) (v : UInt8) (r s : U)
    (authority : Option Address) (store : Address → Cell → U) : Prop where
  hasKey : key.isSome = true
  hasOwner : eoaAddr ≠ Bytes.ofNat 20 0
  signed : chain.platform.ecrecoverPost (makePreimage chain.platform key (authorityOf authority))
    v r s = some eoaAddr
  hasImpl : (store chain.factory (.slot .slotImpl)).isSome = true
  vacant : store (chain.accountOf eoaAddr) .code = U.zero

/-- The storage after the account of an owner has been made and migrated. -/
def enrol (chain : Chain) (key : U) (eoaAddr : Address) (authority : Option Address)
    (store : Address → Cell → U) : Address → Cell → U :=
  Function.update store (chain.accountOf eoaAddr) (migrated key (U.ofBytes eoaAddr)
    (store chain.factory (.slot .slotImpl)) (U.ofBytes (authorityOf authority))
    (Function.update (store (chain.accountOf eoaAddr)) .code U.one))

section Enrol

variable {store : Address → Cell → U} {account : Address}

omit [AssetRegistry Asset] in
/-- A creation changes nothing elsewhere. -/
theorem enrol_of_ne (apart : account ≠ chain.accountOf eoaAddr) (cell : Cell) :
    chain.enrol key eoaAddr authority store account cell = store account cell := by
  rw [enrol, Function.update_of_ne apart]

omit [AssetRegistry Asset] in
theorem enrol_self (cell : Cell) : chain.enrol key eoaAddr authority store
    (chain.accountOf eoaAddr) cell = migrated key (U.ofBytes eoaAddr)
      (store chain.factory (.slot .slotImpl)) (U.ofBytes (authorityOf authority))
      (Function.update (store (chain.accountOf eoaAddr)) .code U.one) cell := by
  rw [enrol, Function.update_self]

omit [AssetRegistry Asset] in
theorem enrol_code : chain.enrol key eoaAddr authority store (chain.accountOf eoaAddr) .code =
    U.one := by
  rw [enrol_self]
  rfl

omit [AssetRegistry Asset] in
theorem owned_enrol : Owned (chain.accountOf eoaAddr) key eoaAddr (authorityOf authority)
    (store chain.factory (.slot .slotImpl))
    (slots (chain.enrol key eoaAddr authority store)) := by
  refine ⟨?_, ?_, ?_, ?_, ?_, ?_⟩
  all_goals exact enrol_self _

omit [AssetRegistry Asset] in
/-- A new account is ready for every solve whose target is none of the contracts. -/
theorem ready_enrol {sender : Address} {items : List (SolveArgs Asset)}
    (serves : chain.Serves sender (chain.accountOf eoaAddr) store)
    (vacant : store (chain.accountOf eoaAddr) .code = U.zero)
    (targets : ∀ item ∈ items, item.target ≠ chain.accountOf eoaAddr ∧
      store item.target .code = U.zero)
    (tokens : ∀ store frame query, chain.route store frame query = none) :
    chain.Ready (chain.accountOf eoaAddr) key items
      (chain.enrol key eoaAddr authority store) where
  apart := by
    intro same
    rw [same] at vacant
    exact serves.deployed vacant
  hasCode := by
    rw [enrol_code]
    decide
  runs := by
    have named : slots (chain.enrol key eoaAddr authority store) (chain.accountOf eoaAddr)
        .slotImpl = store chain.factory (.slot .slotImpl) := enrol_self _
    rw [named]
    exact serves.runs
  settled := enrol_self _
  key := enrol_self _
  unlocked := (enrol_self _).trans (serves.blank vacant .reentrancy)
  unused item _ := (enrol_self _).trans (serves.blank vacant (.timestamps _))
  targets := by
    intro item member
    rcases targets item member with ⟨apart, noCode⟩
    rw [enrol_of_ne apart, noCode]
  tokens := tokens

end Enrol

/-- The new account solves what it is given, if anything. -/
theorem canEnd_solving {msg : Message} {sender : Address} {store : Address → Cell → U}
    (serves : chain.Serves sender (chain.accountOf eoaAddr) store)
    (vacant : store (chain.accountOf eoaAddr) .code = U.zero)
    (starts : chain.Starts (chain.accountOf eoaAddr) key solveArgs store)
    (enrolled : world.store = chain.enrol key eoaAddr authority store) :
    ((if (!solveArgs.toList.isEmpty) = true then do
        callOrRevert (.call (chain.accountOf eoaAddr) (Borsh.toVec (Args.solve solveArgs)))
        return (U.ofBytes (chain.accountOf eoaAddr)).toList
      else return (U.ofBytes (chain.accountOf eoaAddr)).toList : Contract (List UInt8)).embed
        Message Cell.slot Ask.account).CanEnd (chain.system Asset) stack
          ⟨chain.factory, msg, false⟩ world fun output after =>
            output = (U.ofBytes (chain.accountOf eoaAddr)).toList ∧
            (solveArgs.toList = [] → after.store = chain.enrol key eoaAddr authority store) := by
  by_cases nothing : solveArgs.toList = []
  · rw [nothing, if_neg (by simp)]
    exact canEnd_return ⟨rfl, fun _ => enrolled⟩
  · have called : chain.callee world.store ⟨chain.factory, msg, false⟩
        (.account (.call (chain.accountOf eoaAddr) (Borsh.toVec (Args.solve solveArgs)))) =
          some (chain.accountOf eoaAddr,
            .call ⟨chain.factory, Borsh.toVec (Args.solve solveArgs)⟩) := by
      apply if_pos
      rw [enrolled, enrol_code]
      decide
    have ready : chain.Ready (chain.accountOf eoaAddr) key (solveArgs.toList.map (·.args))
        world.store := by
      rw [enrolled]
      apply ready_enrol serves vacant _ (starts.tokens nothing)
      intro item member
      rcases List.mem_map.mp member with ⟨solve, inside, rfl⟩
      exact starts.targets solve inside
    have asks : Asks (solveArgs.toList.map (·.args)) (Args.solve solveArgs) := rfl
    rw [if_pos (by simpa using nothing), callOrRevert, Prog.bind_assoc]
    apply canEnd_request called (ready.completes asks starts.valid starts.distinct chain.factory)
    intro _ _ _
    exact canEnd_return ⟨rfl, fun empty => absurd empty nothing⟩

/-- The code of the factory can create the account that is asked for. -/
theorem canEnd_freshBackwards (documented : chain.Documented) {msg : Message} {sender : Address}
    (serves : chain.Serves sender (chain.accountOf eoaAddr) world.store)
    (enrollable : chain.Enrollable key eoaAddr v r s authority world.store)
    (starts : chain.Starts (chain.accountOf eoaAddr) key solveArgs world.store) :
    ((entryFreshBackwards chain.platform chain.factory key eoaAddr v r s solveArgs
      authority).embed Message Cell.slot Ask.account).CanEnd (chain.system Asset) stack
        ⟨chain.factory, msg, false⟩ world fun output after =>
          output = (U.ofBytes (chain.accountOf eoaAddr)).toList ∧
          (solveArgs.toList = [] →
            after.store = chain.enrol key eoaAddr authority world.store) := by
  rw [entryFreshBackwards]
  apply canEnd_assert enrollable.hasKey
  apply canEnd_assert (decide_eq_true enrollable.hasOwner)
  rw [Prog.embed_bind, Prog.embed_unwrap]
  apply Prog.canEnd_unwrap enrollable.signed
  apply canEnd_assert (decide_eq_true rfl)
  apply canEnd_sload
  apply canEnd_assert enrollable.hasImpl
  have creates : chain.callee world.store ⟨chain.factory, msg, false⟩
      (.account (.create2 (chain.platform.makeMetamorphicEvmfnBeaconProxy chain.factory)
        eoaAddr.toList)) = some (chain.accountOf eoaAddr, .create) := if_pos ⟨rfl, rfl⟩
  apply canEnd_request creates (canComplete_create enrollable.vacant)
  rintro output made ⟨rfl, created⟩
  rw [word_relay, U.addr_ofBytes]
  have madeCode : made.store (chain.accountOf eoaAddr) .code ≠ U.zero := by
    rw [created, World.write_store_self (S := chainSignature)]
    decide
  have kept {other : Address} {cell : Cell} (otherCell : cell ≠ .code) :
      made.store other cell = world.store other cell := by
    rw [created]
    exact World.write_store_of_ne (S := chainSignature) _ _ (Or.inr otherCell)
  have apart : chain.accountOf eoaAddr ≠ chain.factory := by
    intro same
    exact serves.deployed (same ▸ enrollable.vacant)
  have calls : chain.callee made.store ⟨chain.factory, msg, false⟩
      (.account (.call (chain.accountOf eoaAddr) (migrateCalldata key eoaAddr
        (world.store chain.factory (.slot .slotImpl)) (authorityOf authority)))) =
      some (chain.accountOf eoaAddr, .call ⟨chain.factory, migrateCalldata key eoaAddr
        (world.store chain.factory (.slot .slotImpl)) (authorityOf authority)⟩) :=
    if_pos madeCode
  have owner : (U.ofBytes eoaAddr).isSome = true := by
    apply decide_eq_true
    intro zero
    apply enrollable.hasOwner
    rw [← U.addr_ofBytes eoaAddr, zero]
    decide
  refine canEnd_request (by exact calls) (canComplete_migrate documented apart ?_ ?_ madeCode ?_
    enrollable.hasKey owner enrollable.hasImpl) ?_
  · rw [World.record_store, kept (by decide : Cell.slotAdmin ≠ .code)]
    exact serves.accountApart
  · rw [World.record_store, kept (by decide : Cell.slot .slotImpl ≠ .code)]
    exact serves.runs
  · rw [World.record_store, kept (by decide : Cell.slot .version ≠ .code)]
    exact serves.blank enrollable.vacant .version
  · intro _ settled migrates
    apply canEnd_solving serves enrollable.vacant starts
    rw [World.record_store, migrates, World.record_store, created, World.write_store,
      Function.update_idem, Function.update_self, enrol]

/-- A request that is done had what it needs. -/
theorem enrollable_of_completes (documented : chain.Documented) {sender : Address}
    {calldata : List UInt8} {readonly : Bool} {output : List UInt8}
    {after : World chainSignature}
    (runs : (chain.code (world.store chain.factory (.slot .slotImpl)).addr).isAccount = true)
    (read : readRequest chain.platform calldata =
      .ok (.args (.freshBackwards key eoaAddr v r s solveArgs authority)))
    (completes : (chain.system Asset).Completes stack
      ⟨chain.factory, .call ⟨sender, calldata⟩, readonly⟩ world output after) :
    chain.Enrollable key eoaAddr v r s authority world.store := by
  rcases creates_of_request documented runs read completes with ⟨signed, vacant, _, _⟩
  rcases completes_factory (not_upgrade_of_args documented read) completes with
    ⟨start, middle, same, completes, _⟩
  rcases completes.ends with ⟨script, last, ends, rfl⟩
  change (chain.runCode Asset _ chain.factory _).Ends _ _ _ _ _ _ _ at ends
  rw [runCode_account Asset runs, userEntrypoint] at ends
  simp only [read, serve, entry] at ends
  rw [entryFreshBackwards, ends_assert, ends_assert] at ends
  rcases ends with ⟨hasKey, hasOwner, ends⟩
  rw [Prog.embed_bind, Prog.embed_unwrap, Prog.ends_unwrap] at ends
  rcases ends with ⟨signer, _, ends⟩
  rw [ends_assert, ends_load, ends_assert, World.record_store, same] at ends
  rcases ends with ⟨_, hasImpl, _⟩
  exact ⟨hasKey, of_decide_eq_true hasOwner, signed, hasImpl, vacant⟩

/-- A request that has what it needs can be done. -/
theorem canComplete_creation (documented : chain.Documented) {sender : Address}
    {calldata : List UInt8}
    (serves : chain.Serves sender (chain.accountOf eoaAddr) world.store)
    (starts : chain.Starts (chain.accountOf eoaAddr) key solveArgs world.store)
    (read : readRequest chain.platform calldata =
      .ok (.args (.freshBackwards key eoaAddr v r s solveArgs authority)))
    (enrollable : chain.Enrollable key eoaAddr v r s authority world.store) :
    (chain.system Asset).CanComplete stack ⟨chain.factory, .call ⟨sender, calldata⟩, false⟩ world
      fun output after => output = (U.ofBytes (chain.accountOf eoaAddr)).toList ∧
        (solveArgs.toList = [] →
          after.store = chain.enrol key eoaAddr authority world.store) := by
  apply canComplete_factory (fun output store =>
    output = (U.ofBytes (chain.accountOf eoaAddr)).toList ∧
      (solveArgs.toList = [] → store = chain.enrol key eoaAddr authority world.store))
    serves.senderApart
  apply System.canComplete_of_canEnd (S := chainSignature) _ fun _ _ holds => holds
  change (chain.runCode Asset _ chain.factory _).CanEnd _ _ _ _ _
  rw [runCode_account Asset serves.runs, userEntrypoint]
  simp only [read, serve, entry]
  exact canEnd_freshBackwards documented serves enrollable starts

theorem creation_done_iff (documented : chain.Documented) {sender : Address}
    {calldata : List UInt8}
    (serves : chain.Serves sender (chain.accountOf eoaAddr) world.store)
    (starts : chain.Starts (chain.accountOf eoaAddr) key solveArgs world.store)
    (read : readRequest chain.platform calldata =
      .ok (.args (.freshBackwards key eoaAddr v r s solveArgs authority))) :
    (∃ output after, (chain.system Asset).Completes stack
        ⟨chain.factory, .call ⟨sender, calldata⟩, false⟩ world output after) ↔
      chain.Enrollable key eoaAddr v r s authority world.store := by
  refine ⟨?_, ?_⟩
  · rintro ⟨output, after, done⟩
    exact enrollable_of_completes documented serves.runs read done
  · intro enrollable
    rcases canComplete_creation documented serves starts read enrollable with
      ⟨output, after, done, _⟩
    exact ⟨output, after, done⟩

/-- The factory can do a request for an account exactly if the request names a key and an owner,
the owner has signed it, the factory has an implementation and the account is not there yet. If
there is nothing to solve, the account can have been made and migrated, with nothing else changed,
and then is ready to solve. -/
theorem creation_completes_iff (documented : chain.Documented) {sender : Address}
    {calldata : List UInt8}
    (serves : chain.Serves sender (chain.accountOf eoaAddr) world.store)
    (starts : chain.Starts (chain.accountOf eoaAddr) key solveArgs world.store)
    (read : readRequest chain.platform calldata =
      .ok (.args (.freshBackwards key eoaAddr v r s solveArgs authority))) :
    ((∃ output after, (chain.system Asset).Completes stack
        ⟨chain.factory, .call ⟨sender, calldata⟩, false⟩ world output after) ↔
      chain.Enrollable key eoaAddr v r s authority world.store) ∧
    (chain.Enrollable key eoaAddr v r s authority world.store → solveArgs.toList = [] →
      ∃ output after, (chain.system Asset).Completes stack
        ⟨chain.factory, .call ⟨sender, calldata⟩, false⟩ world output after ∧
        output = (U.ofBytes (chain.accountOf eoaAddr)).toList ∧
        (∀ address ≠ chain.accountOf eoaAddr, ∀ cell,
          after.store address cell = world.store address cell) ∧
        Owned (chain.accountOf eoaAddr) key eoaAddr (authorityOf authority)
          (world.store chain.factory (.slot .slotImpl)) (slots after.store) ∧
        ∀ items : List (SolveArgs Asset),
          (∀ item ∈ items, item.target ≠ chain.accountOf eoaAddr ∧
            world.store item.target .code = U.zero) →
          (∀ store frame query, chain.route store frame query = none) →
          chain.Ready (chain.accountOf eoaAddr) key items after.store) := by
  refine ⟨creation_done_iff documented serves starts read, ?_⟩
  intro enrollable nothing
  rcases canComplete_creation documented serves starts read enrollable with
    ⟨output, after, done, given, enrolled⟩
  have stored := enrolled nothing
  refine ⟨output, after, done, given, ?_, ?_, ?_⟩
  · intro address apart cell
    rw [stored, enrol_of_ne apart]
  · rw [stored]
    exact owned_enrol
  · intro items targets tokens
    rw [stored]
    exact ready_enrol serves enrollable.vacant targets tokens

end Request

end Prospects

section Servers

variable {chain : Chain} {Asset : Type} [AssetRegistry Asset] [Inhabited Asset]
  {env : Go.Env Asset} {r : Go.Resolver} {monthAfter : Go.Timestamp → Go.Timestamp}
  {allow : Go.ServerConfig monthAfter → ℕ → Go.Op → Prop} {config : Go.ServerConfig monthAfter}
  {event : Go.ServerEvent monthAfter} {signed : Go.SignedTx}

omit [Inhabited Asset] in
/-- The mint that the server adds to a creation is valid for its key. -/
theorem starts_of_carried {account eoa : Address} {solves : Vec (SolveArgsSigArgs Asset)}
    {store : Address → Cell → U}
    (listed : (AssetRegistry.addr env.usdc chain.network).isSome = true)
    (few : solves.toList.length ≤ 1)
    (carried : ∀ solve ∈ solves.toList, Go.Moves env.usdc r.claimantHelperAddr eoa solve.args ∧
      chain.platform.precompiles.edphverifyPre (Borsh.toVec solve.args) r.accPubKey solve.sig =
        true)
    (targets : ∀ solve ∈ solves.toList, solve.args.target ≠ account ∧
      store solve.args.target .code = U.zero)
    (tokens : ∀ store frame query, chain.route store frame query = none) :
    chain.Starts account r.accPubKey solves store where
  valid solve member := by
    rcases carried solve member with ⟨moves, verified⟩
    exact ⟨verified, payable_of_moves moves listed⟩
  distinct := by
    rw [Args.nonces]
    cases given : solves.toList with
    | nil => exact List.nodup_nil
    | cons solve rest =>
        rw [given, List.length_cons] at few
        obtain rfl : rest = [] := List.eq_nil_of_length_eq_zero (by omega)
        exact List.nodup_singleton _
  targets := targets
  tokens _ := tokens

/-- A transaction of the server to its factory is a request for the account of an address, with the
server's key. Let the factory serve it, and let the mint that the server adds have a market outside
the system, apart from the new account, and tokens outside it. Then there are answers of the outside
contracts with which it is done exactly if the address has signed it, the factory has an
implementation and the account is not there yet. A mint in the new account itself would revert, and
the creation with it. -/
theorem sent_creation_completes_iff (documented : chain.Documented) (served : chain.Served env r)
    (listed : (AssetRegistry.addr env.usdc chain.network).isSome = true)
    (reached : Threads.Reachable (Go.serveHTTP env r) Go.Migrated allow config)
    (recorded : event ∈ config.history) (sent : event.entry.op = .sendTransaction signed)
    (toFactory : signed.tx.target = chain.factory) :
    ∃ eoa v sigR sigS authority, ∃ solves : Vec (SolveArgsSigArgs Asset),
      (∃ mutation ∈ event.job.mutations, mutation.CreatesFor eoa) ∧
      signed.tx.data = Borsh.toVec
        (Args.freshBackwards r.accPubKey eoa v sigR sigS solves authority) ∧
      let account := Go.getClientAddr env r.accountsFactoryAddr eoa
      ∀ (stack : List (Frame chainSignature)) (world : World chainSignature) (sender : Address),
        chain.Serves sender account world.store →
        (∀ solve ∈ solves.toList, solve.args.target ≠ account ∧
          world.store solve.args.target .code = U.zero) →
        (∀ store frame query, chain.route store frame query = none) →
        ((∃ output after, (chain.system Asset).Completes stack
            ⟨chain.factory, .call ⟨sender, signed.tx.data⟩, false⟩ world output after) ↔
          chain.Enrollable r.accPubKey eoa v sigR sigS authority world.store) := by
  rcases carries_of_sent served reached recorded sent with
    ⟨_, ⟨eoa, ⟨v, sigR, sigS, solves, authority, _, read, few, carried⟩, asked⟩ |
      ⟨_, _, _, _, toRouter, _⟩⟩
  · have written := (Borsh.eq_toVec_append_of_deserialize read).trans (List.append_nil _)
    refine ⟨eoa, v, sigR, sigS, authority, solves, asked, written, ?_⟩
    intro account stack world sender serves targets tokens
    have located : account = chain.accountOf eoa := served.getClientAddr eoa
    rw [located] at serves targets
    have starts := starts_of_carried listed few carried targets tokens
    exact creation_done_iff documented serves starts (readRequest_of_deserialize read _)
  · exact absurd (toRouter.symm.trans toFactory) served.router

end Servers

/-! ### Known creations -/

namespace Known

open SuperpositionAccounts.Known (admin relayer)

theorem serves : chain.Serves relayer account (store admin) where
  deployed := by decide +kernel
  runs := by decide +kernel
  senderApart := by decide +kernel
  accountApart := by decide +kernel
  blank _ _ := store_elsewhere admin (by decide) _

theorem starts : chain.Starts account Go.knownKey solveArgs (store admin) where
  valid := by
    rintro solve member
    rw [List.mem_singleton.mp member]
    refine ⟨by decide +kernel, ?_⟩
    refine ⟨?_, ?_⟩
    · decide +kernel
    · decide +kernel
  distinct := List.nodup_singleton _
  targets := by
    intro solve member
    rw [List.mem_singleton.mp member]
    decide +kernel
  tokens _ _ _ _ := rfl

theorem enrollable : chain.Enrollable Go.knownKey eoaAddr 28 signatureR signatureS none
    (store admin) where
  hasKey := by decide +kernel
  hasOwner := by decide
  signed := by decide +kernel
  hasImpl := by decide +kernel
  vacant := by decide +kernel

end Known

theorem creation_completes_iff_known :
    ∃ output after, (Known.chain.system KnownAsset).Completes []
      ⟨Known.chain.factory, .call ⟨SuperpositionAccounts.Known.relayer,
        Known.calldata Known.solveArgs⟩, false⟩
      (World.start (Known.store SuperpositionAccounts.Known.admin)) output after := by
  have located : Known.chain.accountOf Known.eoaAddr = Known.account := by decide +kernel
  have serves := Known.serves
  have starts := Known.starts
  rw [← located] at serves starts
  have read : readRequest Known.chain.platform (Known.calldata Known.solveArgs) =
      .ok (.args (.freshBackwards Go.knownKey Known.eoaAddr 28 Known.signatureR Known.signatureS
        Known.solveArgs none)) := readRequest_toVec _ _
  exact (creation_completes_iff Known.documented serves starts read).1.mpr Known.enrollable

namespace Known

open Go.Known (resolver handedOver)

theorem serves_servedChain :
    servedChain.Serves SuperpositionAccounts.Known.relayer mintingAccount servedStore where
  deployed := by decide +kernel
  runs := by decide +kernel
  senderApart := by decide +kernel
  accountApart := by decide +kernel
  blank _ _ := if_neg (by decide)

theorem enrollable_servedChain : servedChain.Enrollable Go.knownKey eoaAddr 28 signatureR
    signatureS none servedStore where
  hasKey := by decide +kernel
  hasOwner := by decide
  signed := by decide +kernel
  hasImpl := by decide +kernel
  vacant := by decide +kernel

/-- The owner asks for the account and for a first mint with it. -/
def mintingFirst : Go.Request :=
  { enrolling with
    mutations := enrolling.mutations.map fun mutation =>
      match mutation with
      | .createAccountExec createAccount _ dryrun =>
        .createAccountExec createAccount (some Go.Known.smallMint) dryrun
      | other => other }

def mintingRun : Option (Go.ServerConfig Go.Known.monthAfter) :=
  Threads.Config.run (Go.serveHTTP serverEnv resolver) ⟨Go.Known.withKey [], [], []⟩
    [.arrive mintingFirst, .perform 0 .plain, .perform 0 .plain, .perform 0 .plain,
      .perform 0 (.number 200000), .perform 0 (.number 100000000), .perform 0 (.number 1),
      .perform 0 .plain, .perform 0 .plain]

/-- What the factory reads from a creation, with the targets of the first solves. -/
structure Enrolment where
  eoaAddr : Address
  v : UInt8
  r : U
  s : U
  authority : Option Address
  targets : List Address
deriving DecidableEq

def enrolmentOf (data : List UInt8) : Option Enrolment :=
  match (Borsh.deserialize data : Option (Args KnownAsset × List UInt8)) with
  | some (.freshBackwards _ eoaAddr v r s solves authority, _) =>
      some ⟨eoaAddr, v, r, s, authority, solves.toList.map (·.args.target)⟩
  | _ => none

/-- The creation of the account of the owner with a mint in the market. -/
def mintingEnrolment : Enrolment :=
  ⟨eoaAddr, 28, signatureR, signatureS, none, [market]⟩

theorem enrolmentOf_toVec (key : U) (eoaAddr : Address) (v : UInt8) (r s : U)
    (solves : Vec (SolveArgsSigArgs KnownAsset)) (authority : Option Address) :
    enrolmentOf (Borsh.toVec (Args.freshBackwards key eoaAddr v r s solves authority)) =
      some ⟨eoaAddr, v, r, s, authority, solves.toList.map (·.args.target)⟩ := by
  rw [enrolmentOf, Borsh.deserialize_toVec]

theorem mintingRun_ends :
    mintingRun.any (fun config => config.history.any fun event =>
      (handedOver event).any fun signed => signed.tx.target = servedChain.factory ∧
        enrolmentOf signed.tx.data = some mintingEnrolment) = true := by
  decide +kernel

end Known

theorem sent_creation_completes_iff_known :
    ∃ config event signed, Known.mintingRun = some config ∧ event ∈ config.history ∧
      event.entry.op = .sendTransaction signed ∧
      Known.enrolmentOf signed.tx.data = some Known.mintingEnrolment ∧
      ∃ output after, (Known.servedChain.system KnownAsset).Completes []
        ⟨Known.servedChain.factory, .call ⟨SuperpositionAccounts.Known.relayer, signed.tx.data⟩,
          false⟩ (World.start Known.servedStore) output after := by
  rcases (Option.any_eq_true _ _).mp Known.mintingRun_ends with ⟨config, ran, found⟩
  rcases Known.sent_of_any found with ⟨event, recorded, signed, sent, enrols⟩
  rcases of_decide_eq_true enrols with ⟨toFactory, enrolment⟩
  have migrated : Go.Migrated (Go.Known.withKey []) := by simp [Go.Migrated, Go.Known.withKey]
  rcases sent_creation_completes_iff Known.documented_servedChain Known.served rfl
    (.run (.start migrated) ran) recorded sent toFactory with
    ⟨eoa, v, sigR, sigS, authority, solves, _, written, completes⟩
  have located : Go.getClientAddr Known.serverEnv Go.Known.resolver.accountsFactoryAddr
      Known.eoaAddr = Known.mintingAccount := by
    decide +kernel
  have read := enrolment
  rw [written, Known.enrolmentOf_toVec, Option.some.injEq, Known.mintingEnrolment,
    Known.Enrolment.mk.injEq] at read
  rcases read with ⟨rfl, rfl, rfl, rfl, rfl, targets⟩
  rw [located] at completes
  refine ⟨config, event, signed, ran, recorded, sent, enrolment, ?_⟩
  refine (completes [] (World.start Known.servedStore) SuperpositionAccounts.Known.relayer
    Known.serves_servedChain ?_ fun _ _ _ => rfl).mpr Known.enrollable_servedChain
  intro solve member
  have inside : solve.args.target ∈ [Known.market] := targets ▸ List.mem_map_of_mem member
  rw [List.mem_singleton.mp inside]
  decide +kernel

end Chain

end SuperpositionAccounts
