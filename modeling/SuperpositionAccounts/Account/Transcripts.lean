import SuperpositionAccounts.Account.Authority
import SuperpositionAccounts.CallTree.Transcript

/-!
# What an account does for a request

A request says what is to be done: permits, transfers, calls, checks of balances,
in an order. `Request.Done` states it without the program, as the list of the
calls an account makes and of the answers it gets, together with the checks that
were passed and the data it returns.

In every run, whatever the tokens and targets do when they are called, a settled
account that completes a request has done exactly that. Its key, its owner and
its authority are those it was settled with.
-/

namespace SuperpositionAccounts

open CallTree

/-- A call of an account and its answer. -/
abbrev Exchange := Query × Reply

/-- The one call is made and does not fail. -/
def Makes (query : Query) (exchanges : List Exchange) : Prop :=
  ∃ reply : Reply, reply.ok = true ∧ exchanges = [(query, reply)]

/-! ### What a request asks for -/

section Done

variable {Asset : Type} [AssetRegistry Asset] (network : Network) (self : Address)

/-- A permit is handed to its token. -/
def Permits (permitOwner : Address) (permit : Permit Asset) (exchanges : List Exchange) : Prop :=
  ∃ token, AssetRegistry.addr permit.asset network = some token ∧
    Makes (.permit token permitOwner self U.max (U.ofUInt64 permit.deadline) permit.v permit.r
      permit.s) exchanges

/-- An amount is pulled from its owner and approved for the target. -/
def Takes (transferOwner target : Address) (fromArgs : FromArgs Asset)
    (exchanges : List Exchange) : Prop :=
  ∃ token pulled approved, AssetRegistry.addr fromArgs.asset network = some token ∧
    Makes (.transferFrom token transferOwner self fromArgs.toTake) pulled ∧
    Makes (.approve token target fromArgs.toTake) approved ∧ exchanges = pulled ++ approved

/-- The authority, if there is one, allows the code of the target. -/
def Clears (authority : U) (target : Address) (exchanges : List Exchange) : Prop :=
  (authority = U.zero ∧ exchanges = []) ∨
    (authority ≠ U.zero ∧ ∃ codeHash verdict : Reply, verdict.ok = true ∧
      exchanges = [(.codeHash target, codeHash), (.allowed authority.addr codeHash.word, verdict)])

/-- The account still has a minimum of the token. -/
def Leaves (fromArgs : FromArgs Asset) (exchanges : List Exchange) : Prop :=
  ∃ token reply, AssetRegistry.addr fromArgs.asset network = some token ∧
    Reply.ok reply = true ∧ fromArgs.maxUnspent.toNat ≤ reply.word.toNat ∧
    exchanges = [(.balanceOf token self, reply)]

/-- One solve. -/
def Solves (authority : U) (permitOwner transferOwner : Address) (args : SolveArgs Asset)
    (exchanges : List Exchange) : Prop :=
  ∃ permits takes clears calls leaves,
    InTurn (Permits network self permitOwner) args.permit.toList permits ∧
    InTurn (Takes network self transferOwner args.target) args.fromArgs.toList takes ∧
    Clears authority args.target clears ∧
    Makes (.call args.target args.cd.toList) calls ∧
    InTurn (Leaves network self) args.fromArgs.toList leaves ∧
    exchanges = permits ++ (takes ++ (clears ++ (calls ++ leaves)))

/-- The permit for the gas token, if there is one. -/
def PermitsGas (ethOwner gasTokenAddr : Address) (gasToken : Asset) :
    Option (Permit Asset) → List Exchange → Prop
  | none, exchanges => exchanges = []
  | some permit, exchanges => gasToken = permit.asset ∧
      Makes (.permit gasTokenAddr ethOwner self U.max (U.ofUInt64 permit.deadline) permit.v
        permit.r permit.s) exchanges

/-- One transfer, after its permit if there is one. -/
def Transfers (transfer : Transfer Asset) (exchanges : List Exchange) : Prop :=
  ∃ token permits moves, AssetRegistry.addr transfer.asset network = some token ∧
    (match transfer.permit with
      | none => permits = []
      | some permit => Makes (.permit token transfer.fromAddr self U.max
          (U.ofUInt64 permit.deadline) permit.v permit.r permit.s) permits) ∧
    Makes (.transferFrom token transfer.fromAddr transfer.recipient transfer.amt) moves ∧
    exchanges = permits ++ moves

/-- A new account is created, migrated and asked to solve. -/
def Deploys (platform : Platform) (pubKey : U) (eoaAddr : Address)
    (solveArgs : Vec (SolveArgsSigArgs Asset)) (authority : Address) (output : List UInt8)
    (exchanges : List Exchange) : Prop :=
  ∃ (implAddr : U) (created : Reply) (migrates solves : List Exchange),
    implAddr ≠ U.zero ∧ created.ok = true ∧
    Makes (.call created.word.addr (selMigrate ++ pubKey.toList ++ (U.ofBytes eoaAddr).toList ++
      implAddr.toList ++ (U.ofBytes authority).toList)) migrates ∧
    (if solveArgs.toList = [] then solves = []
      else Makes (.call created.word.addr (Borsh.toVec (Args.solve solveArgs))) solves) ∧
    output = (U.ofBytes created.word.addr).toList ∧
    exchanges = (.create2 (platform.makeMetamorphicEvmfnBeaconProxy self) eoaAddr.toList,
      created) :: (migrates ++ solves)

variable (platform : Platform) (clearinghouse : Address) (key owner authority : U)

/-- What an account has done for a request that it completed, and what it returned. -/
def Args.Done : Args Asset → List UInt8 → List Exchange → Prop
  | .freshBackwards pubKey eoaAddr v r s solveArgs given, output, exchanges =>
      let authority := given.getD (Bytes.ofNat 20 0)
      pubKey ≠ U.zero ∧ eoaAddr ≠ Bytes.ofNat 20 0 ∧
        platform.ecrecoverPost (makePreimage platform pubKey authority) v r s = some eoaAddr ∧
        Deploys self platform pubKey eoaAddr solveArgs authority output exchanges
  | .solve args, output, exchanges =>
      (∀ item ∈ args.toList,
        platform.precompiles.edphverifyPre (Borsh.toVec item.args) key item.sig = true) ∧
        output = [] ∧ InTurn (Solves network self authority owner.addr owner.addr)
          (args.toList.map (·.args)) exchanges
  | .version, output, exchanges => output = U.two.toList ∧ exchanges = []
  | .authority, output, exchanges => output = authority.toList ∧ exchanges = []
  | .solveV2 args sig, output, exchanges =>
      platform.precompiles.edphverifyPre (Borsh.toVec args) key sig = true ∧ output = [] ∧
        InTurn (Solves network self authority args.permitOwner args.transferOwner)
          args.args.toList exchanges
  | .transferOnly args sig, output, exchanges =>
      platform.precompiles.edphverifyPre (Borsh.toVec args) key sig = true ∧
        args.args.toList ≠ [] ∧ output = [] ∧
        InTurn (Transfers network self) args.args.toList exchanges
  | .statement args sig, output, exchanges =>
      platform.precompiles.edphverifyPost (statementSha512 platform args self) key sig = true ∧
        output = [] ∧ exchanges = []
  | .owner, output, exchanges => output = owner.toList ∧ exchanges = []
  | .ed25519Key, output, exchanges => output = key.toList ∧ exchanges = []
  | .solveV3 args sig, output, exchanges =>
      platform.precompiles.edphverifyPre (Borsh.toVec args) key sig = true ∧ output = [] ∧
        ∃ gasTokenAddr permits charges solves,
          AssetRegistry.addr args.gasToken network = some gasTokenAddr ∧
          PermitsGas self owner.addr gasTokenAddr args.gasToken args.gasTokenPermit permits ∧
          Makes (.transferFrom gasTokenAddr owner.addr clearinghouse
            (U.ofUInt64 args.gasTokenAmt)) charges ∧
          InTurn (Solves network self authority owner.addr owner.addr) args.args.toList solves ∧
          exchanges = permits ++ (charges ++ solves)
  | .assetsVersion, _, _ => False

def Request.Done (sender : Address) :
    Request Asset → List UInt8 → List Exchange → Prop
  | .beacon, output, exchanges => (∃ implAddr : U, output = implAddr.toList) ∧ exchanges = []
  | .migrate _ _ implAddr _, output, exchanges =>
      sender = owner.addr ∧ implAddr ≠ U.zero ∧ output = [] ∧ exchanges = []
  | .args given, output, exchanges =>
      given.Done network self platform clearinghouse key owner authority output exchanges

end Done

/-! ### The programs do it -/

/-- What is known of the words of an account that has been migrated. -/
def settledWords (key owner authority : U) : Slot → U → Prop
  | .ed25519Slot index, word => index = U.zero → word = key
  | .ethereumOwner, word => word = owner
  | .authority, word => word = authority
  | .version, word => word = U.two
  | _, _ => True

section Yields

variable {Asset : Type} [AssetRegistry Asset] {platform : Platform} {imm : Imm}
  {self permitOwner transferOwner : Address} {key owner authority : U}

section Words

variable {knows : Slot → U → Prop}

@[simp]
theorem yields_load (slot : Slot) (post : U → List Exchange → Prop) :
    Prog.Yields (S := accountSignature) (α := U) knows (Prog.sload slot) post ↔
      ∀ word, knows slot word → post word [] :=
  Iff.rfl

@[simp]
theorem yields_ask (query : Query) (post : Reply → List Exchange → Prop) :
    Prog.Yields (S := accountSignature) (α := Reply) knows (Prog.request query) post ↔
      ∀ reply, post reply [(query, reply)] :=
  Iff.rfl

@[simp]
theorem yields_assert (condition : Bool) (message : String)
    (post : Unit → List Exchange → Prop) :
    (assert condition message).Yields knows post ↔ (condition = true → post () []) :=
  Prog.yields_require _ _ _

@[simp]
theorem yields_panic {α : Type} (message : String) (post : α → List Exchange → Prop) :
    (panic message : Contract α).Yields knows post :=
  trivial

@[simp]
theorem yields_tokenAddr (asset : Asset) (post : Address → List Exchange → Prop) :
    (tokenAddr imm asset).Yields knows post ↔
      ∀ token, AssetRegistry.addr asset imm.network = some token → post token [] :=
  Prog.yields_unwrap _ _ _

@[simp]
theorem yields_callOrRevert (query : Query) (post : Unit → List Exchange → Prop) :
    (callOrRevert query).Yields knows post ↔
      ∀ reply : Reply, reply.ok = true → post () [(query, reply)] := by
  simp [callOrRevert]

end Words

variable (key owner authority) in
/-- Using a nonce asks nobody. -/
theorem exchange_yields (nonce : U) :
    (exchange (.timestamps nonce)).Yields (settledWords key owner authority)
      fun _ exchanges => exchanges = [] := by
  simp only [exchange, Prog.yields_bind, yields_load, yields_assert]
  intro word _ _
  exact ⟨trivial, rfl⟩

variable (key owner authority) in
theorem usePermit_yields (permit : Permit Asset) :
    (usePermit imm self permitOwner permit).Yields (settledWords key owner authority)
      fun _ => Permits imm.network self permitOwner permit := by
  simp only [usePermit, Prog.yields_bind, yields_tokenAddr, yields_callOrRevert]
  intro token located reply succeeded
  exact ⟨token, located, reply, succeeded, rfl⟩

variable (key owner authority) in
theorem takeFrom_yields (target : Address) (fromArgs : FromArgs Asset) :
    (takeFrom imm self transferOwner target fromArgs).Yields (settledWords key owner authority)
      fun _ => Takes imm.network self transferOwner target fromArgs := by
  simp only [takeFrom, Prog.yields_bind, yields_tokenAddr, yields_callOrRevert]
  intro token located pulled pulls approved approves
  exact ⟨token, _, _, located, ⟨pulled, pulls, rfl⟩, ⟨approved, approves, rfl⟩, rfl⟩

variable (key owner authority) in
theorem checkAuthority_yields (target : Address) :
    (checkAuthority target).Yields (settledWords key owner authority)
      fun _ => Clears authority target := by
  simp only [checkAuthority, Prog.yields_bind, yields_load]
  intro authorityAddr same
  obtain rfl : authorityAddr = authority := same
  split
  · rename_i given
    simp only [Prog.yields_bind, yields_ask, yields_assert]
    intro codeHash verdict allows
    exact .inr ⟨of_decide_eq_true given, codeHash, verdict, allows, rfl⟩
  · rename_i none
    exact .inl ⟨by simpa [U.isSome] using none, rfl⟩

variable (key owner authority) in
theorem callTarget_yields (target : Address) (cd : List UInt8) :
    (callTarget target cd).Yields (settledWords key owner authority)
      fun _ => Makes (.call target cd) := by
  simp only [callTarget, Prog.yields_bind, yields_ask, yields_assert]
  intro reply succeeded
  exact ⟨reply, succeeded, rfl⟩

variable (key owner authority) in
theorem checkUnspent_yields (fromArgs : FromArgs Asset) :
    (checkUnspent platform imm self fromArgs).Yields (settledWords key owner authority)
      fun _ => Leaves imm.network self fromArgs := by
  simp only [checkUnspent, Prog.yields_bind, yields_tokenAddr, yields_ask,
    Prog.yields_require, yields_assert, decide_eq_true_eq]
  intro token located reply succeeded enough
  exact ⟨token, reply, located, succeeded, enough, rfl⟩

variable (key owner authority) in
theorem solveItem_yields (args : SolveArgs Asset) :
    (solveItem platform imm self permitOwner transferOwner args).Yields
      (settledWords key owner authority)
      fun _ => Solves imm.network self authority permitOwner transferOwner args := by
  simp only [solveItem, Prog.yields_bind]
  apply (exchange_yields key owner authority _).mono
  rintro _ _ rfl
  apply (Prog.yields_forM fun permit _ => usePermit_yields key owner authority permit).mono
  intro _ permits permitted
  apply (Prog.yields_forM fun fromArgs _ =>
    takeFrom_yields key owner authority args.target fromArgs).mono
  intro _ takes taken
  apply (checkAuthority_yields key owner authority args.target).mono
  intro _ clears cleared
  apply (callTarget_yields key owner authority args.target args.cd.toList).mono
  intro _ calls called
  apply (Prog.yields_forM fun fromArgs _ =>
    checkUnspent_yields key owner authority fromArgs).mono
  intro _ leaves left
  exact ⟨permits, takes, clears, calls, leaves, permitted, taken, cleared, called, left, rfl⟩

variable (key owner authority) in
theorem entrySolve_yields (args : List (SolveArgs Asset)) :
    (entrySolve platform imm self args permitOwner transferOwner).Yields
      (settledWords key owner authority)
      fun output exchanges => output = [] ∧
        InTurn (Solves imm.network self authority permitOwner transferOwner) args exchanges := by
  rw [entrySolve, Prog.yields_bind]
  apply (Prog.yields_forM fun item _ => solveItem_yields key owner authority item).mono
  intro _ exchanges solved
  rw [Prog.yields_pure, List.append_nil]
  exact ⟨rfl, solved⟩

variable (key owner authority) in
theorem reentrancyGuard_yields {α : Type} {body : Contract α} {post : α → List Exchange → Prop}
    (bodyYields : body.Yields (settledWords key owner authority) post) :
    (reentrancyGuard body).Yields (settledWords key owner authority) post := by
  simp only [reentrancyGuard, Prog.yields_bind, yields_load, Prog.yields_require,
    Prog.yields_sstore, Prog.yields_pure, List.nil_append, List.append_nil]
  intro lock _ _
  refine ⟨trivial, bodyYields.mono ?_⟩
  intro result exchanges holds
  exact ⟨trivial, holds⟩

/-! ### The requests -/

theorem entrySolveV1_yields (args : List (SolveArgsSigArgs Asset)) :
    (entrySolveV1 platform imm self args).Yields (settledWords key owner authority)
      fun output exchanges => (∀ item ∈ args,
          platform.precompiles.edphverifyPre (Borsh.toVec item.args) key item.sig = true) ∧
        output = [] ∧ InTurn (Solves imm.network self authority owner.addr owner.addr)
          (args.map (·.args)) exchanges := by
  simp only [entrySolveV1, Prog.yields_bind, yields_load]
  intro edOwner sameKey
  obtain rfl : edOwner = key := sameKey rfl
  apply (Prog.yields_forM_quiet fun item _ => (yields_assert _ _ _).mpr
    fun verified => ⟨rfl, verified⟩).mono
  rintro _ _ ⟨rfl, verified⟩ ethOwner sameOwner
  obtain rfl : ethOwner = owner := sameOwner
  apply (entrySolve_yields edOwner ethOwner authority _).mono
  intro output exchanges solved
  exact ⟨verified, solved⟩

theorem entrySolveV2_yields (args : SolveV2Args Asset) (sig : Sig) :
    (entrySolveV2 platform imm self args sig).Yields (settledWords key owner authority)
      ((Args.solveV2 args sig).Done imm.network self platform imm.clearinghouse key owner
        authority) := by
  simp only [entrySolveV2, assertSigned, Prog.yields_bind, yields_load, yields_assert]
  intro edOwner sameKey verified
  obtain rfl : edOwner = key := sameKey rfl
  apply (entrySolve_yields edOwner owner authority _).mono
  intro output exchanges solved
  exact ⟨verified, solved⟩

variable (key owner authority) in
theorem useGasPermit_yields (ethOwner gasTokenAddr : Address) (gasToken : Asset)
    (permit : Option (Permit Asset)) :
    (useGasPermit self ethOwner gasTokenAddr gasToken permit).Yields
      (settledWords key owner authority)
      fun _ => PermitsGas self ethOwner gasTokenAddr gasToken permit := by
  cases permit with
  | none => exact rfl
  | some permit =>
      simp only [useGasPermit, Prog.yields_bind, yields_assert, yields_callOrRevert,
        decide_eq_true_eq]
      intro same reply succeeded
      exact ⟨same, reply, succeeded, rfl⟩

theorem entrySolveV3_yields (args : SolveV3Args Asset) (sig : Sig) :
    (entrySolveV3 platform imm self args sig).Yields (settledWords key owner authority)
      ((Args.solveV3 args sig).Done imm.network self platform imm.clearinghouse key owner
        authority) := by
  simp only [entrySolveV3, assertSigned, Prog.yields_bind, yields_load, yields_assert,
    yields_tokenAddr]
  intro edOwner sameKey verified ethOwner sameOwner gasTokenAddr located
  obtain rfl : edOwner = key := sameKey rfl
  obtain rfl : ethOwner = owner := sameOwner
  apply (useGasPermit_yields edOwner ethOwner authority _ _ _ _).mono
  intro _ permits permitted
  simp only [yields_callOrRevert, Prog.yields_mark]
  intro reply succeeded
  apply (entrySolve_yields edOwner ethOwner authority _).mono
  rintro output exchanges ⟨rfl, solved⟩
  exact ⟨verified, rfl, gasTokenAddr, permits, _, exchanges, located, permitted,
    ⟨reply, succeeded, rfl⟩, solved, rfl⟩

variable (key owner authority) in
theorem transferItem_yields (transfer : Transfer Asset) :
    (transferItem imm self transfer).Yields (settledWords key owner authority)
      fun _ => Transfers imm.network self transfer := by
  simp only [transferItem, Prog.yields_bind, yields_tokenAddr, yields_callOrRevert]
  intro token located
  cases given : transfer.permit with
  | none =>
      intro reply succeeded
      exact ⟨token, [], _, located, by rw [given], ⟨reply, succeeded, rfl⟩, rfl⟩
  | some permit =>
      simp only [useTransferPermit, yields_callOrRevert]
      intro first permitted reply succeeded
      refine ⟨token, _, _, located, ?_, ⟨reply, succeeded, rfl⟩, rfl⟩
      rw [given]
      exact ⟨first, permitted, rfl⟩

theorem entryTransferOnly_yields (args : TransferOnlyArgs Asset) (sig : Sig) :
    (entryTransferOnly platform imm self args sig).Yields (settledWords key owner authority)
      ((Args.transferOnly args sig).Done imm.network self platform imm.clearinghouse key owner
        authority) := by
  simp only [entryTransferOnly, assertSigned, Prog.yields_bind, yields_load, yields_assert]
  intro edOwner sameKey verified nonempty
  obtain rfl : edOwner = key := sameKey rfl
  apply (exchange_yields edOwner owner authority _).mono
  rintro _ _ rfl
  apply (Prog.yields_forM fun transfer _ =>
    transferItem_yields edOwner owner authority transfer).mono
  intro _ exchanges moved
  rw [Prog.yields_pure, List.append_nil]
  exact ⟨verified, by simpa using nonempty, rfl, moved⟩

theorem entryStatement_yields (args : StatementArgs) (sig : Sig) :
    (entryStatement platform self args sig).Yields (settledWords key owner authority)
      ((Args.statement args sig : Args Asset).Done imm.network self platform imm.clearinghouse key
        owner authority) := by
  simp only [entryStatement, Prog.yields_bind, yields_load, yields_assert]
  intro edOwner sameKey verified
  obtain rfl : edOwner = key := sameKey rfl
  apply (exchange_yields edOwner owner authority _).mono
  rintro _ _ rfl
  exact ⟨verified, rfl, rfl⟩

/-- Only its owner migrates an account again, and that changes the implementation alone. -/
theorem entryMigrate_yields (sender : Address) (edKey evmOwner implAddr authorityAddr : U) :
    (entryMigrate sender edKey evmOwner implAddr authorityAddr).Yields
      (settledWords key owner authority) fun output exchanges => sender = owner.addr ∧
        implAddr ≠ U.zero ∧ output = [] ∧ exchanges = [] := by
  have late : ¬U.two.toNat ≤ U.one.toNat := by decide
  have again : U.two ≠ U.zero := by decide
  simp only [entryMigrate, Prog.yields_bind, yields_assert, yields_load]
  intro given migrationLevel settled
  obtain rfl : migrationLevel = U.two := settled
  rw [migrateLevelZero, if_neg again, migrateLevelOne, if_neg late]
  simp only [Prog.yields_pure, checkMigrator, Bool.false_eq_true, if_false, Prog.yields_bind,
    yields_load, yields_assert, decide_eq_true_eq]
  intro known sameOwner isOwner
  obtain rfl : known = owner := sameOwner
  exact ⟨trivial, rfl, isOwner.symm, of_decide_eq_true given, trivial, rfl⟩

variable (key owner authority) in
theorem entryFreshBackwards_yields (pubKey : U) (eoaAddr : Address) (v : UInt8) (r s : U)
    (solveArgs : Vec (SolveArgsSigArgs Asset)) (given : Option Address) :
    (entryFreshBackwards platform self pubKey eoaAddr v r s solveArgs given).Yields
      (settledWords key owner authority)
      ((Args.freshBackwards pubKey eoaAddr v r s solveArgs given).Done imm.network self platform
        imm.clearinghouse key owner authority) := by
  simp only [entryFreshBackwards, Prog.yields_bind, yields_assert, Prog.yields_unwrap,
    yields_load, yields_ask]
  intro hasKey notZero signer recovered same implAddr _ isProxy created creates migration migrates
  obtain rfl : eoaAddr = signer := of_decide_eq_true same
  have signed := And.intro (of_decide_eq_true hasKey) (And.intro (of_decide_eq_true notZero)
    recovered)
  split
  · rename_i some
    simp only [Prog.yields_bind, yields_callOrRevert, Prog.yields_pure]
    intro reply solves
    refine ⟨signed.1, signed.2.1, signed.2.2, implAddr, created, _, [_],
      of_decide_eq_true isProxy, creates, ⟨migration, migrates, rfl⟩, ?_, rfl, rfl⟩
    rw [if_neg (by simpa using some)]
    exact ⟨reply, solves, rfl⟩
  · rename_i none
    refine ⟨signed.1, signed.2.1, signed.2.2, implAddr, created, _, [],
      of_decide_eq_true isProxy, creates, ⟨migration, migrates, rfl⟩, ?_, rfl, rfl⟩
    rw [if_pos (by simpa using none)]

variable (key owner authority) in
theorem readSlot_yields (slot : Slot) :
    (readSlot slot).Yields (settledWords key owner authority)
      fun output exchanges => (∃ word, settledWords key owner authority slot word ∧
        output = List.Vector.toList word) ∧ exchanges = [] := by
  simp only [readSlot, Prog.yields_bind, yields_load]
  intro word known
  exact ⟨⟨word, known, rfl⟩, rfl⟩

theorem entry_yields (args : Args Asset) :
    (entry platform imm self args).Yields (settledWords key owner authority)
      (args.Done imm.network self platform imm.clearinghouse key owner authority) := by
  cases args with
  | freshBackwards pubKey eoaAddr v r s solveArgs given =>
      exact entryFreshBackwards_yields key owner authority pubKey eoaAddr v r s solveArgs given
  | solve args =>
      apply reentrancyGuard_yields key owner authority
      rw [Prog.yields_bind, Prog.yields_mark]
      exact entrySolveV1_yields args.toList
  | solveV2 args sig =>
      apply reentrancyGuard_yields key owner authority
      rw [Prog.yields_bind, Prog.yields_mark]
      exact entrySolveV2_yields args sig
  | transferOnly args sig =>
      apply reentrancyGuard_yields key owner authority
      rw [Prog.yields_bind, Prog.yields_mark]
      exact entryTransferOnly_yields args sig
  | solveV3 args sig =>
      rw [entry, Prog.yields_bind, Prog.yields_mark]
      exact entrySolveV3_yields args sig
  | statement args sig => exact entryStatement_yields args sig
  | version | authority | owner =>
      apply (readSlot_yields key owner authority _).mono
      rintro _ _ ⟨⟨_, rfl, rfl⟩, rfl⟩
      exact ⟨rfl, rfl⟩
  | ed25519Key =>
      apply (readSlot_yields key owner authority _).mono
      rintro _ _ ⟨⟨_, known, rfl⟩, rfl⟩
      exact ⟨congrArg List.Vector.toList (known rfl), rfl⟩
  | assetsVersion => exact yields_panic _ _

theorem serve_yields (sender : Address) (request : Request Asset) :
    (serve platform imm self sender request).Yields (settledWords key owner authority)
      (request.Done imm.network self platform imm.clearinghouse key owner authority sender) := by
  cases request with
  | beacon =>
      apply (readSlot_yields key owner authority .slotImpl).mono
      rintro _ _ ⟨⟨implAddr, _, rfl⟩, rfl⟩
      exact ⟨⟨implAddr, rfl⟩, rfl⟩
  | migrate edKey evmOwner implAddr authorityAddr =>
      exact entryMigrate_yields sender edKey evmOwner implAddr authorityAddr
  | args given => exact entry_yields given

end Yields

/-! ### Whole runs -/

section Runs

variable (Asset : Type) [AssetRegistry Asset] (platform : Platform) (network : Network)

/-- The request of a frame, done by an account with this key, owner and authority. -/
def DoneFor (self : Address) (key owner authority : U) (frame : Frame accountSignature)
    (output : List UInt8) (exchanges : List Exchange) : Prop :=
  ∃ request : Request Asset, requestOf Asset platform frame = .ok request ∧
    request.Done network self platform (Bytes.ofNat 20 0) key owner authority frame.msg.sender
      output exchanges

variable {platform} in
theorem userEntrypoint_yields (key owner authority : U) (frame : Frame accountSignature) :
    (userEntrypoint Asset platform network frame.self frame.msg).Yields
      (settledWords key owner authority)
      (DoneFor Asset platform network frame.self key owner authority frame) := by
  apply userEntrypoint_cases (motive := fun program : Contract (List UInt8) =>
    program.Yields (settledWords key owner authority) _)
  · intro message
    exact yields_panic message _
  · intro request read
    apply (serve_yields frame.msg.sender request).mono
    intro output exchanges done
    exact ⟨request, read, done⟩

theorem asKnown_settledWords {self : Address} {store : Address → Slot → U}
    (settled : store self .version = U.two) :
    AsKnown (S := accountSignature) self (settledWords (store self (.ed25519Slot U.zero))
      (store self .ethereumOwner) (store self .authority)) store := by
  intro slot
  cases slot with
  | ed25519Slot index =>
      rintro rfl
      rfl
  | version => exact settled
  | _ => trivial

variable {platform network} in
theorem accounts_yields
    {callee : (Address → Slot → U) → Frame accountSignature → Query → Option (Address × Call)}
    {self : Address} (key owner authority : U) {frame : Frame accountSignature}
    (own : frame.self = self) :
    ((accounts Asset platform network callee).program frame.self frame.msg).Yields
      (settledWords key owner authority)
      (DoneFor Asset platform network self key owner authority frame) := by
  subst own
  exact userEntrypoint_yields Asset network key owner authority frame

/-- Whatever is called in between, a request that a settled account completes is done as it says:
the account made the calls that the request lists, no others, in their order, all that may not fail
succeeded, and what had to be signed was signed with the account's key. Its key, its owner and its
authority are still those of the start. -/
theorem requests_done (self : Address)
    (callee : (Address → Slot → U) → Frame accountSignature → Query → Option (Address × Call))
    (store : Address → Slot → U) (settled : store self .version = U.two)
    (acts : List (Act accountSignature)) :
    let after := Act.runAll (accounts Asset platform network callee) acts [] false
      (World.start store)
    let key := store self (.ed25519Slot U.zero)
    let owner := store self .ethereumOwner
    let authority := store self .authority
    (after.store self (.ed25519Slot U.zero) = key ∧ after.store self .ethereumOwner = owner ∧
      after.store self .authority = authority ∧ after.store self .version = U.two) ∧
      ∀ newer event older output, after.trace = newer ++ event :: older →
        event.frame.self = self → event.action = .completed output →
        DoneFor Asset platform network self key owner authority event.frame output
          (transcript event.stack.length older) := by
  intro after key owner authority
  rcases System.transcribed (fun _ => accounts_yields Asset key owner authority)
    (asKnown_settledWords settled) acts with ⟨kept, transcribed⟩
  refine ⟨⟨kept (.ed25519Slot U.zero) rfl, kept .ethereumOwner, kept .authority,
    kept .version⟩, ?_⟩
  intro newer event older output split own completed
  exact transcribed newer event older split own output completed

end Runs

/-! ### A known transcript -/

namespace Known

/-- The output of a frame of the known account that an event completes. -/
def completedWith (event : Event accountSignature) : Option (List UInt8) :=
  match event.action with
  | .completed output => if event.frame.self = account then some output else none
  | _ => none

theorem of_completedWith {event : Event accountSignature} {output : List UInt8}
    (completed : completedWith event = some output) :
    event.frame.self = account ∧ event.action = .completed output := by
  unfold completedWith at completed
  split at completed
  · rename_i action
    split at completed
    · rename_i own
      cases completed
      exact ⟨own, action⟩
    · cases completed
  · cases completed

/-- The last event of the gated solve, and what its frame has asked. -/
theorem gatedRun_ends :
    gatedRun.trace.head?.bind completedWith = some [] ∧
      (transcript (gatedRun.trace.head?.map fun event => event.stack.length).get!
        gatedRun.trace.tail).map Prod.fst =
        [.codeHash solve.target, .allowed authority.addr targetHash.word,
          .call solve.target []] := by
  decide +kernel

end Known

theorem requests_done_known :
    ∃ event older, Known.gatedRun.trace = event :: older ∧
      (transcript event.stack.length older).map Prod.fst =
        [.codeHash Known.solve.target,
          .allowed Known.authority.addr Known.targetHash.word, .call Known.solve.target []] ∧
      DoneFor KnownAsset Known.solvePlatform .arbitrum Known.account
        (Known.gatedStore Known.account (.ed25519Slot U.zero))
        (Known.gatedStore Known.account .ethereumOwner)
        (Known.gatedStore Known.account .authority) event.frame []
        (transcript event.stack.length older) := by
  rcases Known.gatedRun_ends with ⟨ended, asked⟩
  rcases Option.bind_eq_some_iff.mp ended with ⟨event, newest, completed⟩
  rcases List.head?_eq_some_iff.mp newest with ⟨older, trace⟩
  rcases Known.of_completedWith completed with ⟨own, action⟩
  rw [trace] at asked
  refine ⟨event, older, trace, asked, ?_⟩
  exact (requests_done KnownAsset Known.solvePlatform .arbitrum Known.account
    (fun _ _ _ => none) Known.gatedStore (by decide) [Known.gatedSolve]).2 [] event older []
    trace own action

end SuperpositionAccounts
