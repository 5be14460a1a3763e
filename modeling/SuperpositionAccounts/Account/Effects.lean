import SuperpositionAccounts.Account.Entry
import SuperpositionAccounts.CallTree.Effects

/-!
# What the entry functions write

Requests other than a migration write only the lock and the nonces they
consume. A migration writes the key, the owner, the authority, the
implementation and the version, and makes no calls.
-/

namespace SuperpositionAccounts

open CallTree

variable {Asset : Type} [AssetRegistry Asset]

/-- The nonces a request consumes, one for each item. -/
def Args.nonces : Args Asset → List U
  | .solve args => args.toList.map fun item => U.ofBytes item.args.msTs
  | .solveV2 args _ => args.args.toList.map fun item => U.ofBytes item.msTs
  | .solveV3 args _ => args.args.toList.map fun item => U.ofBytes item.msTs
  | .transferOnly args _ => [U.ofBytes args.msTs]
  | .statement args _ => [U.ofBytes args.msTs]
  | _ => []

/-- The fund-moving operation of a request, if it is one. -/
def Args.operation : Args Asset → Option Operation
  | .solve _ => some .solve
  | .solveV2 _ _ => some .solveV2
  | .solveV3 _ _ => some .solveV3
  | .transferOnly _ _ => some .transferOnly
  | _ => none

def Request.nonces : Request Asset → List U
  | .args request => request.nonces
  | _ => []

/-- The slots a migration may write. -/
def Slot.setByMigrate : Slot → Bool
  | .ed25519Slot slot => decide (slot = U.zero)
  | .ed25519Count => true
  | .ethereumOwner => true
  | .authority => true
  | .slotImpl => true
  | .version => true
  | _ => false

/-- An encoded request is read back. -/
theorem readRequest_toVec (platform : Platform) (args : Args Asset) :
    readRequest platform (Borsh.toVec args) = .ok (.args args) := by
  have notMigrate : ¬(4 < (Borsh.toVec args).length ∧
      (Borsh.toVec args).take 4 = selMigrate) := by
    rintro ⟨_, starts⟩
    apply args.not_selMigrate_prefix []
    rw [List.append_nil, ← starts]
    exact List.take_prefix 4 _
  rw [readRequest, if_neg (by simp), if_neg notMigrate, Borsh.deserialize_toVec]

/-- What is read as a request starts with its encoding. -/
theorem eq_toVec_of_readRequest {platform : Platform} {calldata : List UInt8} {args : Args Asset}
    (read : readRequest platform calldata = .ok (.args args)) :
    ∃ rest, calldata = Borsh.toVec args ++ rest := by
  unfold readRequest at read
  split at read
  · cases read
  · split at read
    · split at read <;> cases read
    · split at read
      · rename_i rest decoded
        cases read
        exact ⟨rest, Borsh.eq_toVec_append_of_deserialize decoded⟩
      · cases read

/-- What holds of a panic and of every served request holds of the entrypoint. -/
theorem userEntrypoint_cases {motive : Contract (List UInt8) → Prop} {platform : Platform}
    {network : Network} {self : Address} {call : Call}
    (panics : ∀ message, motive (panic message))
    (serves : ∀ request : Request Asset, readRequest platform call.calldata = .ok request →
      motive (serve platform ⟨network, Bytes.ofNat 20 0⟩ self call.sender request)) :
    motive (userEntrypoint Asset platform network self call) := by
  unfold userEntrypoint
  cases read : (readRequest platform call.calldata : Except String (Request Asset)) with
  | error message => exact panics message
  | ok request => exact serves request read

section Within

variable {writable : Slot → Prop} {markable : Mark → Prop} {platform : Platform} {imm : Imm}
  {self permitOwner transferOwner : Address}

theorem assert_within (condition : Bool) (message : String) :
    (assert condition message).Within writable markable :=
  Prog.within_require _ _

theorem callOrRevert_within (query : Query) :
    (callOrRevert query).Within writable markable := by
  apply Prog.within_bind (Prog.within_request query)
  intro reply
  exact Prog.within_require _ _

theorem exchange_within {slot : Slot} (canWrite : writable slot) :
    (exchange slot).Within writable markable := by
  apply Prog.within_bind (Prog.within_sload slot)
  intro current
  apply Prog.within_bind (assert_within _ _)
  intro _
  exact (Prog.within_sstore (S := accountSignature) slot U.one).mpr canWrite

theorem usePermit_within (permit : Permit Asset) :
    (usePermit imm self permitOwner permit).Within writable markable := by
  apply Prog.within_bind (Prog.within_unwrap _ _)
  intro token
  exact callOrRevert_within _

theorem takeFrom_within (target : Address) (fromArgs : FromArgs Asset) :
    (takeFrom imm self transferOwner target fromArgs).Within writable markable := by
  apply Prog.within_bind (Prog.within_unwrap _ _)
  intro token
  apply Prog.within_bind (callOrRevert_within _)
  intro _
  exact callOrRevert_within _

theorem checkAuthority_within (target : Address) :
    (checkAuthority target).Within writable markable := by
  apply Prog.within_bind (Prog.within_sload _)
  intro authorityAddr
  cases authorityAddr.isSome with
  | false => exact Prog.within_pure ()
  | true =>
      apply Prog.within_bind (Prog.within_request _)
      intro codeHash
      apply Prog.within_bind (Prog.within_request _)
      intro verdict
      exact assert_within _ _

theorem callTarget_within (target : Address) (cd : List UInt8) :
    (callTarget target cd).Within writable markable := by
  apply Prog.within_bind (Prog.within_request _)
  intro reply
  exact assert_within _ _

theorem checkUnspent_within (fromArgs : FromArgs Asset) :
    (checkUnspent platform imm self fromArgs).Within writable markable := by
  apply Prog.within_bind (Prog.within_unwrap _ _)
  intro token
  apply Prog.within_bind (Prog.within_request _)
  intro reply
  apply Prog.within_bind (Prog.within_require _ _)
  intro _
  exact assert_within _ _

/-- What a solve does after its nonce is consumed. -/
def solveItemRest (platform : Platform) (imm : Imm) (self permitOwner transferOwner : Address)
    (args : SolveArgs Asset) : Contract Unit := do
  args.permit.toList.forM (usePermit imm self permitOwner)
  args.fromArgs.toList.forM (takeFrom imm self transferOwner args.target)
  checkAuthority args.target
  callTarget args.target args.cd.toList
  args.fromArgs.toList.forM (checkUnspent platform imm self)

theorem solveItem_eq (args : SolveArgs Asset) :
    solveItem platform imm self permitOwner transferOwner args =
      (exchange (.timestamps (U.ofBytes args.msTs)) >>= fun _ =>
        solveItemRest platform imm self permitOwner transferOwner args) :=
  rfl

theorem solveItemRest_within (args : SolveArgs Asset) :
    (solveItemRest platform imm self permitOwner transferOwner args).Within writable markable := by
  apply Prog.within_bind (Prog.within_forM fun permit _ => usePermit_within permit)
  intro _
  apply Prog.within_bind (Prog.within_forM fun fromArgs _ => takeFrom_within _ fromArgs)
  intro _
  apply Prog.within_bind (checkAuthority_within _)
  intro _
  apply Prog.within_bind (callTarget_within _ _)
  intro _
  exact Prog.within_forM fun fromArgs _ => checkUnspent_within fromArgs

theorem entrySolve_within {args : List (SolveArgs Asset)}
    (canConsume : ∀ item ∈ args, writable (.timestamps (U.ofBytes item.msTs))) :
    (entrySolve platform imm self args permitOwner transferOwner).Within writable markable := by
  apply Prog.within_bind
  · apply Prog.within_forM
    intro item member
    rw [solveItem_eq]
    apply Prog.within_bind (exchange_within (canConsume item member))
    intro _
    exact solveItemRest_within item
  · intro _
    exact Prog.within_pure []

theorem assertSigned_within {Signed : Type} [Borsh Signed] (value : Signed) (key : U)
    (sig : Sig) : (assertSigned platform value key sig).Within writable markable :=
  assert_within _ _

theorem useGasPermit_within (ethOwner gasTokenAddr : Address) (gasToken : Asset)
    (permit : Option (Permit Asset)) :
    (useGasPermit self ethOwner gasTokenAddr gasToken permit).Within writable markable := by
  cases permit with
  | none => exact Prog.within_pure ()
  | some permit =>
      apply Prog.within_bind (assert_within _ _)
      intro _
      exact callOrRevert_within _

theorem transferItem_within (transfer : Transfer Asset) :
    (transferItem imm self transfer).Within writable markable := by
  apply Prog.within_bind (Prog.within_unwrap _ _)
  intro token
  apply Prog.within_bind
  · cases transfer.permit with
    | none => exact Prog.within_pure ()
    | some permit => exact callOrRevert_within _
  · intro _
    exact callOrRevert_within _

theorem readSlot_within (slot : Slot) : (readSlot slot).Within writable markable := by
  apply Prog.within_bind (Prog.within_sload slot)
  intro word
  exact Prog.within_pure _

theorem reentrancyGuard_within {α : Type} {body : Contract α} (canLock : writable .reentrancy)
    (bodyWithin : body.Within writable markable) :
    (reentrancyGuard body).Within writable markable := by
  apply Prog.within_bind (Prog.within_sload _)
  intro lock
  apply Prog.within_bind (Prog.within_require _ _)
  intro _
  apply Prog.within_bind ((Prog.within_sstore _ _).mpr canLock)
  intro _
  apply Prog.within_bind bodyWithin
  intro result
  apply Prog.within_bind ((Prog.within_sstore _ _).mpr canLock)
  intro _
  exact Prog.within_pure result

theorem entryFreshBackwards_within (key : U) (eoaAddr : Address) (v : UInt8) (r s : U)
    (solveArgs : Vec (SolveArgsSigArgs Asset)) (authority : Option Address) :
    (entryFreshBackwards platform self key eoaAddr v r s solveArgs authority).Within writable
      markable := by
  apply Prog.within_bind (assert_within _ _)
  intro _
  apply Prog.within_bind (assert_within _ _)
  intro _
  apply Prog.within_bind (Prog.within_unwrap _ _)
  intro signer
  apply Prog.within_bind (assert_within _ _)
  intro _
  apply Prog.within_bind (Prog.within_sload _)
  intro implAddr
  apply Prog.within_bind (assert_within _ _)
  intro _
  apply Prog.within_bind (Prog.within_request _)
  intro created
  apply Prog.within_bind (assert_within _ _)
  intro _
  apply Prog.within_bind (Prog.within_request _)
  intro migration
  apply Prog.within_bind (assert_within _ _)
  intro _
  cases solveArgs.toList.isEmpty with
  | true => exact Prog.within_pure _
  | false =>
      apply Prog.within_bind (callOrRevert_within _)
      intro _
      exact Prog.within_pure _

/-- The guarded operations: inside the guard nothing but nonces is written. -/
theorem entry_guarded {args : Args Asset} {operation : Operation}
    (isOperation : args.operation = some operation) (notV3 : operation ≠ .solveV3)
    (canConsume : ∀ nonce ∈ args.nonces, writable (.timestamps nonce))
    (canStart : markable (.started operation)) :
    ∃ body, entry platform imm self args = reentrancyGuard body ∧
      body.Within writable markable := by
  cases args with
  | solve args =>
      cases isOperation
      refine ⟨_, rfl, ?_⟩
      apply Prog.within_bind ((Prog.within_mark _).mpr canStart)
      intro _
      apply Prog.within_bind (Prog.within_sload _)
      intro edOwner
      apply Prog.within_bind (Prog.within_forM fun item _ => assertSigned_within _ _ _)
      intro _
      apply Prog.within_bind (Prog.within_sload _)
      intro ethOwner
      apply entrySolve_within
      intro item member
      rcases List.mem_map.mp member with ⟨signed, signedMem, rfl⟩
      exact canConsume _ (List.mem_map_of_mem signedMem)
  | solveV2 args sig =>
      cases isOperation
      refine ⟨_, rfl, ?_⟩
      apply Prog.within_bind ((Prog.within_mark _).mpr canStart)
      intro _
      apply Prog.within_bind (Prog.within_sload _)
      intro edOwner
      apply Prog.within_bind (assertSigned_within _ _ _)
      intro _
      apply entrySolve_within
      intro item member
      exact canConsume _ (List.mem_map_of_mem member)
  | transferOnly args sig =>
      cases isOperation
      refine ⟨_, rfl, ?_⟩
      apply Prog.within_bind ((Prog.within_mark _).mpr canStart)
      intro _
      apply Prog.within_bind (Prog.within_sload _)
      intro edOwner
      apply Prog.within_bind (assertSigned_within _ _ _)
      intro _
      apply Prog.within_bind (assert_within _ _)
      intro _
      apply Prog.within_bind (exchange_within (canConsume _ List.mem_cons_self))
      intro _
      apply Prog.within_bind (Prog.within_forM fun transfer _ => transferItem_within transfer)
      intro _
      exact Prog.within_pure []
  | solveV3 args sig =>
      cases isOperation
      exact absurd rfl notV3
  | _ => cases isOperation

/-- All other requests do not touch the lock. Only `SolveV3` charges gas, in its own gas token and
amount. -/
theorem entry_unguarded {args : Args Asset}
    (unguarded : ∀ operation, args.operation = some operation → operation = .solveV3)
    (canConsume : ∀ nonce ∈ args.nonces, writable (.timestamps nonce))
    (canStart : ∀ operation, args.operation = some operation → markable (.started operation))
    (canCharge : ∀ gasArgs sig token owner, args = .solveV3 gasArgs sig →
      AssetRegistry.addr gasArgs.gasToken imm.network = some token →
      markable (.charged token owner gasArgs.gasTokenAmt)) :
    (entry platform imm self args).Within writable markable := by
  cases args with
  | freshBackwards key eoaAddr v r s solveArgs authority =>
      exact entryFreshBackwards_within key eoaAddr v r s solveArgs authority
  | statement args sig =>
      apply Prog.within_bind (Prog.within_sload _)
      intro edOwner
      apply Prog.within_bind (assert_within _ _)
      intro _
      apply Prog.within_bind (exchange_within (canConsume _ List.mem_cons_self))
      intro _
      exact Prog.within_pure []
  | solveV3 args sig =>
      apply Prog.within_bind ((Prog.within_mark _).mpr (canStart _ rfl))
      intro _
      apply Prog.within_bind (Prog.within_sload _)
      intro edOwner
      apply Prog.within_bind (assertSigned_within _ _ _)
      intro _
      apply Prog.within_bind (Prog.within_sload _)
      intro ethOwner
      apply Prog.within_unwrap_bind
      intro gasTokenAddr onNetwork
      apply Prog.within_bind (useGasPermit_within _ _ _ _)
      intro _
      apply Prog.within_bind (callOrRevert_within _)
      intro _
      apply Prog.within_bind ((Prog.within_mark _).mpr (canCharge _ _ _ _ rfl onNetwork))
      intro _
      apply entrySolve_within
      intro item member
      exact canConsume _ (List.mem_map_of_mem member)
  | version => exact readSlot_within _
  | authority => exact readSlot_within _
  | owner => exact readSlot_within _
  | ed25519Key => exact readSlot_within _
  | assetsVersion => exact Prog.within_throw _
  | solve args => cases unguarded _ rfl
  | solveV2 args sig => cases unguarded _ rfl
  | transferOnly args sig => cases unguarded _ rfl

/-- A request writes the lock and the nonces it consumes, nothing else. -/
theorem entry_within (args : Args Asset) (canLock : writable .reentrancy)
    (canConsume : ∀ nonce ∈ args.nonces, writable (.timestamps nonce))
    (canStart : ∀ operation, args.operation = some operation → markable (.started operation))
    (canCharge : ∀ gasArgs sig token owner, args = .solveV3 gasArgs sig →
      AssetRegistry.addr gasArgs.gasToken imm.network = some token →
      markable (.charged token owner gasArgs.gasTokenAmt)) :
    (entry platform imm self args).Within writable markable := by
  by_cases guarded : ∃ operation, args.operation = some operation ∧ operation ≠ .solveV3
  · rcases guarded with ⟨operation, isOperation, notV3⟩
    rcases entry_guarded isOperation notV3 canConsume (canStart operation isOperation) with
      ⟨body, isGuard, within⟩
    rw [isGuard]
    exact reentrancyGuard_within canLock within
  · apply entry_unguarded _ canConsume canStart canCharge
    intro operation isOperation
    by_contra notV3
    exact guarded ⟨operation, isOperation, notV3⟩

theorem entryMigrate_within (sender : Address) (edKey evmOwner implAddr authorityAddr : U)
    (canSet : ∀ slot : Slot, slot.setByMigrate → writable slot) :
    (entryMigrate sender edKey evmOwner implAddr authorityAddr).Within writable markable := by
  have store (slot : Slot) (word : U) (isSet : slot.setByMigrate) :
      (Prog.sstore slot word : Contract Unit).Within writable markable :=
    (Prog.within_sstore (S := accountSignature) slot word).mpr (canSet slot isSet)
  apply Prog.within_bind (assert_within _ _)
  intro _
  apply Prog.within_bind (Prog.within_sload _)
  intro migrationLevel
  apply Prog.within_bind
  · unfold migrateLevelZero
    split
    · apply Prog.within_bind (assert_within _ _)
      intro _
      apply Prog.within_bind (assert_within _ _)
      intro _
      apply Prog.within_bind (store (.ed25519Slot U.zero) edKey rfl)
      intro _
      apply Prog.within_bind (store .ed25519Count U.one rfl)
      intro _
      apply Prog.within_bind (store .ethereumOwner evmOwner rfl)
      intro _
      exact Prog.within_pure _
    · exact Prog.within_pure _
  · intro isFirstTime
    apply Prog.within_bind
    · unfold migrateLevelOne
      split
      · apply Prog.within_bind (assert_within _ _)
        intro _
        exact store .authority authorityAddr rfl
      · exact Prog.within_pure _
    · intro _
      apply Prog.within_bind
      · unfold checkMigrator
        split
        · exact Prog.within_pure _
        · apply Prog.within_bind (Prog.within_sload _)
          intro owner
          exact assert_within _ _
      · intro _
        apply Prog.within_bind (store .slotImpl implAddr rfl)
        intro _
        apply Prog.within_bind (store .version U.two rfl)
        intro _
        exact Prog.within_pure _

end Within

end SuperpositionAccounts
