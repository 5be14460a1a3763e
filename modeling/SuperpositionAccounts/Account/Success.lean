import SuperpositionAccounts.Account.Effects
import SuperpositionAccounts.CallTree.Cooperation
import SuperpositionAccounts.Wire.Signing

/-!
# When a fund-moving request succeeds

`Args.Valid` collects what a request and the key of an account have to satisfy
on their own: signatures, assets of the network, the token of a gas permit. A
request that succeeds is valid. Conversely a valid request with fresh and
distinct nonces succeeds when the account is not locked and everybody it calls
cooperates. Nothing here depends on which account it is.
-/

namespace SuperpositionAccounts

open CallTree

variable {Asset : Type} [AssetRegistry Asset]

/-- Every asset of a solve is on the network. -/
def SolveArgs.Payable (network : Network) (args : SolveArgs Asset) : Prop :=
  (∀ permit ∈ args.permit.toList, (AssetRegistry.addr permit.asset network).isSome) ∧
    ∀ fromArgs ∈ args.fromArgs.toList, (AssetRegistry.addr fromArgs.asset network).isSome

/-- What a fund-moving request must satisfy under the key of an account. -/
def Args.Valid (platform : Platform) (network : Network) (key : U) : Args Asset → Prop
  | .solve args => ∀ item ∈ args.toList,
      platform.precompiles.edphverifyPre (Borsh.toVec item.args) key item.sig = true ∧
        item.args.Payable network
  | .solveV2 args sig =>
      platform.precompiles.edphverifyPre (Borsh.toVec args) key sig = true ∧
        ∀ item ∈ args.args.toList, item.Payable network
  | .solveV3 args sig =>
      platform.precompiles.edphverifyPre (Borsh.toVec args) key sig = true ∧
        (AssetRegistry.addr args.gasToken network).isSome ∧
        (∀ permit ∈ args.gasTokenPermit, args.gasToken = permit.asset) ∧
        ∀ item ∈ args.args.toList, item.Payable network
  | .transferOnly args sig =>
      platform.precompiles.edphverifyPre (Borsh.toVec args) key sig = true ∧
        args.args.toList ≠ [] ∧
        ∀ transfer ∈ args.args.toList, (AssetRegistry.addr transfer.asset network).isSome
  | _ => True

/-! ### A request that succeeds is valid -/

section Returns

variable {platform : Platform} {imm : Imm} {self permitOwner transferOwner : Address}

theorem tokenAddr_returns (asset : Asset) :
    (tokenAddr imm asset).Returns fun _ => (AssetRegistry.addr asset imm.network).isSome := by
  apply (Prog.returns_unwrap _ _).mono
  intro token present
  rw [present]
  rfl

theorem assert_returns (condition : Bool) (message : String) :
    (assert condition message).Returns fun _ => condition = true :=
  Prog.returns_require _ _

theorem usePermit_returns (permit : Permit Asset) :
    (usePermit imm self permitOwner permit).Returns fun _ =>
      (AssetRegistry.addr permit.asset imm.network).isSome := by
  apply Prog.returns_bind (tokenAddr_returns permit.asset)
  intro token present
  exact Prog.returns_of_forall _ fun _ => present

theorem takeFrom_returns (target : Address) (fromArgs : FromArgs Asset) :
    (takeFrom imm self transferOwner target fromArgs).Returns fun _ =>
      (AssetRegistry.addr fromArgs.asset imm.network).isSome := by
  apply Prog.returns_bind (tokenAddr_returns fromArgs.asset)
  intro token present
  exact Prog.returns_of_forall _ fun _ => present

theorem solveItem_returns (args : SolveArgs Asset) :
    (solveItem platform imm self permitOwner transferOwner args).Returns fun _ =>
      args.Payable imm.network := by
  apply Prog.returns_bind (Prog.returns_of_forall _ fun _ => trivial)
  intro _ _
  apply Prog.returns_bind (Prog.returns_forM usePermit_returns)
  intro _ permits
  apply Prog.returns_bind (Prog.returns_forM (takeFrom_returns args.target))
  intro _ froms
  exact Prog.returns_of_forall _ fun _ => ⟨permits, froms⟩

theorem entrySolve_returns (args : List (SolveArgs Asset)) :
    (entrySolve platform imm self args permitOwner transferOwner).Returns fun _ =>
      ∀ item ∈ args, item.Payable imm.network := by
  apply Prog.returns_bind (Prog.returns_forM solveItem_returns)
  intro _ payable
  exact payable

theorem useGasPermit_returns (ethOwner gasTokenAddr : Address) (gasToken : Asset)
    (permit : Option (Permit Asset)) :
    (useGasPermit self ethOwner gasTokenAddr gasToken permit).Returns fun _ =>
      ∀ used ∈ permit, gasToken = used.asset := by
  cases permit with
  | none =>
      intro used member
      cases member
  | some permit =>
      apply Prog.returns_bind (assert_returns _ _)
      intro _ same
      apply Prog.returns_of_forall
      rintro _ used ⟨⟩
      exact of_decide_eq_true same

theorem transferItem_returns (transfer : Transfer Asset) :
    (transferItem imm self transfer).Returns fun _ =>
      (AssetRegistry.addr transfer.asset imm.network).isSome := by
  apply Prog.returns_bind (tokenAddr_returns transfer.asset)
  intro token present
  exact Prog.returns_of_forall _ fun _ => present

end Returns

section Valid

variable {platform : Platform} {imm : Imm} {self : Address}
  {rely : World accountSignature → World accountSignature → Prop}
  {stack : List (Frame accountSignature)} {frame : Frame accountSignature}

/-- The lock does not change what a body returns. -/
theorem wp_guard_returns {α : Type} {body : Contract α} {post : Prop}
    {world : World accountSignature}
    (bodyHolds : body.wp rely stack frame (fun _ => True) (fun _ _ => post)
      (world.write frame.self .reentrancy U.one)) :
    (reentrancyGuard body).wp rely stack frame (fun _ => True) (fun _ _ => post) world := by
  simp only [reentrancyGuard, Prog.wp_bind, wp_load, Prog.wp_require, Prog.wp_sstore]
  split
  · refine ⟨trivial, ?_⟩
    apply Prog.wp_mono _ bodyHolds
    intro _ _ holds
    exact ⟨trivial, holds⟩
  · trivial

/-- A request that returns is valid under the key the account had. -/
theorem wp_entry_valid (own : frame.self = self) (args : Args Asset)
    (world : World accountSignature) :
    (entry platform imm self args).wp rely stack frame (fun _ => True)
      (fun _ _ => args.Valid platform imm.network (world.store self (.ed25519Slot U.zero)))
      world := by
  have unchanged : (world.write frame.self .reentrancy U.one).store frame.self
      (.ed25519Slot U.zero) = world.store self (.ed25519Slot U.zero) := by
    rw [store_write_of_ne _ _ (Or.inr (by simp)), own]
  cases args with
  | solve args =>
      apply wp_guard_returns
      simp only [entrySolveV1, Prog.wp_bind, Prog.wp_mark, wp_load, World.record_store, unchanged]
      apply Prog.wp_mono _ (Prog.Returns.wp (Prog.returns_forM fun item =>
        assert_returns _ _) _)
      intro _ after verified
      apply Prog.wp_mono _ (Prog.Returns.wp (entrySolve_returns _) _)
      intro _ _ payable item member
      exact ⟨verified item member, payable _ (List.mem_map_of_mem member)⟩
  | solveV2 args sig =>
      apply wp_guard_returns
      simp only [entrySolveV2, Prog.wp_bind, Prog.wp_mark, wp_load, World.record_store, unchanged]
      apply Prog.wp_mono _ (Prog.Returns.wp (assert_returns _ _) _)
      intro _ after verified
      apply Prog.wp_mono _ (Prog.Returns.wp (entrySolve_returns _) _)
      intro _ _ payable
      exact ⟨verified, payable⟩
  | transferOnly args sig =>
      apply wp_guard_returns
      simp only [entryTransferOnly, Prog.wp_bind, Prog.wp_mark, wp_load, World.record_store,
        unchanged]
      apply Prog.wp_mono _ (Prog.Returns.wp (assert_returns _ _) _)
      intro _ after verified
      apply Prog.wp_mono _ (Prog.Returns.wp (assert_returns _ _) _)
      intro _ after nonempty
      apply Prog.wp_mono _ (Prog.Returns.wp (Prog.returns_of_forall _ fun _ => trivial) _)
      intro _ after _
      apply Prog.wp_mono _ (Prog.Returns.wp (Prog.returns_forM transferItem_returns) _)
      intro _ _ onNetwork
      refine ⟨verified, ?_, onNetwork⟩
      rintro empty
      rw [empty] at nonempty
      cases nonempty
  | solveV3 args sig =>
      simp only [entry, entrySolveV3, Prog.wp_bind, Prog.wp_mark, wp_load, World.record_store,
        own]
      apply Prog.wp_mono _ (Prog.Returns.wp (assert_returns _ _) _)
      intro _ after verified
      apply Prog.wp_mono _ (Prog.Returns.wp (tokenAddr_returns _) _)
      intro gasTokenAddr after onNetwork
      apply Prog.wp_mono _ (Prog.Returns.wp (useGasPermit_returns _ _ _ _) _)
      intro _ after permitMatches
      apply Prog.wp_mono _ (Prog.Returns.wp (Prog.returns_of_forall _ fun _ => trivial) _)
      intro _ after _
      apply Prog.wp_mono _ (Prog.Returns.wp (entrySolve_returns _) _)
      intro _ _ payable
      exact ⟨verified, onNetwork, permitMatches, payable⟩
  | _ => exact Prog.Returns.wp (Prog.returns_of_forall _ fun _ => trivial) _

end Valid

/-! ### A valid request succeeds if everybody cooperates -/

/-- An answer that every call accepts: success, and a word that no amount exceeds. -/
def accepted : Reply :=
  ⟨true, U.max, none, []⟩

theorem U.toNat_le_max (word : U) : word.toNat ≤ U.max.toNat := by
  have bound := Borsh.ofLeBytes_lt word.toList.reverse
  have top : U.max.toNat = 256 ^ 32 - 1 := by
    decide +kernel
  rw [List.length_reverse, List.Vector.toList_length] at bound
  simp only [Bytes.toNat] at top ⊢
  omega

section Can

variable {system : System accountSignature} {stack : List (Frame accountSignature)}
  {frame : Frame accountSignature} {platform : Platform} {imm : Imm}
  {permitOwner transferOwner : Address} {invariant : World accountSignature → Prop}

@[simp]
theorem can_load (slot : Slot) (post : U → World accountSignature → Prop)
    (world : World accountSignature) :
    Prog.can (α := U) system stack frame (Prog.sload slot) post world ↔
      post (world.store frame.self slot) world :=
  Iff.rfl

theorem can_assert {condition : Bool} {message : String}
    {post : Unit → World accountSignature → Prop} {world : World accountSignature}
    (holds : condition = true) (after : post () world) :
    (assert condition message).can system stack frame post world :=
  Prog.can_require holds after

variable (outside : ∀ store query, system.callee store frame query = none)
  (asked : ∀ {world : World accountSignature} query reply, invariant world →
    invariant (world.record stack frame (.asked query reply)))

include outside asked

theorem can_ask (query : Query) {world : World accountSignature} (kept : invariant world) :
    Prog.can (α := Reply) system stack frame (Prog.request query)
      (fun reply after => reply = accepted ∧ invariant after) world :=
  ⟨outside _ _, accepted, rfl, asked query accepted kept⟩

theorem can_callOrRevert (query : Query) {world : World accountSignature}
    (kept : invariant world) :
    (callOrRevert query).can system stack frame (fun _ after => invariant after) world := by
  simp only [callOrRevert, Prog.can_bind]
  apply Prog.can_mono _ (can_ask outside asked query kept)
  rintro reply after ⟨rfl, kept⟩
  exact Prog.can_require rfl kept

theorem can_usePermit (self : Address) (permit : Permit Asset)
    (onNetwork : (AssetRegistry.addr permit.asset imm.network).isSome)
    {world : World accountSignature} (kept : invariant world) :
    (usePermit imm self permitOwner permit).can system stack frame
      (fun _ after => invariant after) world := by
  rcases Option.isSome_iff_exists.mp onNetwork with ⟨token, present⟩
  rw [usePermit, Prog.can_bind]
  exact Prog.can_unwrap present (can_callOrRevert outside asked _ kept)

theorem can_takeFrom (self target : Address) (fromArgs : FromArgs Asset)
    (onNetwork : (AssetRegistry.addr fromArgs.asset imm.network).isSome)
    {world : World accountSignature} (kept : invariant world) :
    (takeFrom imm self transferOwner target fromArgs).can system stack frame
      (fun _ after => invariant after) world := by
  rcases Option.isSome_iff_exists.mp onNetwork with ⟨token, present⟩
  rw [takeFrom, Prog.can_bind]
  apply Prog.can_unwrap present
  rw [Prog.can_bind]
  apply Prog.can_mono _ (can_callOrRevert outside asked _ kept)
  intro _ after kept
  exact can_callOrRevert outside asked _ kept

theorem can_checkAuthority (target : Address) {world : World accountSignature}
    (kept : invariant world) :
    (checkAuthority target).can system stack frame (fun _ after => invariant after) world := by
  simp only [checkAuthority, Prog.can_bind, can_load]
  split
  · simp only [Prog.can_bind]
    apply Prog.can_mono _ (can_ask outside asked _ kept)
    rintro codeHash after ⟨rfl, kept⟩
    apply Prog.can_mono _ (can_ask outside asked _ kept)
    rintro verdict after ⟨rfl, kept⟩
    exact Prog.can_require rfl kept
  · exact kept

theorem can_callTarget (target : Address) (cd : List UInt8) {world : World accountSignature}
    (kept : invariant world) :
    (callTarget target cd).can system stack frame (fun _ after => invariant after) world := by
  simp only [callTarget, Prog.can_bind]
  apply Prog.can_mono _ (can_ask outside asked _ kept)
  rintro reply after ⟨rfl, kept⟩
  exact Prog.can_require rfl kept

theorem can_checkUnspent (self : Address) (fromArgs : FromArgs Asset)
    (onNetwork : (AssetRegistry.addr fromArgs.asset imm.network).isSome)
    {world : World accountSignature} (kept : invariant world) :
    (checkUnspent platform imm self fromArgs).can system stack frame
      (fun _ after => invariant after) world := by
  rcases Option.isSome_iff_exists.mp onNetwork with ⟨token, present⟩
  simp only [checkUnspent, Prog.can_bind]
  apply Prog.can_unwrap present
  apply Prog.can_mono _ (can_ask outside asked _ kept)
  rintro reply after ⟨rfl, kept⟩
  apply Prog.can_require rfl
  exact Prog.can_require (decide_eq_true (U.toNat_le_max _)) kept

theorem can_solveItemRest (self : Address) (args : SolveArgs Asset)
    (payable : args.Payable imm.network) {world : World accountSignature}
    (kept : invariant world) :
    (solveItemRest platform imm self permitOwner transferOwner args).can system stack frame
      (fun _ after => invariant after) world := by
  rw [solveItemRest, Prog.can_bind]
  apply Prog.can_mono _ (Prog.can_forM_of_invariant (fun permit member _ =>
    can_usePermit outside asked self permit (payable.1 permit member)) kept)
  intro _ world kept
  rw [Prog.can_bind]
  apply Prog.can_mono _ (Prog.can_forM_of_invariant (fun fromArgs member _ =>
    can_takeFrom outside asked self args.target fromArgs (payable.2 fromArgs member)) kept)
  intro _ world kept
  rw [Prog.can_bind]
  apply Prog.can_mono _ (can_checkAuthority outside asked args.target kept)
  intro _ world kept
  rw [Prog.can_bind]
  apply Prog.can_mono _ (can_callTarget outside asked args.target args.cd.toList kept)
  intro _ world kept
  exact Prog.can_forM_of_invariant (fun fromArgs member _ =>
    can_checkUnspent outside asked self fromArgs (payable.2 fromArgs member)) kept

theorem can_useGasPermit (self ethOwner gasTokenAddr : Address) (gasToken : Asset)
    (permit : Option (Permit Asset)) (permitMatches : ∀ used ∈ permit, gasToken = used.asset)
    {world : World accountSignature} (kept : invariant world) :
    (useGasPermit self ethOwner gasTokenAddr gasToken permit).can system stack frame
      (fun _ after => invariant after) world := by
  cases permit with
  | none => exact kept
  | some permit =>
      rw [useGasPermit, Prog.can_bind]
      apply Prog.can_require (decide_eq_true (permitMatches permit rfl))
      exact can_callOrRevert outside asked _ kept

theorem can_transferItem (self : Address) (transfer : Transfer Asset)
    (onNetwork : (AssetRegistry.addr transfer.asset imm.network).isSome)
    {world : World accountSignature} (kept : invariant world) :
    (transferItem imm self transfer).can system stack frame
      (fun _ after => invariant after) world := by
  rcases Option.isSome_iff_exists.mp onNetwork with ⟨token, present⟩
  rw [transferItem, Prog.can_bind]
  apply Prog.can_unwrap present
  rw [Prog.can_bind]
  have permitted : (useTransferPermit self transfer.fromAddr token transfer.permit).can system
      stack frame (fun _ after => invariant after) world := by
    cases transfer.permit with
    | none => exact kept
    | some permit => exact can_callOrRevert outside asked _ kept
  apply Prog.can_mono _ permitted
  intro _ after kept
  exact can_callOrRevert outside asked _ kept

variable (invariant) in
/-- Gas can be charged, and then the items are up. -/
theorem can_entrySolveV3 {args : SolveV3Args Asset} {sig : Sig} {token : Address}
    {post : List UInt8 → World accountSignature → Prop} {world : World accountSignature}
    (verified : platform.precompiles.edphverifyPre (Borsh.toVec args)
      (world.store frame.self (.ed25519Slot U.zero)) sig = true)
    (present : AssetRegistry.addr args.gasToken imm.network = some token)
    (permitMatches : ∀ permit ∈ args.gasTokenPermit, args.gasToken = permit.asset)
    (kept : invariant world)
    (items : ∀ owner after, invariant after →
      (entrySolve platform imm frame.self args.args.toList owner owner).can system stack frame
        post (after.record stack frame (.noted (.charged token owner args.gasTokenAmt)))) :
    (entrySolveV3 platform imm frame.self args sig).can system stack frame post world := by
  simp only [entrySolveV3, Prog.can_bind, Prog.can_mark, can_load]
  apply can_assert verified
  apply Prog.can_unwrap present
  apply Prog.can_mono _ (can_useGasPermit outside asked frame.self _ token args.gasToken
    args.gasTokenPermit permitMatches kept)
  intro _ after kept
  apply Prog.can_mono _ (can_callOrRevert outside asked _ kept)
  intro _ after kept
  exact items _ after kept

end Can

/-- The nonces are distinct and none of them is used on an account. -/
def FreshNonces (self : Address) (nonces : List U) (world : World accountSignature) : Prop :=
  nonces.Nodup ∧ ∀ nonce ∈ nonces, world.store self (.timestamps nonce) = U.zero

theorem FreshNonces.asked {self : Address} {nonces : List U} {world : World accountSignature}
    {stack : List (Frame accountSignature)} {frame : Frame accountSignature} (query : Query)
    (reply : Reply) (fresh : FreshNonces self nonces world) :
    FreshNonces self nonces (world.record stack frame (.asked query reply)) :=
  fresh

section Entry

variable {system : System accountSignature} {stack : List (Frame accountSignature)}
  {frame : Frame accountSignature} {platform : Platform} {imm : Imm}
  {permitOwner transferOwner : Address} (mayWrite : frame.readonly = false)

include mayWrite

theorem can_exchange {nonce : U} {nonces : List U} {world : World accountSignature}
    (fresh : FreshNonces frame.self (nonce :: nonces) world) :
    (exchange (.timestamps nonce)).can system stack frame
      (fun _ after => FreshNonces frame.self nonces after) world := by
  rcases List.nodup_cons.mp fresh.1 with ⟨notLater, distinct⟩
  simp only [exchange, Prog.can_bind, can_load]
  apply can_assert (decide_eq_true (fresh.2 nonce List.mem_cons_self))
  refine ⟨mayWrite, distinct, ?_⟩
  intro later member
  rw [store_write_of_ne]
  · exact fresh.2 later (List.mem_cons_of_mem _ member)
  · right
    intro same
    rw [Slot.timestamps.inj same] at member
    exact notLater member

theorem can_guard {α : Type} {body : Contract α} {world : World accountSignature}
    (unlocked : world.store frame.self .reentrancy = U.zero)
    (bodyCan : body.can system stack frame (fun _ _ => True)
      (world.write frame.self .reentrancy U.one)) :
    (reentrancyGuard body).can system stack frame (fun _ _ => True) world := by
  simp only [reentrancyGuard, Prog.can_bind, can_load]
  apply Prog.can_require (S := accountSignature) (decide_eq_true unlocked)
  refine ⟨mayWrite, ?_⟩
  apply Prog.can_mono _ bodyCan
  intro _ _ _
  exact ⟨mayWrite, trivial⟩

variable (outside : ∀ store query, system.callee store frame query = none)

include outside

theorem can_entrySolve {args : List (SolveArgs Asset)} {world : World accountSignature}
    (payable : ∀ item ∈ args, item.Payable imm.network)
    (fresh : FreshNonces frame.self (args.map fun item => U.ofBytes item.msTs) world) :
    (entrySolve platform imm frame.self args permitOwner transferOwner).can system stack frame
      (fun _ _ => True) world := by
  rw [entrySolve, Prog.can_bind]
  have loop : (args.forM (solveItem platform imm frame.self permitOwner transferOwner)).can
      system stack frame (fun _ after => FreshNonces frame.self [] after) world := by
    apply Prog.can_forM (fun rest after =>
      FreshNonces frame.self (rest.map fun item => U.ofBytes item.msTs) after) _ fresh
    intro item rest world member fresh
    rw [solveItem_eq, Prog.can_bind]
    apply Prog.can_mono _ (can_exchange mayWrite fresh)
    intro _ after fresh
    apply can_solveItemRest outside _ frame.self item (payable item member)
    · exact fresh
    · exact FreshNonces.asked
  apply Prog.can_mono _ loop
  intro _ _ _
  trivial

/-- A valid fund-moving request with fresh nonces can succeed on an account that is not locked. -/
theorem can_entry {args : Args Asset} {world : World accountSignature}
    (movesFunds : args.operation.isSome)
    (valid : args.Valid platform imm.network (world.store frame.self (.ed25519Slot U.zero)))
    (fresh : FreshNonces frame.self args.nonces world)
    (unlocked : world.store frame.self .reentrancy = U.zero) :
    (entry platform imm frame.self args).can system stack frame (fun _ _ => True) world := by
  have lockedKey : (world.write frame.self .reentrancy U.one).store frame.self
      (.ed25519Slot U.zero) = world.store frame.self (.ed25519Slot U.zero) :=
    store_write_of_ne _ _ (Or.inr (by simp))
  have lockedFresh (mark : Mark) : FreshNonces frame.self args.nonces
      ((world.write frame.self .reentrancy U.one).record stack frame (.noted mark)) := by
    refine ⟨fresh.1, ?_⟩
    intro nonce member
    rw [World.record_store, store_write_of_ne _ _ (Or.inr (by simp))]
    exact fresh.2 nonce member
  cases args with
  | solve args =>
      apply can_guard mayWrite unlocked
      simp only [entrySolveV1, Prog.can_bind, Prog.can_mark, can_load, World.record_store,
        lockedKey]
      apply Prog.can_mono _ (Prog.can_forM_of_invariant (fun item member _ kept =>
        can_assert (valid item member).1 kept) (lockedFresh _))
      intro _ after fresh
      apply can_entrySolve mayWrite outside
      · intro item member
        rcases List.mem_map.mp member with ⟨signed, signedMem, rfl⟩
        exact (valid signed signedMem).2
      · rw [List.map_map]
        exact fresh
  | solveV2 args sig =>
      apply can_guard mayWrite unlocked
      simp only [entrySolveV2, Prog.can_bind, Prog.can_mark, can_load, World.record_store,
        lockedKey]
      apply can_assert valid.1
      exact can_entrySolve mayWrite outside valid.2 (lockedFresh _)
  | transferOnly args sig =>
      rcases valid with ⟨verified, nonempty, onNetwork⟩
      apply can_guard mayWrite unlocked
      simp only [entryTransferOnly, Prog.can_bind, Prog.can_mark, can_load, World.record_store,
        lockedKey]
      apply can_assert verified
      apply can_assert (by simp [nonempty])
      apply Prog.can_mono _ (can_exchange mayWrite (lockedFresh _))
      intro _ after fresh
      have transferred : (args.args.toList.forM (transferItem imm frame.self)).can system stack
          frame (fun _ after => FreshNonces frame.self [] after) after := by
        apply Prog.can_forM_of_invariant _ fresh
        intro transfer member world fresh
        apply can_transferItem outside _ frame.self transfer (onNetwork transfer member) fresh
        exact FreshNonces.asked
      apply Prog.can_mono _ transferred
      intro _ _ _
      trivial
  | solveV3 args sig =>
      rcases valid with ⟨verified, onNetwork, permitMatches, payable⟩
      rcases Option.isSome_iff_exists.mp onNetwork with ⟨token, present⟩
      rw [entry, Prog.can_bind, Prog.can_mark]
      refine can_entrySolveV3 (FreshNonces frame.self (Args.solveV3 args sig).nonces) outside
        FreshNonces.asked ?_ present permitMatches ?_ ?_
      · exact verified
      · exact fresh
      · intro owner after fresh
        exact can_entrySolve mayWrite outside payable fresh
  | _ => cases movesFunds

end Entry

/-! ### A platform for concrete runs -/

def wordAt (bytes : List UInt8) (index : ℕ) : U :=
  ⟨(bytes.drop (32 * index) ++ List.replicate 32 0).take 32, by simp⟩

/-- A platform where the holder of a key has made one signature. -/
def oneSignature (key : U) (preimage : List UInt8) (digest : Bytes 64) (sig : Sig) : Platform where
  precompiles :=
    { sha512 bytes := if bytes = preimage then digest else Bytes.ofNat 64 0
      edphverifyPost hash signer made :=
        decide (hash = digest ∧ signer = key ∧ made = sig) }
  keccak256 _ := U.zero
  ecrecoverPost _ _ _ _ := none
  readWords bytes :=
    if bytes.length < 128 then .error "not enough words"
    else .ok (wordAt bytes 0, wordAt bytes 1, wordAt bytes 2, wordAt bytes 3)
  makeMetamorphicEvmfnBeaconProxy _ := []
  display _ := ""
  deserializeError _ := ""

namespace Known

def account : Address :=
  Bytes.ofNat 20 0x1111111111111111111111111111111111111111

def relayer : Address :=
  Bytes.ofNat 20 0x2222222222222222222222222222222222222222

/-- The storage of migrated accounts that all have the known key. -/
def store : Address → Slot → U := fun _ slot =>
  match slot with
  | .ed25519Slot _ => Go.knownKey
  | .ed25519Count => U.one
  | .ethereumOwner => Bytes.ofNat 32 0x4444444444444444444444444444444444444444
  | .version => U.two
  | _ => U.zero

/-- A call of a target without tokens. -/
def solve : SolveArgs KnownAsset where
  permit := Vec.empty
  fromArgs := Vec.empty
  target := Bytes.ofNat 20 0x3333333333333333333333333333333333333333
  cd := Vec.empty
  msTs := Bytes.ofNat 16 1

def solveDigest : Bytes 64 :=
  Bytes.ofNat 64 0x7665df44412bf51304a67a1a50f689184165acaa4afeecb38c53961eda13ce191257d4cd88506483e88ee55ab3b87f6f5bfba7afe51d244cf76bd8aeeb91fffd

/-- The Ed25519ph signature of the known key over the call. -/
def solveSig : Sig :=
  Bytes.ofNat 64 0x8c5e14091155dfe4f7ce379fa2cebcb7f2380997fdab5bfecdc8a1da2333e8991bdca5388b3e8dbee1d03048bed557d3791bf73bf23c297ece18a9e46ade5d06

def solvePlatform : Platform :=
  oneSignature Go.knownKey (Borsh.toVec solve) solveDigest solveSig

def solveRequest : Args KnownAsset :=
  .solve (Vec.singleton ⟨solveSig, solve⟩)

/-- A migration with the known key, sent by the relayer. -/
def migrate (self : Address) : Act accountSignature :=
  .call self ⟨relayer, selMigrate ++ Go.knownKey.toList ++
    (Bytes.ofNat 32 0x4444444444444444444444444444444444444444).toList ++
    (Bytes.ofNat 32 0x6666666666666666666666666666666666666666).toList ++ U.zero.toList⟩ []

/-- What becomes of an empty chain. -/
def after (acts : List (Act accountSignature)) : World accountSignature :=
  Act.runAll (accounts KnownAsset solvePlatform .arbitrum fun _ _ _ => none) acts [] false
    (World.start fun _ _ => U.zero)

end Known

end SuperpositionAccounts
