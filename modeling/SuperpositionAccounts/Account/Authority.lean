import SuperpositionAccounts.Account.Statements
import SuperpositionAccounts.CallTree.History

/-!
# The authority gate

An account with an authority calls the target of a solve only after the authority
has allowed the code of the target. Everything else it calls is a token that its
signed arguments name, or the authority itself. This holds of every call in a run,
whether the frame that made it is reverted later or not, as long as no migration
and no creation is asked of the account.
-/

namespace SuperpositionAccounts

open CallTree

variable {Asset : Type}

/-! ### What a request names -/

def SolveArgs.assets (args : SolveArgs Asset) : List Asset :=
  args.permit.toList.map (·.asset) ++ args.fromArgs.toList.map (·.asset)

/-- The solves of a request. -/
def Args.items : Args Asset → List (SolveArgs Asset)
  | .solve args => args.toList.map (·.args)
  | .solveV2 args _ => args.args.toList
  | .solveV3 args _ => args.args.toList
  | _ => []

/-- The assets a request names, in its solves, its gas fields and its transfers. -/
def Args.assets : Args Asset → List Asset
  | .solveV3 args _ =>
      args.gasToken :: (args.gasTokenPermit.toList.map (·.asset) ++
        args.args.toList.flatMap SolveArgs.assets)
  | .transferOnly args _ => args.args.toList.map (·.asset)
  | request => request.items.flatMap SolveArgs.assets

theorem Args.mem_assets_of_item {request : Args Asset} {item : SolveArgs Asset} {asset : Asset}
    (member : item ∈ request.items) (named : asset ∈ item.assets) : asset ∈ request.assets := by
  cases request with
  | solveV3 args sig =>
      apply List.mem_cons_of_mem
      apply List.mem_append_right
      exact List.mem_flatMap.mpr ⟨item, member, named⟩
  | transferOnly args sig => cases member
  | _ => exact List.mem_flatMap.mpr ⟨item, member, named⟩

/-- The contract a query calls as a token. -/
def Query.token : Query → Option Address
  | .permit token .. => some token
  | .transferFrom token .. => some token
  | .approve token .. => some token
  | .balanceOf token .. => some token
  | _ => none

/-- A migration or a creation is asked for. All other requests leave the authority alone. -/
def Request.administrative : Request Asset → Bool
  | .migrate .. => true
  | .args (.freshBackwards ..) => true
  | _ => false

section Definitions

variable (Asset) [AssetRegistry Asset] (platform : Platform) (network : Network)

/-- Whether the request of a frame, if it can be read, is a migration or a creation. -/
def administrativeFrame (frame : Frame accountSignature) : Bool :=
  match requestOf Asset platform frame with
  | .ok request => request.administrative
  | .error _ => false

/-- A frame of an account does not migrate it and does not create accounts. -/
def Operational (self : Address) (frame : Frame accountSignature) : Prop :=
  frame.self = self → administrativeFrame Asset platform frame = false

instance (self : Address) (frame : Frame accountSignature) :
    Decidable (Operational Asset platform self frame) :=
  inferInstanceAs (Decidable (_ → _))

/-- When a frame called a target, the last thing that had happened was that the authority allowed
a hash, and the last thing before that call was that the hash of the target's code was found. -/
def Approved (authority : U) (target : Address) (stack : List (Frame accountSignature))
    (frame : Frame accountSignature) (trace : List (Event accountSignature)) : Prop :=
  ∃ found verdict foundStore verdictStore earlier first,
    verdict.ok = true ∧
    madeAt stack trace =
      ⟨stack, frame, .asked (.allowed authority.addr found.word) verdict, verdictStore⟩ ::
        earlier ∧
    madeAt stack earlier = ⟨stack, frame, .asked (.codeHash target) found, foundStore⟩ :: first

/-- The queries an account with an authority makes for a request. Finding the hash of the code of
an address is not a call. -/
inductive Permitted (authority : U) (request : Args Asset) (stack : List (Frame accountSignature))
    (frame : Frame accountSignature) (trace : List (Event accountSignature)) : Query → Prop where
  | token {query : Query} {asset : Asset} {token : Address} (calls : query.token = some token)
      (named : asset ∈ request.assets) (located : AssetRegistry.addr asset network = some token) :
      Permitted authority request stack frame trace query
  | authority (hash : U) :
      Permitted authority request stack frame trace (.allowed authority.addr hash)
  | inspect (target : Address) :
      Permitted authority request stack frame trace (.codeHash target)
  | target {item : SolveArgs Asset} (member : item ∈ request.items)
      (approved : Approved authority item.target stack frame trace) :
      Permitted authority request stack frame trace (.call item.target item.cd.toList)

/-- An event of an account is no query, or one that is permitted for a request that is signed with
the key of the account. -/
def Gated (self : Address) (key authority : U) (event : Event accountSignature)
    (older : List (Event accountSignature)) : Prop :=
  event.frame.self = self → ∀ query reply, event.action = .asked query reply →
    ∃ request, requestOf Asset platform event.frame = .ok (.args request) ∧
      (∀ checked ∈ request.signed self,
        platform.precompiles.edphverifyPre checked.1 key checked.2 = true) ∧
      Permitted Asset network authority request event.stack event.frame older query

/-- The key and the authority of an account. -/
def HasAuthority (self : Address) (key authority : U) (store : Address → Slot → U) : Prop :=
  store self (.ed25519Slot U.zero) = key ∧ store self .authority = authority

/-- The account kept its key and its authority, and its calls were gated. -/
abbrev GateSince (self : Address) (key authority : U) (stack : List (Frame accountSignature)) :
    World accountSignature → World accountSignature → Prop :=
  Since (HasAuthority self key authority) (Gated Asset platform network self key authority)
    stack.length

/-- What a frame may rely on while it waits. -/
abbrev GateRely (self : Address) (key authority : U) (stack : List (Frame accountSignature)) :
    World accountSignature → World accountSignature → Prop :=
  sinceRely (HasAuthority self key authority) (Gated Asset platform network self key authority)
    stack

end Definitions

/-! ### The programs respect the gate -/

section Programs

variable [AssetRegistry Asset] {platform : Platform} {imm : Imm} {key authority : U}
  {stack : List (Frame accountSignature)} {frame : Frame accountSignature}
  {start : World accountSignature} {request : Args Asset}

variable (Asset platform imm key authority stack frame start) in
/-- What a frame of the account knows while it runs. -/
abbrev Guarding : World accountSignature → Prop :=
  GateSince Asset platform imm.network frame.self key authority stack start

variable (Asset platform imm key authority stack frame start) in
/-- A program of the account that respects the gate. -/
abbrev Respects {α : Type} (program : Contract α) : Prop :=
  program.Maintains
    (GateRely Asset platform imm.network frame.self key authority (frame :: stack)) stack frame
    (Guarding Asset platform imm key authority stack frame start)

variable (platform key frame request) in
/-- A frame serves a request that is signed with the key of its account. -/
structure ServesSigned : Prop where
  read : requestOf Asset platform frame = .ok (.args request)
  signed : ∀ checked ∈ request.signed frame.self,
    platform.precompiles.edphverifyPre checked.1 key checked.2 = true

theorem gated_of_permitted (serves : ServesSigned platform key frame request) {query : Query}
    {reply : Reply} {store : Address → Slot → U} {older : List (Event accountSignature)}
    (permitted : Permitted Asset imm.network authority request stack frame older query) :
    Gated Asset platform imm.network frame.self key authority
      ⟨stack, frame, .asked query reply, store⟩ older := by
  intro _ asked answer same
  cases same
  exact ⟨request, serves.read, serves.signed, permitted⟩

/-- Events other than queries are not gated. -/
theorem gated_of_quiet {action : Action accountSignature} {store : Address → Slot → U}
    {older : List (Event accountSignature)} {self : Address} {network : Network}
    (quiet : ∀ query reply, action ≠ .asked query reply) :
    Gated Asset platform network self key authority ⟨stack, frame, action, store⟩ older := by
  intro _ query reply asked
  exact absurd asked (quiet query reply)

theorem Guarding.write {world : World accountSignature} {slot : Slot} (word : U)
    (guarding : Guarding Asset platform imm key authority stack frame start world)
    (notKey : slot ≠ .ed25519Slot U.zero) (notAuthority : slot ≠ .authority) :
    Guarding Asset platform imm key authority stack frame start
      (world.write frame.self slot word) := by
  refine ⟨⟨?_, ?_⟩, guarding.grows⟩
  · rw [store_write_of_ne _ _ (Or.inr notKey.symm)]
    exact guarding.keeps.1
  · rw [store_write_of_ne _ _ (Or.inr notAuthority.symm)]
    exact guarding.keeps.2

theorem assert_respects (condition : Bool) (message : String) :
    Respects Asset platform imm key authority stack frame start (assert condition message) :=
  Prog.maintains_require _ _

theorem exchange_respects (nonce : U) :
    Respects Asset platform imm key authority stack frame start
      (exchange (.timestamps nonce)) := by
  apply Prog.maintains_bind (Prog.maintains_sload _)
  intro current
  apply Prog.maintains_bind (assert_respects _ _)
  intro _
  apply Prog.maintains_sstore
  intro world guarding
  exact guarding.write U.one nofun nofun

theorem mark_respects (mark : Mark) :
    Respects Asset platform imm key authority stack frame start
      (Prog.mark mark : Contract Unit) := by
  apply Prog.maintains_mark
  intro world guarding
  exact guarding.record (gated_of_quiet nofun)

theorem reentrancyGuard_respects {α : Type} {body : Contract α}
    (bodyRespects : Respects Asset platform imm key authority stack frame start body) :
    Respects Asset platform imm key authority stack frame start (reentrancyGuard body) := by
  apply Prog.maintains_bind (Prog.maintains_sload _)
  intro lock
  apply Prog.maintains_bind (Prog.maintains_require _ _)
  intro _
  apply Prog.maintains_bind
  · apply Prog.maintains_sstore
    intro world guarding
    exact guarding.write U.one nofun nofun
  · intro _
    apply Prog.maintains_bind bodyRespects
    intro result
    apply Prog.maintains_bind
    · apply Prog.maintains_sstore
      intro world guarding
      exact guarding.write U.zero nofun nofun
    · intro _
      exact Prog.maintains_pure result

/-- A query that is permitted whatever happened before. -/
theorem request_respects (serves : ServesSigned platform key frame request) {query : Query}
    (permitted : ∀ older,
      Permitted Asset imm.network authority request stack frame older query) :
    Respects Asset platform imm key authority stack frame start (Prog.request query) := by
  apply Prog.maintains_request
  intro world after reply guarding moved
  exact (guarding.called moved).record (gated_of_permitted serves (permitted _))

theorem callOrRevert_respects (serves : ServesSigned platform key frame request) {query : Query}
    {asset : Asset} {token : Address} (calls : query.token = some token)
    (named : asset ∈ request.assets) (located : AssetRegistry.addr asset imm.network = some token) :
    Respects Asset platform imm key authority stack frame start (callOrRevert query) := by
  apply Prog.maintains_bind
  · exact request_respects serves fun _ => .token calls named located
  · intro reply
    exact Prog.maintains_require _ _

theorem usePermit_respects (serves : ServesSigned platform key frame request)
    {permit : Permit Asset} (named : permit.asset ∈ request.assets) (permitOwner : Address) :
    Respects Asset platform imm key authority stack frame start
      (usePermit imm frame.self permitOwner permit) := by
  apply Prog.maintains_unwrap_bind
  intro token located
  exact callOrRevert_respects serves rfl named located

theorem takeFrom_respects (serves : ServesSigned platform key frame request)
    {fromArgs : FromArgs Asset} (named : fromArgs.asset ∈ request.assets)
    (transferOwner target : Address) :
    Respects Asset platform imm key authority stack frame start
      (takeFrom imm frame.self transferOwner target fromArgs) := by
  apply Prog.maintains_unwrap_bind
  intro token located
  apply Prog.maintains_bind (callOrRevert_respects serves rfl named located)
  intro _
  exact callOrRevert_respects serves rfl named located

theorem checkUnspent_respects (serves : ServesSigned platform key frame request)
    {fromArgs : FromArgs Asset} (named : fromArgs.asset ∈ request.assets) :
    Respects Asset platform imm key authority stack frame start
      (checkUnspent platform imm frame.self fromArgs) := by
  apply Prog.maintains_unwrap_bind
  intro token located
  apply Prog.maintains_bind
  · exact request_respects serves fun _ => .token rfl named located
  · intro reply
    apply Prog.maintains_bind (Prog.maintains_require _ _)
    intro _
    exact assert_respects _ _

/-- The authority is asked about the code of a target right before the target is called. -/
theorem approvedCall_respects (serves : ServesSigned platform key frame request)
    (hasAuthority : authority ≠ U.zero) {item : SolveArgs Asset} (member : item ∈ request.items)
    {rest : Contract Unit}
    (restRespects : Respects Asset platform imm key authority stack frame start rest) :
    Respects Asset platform imm key authority stack frame start (do
      checkAuthority item.target
      callTarget item.target item.cd.toList
      rest) := by
  intro world guarding
  have asked : authority.isSome = true := decide_eq_true hasAuthority
  simp only [checkAuthority, callTarget, Prog.wp_bind, wp_load, guarding.keeps.2, asked, if_true,
    wp_ask, wp_assert]
  refine ⟨guarding, ?_⟩
  intro afterHash found moved
  have inspected : Guarding Asset platform imm key authority stack frame start
      (afterHash.record stack frame (.asked (.codeHash item.target) found)) :=
    (guarding.called moved).record (gated_of_permitted serves (.inspect item.target))
  refine ⟨inspected, ?_⟩
  intro afterVerdict verdict movedAgain
  have verdictGrows := (movedAgain inspected.keeps).grows
  have judged : Guarding Asset platform imm key authority stack frame start
      (afterVerdict.record stack frame (.asked (.allowed authority.addr found.word) verdict)) :=
    (inspected.called movedAgain).record (gated_of_permitted serves (.authority found.word))
  split
  · rename_i allowed
    refine ⟨judged, ?_⟩
    intro afterCall reply movedLast
    have callGrows := (movedLast judged.keeps).grows
    have approved : Approved authority item.target stack frame afterCall.trace :=
      ⟨found, verdict, _, _, _, _, allowed, callGrows.madeAt_eq, verdictGrows.madeAt_eq⟩
    have called : Guarding Asset platform imm key authority stack frame start
        (afterCall.record stack frame (.asked (.call item.target item.cd.toList) reply)) :=
      (judged.called movedLast).record (gated_of_permitted serves (.target member approved))
    split
    · exact restRespects _ called
    · exact called
  · exact judged

theorem solveItem_respects (serves : ServesSigned platform key frame request)
    (hasAuthority : authority ≠ U.zero) {item : SolveArgs Asset} (member : item ∈ request.items)
    (permitOwner transferOwner : Address) :
    Respects Asset platform imm key authority stack frame start
      (solveItem platform imm frame.self permitOwner transferOwner item) := by
  have permitNamed : ∀ permit ∈ item.permit.toList, permit.asset ∈ request.assets := by
    intro permit permitMem
    apply Args.mem_assets_of_item member
    exact List.mem_append_left _ (List.mem_map_of_mem permitMem)
  have fromNamed : ∀ fromArgs ∈ item.fromArgs.toList, fromArgs.asset ∈ request.assets := by
    intro fromArgs fromMem
    apply Args.mem_assets_of_item member
    exact List.mem_append_right _ (List.mem_map_of_mem fromMem)
  apply Prog.maintains_bind (exchange_respects _)
  intro _
  apply Prog.maintains_bind (Prog.maintains_forM fun permit permitMem =>
    usePermit_respects serves (permitNamed permit permitMem) permitOwner)
  intro _
  apply Prog.maintains_bind (Prog.maintains_forM fun fromArgs fromMem =>
    takeFrom_respects serves (fromNamed fromArgs fromMem) transferOwner item.target)
  intro _
  apply approvedCall_respects serves hasAuthority member
  exact Prog.maintains_forM fun fromArgs fromMem =>
    checkUnspent_respects serves (fromNamed fromArgs fromMem)

theorem entrySolve_respects (serves : ServesSigned platform key frame request)
    (hasAuthority : authority ≠ U.zero) (permitOwner transferOwner : Address) :
    Respects Asset platform imm key authority stack frame start
      (entrySolve platform imm frame.self request.items permitOwner transferOwner) := by
  apply Prog.maintains_bind
  · exact Prog.maintains_forM fun item member =>
      solveItem_respects serves hasAuthority member permitOwner transferOwner
  · intro _
    exact Prog.maintains_pure []

/-- A check with the key of the account: what follows may rely on it. -/
theorem keyCheck_respects {α : Type} {check : U → Bool} {message : String} {rest : Contract α}
    (restRespects : check key = true →
      Respects Asset platform imm key authority stack frame start rest) :
    Respects Asset platform imm key authority stack frame start (do
      let edOwner ← Prog.sload (.ed25519Slot U.zero)
      assert (check edOwner) message
      rest) := by
  intro world guarding
  simp only [Prog.wp_bind, wp_load, guarding.keeps.1, wp_assert]
  split
  · rename_i checked
    exact restRespects checked world guarding
  · exact guarding

theorem checks_respects {α Item : Type} {check : Item → Bool} {message : String}
    {items : List Item} {rest : Contract α}
    (restRespects : (∀ item ∈ items, check item = true) →
      Respects Asset platform imm key authority stack frame start rest) :
    Respects Asset platform imm key authority stack frame start (do
      items.forM fun item => assert (check item) message
      rest) := by
  induction items with
  | nil => exact restRespects fun _ member => nomatch member
  | cons item items ih =>
      intro world guarding
      rw [Prog.wp_bind]
      change (assert (check item) message >>= fun _ =>
        items.forM fun item => assert (check item) message).wp _ _ _ _ _ _
      rw [Prog.wp_bind, wp_assert]
      split
      · rename_i checked
        have later := ih fun others => restRespects (List.forall_mem_cons.mpr ⟨checked, others⟩)
        exact (Prog.wp_bind _ _ _ _).mp (later world guarding)
      · exact guarding

theorem keyChecks_respects {α Item : Type} {check : U → Item → Bool} {message : String}
    {items : List Item} {rest : Contract α}
    (restRespects : (∀ item ∈ items, check key item = true) →
      Respects Asset platform imm key authority stack frame start rest) :
    Respects Asset platform imm key authority stack frame start (do
      let edOwner ← Prog.sload (.ed25519Slot U.zero)
      items.forM fun item => assert (check edOwner item) message
      rest) := by
  intro world guarding
  rw [Prog.wp_bind, wp_load, guarding.keeps.1]
  exact checks_respects restRespects world guarding

theorem transferItem_respects (serves : ServesSigned platform key frame request)
    {transfer : Transfer Asset} (named : transfer.asset ∈ request.assets) :
    Respects Asset platform imm key authority stack frame start
      (transferItem imm frame.self transfer) := by
  apply Prog.maintains_unwrap_bind
  intro token located
  apply Prog.maintains_bind
  · cases transfer.permit with
    | none => exact Prog.maintains_pure ()
    | some permit => exact callOrRevert_respects serves rfl named located
  · intro _
    exact callOrRevert_respects serves rfl named located

theorem useGasPermit_respects (serves : ServesSigned platform key frame request)
    {gasToken : Asset} {gasTokenAddr : Address} (named : gasToken ∈ request.assets)
    (located : AssetRegistry.addr gasToken imm.network = some gasTokenAddr) (ethOwner : Address)
    (permit : Option (Permit Asset)) :
    Respects Asset platform imm key authority stack frame start
      (useGasPermit frame.self ethOwner gasTokenAddr gasToken permit) := by
  cases permit with
  | none => exact Prog.maintains_pure ()
  | some permit =>
      apply Prog.maintains_bind (assert_respects _ _)
      intro _
      exact callOrRevert_respects serves rfl named located

theorem readSlot_respects (slot : Slot) :
    Respects Asset platform imm key authority stack frame start (readSlot slot) := by
  apply Prog.maintains_bind (S := accountSignature) (Prog.maintains_sload slot)
  intro word
  exact Prog.maintains_pure _

/-- Every request but a creation respects the gate. -/
theorem entry_respects (hasAuthority : authority ≠ U.zero)
    (read : requestOf Asset platform frame = .ok (.args request))
    (operational : (Request.args request).administrative = false) :
    Respects Asset platform imm key authority stack frame start
      (entry platform imm frame.self request) := by
  have single {bytes : List UInt8} {sig : Sig} (isSigned : request.signed frame.self =
      [(bytes, sig)]) (verified : platform.precompiles.edphverifyPre bytes key sig = true) :
      ServesSigned platform key frame request := by
    refine ⟨read, ?_⟩
    intro checked member
    rw [isSigned] at member
    cases List.mem_singleton.mp member
    exact verified
  cases request with
  | freshBackwards key eoaAddr v r s solveArgs authority => cases operational
  | solve args =>
      apply reentrancyGuard_respects
      apply Prog.maintains_bind (mark_respects _)
      intro _
      apply keyChecks_respects
      intro verified
      apply Prog.maintains_bind (Prog.maintains_sload _)
      intro ethOwner
      refine entrySolve_respects ⟨read, ?_⟩ hasAuthority _ _
      intro checked member
      rcases List.mem_map.mp member with ⟨item, itemMem, rfl⟩
      exact verified item itemMem
  | solveV2 args sig =>
      apply reentrancyGuard_respects
      apply Prog.maintains_bind (mark_respects _)
      intro _
      apply keyCheck_respects
      intro verified
      exact entrySolve_respects (single rfl verified) hasAuthority _ _
  | solveV3 args sig =>
      apply Prog.maintains_bind (mark_respects _)
      intro _
      apply keyCheck_respects
      intro verified
      have serves := single rfl verified
      have named : args.gasToken ∈ (Args.solveV3 args sig).assets := List.mem_cons_self
      apply Prog.maintains_bind (Prog.maintains_sload _)
      intro ethOwner
      apply Prog.maintains_unwrap_bind
      intro gasTokenAddr located
      apply Prog.maintains_bind (useGasPermit_respects serves named located _ _)
      intro _
      apply Prog.maintains_bind (callOrRevert_respects serves rfl named located)
      intro _
      apply Prog.maintains_bind (mark_respects _)
      intro _
      exact entrySolve_respects serves hasAuthority _ _
  | transferOnly args sig =>
      apply reentrancyGuard_respects
      apply Prog.maintains_bind (mark_respects _)
      intro _
      apply keyCheck_respects
      intro verified
      apply Prog.maintains_bind (assert_respects _ _)
      intro _
      apply Prog.maintains_bind (exchange_respects _)
      intro _
      apply Prog.maintains_bind (Prog.maintains_forM fun transfer member =>
        transferItem_respects (single rfl verified) (List.mem_map_of_mem member))
      intro _
      exact Prog.maintains_pure []
  | statement args sig =>
      apply keyCheck_respects
      intro verified
      apply Prog.maintains_bind (exchange_respects _)
      intro _
      exact Prog.maintains_pure []
  | version => exact readSlot_respects _
  | authority => exact readSlot_respects _
  | owner => exact readSlot_respects _
  | ed25519Key => exact readSlot_respects _
  | assetsVersion => exact fun _ guarding => guarding

end Programs

/-! ### Whole runs -/

section Runs

variable [AssetRegistry Asset] {platform : Platform} {network : Network} {self : Address}
  {key authority : U} {stack : List (Frame accountSignature)} {frame : Frame accountSignature}

/-- Other accounts neither write the storage of the account nor make calls for it. -/
theorem gateSince_survives_elsewhere (elsewhere : frame.self ≠ self)
    (start : World accountSignature) :
    Survives (GateRely Asset platform network self key authority (frame :: stack)) stack frame
      (fun _ => True) (fun _ => True)
      (GateSince Asset platform network self key authority stack start) where
  others moved since := since.called moved
  asked query reply since := since.record fun own => absurd own elsewhere
  noted mark _ since := since.record fun own => absurd own elsewhere
  written slot word _ since := by
    refine ⟨⟨?_, ?_⟩, since.grows⟩
    · rw [store_write_of_ne _ _ (Or.inl elsewhere.symm)]
      exact since.keeps.1
    · rw [store_write_of_ne _ _ (Or.inl elsewhere.symm)]
      exact since.keeps.2

theorem serve_respects {imm : Imm} {start : World accountSignature} {request : Request Asset}
    (hasAuthority : authority ≠ U.zero) (read : requestOf Asset platform frame = .ok request)
    (operational : request.administrative = false) :
    Respects Asset platform imm key authority stack frame start
      (serve platform imm frame.self frame.msg.sender request) := by
  cases request with
  | beacon => exact readSlot_respects .slotImpl
  | migrate edKey evmOwner implAddr authorityAddr => cases operational
  | args request => exact entry_respects hasAuthority read operational

theorem gate_guarantee (hasAuthority : authority ≠ U.zero)
    (callee : (Address → Slot → U) → Frame accountSignature → Query → Option (Address × Call)) :
    Guarantee (accounts Asset platform network callee)
      (fun _ frame => Operational Asset platform self frame)
      (GateRely Asset platform network self key authority) := by
  apply Guarantee.since
  intro stack frame world operational initially
  have entered : GateSince Asset platform network self key authority stack world
      (world.record stack frame .entered) :=
    (Since.refl initially).record (gated_of_quiet (by simp))
  have maintained : (userEntrypoint Asset platform network frame.self frame.msg).wp
      (GateRely Asset platform network self key authority (frame :: stack)) stack frame
      (GateSince Asset platform network self key authority stack world)
      (fun _ => GateSince Asset platform network self key authority stack world)
      (world.record stack frame .entered) := by
    by_cases own : frame.self = self
    · subst own
      unfold userEntrypoint
      cases read : (readRequest platform frame.msg.calldata :
          Except String (Request Asset)) with
      | error message => exact entered
      | ok request =>
          have notAdministrative := operational rfl
          simp only [administrativeFrame, requestOf, read] at notAdministrative
          have respects : Respects Asset platform ⟨network, Bytes.ofNat 20 0⟩ key authority stack
              frame world (serve platform ⟨network, Bytes.ofNat 20 0⟩ frame.self
                frame.msg.sender request) :=
            serve_respects hasAuthority read notAdministrative
          exact respects _ entered
    · exact (Prog.within_true _).wp (gateSince_survives_elsewhere own world) id entered
  apply Prog.wp_mono _ maintained
  intro output after since
  exact since.record (gated_of_quiet (by simp))

end Runs

/-- Whatever tokens, targets and the authority do, an account with an authority that is neither
migrated nor asked to create accounts keeps its authority, and calls nothing but the tokens its
signed arguments name, the authority in static calls, and the targets of its items, each right
after the authority allowed the code of it. -/
theorem authority_gate (Asset : Type) [AssetRegistry Asset] (platform : Platform)
    (network : Network)
    (callee : (Address → Slot → U) → Frame accountSignature → Query → Option (Address × Call))
    (self : Address) (store : Address → Slot → U) (acts : List (Act accountSignature))
    (hasAuthority : store self .authority ≠ U.zero)
    (operational : (Act.runAll (accounts Asset platform network callee) acts [] false
      (World.start store)).Entered fun _ frame => Operational Asset platform self frame) :
    let after := Act.runAll (accounts Asset platform network callee) acts [] false
      (World.start store)
    after.store self .authority = store self .authority ∧
      (∀ newer event older, after.trace = newer ++ event :: older →
        event.store self .authority = store self .authority ∧
        Gated Asset platform network self (store self (.ed25519Slot U.zero))
          (store self .authority) event older) ∧
      ∀ asked hash, (accounts Asset platform network callee).static (.allowed asked hash) =
        true := by
  intro after
  have since := (gate_guarantee hasAuthority callee).runAll acts operational
    ⟨(rfl : store self (.ed25519Slot U.zero) = store self (.ed25519Slot U.zero)), rfl⟩
  refine ⟨since.keeps.2, ?_, fun _ _ => rfl⟩
  intro newer event older split
  have holds := since.grows.good_of_append split
  exact ⟨holds.1.2, holds.2⟩

/-! ### A gated solve -/

namespace Known

def authority : U :=
  Bytes.ofNat 32 0x7777777777777777777777777777777777777777

def gatedStore : Address → Slot → U := fun addr slot =>
  if slot = .authority then authority else store addr slot

/-- The hash of the code of the target, as the chain reports it. -/
def targetHash : Reply :=
  ⟨true, Bytes.ofNat 32 0x8888888888888888888888888888888888888888888888888888888888888888, none,
    []⟩

/-- The relayer submits the solve; the authority allows the target. -/
def gatedSolve : Act accountSignature :=
  .call account ⟨relayer, Borsh.toVec solveRequest⟩
    [.answer [] targetHash, .answer [] accepted, .answer [] accepted]

def gatedRun : World accountSignature :=
  Act.runAll (accounts KnownAsset solvePlatform .arbitrum fun _ _ _ => none) [gatedSolve] [] false
    (World.start gatedStore)

def callsTarget (event : Event accountSignature) : Bool :=
  match event.action with
  | .asked (.call target _) _ => decide (event.frame.self = account ∧ target = solve.target)
  | _ => false

end Known

theorem authority_gate_known :
    Known.gatedRun.log.any Known.callsTarget ∧
    Known.gatedRun.store Known.account .authority = Known.gatedStore Known.account .authority ∧
    ∀ newer event older, Known.gatedRun.trace = newer ++ event :: older →
      Gated KnownAsset Known.solvePlatform .arbitrum Known.account
        (Known.gatedStore Known.account (.ed25519Slot U.zero))
        (Known.gatedStore Known.account .authority) event older := by
  have gate := authority_gate KnownAsset Known.solvePlatform .arbitrum (fun _ _ _ => none)
    Known.account Known.gatedStore [Known.gatedSolve] (by decide) (by decide +kernel)
  refine ⟨by decide +kernel, ?_⟩
  unfold Known.gatedRun
  exact ⟨gate.1, fun newer event older split => (gate.2.1 newer event older split).2⟩

end SuperpositionAccounts
