import SuperpositionAccounts.Account.Effects
import SuperpositionAccounts.CallTree.Tickets

/-!
# Single use of nonces

Every item of a request consumes a nonce before it does anything else: the nonces
of an account are tickets, and a request uses one for each of its items.
-/

namespace SuperpositionAccounts

open CallTree

theorem U.one_ne_zero : U.one ≠ U.zero := by
  decide

section Counting

variable (Asset : Type) [AssetRegistry Asset] (platform : Platform)

/-- The request a frame carries, if it can be read. -/
def requestOf (frame : Frame accountSignature) : Except String (Request Asset) :=
  readRequest platform frame.msg.calldata

/-- The nonces of the items of a frame. -/
def frameNonces (frame : Frame accountSignature) : List U :=
  match requestOf Asset platform frame with
  | .ok request => request.nonces
  | .error _ => []

/-- A nonce of an account, used by each item that carries it. -/
def nonceTicket (self : Address) (nonce : U) : Ticket accountSignature where
  self := self
  slot := .timestamps nonce
  free := U.zero
  taken := U.one
  taken_ne_free := U.one_ne_zero
  demand frame := (frameNonces Asset platform frame).count nonce

/-- How many items with a nonce took effect on an account. -/
def uses (self : Address) (nonce : U) (log : List (Event accountSignature)) : ℕ :=
  (nonceTicket Asset platform self nonce).uses log

/-- What may happen to a nonce between two states. -/
abbrev NonceStep (self : Address) (nonce : U) (before after : State accountSignature) : Prop :=
  (nonceTicket Asset platform self nonce).Step before after

/-- What may have happened to a nonce inside a frame that has begun a number of items with it. -/
abbrev Pending (self : Address) (nonce : U) (before : State accountSignature) (begun : ℕ)
    (world : World accountSignature) : Prop :=
  (nonceTicket Asset platform self nonce).Pending before begun world

end Counting

variable {Asset : Type} [AssetRegistry Asset] {platform : Platform} {self : Address} {nonce : U}

theorem userEntrypoint_of_read {network : Network} {frame : Frame accountSignature}
    {request : Request Asset} (read : requestOf Asset platform frame = .ok request) :
    userEntrypoint Asset platform network frame.self frame.msg =
      serve platform ⟨network, Bytes.ofNat 20 0⟩ frame.self frame.msg.sender request := by
  rw [requestOf] at read
  rw [userEntrypoint, read]

theorem nonceTicket_demand {frame : Frame accountSignature} {request : Request Asset}
    (read : requestOf Asset platform frame = .ok request) :
    (nonceTicket Asset platform self nonce).demand frame = request.nonces.count nonce := by
  simp only [nonceTicket, frameNonces, read]

/-! ### Requests consume their nonces -/

/-- A property of the nonces consumed so far that the steps of a request keep. -/
structure Consuming (rely : World accountSignature → World accountSignature → Prop)
    (stack : List (Frame accountSignature)) (frame : Frame accountSignature)
    (holds : List U → World accountSignature → Prop) : Prop where
  within : ∀ {α : Type} {program : Contract α} {done world},
    program.Within (fun slot : Slot => slot = .reentrancy) (fun _ => True) → holds done world →
      program.wp rely stack frame (fun _ => True) (fun _ after => holds done after) world
  exchange : ∀ nonce {done world}, holds done world →
    (exchange (.timestamps nonce)).wp rely stack frame (fun _ => True)
      (fun _ after => holds (done ++ [nonce]) after) world

namespace Consuming

variable {rely : World accountSignature → World accountSignature → Prop}
  {stack : List (Frame accountSignature)} {frame : Frame accountSignature}
  {holds : List U → World accountSignature → Prop} {imm : Imm}
  {permitOwner transferOwner : Address} {world : World accountSignature}

theorem wp_entrySolve (consuming : Consuming rely stack frame holds)
    (args : List (SolveArgs Asset)) (initially : holds [] world) :
    (entrySolve platform imm self args permitOwner transferOwner).wp rely stack frame
      (fun _ => True)
      (fun _ after => holds (args.map fun item => U.ofBytes item.msTs) after) world := by
  let nonces (items : List (SolveArgs Asset)) : List U := items.map fun item => U.ofBytes item.msTs
  -- the nonces consumed so far and those still to come are all the nonces
  let invariant (rest : List (SolveArgs Asset)) (world : World accountSignature) : Prop :=
    ∃ done, done ++ nonces rest = nonces args ∧ holds done world
  simp only [entrySolve, Prog.wp_bind, Prog.wp_pure]
  have loop : (args.forM (solveItem platform imm self permitOwner transferOwner)).wp rely stack
      frame (fun _ => True) (fun _ after => invariant [] after) world := by
    apply Prog.wp_forM
    · rintro item rest world ⟨done, split, held⟩
      rw [solveItem_eq, Prog.wp_bind]
      apply Prog.wp_mono _ (consuming.exchange (U.ofBytes item.msTs) held)
      intro _ after exchanged
      apply Prog.wp_mono _ (consuming.within (solveItemRest_within item) exchanged)
      intro _ last held
      refine ⟨_, ?_, held⟩
      rw [List.append_assoc]
      exact split
    · exact ⟨[], rfl, initially⟩
  apply Prog.wp_mono _ loop
  rintro _ after ⟨done, all, held⟩
  have consumed : done = nonces args := by
    simpa [nonces] using all
  rw [consumed] at held
  exact held

/-- The lock does not matter to the nonces. -/
theorem wp_guard (consuming : Consuming rely stack frame holds) {α : Type} {body : Contract α}
    {done : List U}
    (bodyHolds : ∀ world, holds [] world →
      body.wp rely stack frame (fun _ => True) (fun _ after => holds done after) world)
    (initially : holds [] world) :
    (reentrancyGuard body).wp rely stack frame (fun _ => True)
      (fun _ after => holds done after) world := by
  have lockWithin (word : U) : (Prog.sstore .reentrancy word : Contract Unit).Within
      (fun slot : Slot => slot = .reentrancy) fun _ => True :=
    (Prog.within_sstore (S := accountSignature) _ _).mpr rfl
  simp only [reentrancyGuard, Prog.wp_bind, wp_load]
  apply Prog.wp_mono _ (consuming.within (Prog.within_require _ _) initially)
  intro _ world held
  apply Prog.wp_mono _ (consuming.within (lockWithin U.one) held)
  intro _ world held
  apply Prog.wp_mono _ (bodyHolds world held)
  intro result world held
  exact consuming.within (lockWithin U.zero) held

/-- A request consumes the nonce of each of its items once. -/
theorem wp_entry (consuming : Consuming rely stack frame holds) (args : Args Asset)
    (initially : holds [] world) :
    (entry platform imm self args).wp rely stack frame (fun _ => True)
      (fun _ after => holds args.nonces after) world := by
  cases args with
  | freshBackwards key eoaAddr v r s solveArgs authority =>
      exact consuming.within (entryFreshBackwards_within key eoaAddr v r s solveArgs authority)
        initially
  | solve args =>
      apply consuming.wp_guard _ initially
      intro world held
      rw [Prog.wp_bind]
      apply Prog.wp_mono _ (consuming.within ((Prog.within_mark _).mpr trivial) held)
      intro _ world held
      simp only [entrySolveV1, Prog.wp_bind, wp_load]
      apply Prog.wp_mono _ (consuming.within (Prog.within_forM fun item _ =>
        assertSigned_within _ _ _) held)
      intro _ world held
      apply Prog.wp_mono _ (consuming.wp_entrySolve (args.toList.map (·.args)) held)
      intro _ after held
      rw [List.map_map] at held
      exact held
  | version => exact consuming.within (readSlot_within _) initially
  | authority => exact consuming.within (readSlot_within _) initially
  | solveV2 args sig =>
      apply consuming.wp_guard _ initially
      intro world held
      rw [Prog.wp_bind]
      apply Prog.wp_mono _ (consuming.within ((Prog.within_mark _).mpr trivial) held)
      intro _ world held
      simp only [entrySolveV2, Prog.wp_bind, wp_load]
      apply Prog.wp_mono _ (consuming.within (assertSigned_within _ _ _) held)
      intro _ world held
      exact consuming.wp_entrySolve args.args.toList held
  | transferOnly args sig =>
      apply consuming.wp_guard _ initially
      intro world held
      rw [Prog.wp_bind]
      apply Prog.wp_mono _ (consuming.within ((Prog.within_mark _).mpr trivial) held)
      intro _ world held
      simp only [entryTransferOnly, Prog.wp_bind, wp_load]
      apply Prog.wp_mono _ (consuming.within (assertSigned_within _ _ _) held)
      intro _ world held
      apply Prog.wp_mono _ (consuming.within (assert_within _ _) held)
      intro _ world held
      apply Prog.wp_mono _ (consuming.exchange (U.ofBytes args.msTs) held)
      intro _ world held
      exact consuming.within (Prog.within_forM fun transfer _ =>
        transferItem_within transfer) held
  | statement args sig =>
      simp only [entry, entryStatement, Prog.wp_bind, wp_load]
      apply Prog.wp_mono _ (consuming.within (assert_within _ _) initially)
      intro _ world held
      exact consuming.exchange (U.ofBytes args.msTs) held
  | owner => exact consuming.within (readSlot_within _) initially
  | ed25519Key => exact consuming.within (readSlot_within _) initially
  | solveV3 args sig =>
      simp only [entry, entrySolveV3, Prog.wp_bind, wp_load]
      apply Prog.wp_mono _ (consuming.within ((Prog.within_mark _).mpr trivial) initially)
      intro _ world held
      apply Prog.wp_mono _ (consuming.within (assertSigned_within _ _ _) held)
      intro _ world held
      apply Prog.wp_mono _ (consuming.within (Prog.within_unwrap _ _) held)
      intro gasTokenAddr world held
      apply Prog.wp_mono _ (consuming.within (useGasPermit_within _ _ _ _) held)
      intro _ world held
      apply Prog.wp_mono _ (consuming.within (callOrRevert_within _) held)
      intro _ world held
      apply Prog.wp_mono _ (consuming.within ((Prog.within_mark _).mpr trivial) held)
      intro _ world held
      exact consuming.wp_entrySolve args.args.toList held
  | assetsVersion => trivial

end Consuming

/-! ### The programs keep the count -/

section Programs

variable {stack : List (Frame accountSignature)} {frame : Frame accountSignature}
  {before : State accountSignature} {begun : ℕ} {imm : Imm}

theorem Pending.wp_exchange (own : frame.self = self) (consumed : U)
    {world : World accountSignature}
    (pending : Pending Asset platform self nonce before begun world) :
    (exchange (.timestamps consumed)).wp
      (fun world after => NonceStep Asset platform self nonce world.toState after.toState)
      stack frame (fun _ => True)
      (fun _ after => Pending Asset platform self nonce before
        (begun + [consumed].count nonce) after) world := by
  by_cases same : consumed = nonce
  · subst same
    rw [wp_exchange]
    split
    · rename_i free
      rw [own] at free ⊢
      rw [List.count_singleton_self]
      exact ⟨trivial, pending.take free⟩
    · trivial
  · have none : [consumed].count nonce = 0 := by
      simp [same]
    rw [none]
    apply pending.wp_within
    apply exchange_within
    intro slotSame
    exact same (Slot.timestamps.inj slotSame)

/-- Each item consumed begins a use of its nonce. -/
theorem consuming_pending (own : frame.self = self) :
    Consuming (fun world after => NonceStep Asset platform self nonce world.toState after.toState)
      stack frame
      (fun done => Pending Asset platform self nonce before (done.count nonce)) where
  within within pending := by
    apply pending.wp_within
    apply within.mono _ fun _ _ => trivial
    rintro slot rfl
    simp [nonceTicket]
  exchange consumed done world pending := by
    rw [List.count_append]
    exact Pending.wp_exchange own consumed pending

theorem Pending.wp_serve (own : frame.self = self) (sender : Address) (request : Request Asset)
    {world : World accountSignature}
    (pending : Pending Asset platform self nonce before 0 world) :
    (serve platform imm self sender request).wp
      (fun world after => NonceStep Asset platform self nonce world.toState after.toState)
      stack frame (fun _ => True)
      (fun _ after => Pending Asset platform self nonce before (request.nonces.count nonce) after)
      world := by
  cases request with
  | beacon => exact pending.wp_within (readSlot_within _)
  | migrate edKey evmOwner implAddr authorityAddr =>
      apply pending.wp_within
      apply entryMigrate_within
      rintro slot isSet rfl
      cases isSet
  | args args => exact (consuming_pending own).wp_entry args pending

end Programs

section Runs

variable (Asset) (platform)

/-- Every frame keeps the count of every nonce of every account. -/
theorem nonce_guarantee (network : Network)
    (callee : (Address → Slot → U) → Frame accountSignature → Query → Option (Address × Call))
    (self : Address) (nonce : U) :
    Guarantee (accounts Asset platform network callee) (fun _ _ => True)
      (fun _ world after =>
        NonceStep Asset platform self nonce world.toState after.toState) := by
  apply Ticket.guarantee
  intro stack frame world own
  simp only [accounts, userEntrypoint]
  split
  · rename_i request read
    rw [nonceTicket_demand read, own]
    exact Pending.wp_serve own frame.msg.sender request (Ticket.Pending.initial stack frame)
  · trivial

/-- In every run, with any calls back, an item with a given nonce takes effect on an account at
most once. The nonce goes from zero to one exactly then and never back. -/
theorem nonces_used_once (network : Network)
    (callee : (Address → Slot → U) → Frame accountSignature → Query → Option (Address × Call))
    (self : Address) (nonce : U) (acts : List (Act accountSignature))
    (stack : List (Frame accountSignature)) (readonly : Bool) (world : World accountSignature) :
    let after := Act.runAll (accounts Asset platform network callee) acts stack readonly world
    let effects := uses Asset platform self nonce
    let slot : Slot := .timestamps nonce
    effects after.log ≤ effects world.log + 1 ∧
      (effects after.log = effects world.log + 1 ↔
        world.store self slot = U.zero ∧ after.store self slot = U.one) ∧
      (effects after.log = effects world.log ↔ after.store self slot = world.store self slot) ∧
      (world.store self slot = U.one → after.store self slot = U.one) ∧
      ∀ (solve : Bytes 16) (statement : Bytes 6),
        U.ofBytes solve = U.ofBytes statement ↔ solve.toNat = statement.toNat := by
  intro after effects slot
  have step : NonceStep Asset platform self nonce world.toState after.toState :=
    (nonce_guarantee Asset platform network callee self nonce).runAll acts
      fun _ _ _ => trivial
  refine ⟨step.uses_le, step.uses_eq_succ_iff, step.uses_eq_iff, step.taken, ?_⟩
  intro solve statement
  rw [← U.toNat_ofBytes solve (by omega), ← U.toNat_ofBytes statement (by omega)]
  exact Bytes.toNat_injective.eq_iff.symm

end Runs

end SuperpositionAccounts
