import Mathlib.Algebra.BigOperators.Group.Finset.Basic
import Mathlib.Algebra.Order.BigOperators.Group.Finset
import SuperpositionAccounts.Account.Nonces
import SuperpositionAccounts.Account.Success

/-!
# Gas of `SolveV3`

`SolveV3` takes gas before it looks at any item and has no nonce of its own. The
items do have nonces, so a request with at least one item pays once at most: a
call that pays and is not reverted has also used the nonce of that item. A
request without items pays as often as it is submitted.
-/

namespace SuperpositionAccounts

open CallTree

section Counting

variable (Asset : Type) [AssetRegistry Asset] (platform : Platform)

/-- The request for gas a frame carries. -/
def gasRequest (frame : Frame accountSignature) : Option (SolveV3Args Asset) :=
  match requestOf Asset platform frame with
  | .ok (.args (.solveV3 args _)) => some args
  | _ => none

/-- The request an event charges gas for on an account. -/
def chargedArgs (self : Address) (event : Event accountSignature) : Option (SolveV3Args Asset) :=
  match event.action with
  | .noted (.charged _ _ _) =>
      if event.frame.self = self then gasRequest Asset platform event.frame else none
  | _ => none

/-- How often gas was charged for a request. -/
def charges (self : Address) (args : SolveV3Args Asset)
    (log : List (Event accountSignature)) : ℕ :=
  log.countP fun event => chargedArgs Asset platform self event = some args

/-- The gas an event takes in a token. -/
def eventGas (self token : Address) (event : Event accountSignature) : ℕ :=
  match event.action with
  | .noted (.charged paid _ amount) =>
      if event.frame.self = self ∧ paid = token then amount.toNat else 0
  | _ => 0

/-- All gas taken in a token. -/
def gasTaken (self token : Address) (log : List (Event accountSignature)) : ℕ :=
  (log.map (eventGas self token)).sum

/-- The gas a request asks for in a token. -/
def gasDue {Asset : Type} [AssetRegistry Asset] (network : Network) (token : Address)
    (args : SolveV3Args Asset) : ℕ :=
  if AssetRegistry.addr args.gasToken network = some token then args.gasTokenAmt.toNat else 0

/-- The request for gas that an event completes on an account. -/
def completedArgs (self : Address) (event : Event accountSignature) :
    Option (SolveV3Args Asset) :=
  match event.action with
  | .completed _ => if event.frame.self = self then gasRequest Asset platform event.frame else none
  | _ => none

/-- How often a request was submitted with success. -/
def completions (self : Address) (args : SolveV3Args Asset)
    (log : List (Event accountSignature)) : ℕ :=
  log.countP fun event => completedArgs Asset platform self event = some args

/-- How often a frame charges for a request, if it completes. -/
def gasDemand (self : Address) (args : SolveV3Args Asset) (frame : Frame accountSignature) : ℕ :=
  if frame.self = self ∧ gasRequest Asset platform frame = some args then 1 else 0

/-- A charge is for the request that the frame carries, in its token and its amount, and directly
after the token has granted the transfer to the clearinghouse. -/
def PaidCharge (network : Network) (event : Event accountSignature)
    (older : List (Event accountSignature)) : Prop :=
  ∀ token owner amount, event.action = .noted (.charged token owner amount) →
    ∃ args, gasRequest Asset platform event.frame = some args ∧
      AssetRegistry.addr args.gasToken network = some token ∧ amount = args.gasTokenAmt ∧
      ∃ reply : Reply, reply.ok = true ∧
        older.head? = some ⟨event.stack, event.frame,
          .asked (.transferFrom token owner (Bytes.ofNat 20 0) (U.ofUInt64 amount)) reply,
          event.store⟩

def PaidCharges (network : Network) : List (Event accountSignature) → Prop
  | [] => True
  | event :: older => PaidCharge Asset platform network event older ∧ PaidCharges network older

/-- The charges of a request keep up with its completions, but for those a frame is ahead, and each
was paid. -/
structure GasAhead (network : Network) (account : Address) (args : SolveV3Args Asset)
    (before : State accountSignature) (ahead : ℕ) (after : State accountSignature) : Prop where
  counted : charges Asset platform account args after.log +
      completions Asset platform account args before.log =
    charges Asset platform account args before.log +
      completions Asset platform account args after.log + ahead
  paid : PaidCharges Asset platform network before.log →
    PaidCharges Asset platform network after.log

end Counting

section Charging

variable {Asset : Type} [AssetRegistry Asset] {platform : Platform} {network : Network}
  {self : Address} {args : SolveV3Args Asset}

@[simp]
theorem charges_cons (event : Event accountSignature) (log : List (Event accountSignature)) :
    charges Asset platform self args (event :: log) =
      charges Asset platform self args log +
        if chargedArgs Asset platform self event = some args then 1 else 0 := by
  simp [charges, List.countP_cons]

@[simp]
theorem completions_cons (event : Event accountSignature)
    (log : List (Event accountSignature)) :
    completions Asset platform self args (event :: log) =
      completions Asset platform self args log +
        if completedArgs Asset platform self event = some args then 1 else 0 := by
  simp [completions, List.countP_cons]

theorem chargedArgs_charged_iff {stack : List (Frame accountSignature)}
    {frame : Frame accountSignature} {token owner : Address} {amount : UInt64}
    {store : Address → Slot → U} :
    chargedArgs Asset platform self
        ⟨stack, frame, .noted (.charged token owner amount), store⟩ = some args ↔
      frame.self = self ∧ gasRequest Asset platform frame = some args := by
  simp [chargedArgs]

theorem completedArgs_completed_iff {stack : List (Frame accountSignature)}
    {frame : Frame accountSignature} {output : List UInt8} {store : Address → Slot → U} :
    completedArgs Asset platform self ⟨stack, frame, .completed output, store⟩ = some args ↔
      frame.self = self ∧ gasRequest Asset platform frame = some args := by
  simp [completedArgs]

/-! ### Paid charges -/

theorem paidCharge_of_quiet {event : Event accountSignature} {older : List (Event accountSignature)}
    (quiet : ∀ token owner amount, event.action ≠ .noted (.charged token owner amount)) :
    PaidCharge Asset platform network event older :=
  fun token owner amount charged => absurd charged (quiet token owner amount)

/-- The gas an event takes is asked for by the request that it charges. -/
theorem eventGas_le_sum {token : Address} {signed : Finset (SolveV3Args Asset)}
    {event : Event accountSignature} {older : List (Event accountSignature)}
    (paid : PaidCharge Asset platform network event older)
    (known : ∀ args, chargedArgs Asset platform self event = some args → args ∈ signed) :
    eventGas self token event ≤ ∑ args ∈ signed,
      (if chargedArgs Asset platform self event = some args then 1 else 0) *
        gasDue network token args := by
  rcases event with ⟨stack, frame, action, store⟩
  unfold eventGas
  split
  · rename_i charged owner amount isCharge
    dsimp only at isCharge
    subst isCharge
    split
    · rename_i own
      rcases paid charged owner amount rfl with ⟨args, carried, onNetwork, sameAmount, _⟩
      have charging : chargedArgs Asset platform self
          ⟨stack, frame, .noted (.charged charged owner amount), store⟩ = some args :=
        chargedArgs_charged_iff.mpr ⟨own.1, carried⟩
      have due : gasDue network token args = amount.toNat := by
        rw [gasDue, onNetwork, own.2, if_pos rfl, sameAmount]
      calc amount.toNat
          = (if chargedArgs Asset platform self
              ⟨stack, frame, .noted (.charged charged owner amount), store⟩ = some args
              then 1 else 0) * gasDue network token args := by
            rw [if_pos charging, due, one_mul]
        _ ≤ _ := Finset.single_le_sum
            (f := fun args => (if chargedArgs Asset platform self
              ⟨stack, frame, .noted (.charged charged owner amount), store⟩ = some args
              then 1 else 0) * gasDue network token args)
            (fun _ _ => Nat.zero_le _) (known args charging)
    · exact Nat.zero_le _
  · exact Nat.zero_le _

/-- All gas is asked for by some request, each time it was charged. -/
theorem gasTaken_le_sum {token : Address} {signed : Finset (SolveV3Args Asset)}
    {log : List (Event accountSignature)} (paid : PaidCharges Asset platform network log)
    (known : ∀ event ∈ log, ∀ args, chargedArgs Asset platform self event = some args →
      args ∈ signed) :
    gasTaken self token log ≤
      ∑ args ∈ signed, charges Asset platform self args log * gasDue network token args := by
  induction log with
  | nil => simp [gasTaken]
  | cons event log ih =>
      rcases paid with ⟨paidNow, paidBefore⟩
      have later := ih paidBefore fun other member => known other (List.mem_cons_of_mem _ member)
      have now : eventGas self token event ≤ _ :=
        eventGas_le_sum paidNow (known event List.mem_cons_self)
      calc gasTaken self token (event :: log)
          = eventGas self token event + gasTaken self token log := by simp [gasTaken]
        _ ≤ _ := Nat.add_le_add now later
        _ = ∑ args ∈ signed, charges Asset platform self args (event :: log) *
              gasDue network token args := by
            rw [← Finset.sum_add_distrib]
            apply Finset.sum_congr rfl
            intro args _
            rw [charges_cons]
            ring

/-! ### What `SolveV3` does -/

/-- `SolveV3` pays once, between two parts that leave the charges alone. -/
theorem wp_entrySolveV3 {rely : World accountSignature → World accountSignature → Prop}
    {stack : List (Frame accountSignature)} {frame : Frame accountSignature} {imm : Imm} {sig : Sig}
    {unpaid charged : World accountSignature → Prop}
    (before : Survives rely stack frame (fun _ => True)
      (fun mark : Mark => ∃ operation, mark = .started operation) unpaid)
    (later : Survives rely stack frame (fun _ => True)
      (fun mark : Mark => ∃ operation, mark = .started operation) charged)
    (pays : ∀ (world : World accountSignature) token owner (reply : Reply),
      AssetRegistry.addr args.gasToken imm.network = some token → reply.ok = true →
      unpaid world → charged ((world.record stack frame
          (.asked (.transferFrom token owner imm.clearinghouse (U.ofUInt64 args.gasTokenAmt))
            reply)).record stack frame (.noted (.charged token owner args.gasTokenAmt))))
    {world : World accountSignature} (initially : unpaid world) :
    (entrySolveV3 platform imm self args sig).wp rely stack frame (fun _ => True)
      (fun _ after => charged after) world := by
  simp only [entrySolveV3, Prog.wp_bind, wp_load]
  apply Prog.wp_mono _ ((assertSigned_within _ _ _).wp before (fun _ => trivial) initially)
  intro _ world kept
  cases onNetwork : AssetRegistry.addr args.gasToken imm.network with
  | none =>
      rw [tokenAddr, onNetwork]
      trivial
  | some token =>
      rw [tokenAddr, onNetwork]
      apply Prog.wp_mono _ ((useGasPermit_within _ _ _ _).wp before (fun _ => trivial) kept)
      intro _ world kept
      simp only [callOrRevert, Prog.wp_bind, wp_ask]
      refine ⟨trivial, ?_⟩
      intro after reply moved
      rw [Prog.wp_require]
      split
      · rename_i granted
        rw [Prog.wp_mark]
        apply (entrySolve_within fun _ _ => trivial).wp later (fun _ => trivial)
        exact pays after token _ reply onNetwork granted (before.others moved kept)
      · trivial

/-! ### A charge for each completion -/

theorem GasAhead.refl (state : State accountSignature) :
    GasAhead Asset platform network self args state 0 state :=
  ⟨rfl, id⟩

theorem GasAhead.trans {before middle after : State accountSignature} {first second : ℕ}
    (earlier : GasAhead Asset platform network self args before first middle)
    (later : GasAhead Asset platform network self args middle second after) :
    GasAhead Asset platform network self args before (first + second) after := by
  refine ⟨?_, fun paid => later.paid (earlier.paid paid)⟩
  have firstCount := earlier.counted
  have secondCount := later.counted
  omega

/-- An event that neither charges nor completes a request. -/
theorem GasAhead.record {before : State accountSignature} {ahead : ℕ}
    {world : World accountSignature}
    (kept : GasAhead Asset platform network self args before ahead world.toState)
    (stack : List (Frame accountSignature)) (frame : Frame accountSignature)
    {action : Action accountSignature}
    (uncharged : ∀ token owner amount, action ≠ .noted (.charged token owner amount))
    (incomplete : ∀ output, action ≠ .completed output) :
    GasAhead Asset platform network self args before ahead
      (world.record stack frame action).toState := by
  refine ⟨?_, fun paid => ⟨paidCharge_of_quiet uncharged, kept.paid paid⟩⟩
  have noCharge : chargedArgs Asset platform self ⟨stack, frame, action, world.store⟩ ≠
      some args := by
    unfold chargedArgs
    split
    · rename_i token owner amount charged
      exact absurd charged (uncharged token owner amount)
    · simp
  have noCompletion : completedArgs Asset platform self ⟨stack, frame, action, world.store⟩ ≠
      some args := by
    unfold completedArgs
    split
    · rename_i output completed
      exact absurd completed (incomplete output)
    · simp
  rw [World.record_log, charges_cons, completions_cons, if_neg noCharge, if_neg noCompletion]
  exact kept.counted

theorem GasAhead.survives {stack : List (Frame accountSignature)}
    {frame : Frame accountSignature} {before : State accountSignature} {ahead : ℕ}
    {markable : Mark → Prop}
    (uncharged : ∀ token owner amount, ¬markable (.charged token owner amount)) :
    Survives
      (fun world after =>
        GasAhead Asset platform network self args world.toState 0 after.toState) stack frame
      (fun _ => True) markable
      (fun world => GasAhead Asset platform network self args before ahead world.toState) where
  others moved kept := kept.trans moved
  asked query reply kept := kept.record stack frame (by rintro _ _ _ ⟨⟩) (by rintro _ ⟨⟩)
  noted mark canMark kept := by
    refine kept.record stack frame ?_ (by rintro _ ⟨⟩)
    rintro token owner amount ⟨⟩
    exact uncharged token owner amount canMark
  written slot word _ kept := ⟨kept.counted, kept.paid⟩

theorem gasRequest_eq_some {frame : Frame accountSignature}
    (carries : gasRequest Asset platform frame = some args) :
    ∃ sig, requestOf Asset platform frame = .ok (.args (.solveV3 args sig)) := by
  unfold gasRequest at carries
  split at carries
  · rename_i gasArgs sig read
    cases carries
    exact ⟨sig, read⟩
  · cases carries

/-- The charge of a frame that carries a request. -/
theorem GasAhead.charge {stack : List (Frame accountSignature)} {frame : Frame accountSignature}
    {before : State accountSignature} {world : World accountSignature}
    {carried : SolveV3Args Asset} {token owner : Address} {reply : Reply}
    (kept : GasAhead Asset platform network self args before 0 world.toState)
    (carries : gasRequest Asset platform frame = some carried)
    (onNetwork : AssetRegistry.addr carried.gasToken network = some token)
    (granted : reply.ok = true) :
    GasAhead Asset platform network self args before (gasDemand Asset platform self args frame)
      ((world.record stack frame (.asked (.transferFrom token owner (Bytes.ofNat 20 0)
          (U.ofUInt64 carried.gasTokenAmt)) reply)).record stack frame
        (.noted (.charged token owner carried.gasTokenAmt))).toState := by
  have asked : GasAhead Asset platform network self args before 0
      (world.record stack frame (.asked (.transferFrom token owner (Bytes.ofNat 20 0)
        (U.ofUInt64 carried.gasTokenAmt)) reply)).toState :=
    kept.record stack frame (by rintro _ _ _ ⟨⟩) (by rintro _ ⟨⟩)
  constructor
  · have counted := asked.counted
    have incomplete (store : Address → Slot → U) : completedArgs Asset platform self
        ⟨stack, frame, .noted (.charged token owner carried.gasTokenAmt), store⟩ ≠ some args := by
      simp [completedArgs]
    rw [World.record_log, charges_cons, completions_cons, if_neg (incomplete _)]
    simp only [chargedArgs_charged_iff, gasDemand]
    omega
  · intro paid
    refine ⟨?_, asked.paid paid⟩
    rintro _ _ _ ⟨⟩
    exact ⟨carried, carries, onNetwork, rfl, reply, granted, rfl⟩

/-- A frame that completes has charged what it was to charge. -/
theorem GasAhead.completed {stack : List (Frame accountSignature)}
    {frame : Frame accountSignature} {before : State accountSignature}
    {world : World accountSignature} (output : List UInt8)
    (kept : GasAhead Asset platform network self args before
      (gasDemand Asset platform self args frame) world.toState) :
    GasAhead Asset platform network self args before 0
      (world.record stack frame (.completed output)).toState := by
  refine ⟨?_, fun paid => ⟨paidCharge_of_quiet (by rintro _ _ _ ⟨⟩), kept.paid paid⟩⟩
  have counted := kept.counted
  have uncharged : chargedArgs Asset platform self
      ⟨stack, frame, .completed output, world.store⟩ ≠ some args := by
    simp [chargedArgs]
  rw [World.record_log, charges_cons, completions_cons, if_neg uncharged]
  simp only [completedArgs_completed_iff]
  unfold gasDemand at counted
  omega

/-- A frame that carries no request for gas charges nothing. -/
theorem userEntrypoint_uncharged {frame : Frame accountSignature}
    (carries : gasRequest Asset platform frame = none) :
    (userEntrypoint Asset platform network frame.self frame.msg).Within (fun _ => True)
      fun mark : Mark => ∀ token owner amount, mark ≠ .charged token owner amount := by
  apply userEntrypoint_cases
  · intro message
    exact Prog.within_throw _
  · intro request read
    cases request with
    | beacon => exact readSlot_within _
    | migrate edKey evmOwner implAddr authorityAddr =>
        exact entryMigrate_within _ _ _ _ _ fun _ _ => trivial
    | args args =>
        apply entry_within args trivial (fun _ _ => trivial)
        · rintro operation _ token owner amount ⟨⟩
        · intro gasArgs sig token owner isGas onNetwork
          simp [gasRequest, requestOf, read, isGas] at carries

theorem gas_guarantee (network : Network)
    (callee : (Address → Slot → U) → Frame accountSignature → Query → Option (Address × Call))
    (self : Address) (args : SolveV3Args Asset) :
    Guarantee (accounts Asset platform network callee) (fun _ _ => True)
      (fun _ world after =>
        GasAhead Asset platform network self args world.toState 0 after.toState) := by
  apply Guarantee.ofState fun _ before after =>
    GasAhead Asset platform network self args before 0 after
  · exact fun _ => GasAhead.refl
  · exact fun first second => first.trans second
  · intro stack frame world _
    have entered : GasAhead Asset platform network self args world.toState 0
        (world.record stack frame .entered).toState :=
      (GasAhead.refl _).record stack frame (by rintro _ _ _ ⟨⟩) (by rintro _ ⟨⟩)
    cases carries : gasRequest Asset platform frame with
    | none =>
        have free : gasDemand Asset platform self args frame = 0 := by
          simp [gasDemand, carries]
        rw [← free] at entered
        apply Prog.wp_mono _ ((userEntrypoint_uncharged carries).wp (GasAhead.survives
          fun token owner amount marked => marked token owner amount rfl) (fun _ => trivial)
          entered)
        exact fun output after kept => kept.completed output
    | some carried =>
        rcases gasRequest_eq_some carries with ⟨sig, read⟩
        have served : (accounts Asset platform network callee).program frame.self frame.msg =
            entry platform ⟨network, Bytes.ofNat 20 0⟩ frame.self (.solveV3 carried sig) :=
          userEntrypoint_of_read read
        rw [served, entry, Prog.wp_bind, Prog.wp_mark]
        have quiet (ahead : ℕ) : Survives (fun world after =>
            GasAhead Asset platform network self args world.toState 0 after.toState) stack frame
            (fun _ => True) (fun mark : Mark => ∃ operation, mark = .started operation)
            (fun after => GasAhead Asset platform network self args world.toState ahead
              after.toState) :=
          GasAhead.survives (by rintro _ _ _ ⟨_, ⟨⟩⟩)
        have started := (quiet 0).noted _ ⟨.solveV3, rfl⟩ entered
        refine Prog.wp_mono ?_ (wp_entrySolveV3 (quiet 0)
          (quiet (gasDemand Asset platform self args frame)) ?_ started)
        · exact fun output after kept => kept.completed output
        · intro world token owner reply onNetwork granted kept
          exact kept.charge carries onNetwork granted

/-- A request without items is charged every time it is submitted. -/
theorem charge_again {network : Network} {sig : Sig} {token : Address}
    (world : World accountSignature) (sender : Address)
    (verified : platform.precompiles.edphverifyPre (Borsh.toVec args)
      (world.store self (.ed25519Slot U.zero)) sig = true)
    (present : AssetRegistry.addr args.gasToken network = some token)
    (permitMatches : ∀ permit ∈ args.gasTokenPermit, args.gasToken = permit.asset)
    (noItems : args.args.toList = []) :
    ∃ act after,
      Act.run (accounts Asset platform network fun _ _ _ => none) act [] false world = after ∧
        after.store = world.store ∧ charges Asset platform self args after.log =
          charges Asset platform self args world.log + 1 := by
  let system := accounts Asset platform network fun _ _ _ => none
  let call : Call := ⟨sender, Borsh.toVec (Args.solveV3 args sig)⟩
  let frame : Frame accountSignature := ⟨self, call, false⟩
  have read : requestOf Asset platform frame = .ok (.args (.solveV3 args sig)) :=
    readRequest_toVec platform _
  have carries : gasRequest Asset platform frame = some args := by
    simp [gasRequest, read]
  let unchanged (after : World accountSignature) : Prop :=
    after.store = world.store ∧ charges Asset platform self args after.log =
      charges Asset platform self args world.log
  have possible : (system.program frame.self frame.msg).can system [] frame
      (fun _ after => after.store = world.store ∧ charges Asset platform self args after.log =
        charges Asset platform self args world.log + 1) (world.record [] frame .entered) := by
    have served : system.program frame.self frame.msg =
        entry platform ⟨network, Bytes.ofNat 20 0⟩ self (.solveV3 args sig) :=
      userEntrypoint_of_read read
    rw [served, entry, Prog.can_bind, Prog.can_mark]
    refine can_entrySolveV3 unchanged (fun _ _ => rfl) ?_ ?_ present permitMatches ?_ ?_
    · intro after query reply kept
      simpa [unchanged, chargedArgs] using kept
    · exact verified
    · simp [unchanged, chargedArgs]
    · intro owner after kept
      rw [noItems]
      refine ⟨kept.1, ?_⟩
      have charging : chargedArgs Asset platform self
          ⟨[], frame, .noted (.charged token owner args.gasTokenAmt), after.store⟩ = some args :=
        chargedArgs_charged_iff.mpr ⟨rfl, carries⟩
      rw [World.record_log, charges_cons, if_pos charging, kept.2]
  rcases System.enter_of_can possible with ⟨script, output, after, entered, same, charged⟩
  refine ⟨.call self call script, after.record [] frame (.completed output), ?_, same, ?_⟩
  · rw [Act.run]
    exact congrArg Prod.fst entered
  · simpa [chargedArgs] using charged

section Runs

variable (callee : (Address → Slot → U) → Frame accountSignature → Query → Option (Address × Call))
  (store : Address → Slot → U) (acts : List (Act accountSignature))

/-- In a whole run each charge was paid, and there is one for each completion. -/
theorem charges_of_run (self : Address) (args : SolveV3Args Asset) :
    let log := (Act.runAll (accounts Asset platform network callee) acts [] false
      (World.start store)).log
    PaidCharges Asset platform network log ∧
      charges Asset platform self args log = completions Asset platform self args log := by
  intro log
  have kept : GasAhead Asset platform network self args (World.start store).toState 0
      (Act.runAll (accounts Asset platform network callee) acts [] false
        (World.start store)).toState :=
    (gas_guarantee network callee self args).runAll acts fun _ _ _ => trivial
  refine ⟨kept.paid trivial, ?_⟩
  have noCharges : charges Asset platform self args (World.start store).log = 0 := rfl
  have noCompletions : completions Asset platform self args (World.start store).log = 0 := rfl
  have counted : charges Asset platform self args log + _ =
      _ + completions Asset platform self args log + 0 := kept.counted
  omega

/-- A request that completes uses the nonce of each of its items. -/
theorem completions_le_uses {nonce : U}
    (carried : nonce ∈ args.args.toList.map fun item => U.ofBytes item.msTs)
    (log : List (Event accountSignature)) :
    completions Asset platform self args log ≤ uses Asset platform self nonce log := by
  induction log with
  | nil => exact Nat.zero_le _
  | cons event log ih =>
      have now : (if completedArgs Asset platform self event = some args then 1 else 0) ≤
          (nonceTicket Asset platform self nonce).eventUses event := by
        split
        · rename_i completed
          rcases event with ⟨stack, frame, action, moment⟩
          unfold completedArgs at completed
          split at completed
          · rename_i output same
            dsimp only at same
            subst same
            split at completed
            · rename_i own
              rcases gasRequest_eq_some completed with ⟨sig, read⟩
              rw [Ticket.eventUses_completed own, nonceTicket_demand read]
              exact List.count_pos_iff.mpr carried
            · cases completed
          · cases completed
        · exact Nat.zero_le _
      simp only [completions_cons, uses, Ticket.uses_cons] at ih ⊢
      omega

/-- A request with an item is charged once at most. -/
theorem charges_le_one (hasItems : args.args.toList ≠ []) :
    charges Asset platform self args
      (Act.runAll (accounts Asset platform network callee) acts [] false
        (World.start store)).log ≤ 1 := by
  rcases List.exists_mem_of_ne_nil _ hasItems with ⟨item, member⟩
  let after := Act.runAll (accounts Asset platform network callee) acts [] false
    (World.start store)
  have used : NonceStep Asset platform self (U.ofBytes item.msTs)
      (World.start store).toState after.toState :=
    (nonce_guarantee Asset platform network callee self _).runAll acts fun _ _ _ => trivial
  have noUses : uses Asset platform self (U.ofBytes item.msTs) (World.start store).log = 0 := rfl
  calc charges Asset platform self args after.log
      = completions Asset platform self args after.log :=
        (charges_of_run callee store acts self args).2
    _ ≤ uses Asset platform self (U.ofBytes item.msTs) after.log :=
        completions_le_uses (List.mem_map_of_mem member) after.log
    _ ≤ uses Asset platform self (U.ofBytes item.msTs) (World.start store).log + 1 :=
        used.uses_le
    _ = 1 := by rw [noUses]

/-- If only requests with items were charged, the gas taken is at most what they ask for. -/
theorem gasTaken_le_sum_due {token : Address} {signed : Finset (SolveV3Args Asset)}
    (paid : PaidCharges Asset platform network
      (Act.runAll (accounts Asset platform network callee) acts [] false (World.start store)).log)
    (known : ∀ event ∈ (Act.runAll (accounts Asset platform network callee) acts [] false
      (World.start store)).log, ∀ charged, chargedArgs Asset platform self event = some charged →
        charged ∈ signed ∧ charged.args.toList ≠ []) :
    gasTaken self token (Act.runAll (accounts Asset platform network callee) acts [] false
      (World.start store)).log ≤ ∑ charged ∈ signed, gasDue network token charged := by
  refine Nat.le_trans (gasTaken_le_sum paid fun event member charged charging =>
    (known event member charged charging).1) (Finset.sum_le_sum ?_)
  intro charged _
  let log := (Act.runAll (accounts Asset platform network callee) acts [] false
    (World.start store)).log
  by_cases free : charges Asset platform self charged log = 0
  · rw [free, zero_mul]
    exact Nat.zero_le _
  · -- a request that was charged has items, so it was charged once
    rcases List.countP_pos_iff.mp (Nat.pos_of_ne_zero free) with ⟨event, member, charging⟩
    have hasItems := (known event member charged (of_decide_eq_true charging)).2
    calc charges Asset platform self charged log * gasDue network token charged
        ≤ 1 * gasDue network token charged :=
          Nat.mul_le_mul_right _ (charges_le_one callee store acts hasItems)
      _ = gasDue network token charged := one_mul _

end Runs

/-- A signed gas request is charged at most once in every run exactly if it has an item. And in
every run that charges only such requests, the gas taken in a token is at most what the distinct
charged requests ask for. What is counted are transfers that took effect: each charge directly
follows a transfer to the clearinghouse that the token granted, and there is one charge for each
submission that was not reverted. -/
theorem gas_charged_once_iff {key : U} {sig : Sig} {token : Address} (self : Address)
    (args : SolveV3Args Asset)
    (verified : platform.precompiles.edphverifyPre (Borsh.toVec args) key sig = true)
    (present : AssetRegistry.addr args.gasToken network = some token)
    (permitMatches : ∀ permit ∈ args.gasTokenPermit, args.gasToken = permit.asset) :
    ((∀ callee store acts, charges Asset platform self args
        (Act.runAll (accounts Asset platform network callee) acts [] false
          (World.start store)).log ≤ 1) ↔ args.args.toList ≠ []) ∧
      ∀ callee store acts,
        let log := (Act.runAll (accounts Asset platform network callee) acts [] false
          (World.start store)).log
        (∀ (token : Address) (signed : Finset (SolveV3Args Asset)),
          (∀ event ∈ log, ∀ charged, chargedArgs Asset platform self event = some charged →
            charged ∈ signed ∧ charged.args.toList ≠ []) →
          gasTaken self token log ≤ ∑ charged ∈ signed, gasDue network token charged) ∧
        PaidCharges Asset platform network log ∧
        ∀ request, charges Asset platform self request log =
          completions Asset platform self request log := by
  refine ⟨⟨?_, fun hasItems callee store acts => charges_le_one callee store acts hasItems⟩, ?_⟩
  · intro once noItems
    -- charge twice from a storage that holds the key
    let store : Address → Slot → U := fun _ _ => key
    rcases charge_again (World.start store) self verified present permitMatches
      noItems with ⟨first, middle, firstRun, middleStore, firstCharge⟩
    rcases charge_again middle self (by rw [middleStore]; exact verified) present
      permitMatches noItems with ⟨second, last, secondRun, _, secondCharge⟩
    have limit := once (fun _ _ _ => none) store [first, second]
    rw [Act.runAll, Act.runAll, Act.runAll, firstRun, secondRun, secondCharge,
      firstCharge] at limit
    omega
  · intro callee store acts log
    have paid : PaidCharges Asset platform network log :=
      (charges_of_run callee store acts self args).1
    refine ⟨fun token signed known => ?_, paid, fun request =>
      (charges_of_run callee store acts self request).2⟩
    exact gasTaken_le_sum_due callee store acts paid known

end Charging

/-! ### Requests without items and with one -/

namespace EmptyGas

/-- One USDC of gas for no items. -/
def args : SolveV3Args KnownAsset where
  args := Vec.empty
  gasToken := .usdc
  gasTokenAmt := 1000000
  gasTokenPermit := none

def digest : Bytes 64 :=
  Bytes.ofNat 64 0x45d967f21d551b629f916fe571145d03540d8b29929fa48c5772b82d70fbb653d7b5adb2df6cf6f1e8f0ea99400ddeafe584b4d6b67539b47ce6ccf2a2ecaf33

/-- The Ed25519ph signature of the known key over the request. -/
def sig : Sig :=
  Bytes.ofNat 64 0xb368d8c964ff37291bf74b62bf453f49645b1c64fa768ce524390e9cc27b708cd134d44639100f7db44ce10dfc9c32620f85509f2aaa91f34c6ae42a3ea1fa0a

def platform : Platform :=
  oneSignature Go.knownKey (Borsh.toVec args) digest sig

def usdc : Address :=
  Bytes.ofNat 20 0xaf88d065e77c8cc2239327c5edb3a432268e5831

/-- Submit the request; the token answers that the transfer succeeded. -/
def submit : Act accountSignature :=
  .call Known.account ⟨Known.relayer, Borsh.toVec (Args.solveV3 args sig)⟩
    [.answer [] accepted]

/-- The log after two submissions by a relayer. -/
def twice : List (Event accountSignature) :=
  (Act.runAll (accounts KnownAsset platform .arbitrum fun _ _ _ => none) [submit, submit] [] false
    (World.start Known.store)).log

end EmptyGas

namespace ItemGas

/-- One USDC of gas for one item. -/
def args : SolveV3Args KnownAsset :=
  { EmptyGas.args with args := Vec.singleton Known.solve }

def digest : Bytes 64 :=
  Bytes.ofNat 64 0xd93ea41555efd717f96ef0f79ae123a93b24ea0e227f9db7bd377552e4597492972524330e31a144b2919df4d0845eb28d5292d533b97fb85f0c08362055e422

/-- The Ed25519ph signature of the known key over the request. -/
def sig : Sig :=
  Bytes.ofNat 64 0x76523ac98624b9c39737007aa18380301ac0e6ceee312861d800a542382647144a7aa4e46650a7a48e4ee4704b7fd3c4d41badf35d45aff0be632a6f5019a902

def platform : Platform :=
  oneSignature Go.knownKey (Borsh.toVec args) digest sig

end ItemGas

theorem gas_charged_once_known :
    (∀ callee store acts, charges KnownAsset ItemGas.platform Known.account ItemGas.args
      (Act.runAll (accounts KnownAsset ItemGas.platform .arbitrum callee) acts [] false
        (World.start store)).log ≤ 1) ∧
    ¬∀ callee store acts, charges KnownAsset EmptyGas.platform Known.account EmptyGas.args
      (Act.runAll (accounts KnownAsset EmptyGas.platform .arbitrum callee) acts [] false
        (World.start store)).log ≤ 1 := by
  have present : AssetRegistry.addr KnownAsset.usdc .arbitrum = some EmptyGas.usdc := rfl
  constructor
  · have verified : ItemGas.platform.precompiles.edphverifyPre (Borsh.toVec ItemGas.args)
        Go.knownKey ItemGas.sig = true := by
      decide +kernel
    exact (gas_charged_once_iff Known.account ItemGas.args verified present
      (fun _ used => nomatch used)).1.mpr (List.cons_ne_nil _ _)
  · intro once
    have verified : EmptyGas.platform.precompiles.edphverifyPre (Borsh.toVec EmptyGas.args)
        Go.knownKey EmptyGas.sig = true := by
      decide +kernel
    exact (gas_charged_once_iff Known.account EmptyGas.args verified present
      (fun _ used => nomatch used)).1.mp once rfl

/-- One signature over one USDC of gas, submitted twice, takes two USDC. -/
theorem empty_gas_request_charged_twice :
    charges KnownAsset EmptyGas.platform Known.account EmptyGas.args EmptyGas.twice = 2 ∧
      gasTaken Known.account EmptyGas.usdc EmptyGas.twice =
        2 * EmptyGas.args.gasTokenAmt.toNat := by
  decide +kernel

end SuperpositionAccounts
