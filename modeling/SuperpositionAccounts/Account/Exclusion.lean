import SuperpositionAccounts.Account.Gas

/-!
# Mutual exclusion of fund-moving operations

`Solve`, `SolveV2` and `TransferOnly` run under the lock of the reentrancy
guard; `SolveV3` neither takes nor tests it. While a guarded frame waits its lock
is held, and every frame leaves the locks as it found them. So two bodies can
only overlap on an account if one of them is a `SolveV3`.
-/

namespace SuperpositionAccounts

open CallTree

section Definitions

variable (Asset : Type) [AssetRegistry Asset] (platform : Platform)

/-- The fund-moving operation a frame carries. -/
def frameOperation (frame : Frame accountSignature) : Option Operation :=
  match requestOf Asset platform frame with
  | .ok (.args args) => args.operation
  | _ => none

/-- A body starts, or a fund-moving operation completes. -/
def bodyRuns (event : Event accountSignature) : Bool :=
  match event.action with
  | .noted (.started _) => true
  | .completed _ => (frameOperation Asset platform event.frame).isSome
  | _ => false

/-- A body that runs finds no other body active on its account. A frame makes calls from inside its
body only, so the active bodies are those of the frames that wait. -/
def Exclusive (event : Event accountSignature) : Prop :=
  bodyRuns Asset platform event → ∀ outer ∈ event.stack, outer.self = event.frame.self →
    frameOperation Asset platform outer = none

/-- A frame whose body runs under the lock. -/
def Guarded (frame : Frame accountSignature) : Prop :=
  ∃ operation, frameOperation Asset platform frame = some operation ∧ operation ≠ .solveV3

/-- A call is not a fund-moving operation inside another one of the same account, if one of the two
is a `SolveV3`. -/
def ApartFromV3 (stack : List (Frame accountSignature)) (frame : Frame accountSignature) : Prop :=
  ∀ outer ∈ stack, outer.self = frame.self →
    (frameOperation Asset platform outer).isSome →
    (frameOperation Asset platform frame).isSome →
    frameOperation Asset platform outer ≠ some .solveV3 ∧
      frameOperation Asset platform frame ≠ some .solveV3

/-- The guarded frames that wait hold their locks. -/
def LocksHeld (stack : List (Frame accountSignature)) (world : World accountSignature) : Prop :=
  ∀ outer ∈ stack, Guarded Asset platform outer → world.store outer.self .reentrancy ≠ U.zero

/-- No frame of the same account waits inside a body. -/
def Alone (stack : List (Frame accountSignature)) (frame : Frame accountSignature)
    (start : World accountSignature) : Prop :=
  LocksHeld Asset platform stack start →
    ∀ outer ∈ stack, outer.self = frame.self → frameOperation Asset platform outer = none

/-- What a complete frame does to the locks, and what bodies it started. -/
def LockStep (stack : List (Frame accountSignature)) (world after : World accountSignature) :
    Prop :=
  (∀ account, after.store account .reentrancy = world.store account .reentrancy) ∧
    (LocksHeld Asset platform stack world →
      ∀ event ∈ after.trace, event ∈ world.trace ∨ Exclusive Asset platform event)

/-- The locks and bodies inside a frame whose own lock has a given value. -/
structure LockInside (stack : List (Frame accountSignature)) (frame : Frame accountSignature)
    (start : World accountSignature) (lock : U) (world : World accountSignature) : Prop where
  own : world.store frame.self .reentrancy = lock
  others : ∀ account, account ≠ frame.self →
    world.store account .reentrancy = start.store account .reentrancy
  bodies : LocksHeld Asset platform stack start →
    ∀ event ∈ world.trace, event ∈ start.trace ∨ Exclusive Asset platform event

instance (event : Event accountSignature) : Decidable (Exclusive Asset platform event) :=
  inferInstanceAs (Decidable (_ → _))

instance (stack : List (Frame accountSignature)) (frame : Frame accountSignature) :
    Decidable (ApartFromV3 Asset platform stack frame) :=
  inferInstanceAs (Decidable (∀ outer ∈ stack, _))

end Definitions

variable {Asset : Type} [AssetRegistry Asset] {platform : Platform}
  {stack : List (Frame accountSignature)} {frame : Frame accountSignature}
  {start : World accountSignature} {lock : U}

theorem exclusive_of_quiet {action : Action accountSignature} {store : Address → Slot → U}
    (quiet : bodyRuns Asset platform ⟨stack, frame, action, store⟩ = false) :
    Exclusive Asset platform ⟨stack, frame, action, store⟩ := by
  intro runs
  rw [quiet] at runs
  cases runs

theorem LockInside.record {world : World accountSignature} {action : Action accountSignature}
    (inside : LockInside Asset platform stack frame start lock world)
    (exclusive : LocksHeld Asset platform stack start →
      Exclusive Asset platform ⟨stack, frame, action, world.store⟩) :
    LockInside Asset platform stack frame start lock (world.record stack frame action) where
  own := inside.own
  others := inside.others
  bodies held event member := by
    rcases List.mem_cons.mp member with rfl | member
    · exact Or.inr (exclusive held)
    · exact inside.bodies held event member

theorem LockInside.survives (stack : List (Frame accountSignature))
    (start : World accountSignature)
    (ownLock : lock = start.store frame.self .reentrancy ∨ lock = U.one)
    (guardHeld : Guarded Asset platform frame → lock ≠ U.zero) :
    Survives (LockStep Asset platform (frame :: stack)) stack frame
      (fun slot : Slot => slot ≠ .reentrancy)
      (fun mark : Mark => ∀ operation, mark = .started operation →
        Alone Asset platform stack frame start)
      (LockInside Asset platform stack frame start lock) where
  others := by
    intro world after moved inside
    refine ⟨(moved.1 _).trans inside.own, ?_, ?_⟩
    · intro account other
      exact (moved.1 account).trans (inside.others account other)
    · intro held event member
      -- the frames that wait for this one still hold their locks
      have stillHeld : LocksHeld Asset platform (frame :: stack) world := by
        intro outer outerMem guarded
        rcases List.mem_cons.mp outerMem with rfl | outerMem
        · rw [inside.own]
          exact guardHeld guarded
        · have before := held outer outerMem guarded
          by_cases same : outer.self = frame.self
          · rw [same] at before ⊢
            rw [inside.own]
            rcases ownLock with unchanged | taken
            · rw [unchanged]
              exact before
            · rw [taken]
              exact U.one_ne_zero
          · rw [inside.others _ same]
            exact before
      rcases moved.2 stillHeld event member with earlier | exclusive
      · exact inside.bodies held event earlier
      · exact Or.inr exclusive
  asked query reply inside := by
    apply inside.record
    intro _
    exact exclusive_of_quiet rfl
  noted mark canMark inside := by
    apply inside.record
    intro held starts
    cases mark with
    | started operation => exact canMark operation rfl held
    | charged token owner amount => cases starts
  written slot word notLock inside := by
    refine ⟨?_, ?_, inside.bodies⟩
    · rw [store_write_of_ne _ _ (Or.inr (Ne.symm notLock))]
      exact inside.own
    · intro account other
      rw [store_write_of_ne _ _ (Or.inl other)]
      exact inside.others account other

theorem LockInside.abort {world : World accountSignature}
    (inside : LockInside Asset platform stack frame start lock world) :
    LockStep Asset platform stack start (world.revertTo start) :=
  ⟨fun _ => rfl, inside.bodies⟩

theorem LockInside.complete {world : World accountSignature} {output : List UInt8}
    (inside : LockInside Asset platform stack frame start
      (start.store frame.self .reentrancy) world)
    (alone : (frameOperation Asset platform frame).isSome →
      Alone Asset platform stack frame start) :
    LockStep Asset platform stack start (world.record stack frame (.completed output)) := by
  constructor
  · intro account
    by_cases same : account = frame.self
    · rw [same]
      exact inside.own
    · exact inside.others account same
  · apply (inside.record _).bodies
    intro held carries
    exact alone carries held

theorem LockInside.initial (frame : Frame accountSignature) :
    LockInside Asset platform stack frame start (start.store frame.self .reentrancy)
      (start.record stack frame .entered) := by
  have same : LockInside Asset platform stack frame start (start.store frame.self .reentrancy)
      start := ⟨rfl, fun _ _ => rfl, fun _ _ member => Or.inl member⟩
  apply same.record
  intro _
  exact exclusive_of_quiet rfl

/-- A frame that takes the lock found no guarded frame of its account waiting. -/
theorem alone_of_apart (apart : ApartFromV3 Asset platform stack frame)
    (entered : Guarded Asset platform frame → start.store frame.self .reentrancy = U.zero)
    (carries : (frameOperation Asset platform frame).isSome) :
    Alone Asset platform stack frame start := by
  intro held outer outerMem sameAccount
  by_contra other
  have outerSome : (frameOperation Asset platform outer).isSome :=
    Option.isSome_iff_ne_none.mpr other
  rcases apart outer outerMem sameAccount outerSome carries with ⟨outerNotV3, notV3⟩
  rcases Option.isSome_iff_exists.mp outerSome with ⟨outerOperation, outerCarries⟩
  rcases Option.isSome_iff_exists.mp carries with ⟨operation, isOperation⟩
  have outerGuarded : Guarded Asset platform outer := by
    refine ⟨outerOperation, outerCarries, ?_⟩
    rintro rfl
    exact outerNotV3 outerCarries
  have guarded : Guarded Asset platform frame := by
    refine ⟨operation, isOperation, ?_⟩
    rintro rfl
    exact notV3 isOperation
  have locked := held outer outerMem outerGuarded
  rw [sameAccount, entered guarded] at locked
  exact locked rfl

theorem wp_guarded {body : Contract (List UInt8)}
    (apart : ApartFromV3 Asset platform stack frame)
    (within : body.Within (fun slot : Slot => slot ≠ .reentrancy)
      (fun mark : Mark => ∀ operation, mark = .started operation →
        (frameOperation Asset platform frame).isSome)) :
    (reentrancyGuard body).wp (LockStep Asset platform (frame :: stack)) stack frame
      (fun after => LockStep Asset platform stack start (after.revertTo start))
      (fun output after =>
        LockStep Asset platform stack start (after.record stack frame (.completed output)))
      (start.record stack frame .entered) := by
  have initial : LockInside Asset platform stack frame start
      (start.store frame.self .reentrancy) (start.record stack frame .entered) :=
    LockInside.initial frame
  simp only [reentrancyGuard, Prog.wp_bind, wp_load, Prog.wp_require, Prog.wp_sstore,
    decide_eq_true_eq]
  split
  · rename_i free
    change start.store frame.self .reentrancy = U.zero at free
    refine ⟨initial.abort, ?_⟩
    have locked : LockInside Asset platform stack frame start U.one
        ((start.record stack frame .entered).write frame.self .reentrancy U.one) := by
      refine ⟨World.write_store_self _ _ _ _, ?_, initial.bodies⟩
      intro account other
      rw [store_write_of_ne _ _ (Or.inl other)]
      exact initial.others account other
    have alone := alone_of_apart apart fun _ => free
    have survives := LockInside.survives stack start (Or.inr rfl)
      fun _ : Guarded Asset platform frame => U.one_ne_zero
    have bodyWithin := within.mono (fun _ notLock => notLock) fun mark starts operation same =>
      alone (starts operation same)
    apply Prog.wp_mono _ (bodyWithin.wp survives LockInside.abort locked)
    intro output after inside
    refine ⟨inside.abort, ?_⟩
    refine LockInside.complete ⟨?_, ?_, inside.bodies⟩ alone
    · rw [free]
      exact World.write_store_self _ _ _ _
    · intro account other
      rw [store_write_of_ne _ _ (Or.inl other)]
      exact inside.others account other
  · exact initial.abort

theorem wp_unguarded {program : Contract (List UInt8)}
    (apart : ApartFromV3 Asset platform stack frame) (unguarded : ¬Guarded Asset platform frame)
    (within : program.Within (fun slot : Slot => slot ≠ .reentrancy)
      (fun mark : Mark => ∀ operation, mark = .started operation →
        (frameOperation Asset platform frame).isSome)) :
    program.wp (LockStep Asset platform (frame :: stack)) stack frame
      (fun after => LockStep Asset platform stack start (after.revertTo start))
      (fun output after =>
        LockStep Asset platform stack start (after.record stack frame (.completed output)))
      (start.record stack frame .entered) := by
  have alone : _ → Alone Asset platform stack frame start :=
    alone_of_apart apart fun guarded => absurd guarded unguarded
  have survives := LockInside.survives stack start (Or.inl rfl)
    fun guarded : Guarded Asset platform frame => absurd guarded unguarded
  have bodyWithin := within.mono (fun _ notLock => notLock) fun mark starts operation same =>
    alone (starts operation same)
  apply Prog.wp_mono _ (bodyWithin.wp survives LockInside.abort (LockInside.initial frame))
  intro output after inside
  exact inside.complete alone

theorem lock_guarantee (network : Network)
    (callee : (Address → Slot → U) → Frame accountSignature → Query → Option (Address × Call)) :
    Guarantee (accounts Asset platform network callee) (ApartFromV3 Asset platform)
      (LockStep Asset platform) where
  refl stack world := ⟨fun _ => rfl, fun _ _ member => Or.inl member⟩
  trans := by
    intro stack world middle after first second
    refine ⟨fun account => (second.1 account).trans (first.1 account), ?_⟩
    intro held event member
    have stillHeld : LocksHeld Asset platform stack middle := by
      intro outer outerMem guarded
      rw [first.1]
      exact held outer outerMem guarded
    rcases second.2 stillHeld event member with earlier | exclusive
    · exact first.2 held event earlier
    · exact Or.inr exclusive
  revert moved := ⟨fun _ => rfl, moved.2⟩
  frame := by
    intro stack frame start apart
    change (userEntrypoint Asset platform network frame.self frame.msg).wp _ _ _ _ _ _
    unfold userEntrypoint
    cases read : (readRequest platform frame.msg.calldata : Except String (Request Asset)) with
    | error message => exact (LockInside.initial frame).abort
    | ok request =>
        have notGuarded (noOperation : frameOperation Asset platform frame = none) :
            ¬Guarded Asset platform frame := by
          rintro ⟨operation, carries, _⟩
          rw [noOperation] at carries
          cases carries
        cases request with
        | beacon =>
            apply wp_unguarded apart (notGuarded (by simp [frameOperation, requestOf, read]))
            exact readSlot_within _
        | migrate edKey evmOwner implAddr authorityAddr =>
            apply wp_unguarded apart (notGuarded (by simp [frameOperation, requestOf, read]))
            apply entryMigrate_within
            rintro slot isSet rfl
            cases isSet
        | args args =>
            have carried : frameOperation Asset platform frame = args.operation := by
              simp [frameOperation, requestOf, read]
            have noNonceLock : ∀ nonce ∈ args.nonces,
                (Slot.timestamps nonce) ≠ .reentrancy := by
              intro nonce _ same
              cases same
            by_cases guarded : Guarded Asset platform frame
            · rcases guarded with ⟨operation, isOperation, notV3⟩
              have carries : (frameOperation Asset platform frame).isSome := by
                rw [isOperation]
                rfl
              rw [carried] at isOperation
              have guardedBody : ∃ body,
                  entry platform ⟨network, Bytes.ofNat 20 0⟩ frame.self args =
                    reentrancyGuard body ∧
                  body.Within (fun slot : Slot => slot ≠ .reentrancy)
                    fun mark : Mark => mark = .started operation :=
                entry_guarded isOperation notV3 noNonceLock rfl
              rcases guardedBody with ⟨body, isGuard, within⟩
              simp only [serve, isGuard]
              apply wp_guarded apart
              apply within.mono fun _ notLock => notLock
              intro _ _ _ _
              exact carries
            · apply wp_unguarded apart guarded
              apply entry_unguarded _ noNonceLock
              · intro operation isOperation _ _
                rw [carried, isOperation]
                rfl
              · intro gasArgs sig token owner _ _ operation same
                cases same
              · intro operation isOperation
                by_contra notV3
                exact guarded ⟨operation, carried.trans isOperation, notV3⟩

/-- In every run in which `SolveV3` does not nest with a fund-moving operation of its account, no
two bodies of fund-moving operations are ever active on one account. -/
theorem operations_exclusive {network : Network}
    {callee : (Address → Slot → U) → Frame accountSignature → Query → Option (Address × Call)}
    {store : Address → Slot → U} {acts : List (Act accountSignature)}
    (apart : (Act.runAll (accounts Asset platform network callee) acts [] false
      (World.start store)).Entered (ApartFromV3 Asset platform)) :
    ∀ event ∈ (Act.runAll (accounts Asset platform network callee) acts [] false
      (World.start store)).trace, Exclusive Asset platform event := by
  have step : LockStep Asset platform [] (World.start store)
      (Act.runAll (accounts Asset platform network callee) acts [] false (World.start store)) :=
    (lock_guarantee network callee).runAll acts apart
  intro event member
  have noneWaiting : LocksHeld Asset platform [] (World.start store) := by
    intro outer outerMem
    cases outerMem
  rcases step.2 noneWaiting event member with earlier | exclusive
  · cases earlier
  · exact exclusive

/-! ### Two reentrant runs -/

namespace Reentry

/-- The target of a solve calls the account again with the same request. -/
def solveInSolve : World accountSignature :=
  Act.runAll (accounts KnownAsset Known.solvePlatform .arbitrum fun _ _ _ => none)
    [.call Known.account ⟨Known.relayer, Borsh.toVec Known.solveRequest⟩
      [.answer [.call Known.account ⟨Known.relayer, Borsh.toVec Known.solveRequest⟩
        [.answer [] accepted]] accepted]] [] false (World.start Known.store)

/-- The token that pays the gas of a `SolveV3` calls the account with the same request. -/
def gasInGas : World accountSignature :=
  Act.runAll (accounts KnownAsset EmptyGas.platform .arbitrum fun _ _ _ => none)
    [.call Known.account ⟨Known.relayer, Borsh.toVec (Args.solveV3 EmptyGas.args EmptyGas.sig)⟩
      [.answer [EmptyGas.submit] accepted]] [] false (World.start Known.store)

end Reentry

/-- The inner call is reverted by the lock. -/
theorem operations_exclusive_reentered :
    Reentry.solveInSolve.Entered (ApartFromV3 KnownAsset Known.solvePlatform) ∧
      ∀ event ∈ Reentry.solveInSolve.trace, Exclusive KnownAsset Known.solvePlatform event := by
  have apart : Reentry.solveInSolve.Entered (ApartFromV3 KnownAsset Known.solvePlatform) := by
    decide +kernel
  exact ⟨apart, operations_exclusive apart⟩

/-- The inner body runs inside the outer one. -/
theorem solveV3_reenters_solveV3 :
    ∃ event ∈ Reentry.gasInGas.trace, ¬Exclusive KnownAsset EmptyGas.platform event := by
  decide +kernel

end SuperpositionAccounts
