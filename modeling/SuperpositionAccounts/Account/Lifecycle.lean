import SuperpositionAccounts.Account.Nonces
import SuperpositionAccounts.Account.Success

/-!
# The life of an account

A migration makes no calls, so it happens at once: `Migrated` says what a
migration that is not reverted does to the storage. All other requests leave the
slots of a migration alone. What happens to those slots over a run can therefore
be read off the migrations in its log.
-/

namespace SuperpositionAccounts

open CallTree

/-- What a successful migration does. -/
structure Migrated (account sender : Address) (edKey evmOwner implAddr authorityAddr : U)
    (before after : World accountSignature) : Prop where
  implGiven : implAddr ≠ U.zero
  version : after.store account .version = U.two
  slotImpl : after.store account .slotImpl = implAddr
  identity : before.store account .version ≠ U.zero →
    after.store account (.ed25519Slot U.zero) = before.store account (.ed25519Slot U.zero) ∧
      after.store account .ed25519Count = before.store account .ed25519Count ∧
      after.store account .ethereumOwner = before.store account .ethereumOwner
  migrator : before.store account .version ≠ U.zero →
    (before.store account .ethereumOwner).addr = sender
  authority : U.one.toNat < (before.store account .version).toNat →
    after.store account .authority = before.store account .authority
  frame : ∀ other (slot : Slot), (other = account → slot.setByMigrate = false) →
    after.store other slot = before.store other slot
  log : after.log = before.log

/-- What a migration has done before it sets the implementation and the version. -/
structure Prepared (account : Address) (before after : World accountSignature) : Prop where
  identity : before.store account .version ≠ U.zero →
    after.store account (.ed25519Slot U.zero) = before.store account (.ed25519Slot U.zero) ∧
      after.store account .ed25519Count = before.store account .ed25519Count ∧
      after.store account .ethereumOwner = before.store account .ethereumOwner
  authority : U.one.toNat < (before.store account .version).toNat →
    after.store account .authority = before.store account .authority
  frame : ∀ other (slot : Slot), (other = account → slot.setByMigrate = false) →
    after.store other slot = before.store other slot
  log : after.log = before.log

theorem Prepared.refl (self : Address) (world : World accountSignature) :
    Prepared self world world where
  identity _ := ⟨rfl, rfl, rfl⟩
  authority _ := rfl
  frame _ _ _ := rfl
  log := rfl

/-- A slot of a migration is not a slot it leaves alone. -/
theorem apart_of_setByMigrate {self account : Address} {slot : Slot}
    (untouched : account = self → slot.setByMigrate = false) {written : Slot}
    (isSet : written.setByMigrate = true) : account ≠ self ∨ slot ≠ written := by
  by_cases own : account = self
  · right
    rintro rfl
    rw [untouched own] at isSet
    cases isSet
  · exact Or.inl own

/-- A first migration may write all its slots. -/
theorem Prepared.write_first {self : Address} {before after : World accountSignature}
    (prepared : Prepared self before after) (first : before.store self .version = U.zero)
    {slot : Slot} (word : U) (isSet : slot.setByMigrate = true) :
    Prepared self before (after.write self slot word) where
  identity later := absurd first later
  authority later := by
    rw [first] at later
    exact absurd later (by decide)
  frame account other untouched := by
    rw [store_write_of_ne _ _ (apart_of_setByMigrate untouched isSet)]
    exact prepared.frame account other untouched
  log := prepared.log

theorem Prepared.write_authority {self : Address} {before after : World accountSignature}
    (prepared : Prepared self before after)
    (early : (before.store self .version).toNat ≤ U.one.toNat) (word : U) :
    Prepared self before (after.write self .authority word) where
  identity later := by
    rw [store_write_of_ne _ _ (Or.inr (by simp)), store_write_of_ne _ _ (Or.inr (by simp)),
      store_write_of_ne _ _ (Or.inr (by simp))]
    exact prepared.identity later
  authority late := absurd late (by omega)
  frame account other untouched := by
    rw [store_write_of_ne _ _ (apart_of_setByMigrate untouched rfl)]
    exact prepared.frame account other untouched
  log := prepared.log

theorem Prepared.migrated {self sender : Address} {edKey evmOwner implAddr authorityAddr : U}
    {before after : World accountSignature} (prepared : Prepared self before after)
    (implGiven : implAddr ≠ U.zero)
    (migrator : before.store self .version ≠ U.zero →
      (before.store self .ethereumOwner).addr = sender) :
    Migrated self sender edKey evmOwner implAddr authorityAddr before
      ((after.write self .slotImpl implAddr).write self .version U.two) := by
  have kept {slot : Slot} (notImpl : slot ≠ .slotImpl) (notVersion : slot ≠ .version) :
      ((after.write self .slotImpl implAddr).write self .version U.two).store self slot =
        after.store self slot := by
    rw [store_write_of_ne _ _ (Or.inr notVersion), store_write_of_ne _ _ (Or.inr notImpl)]
  refine ⟨implGiven, World.write_store_self _ _ _ _, ?_, ?_, migrator, ?_, ?_, prepared.log⟩
  · rw [store_write_of_ne _ _ (Or.inr (by simp))]
    exact World.write_store_self _ _ _ _
  · intro later
    rw [kept (by simp) (by simp), kept (by simp) (by simp), kept (by simp) (by simp)]
    exact prepared.identity later
  · intro late
    rw [kept (by simp) (by simp)]
    exact prepared.authority late
  · intro account slot untouched
    rw [store_write_of_ne _ _ (apart_of_setByMigrate untouched rfl),
      store_write_of_ne _ _ (apart_of_setByMigrate untouched rfl)]
    exact prepared.frame account slot untouched

section Migration

variable {rely : World accountSignature → World accountSignature → Prop}
  {stack : List (Frame accountSignature)} {frame : Frame accountSignature}
  {sender : Address} {edKey evmOwner implAddr authorityAddr : U}
  {world : World accountSignature}

theorem wp_migrateLevelZero :
    (migrateLevelZero (world.store frame.self .version) edKey evmOwner).wp rely stack frame
      (fun _ => True)
      (fun isFirstTime after => Prepared frame.self world after ∧
        (isFirstTime = false → world.store frame.self .version ≠ U.zero ∧ after = world) ∧
        (isFirstTime = true → world.store frame.self .version = U.zero)) world := by
  unfold migrateLevelZero
  split
  · rename_i first
    simp only [Prog.wp_bind, Prog.wp_sstore, Prog.wp_pure]
    apply wp_assert_of
    intro _
    apply wp_assert_of
    intro _
    refine ⟨trivial, trivial, trivial, ?_, by simp, fun _ => first⟩
    apply Prepared.write_first _ first evmOwner rfl
    apply Prepared.write_first _ first U.one rfl
    exact (Prepared.refl frame.self world).write_first first edKey rfl
  · rename_i later
    exact ⟨Prepared.refl _ _, fun _ => ⟨later, rfl⟩, by simp⟩

theorem wp_migrateLevelOne {after : World accountSignature}
    (prepared : Prepared frame.self world after) :
    (migrateLevelOne (world.store frame.self .version) implAddr authorityAddr).wp rely stack
      frame (fun _ => True)
      (fun _ last => Prepared frame.self world last ∧
        last.store frame.self .ethereumOwner = after.store frame.self .ethereumOwner) after := by
  unfold migrateLevelOne
  split
  · rename_i early
    simp only [Prog.wp_bind, Prog.wp_sstore]
    apply wp_assert_of
    intro _
    refine ⟨trivial, prepared.write_authority early authorityAddr, ?_⟩
    exact store_write_of_ne _ _ (Or.inr (by simp))
  · exact ⟨prepared, rfl⟩

theorem wp_entryMigrate :
    (entryMigrate sender edKey evmOwner implAddr authorityAddr).wp rely stack frame
      (fun _ => True)
      (fun _ after => Migrated frame.self sender edKey evmOwner implAddr authorityAddr world after)
      world := by
  simp only [entryMigrate, Prog.wp_bind, wp_load]
  apply wp_assert_of
  intro implSome
  have implGiven : implAddr ≠ U.zero := of_decide_eq_true implSome
  apply Prog.wp_mono _ wp_migrateLevelZero
  rintro isFirstTime owned ⟨prepared, whenLater, whenFirst⟩
  apply Prog.wp_mono _ (wp_migrateLevelOne prepared)
  rintro _ authorised ⟨prepared, ownerSame⟩
  cases isFirstTime with
  | true => exact ⟨trivial, trivial, prepared.migrated implGiven fun later =>
      absurd (whenFirst rfl) later⟩
  | false =>
      rcases whenLater rfl with ⟨_, rfl⟩
      simp only [checkMigrator, Prog.wp_bind, wp_load, Bool.false_eq_true, if_false]
      apply wp_assert_of
      intro isOwner
      have migrator := of_decide_eq_true isOwner
      rw [ownerSame] at migrator
      exact ⟨trivial, trivial, prepared.migrated implGiven fun _ => migrator⟩

end Migration

/-! ### Histories of migrations -/

section History

variable (Asset : Type) [AssetRegistry Asset] (platform : Platform) (self : Address)

/-- The sender and the implementation of a migration of an account that an event completes. -/
def migrationOf (event : Event accountSignature) : Option (Address × U) :=
  match event.action, requestOf Asset platform event.frame with
  | .completed _, .ok (.migrate _ _ implAddr _) =>
      if event.frame.self = self then some (event.frame.msg.sender, implAddr) else none
  | _, _ => none

/-- The migrations of an account that were not reverted, newest first. -/
def migrations (log : List (Event accountSignature)) : List (Address × U) :=
  log.filterMap (migrationOf Asset platform self)

/-- A frame asks for a migration. -/
def IsMigration (frame : Frame accountSignature) : Prop :=
  ∃ edKey evmOwner implAddr authorityAddr,
    requestOf Asset platform frame = .ok (.migrate edKey evmOwner implAddr authorityAddr)

end History

/-- What a list of migrations, newest first, makes of the storage of an account. -/
structure History (account : Address) (before after : Address → Slot → U)
    (migrations : List (Address × U)) : Prop where
  idle : migrations = [] → ∀ slot : Slot, slot.setByMigrate = true →
    after account slot = before account slot
  settled : migrations ≠ [] → after account .version = U.two
  slotImpl : after account .slotImpl =
    (migrations.head?.map Prod.snd).getD (before account .slotImpl)
  implGiven : ∀ migration ∈ migrations, migration.2 ≠ U.zero
  identity : before account .version ≠ U.zero →
    after account (.ed25519Slot U.zero) = before account (.ed25519Slot U.zero) ∧
      after account .ed25519Count = before account .ed25519Count ∧
      after account .ethereumOwner = before account .ethereumOwner
  migrators : before account .version ≠ U.zero → ∀ migration ∈ migrations,
    migration.1 = (before account .ethereumOwner).addr
  authority : U.one.toNat < (before account .version).toNat →
    after account .authority = before account .authority

namespace History

variable {account : Address} {before middle after : Address → Slot → U}
  {older newer : List (Address × U)}

theorem refl (account : Address) (store : Address → Slot → U) :
    History account store store [] where
  idle _ _ _ := rfl
  settled none := absurd rfl none
  slotImpl := rfl
  implGiven := nofun
  identity _ := ⟨rfl, rfl, rfl⟩
  migrators _ := nofun
  authority _ := rfl

/-- The version stays or becomes two. -/
theorem version (history : History account before after older) :
    after account .version = before account .version ∨ after account .version = U.two := by
  by_cases none : older = []
  · exact Or.inl (history.idle none .version rfl)
  · exact Or.inr (history.settled none)

theorem trans (first : History account before middle older)
    (second : History account middle after newer) :
    History account before after (newer ++ older) := by
  have started : before account .version ≠ U.zero → middle account .version ≠ U.zero := by
    intro migrated
    rcases first.version with same | two
    · rwa [same]
    · rw [two]
      decide
  constructor
  · intro none slot isSet
    rcases List.append_eq_nil_iff.mp none with ⟨noNewer, noOlder⟩
    rw [second.idle noNewer slot isSet, first.idle noOlder slot isSet]
  · intro some
    by_cases none : newer = []
    · rw [second.idle none .version rfl]
      apply first.settled
      rwa [none, List.nil_append] at some
    · exact second.settled none
  · rw [second.slotImpl, first.slotImpl]
    cases newer with
    | nil => rfl
    | cons newest _ => rfl
  · intro migration member
    rcases List.mem_append.mp member with isNewer | isOlder
    · exact second.implGiven migration isNewer
    · exact first.implGiven migration isOlder
  · intro migrated
    rcases first.identity migrated with ⟨key, count, owner⟩
    rcases second.identity (started migrated) with ⟨key', count', owner'⟩
    exact ⟨key'.trans key, count'.trans count, owner'.trans owner⟩
  · intro migrated migration member
    rcases List.mem_append.mp member with isNewer | isOlder
    · rw [second.migrators (started migrated) migration isNewer,
        (first.identity migrated).2.2]
    · exact first.migrators migrated migration isOlder
  · intro late
    rw [second.authority _, first.authority late]
    rcases first.version with same | two
    · rwa [same]
    · rw [two]
      decide

/-- A step that leaves the slots of a migration alone is no migration. -/
theorem keep (history : History account before middle older)
    (same : ∀ slot : Slot, slot.setByMigrate = true →
      after account slot = middle account slot) :
    History account before after older := by
  have step : History account middle after [] := by
    refine ⟨fun _ => same, fun none => absurd rfl none, same _ rfl, nofun, ?_, fun _ => nofun, ?_⟩
    · intro _
      exact ⟨same _ rfl, same _ rfl, same _ rfl⟩
    · intro _
      exact same _ rfl
  exact history.trans step

theorem of_migrated {sender : Address} {edKey evmOwner implAddr authorityAddr : U}
    {world last : World accountSignature}
    (migrated : Migrated account sender edKey evmOwner implAddr authorityAddr world last) :
    History account world.store last.store [(sender, implAddr)] where
  idle none := by cases none
  settled _ := migrated.version
  slotImpl := migrated.slotImpl
  implGiven migration member := by
    rw [List.mem_singleton.mp member]
    exact migrated.implGiven
  identity := migrated.identity
  migrators later migration member := by
    rw [List.mem_singleton.mp member]
    exact (migrated.migrator later).symm
  authority := migrated.authority

end History

section Runs

variable (Asset : Type) [AssetRegistry Asset] (platform : Platform) (self : Address)

/-- The storage of an account follows the migrations that were added to the log. -/
def Follows (before after : State accountSignature) : Prop :=
  ∃ new, after.log = new ++ before.log ∧
    History self before.store after.store (migrations Asset platform self new)

variable {Asset platform self}

theorem Follows.refl (state : State accountSignature) : Follows Asset platform self state state :=
  ⟨[], rfl, History.refl self state.store⟩

theorem Follows.trans {before middle after : State accountSignature}
    (first : Follows Asset platform self before middle)
    (second : Follows Asset platform self middle after) :
    Follows Asset platform self before after := by
  rcases first with ⟨older, grown, history⟩
  rcases second with ⟨newer, grown', history'⟩
  refine ⟨newer ++ older, by rw [grown', grown, List.append_assoc], ?_⟩
  rw [migrations, List.filterMap_append]
  exact history.trans history'

/-- Recording an event that is no migration of the account. -/
theorem Follows.record {before : State accountSignature} {world : World accountSignature}
    (follows : Follows Asset platform self before world.toState)
    {stack : List (Frame accountSignature)} {frame : Frame accountSignature}
    {action : Action accountSignature}
    (noMigration : migrationOf Asset platform self ⟨stack, frame, action, world.store⟩ = none) :
    Follows Asset platform self before (world.record stack frame action).toState := by
  rcases follows with ⟨new, grown, history⟩
  refine ⟨⟨stack, frame, action, world.store⟩ :: new, by simp [grown], ?_⟩
  rw [migrations, List.filterMap_cons_none noMigration]
  exact history

theorem Follows.survives {before : State accountSignature}
    {stack : List (Frame accountSignature)} {frame : Frame accountSignature}
    {writable : Slot → Prop}
    (spared : frame.self = self → ∀ slot : Slot, writable slot → slot.setByMigrate = false) :
    Survives (fun world after => Follows Asset platform self world.toState after.toState) stack
      frame writable (fun _ => True)
      (fun world => Follows Asset platform self before world.toState) where
  others moved follows := follows.trans moved
  asked _ _ follows := follows.record rfl
  noted _ _ follows := follows.record rfl
  written slot word canWrite follows := by
    rcases follows with ⟨new, grown, history⟩
    refine ⟨new, grown, history.keep ?_⟩
    intro other isSet
    apply store_write_of_ne
    by_cases own : frame.self = self
    · right
      rintro rfl
      rw [spared own other canWrite] at isSet
      cases isSet
    · exact Or.inl fun same => own same.symm

theorem migrationOf_completed {frame : Frame accountSignature}
    {edKey evmOwner implAddr authorityAddr : U} (own : frame.self = self)
    (read : requestOf Asset platform frame =
      .ok (.migrate edKey evmOwner implAddr authorityAddr))
    (stack : List (Frame accountSignature)) (output : List UInt8) (store : Address → Slot → U) :
    migrationOf Asset platform self ⟨stack, frame, .completed output, store⟩ =
      some (frame.msg.sender, implAddr) := by
  simp [migrationOf, read, own]

theorem migrationOf_other {frame : Frame accountSignature}
    (other : ¬(frame.self = self ∧ IsMigration Asset platform frame))
    (stack : List (Frame accountSignature)) (action : Action accountSignature)
    (store : Address → Slot → U) :
    migrationOf Asset platform self ⟨stack, frame, action, store⟩ = none := by
  simp only [migrationOf]
  split
  · rename_i read
    rw [if_neg]
    intro own
    exact other ⟨own, _, _, _, _, read⟩
  · rfl

/-- Only a migration of the account writes the slots of a migration there. -/
theorem userEntrypoint_within_spared {network : Network} {frame : Frame accountSignature}
    (other : ¬(frame.self = self ∧ IsMigration Asset platform frame)) :
    (userEntrypoint Asset platform network frame.self frame.msg).Within
      (fun slot : Slot => frame.self = self → slot.setByMigrate = false) (fun _ => True) := by
  by_cases own : frame.self = self
  · cases read : requestOf Asset platform frame with
    | error message =>
        rw [requestOf] at read
        rw [userEntrypoint, read]
        exact Prog.within_throw _
    | ok request =>
        rw [userEntrypoint_of_read read]
        cases request with
        | beacon => exact readSlot_within _
        | migrate edKey evmOwner implAddr authorityAddr =>
            exact absurd ⟨own, edKey, evmOwner, implAddr, authorityAddr, read⟩ other
        | args args =>
            exact entry_within args (fun _ => rfl) (fun _ _ _ => rfl) (fun _ _ => trivial)
              fun _ _ _ _ _ _ => trivial
  · apply (Prog.within_true _).mono _ fun _ _ => trivial
    intro slot _ same
    exact absurd same own

variable (Asset platform)

/-- Every frame keeps the storage of every account in line with its migrations. -/
theorem lifecycle_guarantee (network : Network)
    (callee : (Address → Slot → U) → Frame accountSignature → Query → Option (Address × Call))
    (self : Address) :
    Guarantee (accounts Asset platform network callee) (fun _ _ => True)
      (fun _ world after => Follows Asset platform self world.toState after.toState) := by
  apply Guarantee.ofState fun _ => Follows Asset platform self
  · intro _ state
    exact Follows.refl state
  · intro _ _ _ _ first second
    exact first.trans second
  · intro stack frame world _
    by_cases migration : frame.self = self ∧ IsMigration Asset platform frame
    · rcases migration with ⟨own, edKey, evmOwner, implAddr, authorityAddr, read⟩
      change Prog.wp _ _ _ _ (userEntrypoint Asset platform network frame.self frame.msg) _ _
      rw [userEntrypoint_of_read read]
      apply Prog.wp_mono _ wp_entryMigrate
      intro output after migrated
      refine ⟨[⟨stack, frame, .completed output, after.store⟩,
        ⟨stack, frame, .entered, world.store⟩], congrArg (List.cons _) migrated.log, ?_⟩
      rw [own] at migrated
      have history : History self (world.record stack frame .entered).store after.store
          [(frame.msg.sender, implAddr)] :=
        History.of_migrated migrated
      rw [migrations, List.filterMap_cons_some (migrationOf_completed own read stack output _)]
      exact history
    · have entered : Follows Asset platform self world.toState
          (world.record stack frame .entered).toState := (Follows.refl _).record rfl
      apply Prog.wp_mono _ ((userEntrypoint_within_spared migration).wp
        (Follows.survives fun own _ canWrite => canWrite own) (fun _ => trivial) entered)
      intro output after follows
      exact follows.record (migrationOf_other migration stack _ _)

/-- The storages an account starts from: an empty one, or that of an earlier release. -/
def Initial (self : Address) (store : Address → Slot → U) : Prop :=
  (∀ slot, store self slot = U.zero) ∨
    (store self .version = U.one ∧ store self .ethereumOwner ≠ U.zero)

/-- The versions an account can have. -/
def KnownVersion (version : U) : Prop :=
  version = U.zero ∨ version = U.one ∨ version = U.two

theorem KnownVersion.le_two {version : U} (known : KnownVersion version) :
    version.toNat ≤ U.two.toNat := by
  rcases known with rfl | rfl | rfl
  · decide
  · decide
  · decide

theorem Initial.knownVersion {self : Address} {store : Address → Slot → U}
    (initial : Initial self store) : KnownVersion (store self .version) := by
  rcases initial with empty | ⟨legacy, _⟩
  · exact Or.inl (empty .version)
  · exact Or.inr (Or.inl legacy)

theorem History.knownVersion {before after : Address → Slot → U}
    {done : List (Address × U)} {self : Address} (history : History self before after done)
    (known : KnownVersion (before self .version)) : KnownVersion (after self .version) := by
  rcases history.version with same | two
  · rwa [same]
  · exact Or.inr (Or.inr two)

theorem History.version_le {before after : Address → Slot → U}
    {done : List (Address × U)} {self : Address} (history : History self before after done)
    (known : KnownVersion (before self .version)) :
    (before self .version).toNat ≤ (after self .version).toNat := by
  rcases history.version with same | two
  · rw [same]
  · rw [two]
    exact known.le_two

/-- A migration that completes makes the version two and leaves the nonces alone. -/
theorem enter_migration (network : Network)
    (callee : (Address → Slot → U) → Frame accountSignature → Query → Option (Address × Call))
    {stack : List (Frame accountSignature)} {frame : Frame accountSignature}
    {script : List (Reaction accountSignature)} {world : World accountSignature}
    {output : List UInt8} (migration : IsMigration Asset platform frame) :
    let system := accounts Asset platform network callee
    let result := system.enter stack frame (Reaction.runAll system script) world
    result.2 = .ok output →
      result.1.store frame.self .version = U.two ∧
        ∀ account nonce, result.1.store account (.timestamps nonce) =
          world.store account (.timestamps nonce) := by
  intro system result completed
  rcases migration with ⟨edKey, evmOwner, implAddr, authorityAddr, read⟩
  have holds : (userEntrypoint Asset platform network frame.self frame.msg).wp
      (fun before after => Follows Asset platform frame.self before.toState after.toState)
      stack frame (fun _ => True)
      (fun _ after => Migrated frame.self frame.msg.sender edKey evmOwner implAddr authorityAddr
        (world.record stack frame .entered) after) (world.record stack frame .entered) := by
    rw [userEntrypoint_of_read read]
    exact wp_entryMigrate
  rcases (lifecycle_guarantee Asset platform network callee frame.self).enter_completed holds
    completed with ⟨after, migrated, ends⟩
  change result.1 = _ at ends
  rw [ends]
  exact ⟨migrated.version, fun account nonce => migrated.frame account _ fun _ => rfl⟩

/-- From an empty storage or one of an earlier release, through any requests with any calls back,
the version only grows and the owner, the keys and the authority stay once they are set. The
implementation follows the migrations, which only the owner can make. -/
theorem account_lifecycle (network : Network)
    (callee : (Address → Slot → U) → Frame accountSignature → Query → Option (Address × Call))
    {world : World accountSignature} (initial : Initial self world.store)
    (stack : List (Frame accountSignature)) (readonly : Bool)
    (earlier later : List (Act accountSignature)) :
    let system := accounts Asset platform network callee
    let reached := Act.runAll system earlier stack readonly world
    let after := Act.runAll system later stack readonly reached
    let version := reached.store self .version
    KnownVersion version ∧
      (∃ new, after.log = new ++ reached.log ∧
        let done := migrations Asset platform self new
        version.toNat ≤ (after.store self .version).toNat ∧
        (done ≠ [] → after.store self .version = U.two) ∧
        (version ≠ U.zero →
          after.store self (.ed25519Slot U.zero) = reached.store self (.ed25519Slot U.zero) ∧
          after.store self .ed25519Count = reached.store self .ed25519Count ∧
          after.store self .ethereumOwner = reached.store self .ethereumOwner ∧
          after.store self .slotImpl =
            (done.head?.map Prod.snd).getD (reached.store self .slotImpl) ∧
          ∀ migration ∈ done, migration.1 = (reached.store self .ethereumOwner).addr ∧
            migration.2 ≠ U.zero) ∧
        (version = U.two → after.store self .authority = reached.store self .authority)) ∧
      ∀ frame script, frame.self = self → IsMigration Asset platform frame →
        let result := system.enter stack frame (Reaction.runAll system script) reached
        match result.2 with
        | .ok _ => result.1.store self .version = U.two ∧
            ∀ account nonce, result.1.store account (.timestamps nonce) =
              reached.store account (.timestamps nonce)
        | .error _ => result.1.store = reached.store := by
  intro system reached after version
  have guarantee := lifecycle_guarantee Asset platform network callee self
  have beforehand : Follows Asset platform self world.toState reached.toState :=
    guarantee.runAll earlier fun _ _ _ => trivial
  have afterwards : Follows Asset platform self reached.toState after.toState :=
    guarantee.runAll later fun _ _ _ => trivial
  rcases beforehand with ⟨_, _, reaching⟩
  rcases afterwards with ⟨new, grown, history⟩
  have known : KnownVersion version := reaching.knownVersion initial.knownVersion
  refine ⟨known, ⟨new, grown, history.version_le known, history.settled, ?_, ?_⟩, ?_⟩
  · intro migrated
    rcases history.identity migrated with ⟨key, count, owner⟩
    refine ⟨key, count, owner, history.slotImpl, ?_⟩
    intro migration member
    exact ⟨history.migrators migrated migration member, history.implGiven migration member⟩
  · intro two
    apply history.authority
    change U.one.toNat < version.toNat
    rw [two]
    decide
  · intro frame script own migration result
    split
    · rename_i output completed
      rw [← own]
      exact enter_migration Asset platform network callee migration completed
    · rename_i err failed
      exact congrArg State.store (system.enter_failed failed)

end Runs

/-- The owner of a migrated account gives it another implementation. -/
def Known.upgrade : Act accountSignature :=
  .call account ⟨Bytes.ofNat 20 0x4444444444444444444444444444444444444444, selMigrate ++
    U.zero.toList ++ U.zero.toList ++
    (Bytes.ofNat 32 0x7777777777777777777777777777777777777777).toList ++ U.zero.toList⟩ []

theorem account_lifecycle_upgraded :
    (Known.after [Known.migrate Known.account]).store Known.account .version = U.two ∧
      (Known.after ([Known.migrate Known.account] ++ [Known.upgrade])).store Known.account
        .slotImpl = Bytes.ofNat 32 0x7777777777777777777777777777777777777777 ∧
      (Known.after ([Known.migrate Known.account] ++ [Known.upgrade])).store Known.account
        .ethereumOwner =
        (Known.after [Known.migrate Known.account]).store Known.account .ethereumOwner := by
  have migrated : (Known.after [Known.migrate Known.account]).store Known.account .version =
      U.two := by
    decide +kernel
  refine ⟨migrated, by decide +kernel, ?_⟩
  have initial : Initial Known.account
      (World.start (S := accountSignature) fun _ _ => U.zero).store := Or.inl fun _ => rfl
  rcases account_lifecycle KnownAsset Known.solvePlatform .arbitrum (fun _ _ _ => none) initial
    [] false [Known.migrate Known.account] [Known.upgrade] with
    ⟨_, ⟨_, _, _, _, settled, _⟩, _⟩
  rw [Known.after] at migrated
  rw [Known.after, Known.after, Act.runAll_append (S := accountSignature)]
  refine (settled ?_).2.2.1
  rw [migrated]
  decide

end SuperpositionAccounts
