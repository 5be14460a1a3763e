import SuperpositionAccounts.Account.Lifecycle
import SuperpositionAccounts.Factory.Beacon
import SuperpositionAccounts.Factory.Chain

/-!
# What stays of an account

An address that has code keeps it. An account that has been set up for an owner
stays as it is, and its used nonces stay used, as long as the code that runs for
it is the account contract and the owner does not call it.
-/

namespace SuperpositionAccounts

open CallTree

/-- An account as its owner asked for it. -/
structure Owned (account : Address) (key : U) (eoaAddr authority : Address) (implAddr : U)
    (store : Address → Slot → U) : Prop where
  ed25519Slot : store account (.ed25519Slot U.zero) = key
  ed25519Count : store account .ed25519Count = U.one
  ethereumOwner : store account .ethereumOwner = U.ofBytes eoaAddr
  authority : store account .authority = U.ofBytes authority
  version : store account .version = U.two
  slotImpl : store account .slotImpl = implAddr

/-- Only the slots that a migration sets matter. -/
theorem Owned.of_same {account eoaAddr authority : Address} {key implAddr : U}
    {before after : Address → Slot → U}
    (owned : Owned account key eoaAddr authority implAddr before)
    (same : ∀ slot, slot.setByMigrate = true → after account slot = before account slot) :
    Owned account key eoaAddr authority implAddr after where
  ed25519Slot := (same _ rfl).trans owned.ed25519Slot
  ed25519Count := (same _ rfl).trans owned.ed25519Count
  ethereumOwner := (same _ rfl).trans owned.ethereumOwner
  authority := (same _ rfl).trans owned.authority
  version := (same _ rfl).trans owned.version
  slotImpl := (same _ rfl).trans owned.slotImpl

/-- An owned account stays so and its used nonces stay used. -/
def Stays (account : Address) (key : U) (eoaAddr authority : Address) (implAddr : U)
    (before after : Address → Slot → U) : Prop :=
  Owned account key eoaAddr authority implAddr before →
    Owned account key eoaAddr authority implAddr after ∧
      ∀ nonce, before account (.timestamps nonce) = U.one →
        after account (.timestamps nonce) = U.one

/-- The account is owned, and the nonces used before and since are used. -/
def Spent (account : Address) (key : U) (eoaAddr authority : Address) (implAddr : U)
    (before : Address → Slot → U) (done : List U) (after : Address → Slot → U) : Prop :=
  Owned account key eoaAddr authority implAddr after ∧
    ∀ nonce, before account (.timestamps nonce) = U.one ∨ nonce ∈ done →
      after account (.timestamps nonce) = U.one

theorem Stays.refl {account eoaAddr authority : Address} {key implAddr : U}
    (store : Address → Slot → U) : Stays account key eoaAddr authority implAddr store store :=
  fun owned => ⟨owned, fun _ used => used⟩

theorem Stays.trans {account eoaAddr authority : Address} {key implAddr : U}
    {before middle after : Address → Slot → U}
    (first : Stays account key eoaAddr authority implAddr before middle)
    (second : Stays account key eoaAddr authority implAddr middle after) :
    Stays account key eoaAddr authority implAddr before after := by
  intro owned
  rcases first owned with ⟨middleOwned, stillUsed⟩
  rcases second middleOwned with ⟨afterOwned, usedToo⟩
  exact ⟨afterOwned, fun nonce used => usedToo nonce (stillUsed nonce used)⟩

/-- Nothing happens to an account whose slots are the same. -/
theorem Stays.of_same {account eoaAddr authority : Address} {key implAddr : U}
    {before after : Address → Slot → U}
    (same : ∀ slot, after account slot = before account slot) :
    Stays account key eoaAddr authority implAddr before after := by
  intro owned
  refine ⟨owned.of_same fun slot _ => same slot, ?_⟩
  intro nonce used
  exact (same _).trans used

section Contract

variable {account eoaAddr authority : Address} {key implAddr : U} {before : Address → Slot → U}
  {stack : List (Frame accountSignature)} {frame : Frame accountSignature} {done : List U}
  {world : World accountSignature}

theorem Owned.write (owned : Owned account key eoaAddr authority implAddr world.store)
    (self : Address) {slot : Slot} (word : U) (kept : slot.setByMigrate = false) :
    Owned account key eoaAddr authority implAddr (world.write self slot word).store := by
  apply owned.of_same
  intro other isSet
  apply store_write_of_ne
  right
  rintro rfl
  rw [kept] at isSet
  cases isSet

theorem Spent.initial (owned : Owned account key eoaAddr authority implAddr before) :
    Spent account key eoaAddr authority implAddr before [] before := by
  refine ⟨owned, ?_⟩
  rintro nonce (used | member)
  · exact used
  · cases member

/-- Using a nonce. -/
theorem Spent.use
    (spent : Spent account key eoaAddr authority implAddr before done world.store) (nonce : U) :
    Spent account key eoaAddr authority implAddr before (done ++ [nonce])
      (world.write account (.timestamps nonce) U.one).store := by
  refine ⟨spent.1.write account U.one rfl, ?_⟩
  intro other used
  by_cases same : other = nonce
  · rw [same]
    exact World.write_store_self _ _ _ _
  · rw [store_write_of_ne _ _ (Or.inr fun slots => same (Slot.timestamps.inj slots))]
    apply spent.2
    simpa [same] using used

theorem Spent.survives :
    Survives (fun world after => Stays account key eoaAddr authority implAddr world.store
        after.store) stack frame (fun slot : Slot => slot = .reentrancy) (fun _ => True)
      (fun world => Spent account key eoaAddr authority implAddr before done world.store) where
  others moved spent := by
    rcases moved spent.1 with ⟨owned, used⟩
    exact ⟨owned, fun nonce earlier => used nonce (spent.2 nonce earlier)⟩
  asked _ _ spent := spent
  noted _ _ spent := spent
  written slot word isLock spent := by
    subst isLock
    refine ⟨spent.1.write _ word rfl, ?_⟩
    intro nonce used
    rw [store_write_of_ne _ _ (Or.inr (by simp))]
    exact spent.2 nonce used

theorem consuming_spent (own : frame.self = account) :
    Consuming (fun world after => Stays account key eoaAddr authority implAddr world.store
        after.store) stack frame
      (fun done world => Spent account key eoaAddr authority implAddr before done world.store) where
  within within spent := within.wp Spent.survives (fun _ => trivial) spent
  exchange nonce done world spent := by
    rw [wp_exchange]
    split
    · rw [own]
      exact ⟨trivial, spent.use nonce⟩
    · trivial

variable {Asset : Type} [AssetRegistry Asset] {platform : Platform} {network : Network}

/-- The account contract keeps an account whose owner is not the caller. -/
theorem wp_userEntrypoint_spent (own : frame.self = account) {call : Call}
    (stranger : call.sender ≠ eoaAddr)
    (spent : Spent account key eoaAddr authority implAddr before [] world.store) :
    (userEntrypoint Asset platform network account call).wp
      (fun world after => Stays account key eoaAddr authority implAddr world.store after.store)
      stack frame (fun _ => True)
      (fun _ after => ∃ done,
        Spent account key eoaAddr authority implAddr before done after.store) world := by
  apply userEntrypoint_cases (motive := fun program : Contract (List UInt8) =>
    program.wp _ stack frame _ _ world)
  · intro message
    trivial
  · intro request _
    cases request with
    | beacon =>
        apply Prog.wp_mono _ ((consuming_spent own).within (readSlot_within _) spent)
        intro _ after kept
        exact ⟨[], kept⟩
    | migrate edKey evmOwner implAddr authorityAddr =>
        apply Prog.wp_mono _ wp_entryMigrate
        intro _ after migrated
        have settled : world.store frame.self .version ≠ U.zero := by
          rw [own, spent.1.version]
          decide
        have isOwner := migrated.migrator settled
        rw [own, spent.1.ethereumOwner, U.addr_ofBytes] at isOwner
        exact absurd isOwner.symm stranger
    | args args =>
        apply Prog.wp_mono _ ((consuming_spent own).wp_entry args spent)
        intro _ after kept
        exact ⟨args.nonces, kept⟩

end Contract

namespace Chain

/-! ### What the programs write -/

section Within

variable {chain : Chain} {writable : Cell → Prop} {markable : Mark → Prop}

theorem delegateTo_within (implementation : Address) (calldata : List UInt8) :
    (delegateTo implementation calldata).Within writable markable := by
  apply Prog.within_bind (Prog.within_request (S := chainSignature) _)
  intro reply
  apply Prog.within_bind (Prog.within_require (S := chainSignature) _ _)
  intro _
  exact Prog.within_pure _

theorem proxy_within (calldata : List UInt8) : (proxy calldata).Within writable markable := by
  unfold proxy
  split
  · apply Prog.within_bind (Prog.within_request (S := chainSignature) _)
    intro answer
    exact delegateTo_within _ _
  · apply Prog.within_bind (Prog.within_sload (S := chainSignature) _)
    intro implementation
    exact delegateTo_within _ _

theorem upgrade_within (call : Call) (canUpgrade : writable (.slot .slotImpl)) :
    (chain.upgrade call).Within writable markable := by
  apply Prog.within_bind (Prog.within_require (S := chainSignature) _ _)
  intro _
  apply Prog.within_bind (Prog.within_unwrap (S := chainSignature) _ _)
  rintro ⟨newImpl, data⟩
  apply Prog.within_bind ((Prog.within_sstore (S := chainSignature) _ _).mpr canUpgrade)
  intro _
  split
  · apply Prog.within_bind (Prog.within_request (S := chainSignature) _)
    intro reply
    apply Prog.within_bind (Prog.within_require (S := chainSignature) _ _)
    intro _
    exact Prog.within_pure _
  · exact Prog.within_pure _

/-- Only the factory writes when it is called. -/
theorem answerCall_within (self : Address) (call : Call)
    (canUpgrade : self = chain.factory → writable (.slot .slotImpl)) :
    (chain.answerCall self call).Within writable markable := by
  unfold answerCall
  split
  · rename_i isFactory
    apply Prog.within_bind (Prog.within_sload (S := chainSignature) _)
    intro admin
    split
    · exact upgrade_within call (canUpgrade isFactory)
    · apply Prog.within_bind (Prog.within_sload (S := chainSignature) _)
      intro impl
      exact delegateTo_within _ _
  · apply Prog.within_bind (Prog.within_sload (S := chainSignature) _)
    intro code
    split
    · exact Prog.within_pure _
    · exact proxy_within _

theorem createAccount_within (self : Address) (canCreate : writable .code) :
    (createAccount self).Within writable markable := by
  apply Prog.within_bind (Prog.within_sload (S := chainSignature) _)
  intro code
  apply Prog.within_bind (Prog.within_require (S := chainSignature) _ _)
  intro _
  apply Prog.within_bind ((Prog.within_sstore (S := chainSignature) _ _).mpr canCreate)
  intro _
  exact Prog.within_pure _

theorem runCode_within (Asset : Type) [AssetRegistry Asset] (implementation self : Address)
    (call : Call) :
    (chain.runCode Asset implementation self call).Within (fun cell : Cell => cell ≠ .code)
      (fun _ => True) := by
  unfold runCode
  split
  · exact Prog.within_embed (S := accountSignature) _ (fun _ => nofun) fun _ => trivial
  · exact Prog.within_pure _
  · rename_i code _
    exact code.keepsCode self call

end Within

/-! ### Code stays -/

section Code

variable (chain : Chain) (Asset : Type) [AssetRegistry Asset]

/-- An address that has code has it still. -/
def HasCode (account : Address) (before after : State chainSignature) : Prop :=
  before.store account .code ≠ U.zero → after.store account .code ≠ U.zero

theorem HasCode.survives {account : Address} {before : State chainSignature}
    {stack : List (Frame chainSignature)} {frame : Frame chainSignature} :
    Survives (fun world after => HasCode account world.toState after.toState) stack frame
      (fun cell : Cell => cell ≠ .code) (fun _ => True)
      (fun world => HasCode account before world.toState) where
  others moved kept hadCode := moved (kept hadCode)
  asked _ _ kept := kept
  noted _ _ kept := kept
  written cell word notCode kept hadCode := by
    rw [World.write_store_of_ne (S := chainSignature) _ word (Or.inr notCode.symm)]
    exact kept hadCode

theorem HasCode.wp_createAccount {account : Address} {before : State chainSignature}
    {rely : World chainSignature → World chainSignature → Prop}
    {stack : List (Frame chainSignature)} {frame : Frame chainSignature}
    {world : World chainSignature} (kept : HasCode account before world.toState) :
    (createAccount frame.self).wp rely stack frame (fun _ => True)
      (fun _ after => HasCode account before after.toState) world := by
  simp only [createAccount, Prog.wp_bind]
  change (Prog.require (S := chainSignature) _ _).wp rely stack frame _ _ world
  rw [Prog.wp_require (S := chainSignature)]
  split
  · refine ⟨trivial, ?_⟩
    intro hadCode
    by_cases own : account = frame.self
    · subst own
      rw [World.write_store_self (S := chainSignature)]
      decide
    · rw [World.write_store_of_ne (S := chainSignature) _ _ (Or.inl own)]
      exact kept hadCode
  · trivial

/-- Nothing in the system takes the code of an address away. -/
theorem code_guarantee (account : Address) :
    Guarantee (chain.system Asset) (fun _ _ => True)
      (fun _ world after => HasCode account world.toState after.toState) := by
  apply Guarantee.ofState fun _ => HasCode account
  · intro _ state hadCode
    exact hadCode
  · intro _ _ _ _ first second hadCode
    exact second (first hadCode)
  · intro stack frame world _
    have entered : HasCode account world.toState (world.record stack frame .entered).toState :=
      fun hadCode => hadCode
    rcases frame with ⟨self, msg, readonly⟩
    cases msg with
    | call call =>
        exact (answerCall_within self call fun _ => nofun).wp HasCode.survives
          (fun _ => trivial) entered
    | create => exact HasCode.wp_createAccount entered
    | run implementation call =>
        exact (runCode_within Asset implementation self call).wp HasCode.survives
          (fun _ => trivial) entered

end Code

/-! ### An owned account stays -/

/-- The slots of `storage.rs` at all addresses. -/
def slots (store : Address → Cell → U) (address : Address) (slot : Slot) : U :=
  store address (.slot slot)

/-- What runs for an account is the account contract, and not for its owner. -/
def Undisturbed (chain : Chain) (account eoaAddr : Address) (_ : List (Frame chainSignature))
    (frame : Frame chainSignature) : Prop :=
  match frame.msg with
  | .run implementation call => frame.self = account →
      (chain.code implementation).isAccount = true ∧ call.sender ≠ eoaAddr
  | _ => True

instance (chain : Chain) (account eoaAddr : Address) (stack : List (Frame chainSignature))
    (frame : Frame chainSignature) : Decidable (chain.Undisturbed account eoaAddr stack frame) :=
  match frame with
  | ⟨self, .run implementation call, _⟩ =>
      inferInstanceAs (Decidable (self = account →
        (chain.code implementation).isAccount = true ∧ call.sender ≠ eoaAddr))
  | ⟨_, .call _, _⟩ => .isTrue trivial
  | ⟨_, .create, _⟩ => .isTrue trivial

section Stays

variable {chain : Chain} {account eoaAddr authority : Address} {key implAddr : U}

/-- Writes elsewhere do not matter to an account. -/
theorem stays_survives {before : Address → Slot → U} {stack : List (Frame chainSignature)}
    {frame : Frame chainSignature} {writable : Cell → Prop}
    (elsewhere : frame.self = account → ∀ slot, ¬writable (.slot slot)) :
    Survives (fun world after => Stays account key eoaAddr authority implAddr
        (slots world.store) (slots after.store)) stack frame writable (fun _ => True)
      (fun world => Stays account key eoaAddr authority implAddr before (slots world.store)) where
  others moved stays := stays.trans moved
  asked _ _ stays := stays
  noted _ _ stays := stays
  written cell word canWrite stays := by
    apply stays.trans
    apply Stays.of_same
    intro slot
    apply World.write_store_of_ne (S := chainSignature)
    by_cases own : frame.self = account
    · right
      rintro rfl
      exact elsewhere own slot canWrite
    · exact Or.inl fun same => own same.symm

theorem slots_simulation {rely : (Address → Slot → U) → (Address → Slot → U) → Prop}
    {stack : List (Frame accountSignature)} {frame : Frame accountSignature}
    {farStack : List (Frame chainSignature)} {farFrame : Frame chainSignature}
    (same : frame.self = farFrame.self) :
    Simulation (S := accountSignature) Cell.slot Ask.account
      (fun world after => rely world.store after.store) stack frame
      (fun world after => rely (slots world.store) (slots after.store)) farStack farFrame
      (fun near far => near.store = slots far.store) where
  loaded slot related := by
    rw [related, same]
    rfl
  written slot word related := by
    funext address other
    simp [World.write, slots, related, same]
  noted _ related := related
  asked _ _ related := related
  others {near far farAfter} related moved := by
    refine ⟨World.start (slots farAfter.store), ?_, rfl⟩
    rw [related]
    exact moved

variable (Asset : Type) [AssetRegistry Asset]

theorem runCode_account {implementation : Address}
    (isAccount : (chain.code implementation).isAccount = true) (self : Address) (call : Call) :
    chain.runCode Asset implementation self call =
      (userEntrypoint Asset chain.platform chain.network self call).embed
        Message Cell.slot Ask.account := by
  unfold runCode
  cases code : chain.code implementation with
  | account => rfl
  | empty => simp [code, Code.isAccount] at isAccount
  | foreign foreignCode => simp [code, Code.isAccount] at isAccount

/-- A frame of the account contract on its own. -/
def alone (self : Address) : Frame accountSignature :=
  ⟨self, ⟨self, []⟩, false⟩

/-- What the account contract does to an account it does in the system. -/
theorem wp_embed_stays {stack : List (Frame chainSignature)} {frame : Frame chainSignature}
    {program : Contract (List UInt8)} {post : (Address → Slot → U) → Prop}
    {world : World chainSignature}
    (holds : Prog.wp (S := accountSignature)
      (fun world after => Stays account key eoaAddr authority implAddr world.store after.store)
      [] (alone frame.self) (fun _ => True) program (fun _ after => post after.store)
      (World.start (slots world.store))) :
    Prog.wp (S := chainSignature)
      (fun world after => Stays account key eoaAddr authority implAddr
        (slots world.store) (slots after.store)) stack frame (fun _ => True)
      (program.embed Message Cell.slot Ask.account)
      (fun _ after => post (slots after.store)) world := by
  have simulation : Simulation (S := accountSignature) Cell.slot Ask.account
      (fun world after => Stays account key eoaAddr authority implAddr world.store after.store)
      [] (alone frame.self)
      (fun world after => Stays account key eoaAddr authority implAddr
        (slots world.store) (slots after.store)) stack frame
      (fun near far => near.store = slots far.store) := slots_simulation rfl
  apply Prog.wp_mono (S := chainSignature) _ (simulation.wp_embed rfl holds)
  rintro _ after ⟨near, related, posted⟩
  rw [← related]
  exact posted

/-- The account contract, run for the account, keeps it. -/
theorem wp_runCode_stays {stack : List (Frame chainSignature)} (frame : Frame chainSignature)
    {implementation : Address} {call : Call} {world : World chainSignature}
    (own : frame.self = account) (isAccount : (chain.code implementation).isAccount = true)
    (stranger : call.sender ≠ eoaAddr) :
    (chain.runCode Asset implementation account call).wp
      (fun world after => Stays account key eoaAddr authority implAddr
        (slots world.store) (slots after.store)) stack frame (fun _ => True)
      (fun _ after => Stays account key eoaAddr authority implAddr
        (slots world.store) (slots after.store)) world := by
  rw [runCode_account Asset isAccount]
  apply wp_embed_stays
  by_cases owned : Owned account key eoaAddr authority implAddr (slots world.store)
  · apply Prog.wp_mono _ (wp_userEntrypoint_spent own stranger (Spent.initial owned))
    rintro _ after ⟨done, spent⟩ _
    exact ⟨spent.1, fun nonce used => spent.2 nonce (Or.inl used)⟩
  · exact Prog.wp_of_always (fun _ => trivial) (fun _ _ isOwned => absurd isOwned owned) _

theorem stays_guarantee (apart : account ≠ chain.factory) :
    Guarantee (chain.system Asset) (chain.Undisturbed account eoaAddr)
      (fun _ world after => Stays account key eoaAddr authority implAddr
        (slots world.store) (slots after.store)) := by
  apply Guarantee.ofState fun _ (before after : State chainSignature) =>
    Stays account key eoaAddr authority implAddr (slots before.store) (slots after.store)
  · intro _ state
    exact Stays.refl _
  · intro _ _ _ _ first second
    exact first.trans second
  · intro stack frame world permitted
    have entered : Stays account key eoaAddr authority implAddr (slots world.store)
        (slots (world.record stack frame .entered).store) := Stays.refl _
    rcases frame with ⟨self, msg, readonly⟩
    cases msg with
    | call call =>
        have within : (chain.answerCall self call).Within
            (fun cell : Cell => self ≠ account) (fun _ => True) :=
          answerCall_within self call fun isFactory => isFactory ▸ apart.symm
        exact within.wp (stays_survives fun own _ notOwn => notOwn own) (fun _ => trivial) entered
    | create =>
        have within : (createAccount self).Within (fun cell : Cell => cell = .code)
            (fun _ => True) := createAccount_within self rfl
        exact within.wp (stays_survives fun _ _ => nofun) (fun _ => trivial) entered
    | run implementation call =>
        by_cases own : self = account
        · subst own
          rcases permitted rfl with ⟨isAccount, stranger⟩
          apply Prog.wp_mono (S := chainSignature) _ (wp_runCode_stays Asset
            ⟨self, .run implementation call, readonly⟩ rfl isAccount stranger)
          intro _ after stays
          exact stays
        · exact (Prog.within_true _).wp (stays_survives fun same => absurd same own)
            (fun _ => trivial) entered

end Stays

end Chain

end SuperpositionAccounts
