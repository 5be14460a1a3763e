import SuperpositionAccounts.Account.Success
import SuperpositionAccounts.Factory.Proxy

/-!
# The factory stays what its constructor made it

As long as the admin does not call it, the factory only runs the account
contract. Its requests write the lock and the nonces, whose positions are apart
from the slots of the constructor. A migration finds a settled version and a
sender who is not the owner.
-/

namespace SuperpositionAccounts

open CallTree

theorem U.addr_ofBytes (address : Address) : (U.ofBytes address).addr = address := by
  apply List.Vector.eq
  change (U.ofBytes address).toList.drop 12 = address.toList
  rw [U.toList_ofBytes address (by omega)]
  simp

theorem U.toNat_ofBytes_lt {length : ℕ} (bytes : Bytes length) (short : length ≤ 16) :
    (U.ofBytes bytes).toNat < 2 ^ 128 := by
  rw [U.toNat_ofBytes bytes (by omega)]
  have bound := Borsh.ofLeBytes_lt bytes.toList.reverse
  rw [List.length_reverse, List.Vector.toList_length] at bound
  calc bytes.toNat < 256 ^ length := bound
    _ ≤ 256 ^ 16 := Nat.pow_le_pow_right (by omega) short
    _ = 2 ^ 128 := by norm_num

/-- The nonces of a request have at most 16 bytes. -/
theorem Args.nonces_short {Asset : Type} [AssetRegistry Asset] {args : Args Asset} {nonce : U}
    (member : nonce ∈ args.nonces) : nonce.toNat < 2 ^ 128 := by
  cases args with
  | solve args =>
      rcases List.mem_map.mp member with ⟨item, _, rfl⟩
      exact U.toNat_ofBytes_lt _ (by omega)
  | solveV2 args sig =>
      rcases List.mem_map.mp member with ⟨item, _, rfl⟩
      exact U.toNat_ofBytes_lt _ (by omega)
  | solveV3 args sig =>
      rcases List.mem_map.mp member with ⟨item, _, rfl⟩
      exact U.toNat_ofBytes_lt _ (by omega)
  | transferOnly args sig =>
      rw [List.mem_singleton.mp member]
      exact U.toNat_ofBytes_lt _ (by omega)
  | statement args sig =>
      rw [List.mem_singleton.mp member]
      exact U.toNat_ofBytes_lt _ (by omega)
  | _ => cases member

/-- The slots that requests other than migrations write. -/
def Slot.SetByRequest (slot : Slot) : Prop :=
  slot = .reentrancy ∨ ∃ ms : U, ms.toNat < 2 ^ 128 ∧ slot = .timestamps ms

namespace Deployment

section Integrity

variable (deployment : Deployment)

def constructorSlots : List U :=
  [deployment.slotImpl, deployment.slotAdmin, Bytes.ofNat 32 0, Bytes.ofNat 32 1,
    deployment.platform.keccak256 ((Bytes.ofNat 32 2).toList ++ (Bytes.ofNat 32 0).toList),
    Bytes.ofNat 32 3, Bytes.ofNat 32 5]

/-- The functions of the SDK place slots as the comments of the source say, and hashes collide
neither with each other nor with the fixed slots. -/
structure Apart : Prop where
  slotMap : ∀ slot key, deployment.slots.slotMap slot key =
    deployment.platform.keccak256 (slot.toList ++ key.toList)
  slotImpl : deployment.slots.constSlotOffCurve (asciiBytes "eip1967.proxy.implementation") =
    deployment.slotImpl
  constructed : deployment.constructorSlots.Nodup
  timestamps : ∀ ms : U, ms.toNat < 2 ^ 128 →
    deployment.platform.keccak256 ((Bytes.ofNat 32 4).toList ++ ms.toList) ∉
      deployment.constructorSlots
  lock : deployment.slots.lockSlot (asciiBytes "superposition.accounts") ∉
    deployment.constructorSlots

/-- A call of the factory is not from the admin. -/
def FromStranger (admin : Address) (_ : List (Frame flatSignature))
    (frame : Frame flatSignature) : Prop :=
  frame.self = deployment.factory → frame.msg.sender ≠ admin

instance (admin : Address) (stack : List (Frame flatSignature)) (frame : Frame flatSignature) :
    Decidable (deployment.FromStranger admin stack frame) :=
  inferInstanceAs (Decidable (frame.self = deployment.factory → frame.msg.sender ≠ admin))

variable (impl admin : Address) (publicKey : U)

/-- The factory has the words of its constructor. -/
def Kept (store : Address → U → U) : Prop :=
  ∀ entry ∈ deployment.constructed impl admin publicKey,
    store deployment.factory entry.1 = entry.2

/-- If the factory had these words it has them still, and had them at every event in between. -/
def Stays (before after : World flatSignature) : Prop :=
  deployment.Kept impl admin publicKey before.store →
    Along (deployment.Kept impl admin publicKey) before after

/-- The same, read where the account contract reads. -/
structure Intact (store : Address → U → U) : Prop where
  slotImpl : store deployment.factory (Slot.position deployment.slots .slotImpl) = U.ofBytes impl
  slotAdmin : store deployment.factory deployment.slotAdmin = U.ofBytes admin
  wasCreated : store deployment.factory (Slot.position deployment.slots .wasCreated) = U.one
  ed25519Count : store deployment.factory (Slot.position deployment.slots .ed25519Count) = U.one
  ed25519Slot : store deployment.factory (Slot.position deployment.slots (.ed25519Slot U.zero)) =
    publicKey
  ethereumOwner : store deployment.factory (Slot.position deployment.slots .ethereumOwner) =
    U.ofBytes admin
  version : store deployment.factory (Slot.position deployment.slots .version) = U.two

variable {deployment impl admin publicKey}

/-- The account contract reads what the constructor wrote. -/
theorem Kept.intact {store : Address → U → U}
    (kept : deployment.Kept impl admin publicKey store) (apart : deployment.Apart) :
    deployment.Intact impl admin publicKey store := by
  simp only [Kept, constructed, List.forall_mem_cons] at kept
  rcases kept with ⟨slotImpl, slotAdmin, created, count, key, owner, version, _⟩
  refine ⟨?_, slotAdmin, created, count, ?_, owner, version⟩
  · simp only [Slot.position]
    rw [apart.slotImpl]
    exact slotImpl
  · simp only [Slot.position]
    rw [apart.slotMap]
    exact key

theorem mem_constructorSlots {entry : U × U}
    (member : entry ∈ deployment.constructed impl admin publicKey) :
    entry.1 ∈ deployment.constructorSlots :=
  List.mem_map_of_mem (f := Prod.fst) member

theorem Kept.write {world : World flatSignature}
    (kept : deployment.Kept impl admin publicKey world.store) {self : Address} {slot : U}
    (word : U) (apart : self = deployment.factory → slot ∉ deployment.constructorSlots) :
    deployment.Kept impl admin publicKey (world.write self slot word).store := by
  intro entry member
  rw [World.write_store_of_ne (S := flatSignature) world word]
  · exact kept entry member
  · by_cases own : self = deployment.factory
    · right
      rintro rfl
      exact apart own (mem_constructorSlots member)
    · exact Or.inl fun same => own same.symm

/-- What the frames at every address rely on and keep. -/
theorem along_survives {stack : List (Frame flatSignature)} {frame : Frame flatSignature}
    {world : World flatSignature} {writable : U → Prop}
    (apart : frame.self = deployment.factory →
      ∀ slot, writable slot → slot ∉ deployment.constructorSlots) :
    Survives (deployment.Stays impl admin publicKey) stack frame writable (fun _ => True)
      (Along (deployment.Kept impl admin publicKey) world) := by
  apply Along.survives
  intro middle slot word canWrite kept
  exact kept.write word fun own => apart own slot canWrite

theorem Apart.request_slots (apart : deployment.Apart) {slot : Slot}
    (written : slot.SetByRequest) :
    slot.position deployment.slots ∉ deployment.constructorSlots := by
  rcases written with rfl | ⟨ms, short, rfl⟩
  · exact apart.lock
  · simp only [Slot.position]
    rw [apart.slotMap]
    exact apart.timestamps ms short

section Frames

variable {Asset : Type} [AssetRegistry Asset]
  {rely : World flatSignature → World flatSignature → Prop}
  {stack : List (Frame flatSignature)} {frame : Frame flatSignature}
  {abort : World flatSignature → Prop}

@[simp]
theorem wp_flat_load (slot : U) (post : U → World flatSignature → Prop)
    (world : World flatSignature) :
    Prog.wp (S := flatSignature) (α := U) rely stack frame abort
        (Prog.sload (S := flatSignature) slot) post world ↔
      post (world.store frame.self slot) world :=
  Iff.rfl

/-- A migration of a settled contract by someone else than the owner fails. -/
theorem wp_entryMigrate_stranger {slots : SlotFunctions} {sender : Address}
    {edKey evmOwner implAddr authorityAddr : U} {post : List UInt8 → World flatSignature → Prop}
    {world : World flatSignature}
    (settled : world.store frame.self (Slot.position slots .version) = U.two)
    (stranger : (world.store frame.self (Slot.position slots .ethereumOwner)).addr ≠ sender)
    (aborts : abort world) :
    ((entryMigrate sender edKey evmOwner implAddr authorityAddr).relocate
      (Slot.position slots)).wp rely stack frame abort post world := by
  have notFirst : migrateLevelZero U.two edKey evmOwner = pure false := by
    rw [migrateLevelZero, if_neg (by decide)]
  have notEarly : migrateLevelOne U.two implAddr authorityAddr = pure () := by
    rw [migrateLevelOne, if_neg (by decide)]
  simp only [entryMigrate, assert, Prog.relocate_bind, Prog.relocate_require, Prog.wp_bind]
  rw [Prog.wp_require (S := flatSignature)]
  split
  · change Prog.wp rely stack frame abort ((migrateLevelZero (world.store frame.self
      (Slot.position slots .version)) edKey evmOwner).relocate (Slot.position slots)) _ world
    simp only [settled, notFirst, notEarly, Prog.relocate_pure, Prog.wp_pure, checkMigrator,
      Bool.false_eq_true, if_false, assert, Prog.relocate_bind, Prog.relocate_require,
      Prog.wp_bind]
    change Prog.wp (S := flatSignature) rely stack frame abort (Prog.require
      (decide (U.addr (world.store frame.self (Slot.position slots .ethereumOwner)) = sender)) _)
      _ world
    rw [Prog.wp_require (S := flatSignature), if_neg (by simpa using stranger)]
    exact aborts
  · exact aborts

theorem wp_request (apart : deployment.Apart) {program : Contract (List UInt8)}
    {start world : World flatSignature}
    (along : Along (deployment.Kept impl admin publicKey) start world)
    (within : program.Within (fun slot : Slot => slot.SetByRequest) fun _ => True) :
    (program.relocate (Slot.position deployment.slots)).wp
      (deployment.Stays impl admin publicKey) stack frame
      (Along (deployment.Kept impl admin publicKey) start)
      (fun _ => Along (deployment.Kept impl admin publicKey) start) world := by
  have survives : Survives (deployment.Stays impl admin publicKey) stack frame
      (fun position : U =>
        ∃ named : Slot, named.SetByRequest ∧ named.position deployment.slots = position)
      (fun _ => True) (Along (deployment.Kept impl admin publicKey) start) := by
    apply along_survives
    rintro _ _ ⟨named, written, rfl⟩
    exact apart.request_slots written
  have moved := Prog.Within.relocate (T := U) (Slot.position deployment.slots) within
  exact moved.wp survives (fun holds => holds) along

/-- The account contract, run for the factory, keeps the slots of the constructor. -/
theorem wp_delegated (apart : deployment.Apart) (own : frame.self = deployment.factory)
    {sender : Address} (stranger : sender ≠ admin) (calldata : List UInt8)
    {start world : World flatSignature}
    (along : Along (deployment.Kept impl admin publicKey) start world) :
    ((userEntrypoint Asset deployment.platform deployment.network deployment.factory
      ⟨sender, calldata⟩).relocate (Slot.position deployment.slots)).wp
      (deployment.Stays impl admin publicKey) stack frame
      (Along (deployment.Kept impl admin publicKey) start)
      (fun _ => Along (deployment.Kept impl admin publicKey) start) world := by
  apply userEntrypoint_cases (motive := fun program : Contract (List UInt8) =>
    (program.relocate (Slot.position deployment.slots)).wp _ stack frame _ _ world)
  · intro message
    exact along
  · intro request read
    cases request with
    | beacon =>
        exact wp_request apart along (readSlot_within _)
    | migrate edKey evmOwner implAddr authorityAddr =>
        have intact := along.1.intact apart
        apply wp_entryMigrate_stranger _ _ along
        · rw [own]
          exact intact.version
        · rw [own, intact.ethereumOwner, U.addr_ofBytes]
          exact stranger.symm
    | args args =>
        apply wp_request apart along
        apply entry_within args (Or.inl rfl) _ (fun _ _ => trivial) fun _ _ _ _ _ _ => trivial
        intro nonce member
        exact Or.inr ⟨nonce, Args.nonces_short member, rfl⟩

/-- For a stranger the factory runs the account contract. -/
theorem fallback_stranger_wp {call : Call} {post : List UInt8 → World flatSignature → Prop}
    {world : World flatSignature} (own : frame.self = deployment.factory)
    (kept : deployment.Kept impl admin publicKey world.store)
    (runs : deployment.runsAccount impl = true) (stranger : call.sender ≠ admin) :
    (deployment.fallback Asset call).wp rely stack frame abort post world ↔
      ((userEntrypoint Asset deployment.platform deployment.network deployment.factory
        call).relocate (Slot.position deployment.slots)).wp rely stack frame abort post world := by
  simp only [Kept, constructed, List.forall_mem_cons] at kept
  simp only [fallback, Prog.wp_bind, wp_flat_load, own, kept.2.1, U.addr_ofBytes]
  rw [if_neg stranger]
  simp only [Prog.wp_bind, wp_flat_load, own, kept.1, U.addr_ofBytes, delegatecall]
  rw [if_pos runs]

variable (Asset)

theorem stays_guarantee (apart : deployment.Apart) (runs : deployment.runsAccount impl = true) :
    Guarantee (deployment.system Asset) (deployment.FromStranger admin)
      (fun _ => deployment.Stays impl admin publicKey) := by
  apply Guarantee.along
  intro stack frame world permitted kept
  have along : Along (deployment.Kept impl admin publicKey) world
      (world.record stack frame .entered) := (Along.refl kept).record stack frame .entered
  by_cases own : frame.self = deployment.factory
  · simp only [system]
    rw [if_pos own, fallback_stranger_wp own along.1 runs (permitted own)]
    exact wp_delegated apart own (permitted own) _ along
  · simp only [system]
    rw [if_neg own]
    have survives : Survives (deployment.Stays impl admin publicKey) stack frame
        (fun _ => True) (fun _ => True) (Along (deployment.Kept impl admin publicKey) world) :=
      along_survives fun same => absurd same own
    exact (Prog.within_true _).wp survives (fun holds => holds) along

theorem run_flat_load {α : Type} (system : System flatSignature)
    (handlers : List (Handler flatSignature)) (slot : U) (next : U → Prog flatSignature α)
    (world : World flatSignature) :
    (Prog.sload (S := flatSignature) slot >>= next).run system stack frame handlers world =
      (next (world.store frame.self slot)).run system stack frame handlers world :=
  rfl

/-- A list of writes, made one after the other. -/
theorem run_writes (system : System flatSignature) (stack : List (Frame flatSignature))
    {frame : Frame flatSignature} (writable : frame.readonly = false)
    (handlers : List (Handler flatSignature)) (entries : List (U × U))
    (world : World flatSignature) :
    ∃ after, (entries.forM fun entry =>
        Prog.sstore (S := flatSignature) entry.1 entry.2).run system stack frame handlers world =
          .done () after ∧
      after.trace = world.trace ∧
      (∀ slot ∉ entries.map Prod.fst,
        after.store frame.self slot = world.store frame.self slot) ∧
      ((entries.map Prod.fst).Nodup →
        ∀ entry ∈ entries, after.store frame.self entry.1 = entry.2) := by
  induction entries generalizing world with
  | nil => exact ⟨world, rfl, rfl, fun _ _ => rfl, fun _ => nofun⟩
  | cons entry rest ih =>
      rcases ih (world.write frame.self entry.1 entry.2) with ⟨after, ran, trace, same, set⟩
      refine ⟨after, ?_, trace, ?_, ?_⟩
      · change (if frame.readonly = true then _ else _) = _
        rw [writable]
        exact ran
      · intro slot other
        rw [List.map_cons, List.mem_cons, not_or] at other
        rw [same slot other.2]
        exact World.write_store_of_ne (S := flatSignature) world _ (Or.inr other.1)
      · intro distinct later member
        rw [List.map_cons, List.nodup_cons] at distinct
        rcases List.mem_cons.mp member with rfl | member
        · rw [same _ distinct.1]
          exact World.write_store_self (S := flatSignature) world _ _ _
        · exact set distinct.2 later member

theorem deployed_kept (apart : deployment.Apart) (store : Address → U → U) :
    deployment.Kept impl admin publicKey
        (deployment.deployed Asset impl admin publicKey store).store ∧
      (deployment.deployed Asset impl admin publicKey store).trace = [] := by
  have writable : (⟨deployment.factory, ⟨admin, []⟩, false⟩ : Frame flatSignature).readonly =
      false := rfl
  rcases run_writes (deployment.system Asset) [] writable []
    (deployment.constructed impl admin publicKey) (World.start store) with
    ⟨after, ran, trace, _, set⟩
  have ends : deployment.deployed Asset impl admin publicKey store = after := by
    rw [deployed, constructor, ran]
    rfl
  rw [ends]
  exact ⟨set apart.constructed, trace⟩

theorem enter_beacon {world : World flatSignature}
    (kept : deployment.Kept impl admin publicKey world.store)
    (apart : deployment.Apart) (runs : deployment.runsAccount impl = true) {sender : Address}
    (stranger : sender ≠ admin) (readonly : Bool) (handlers : List (Handler flatSignature)) :
    ((deployment.system Asset).enter stack ⟨deployment.factory, ⟨sender, []⟩, readonly⟩ handlers
      world).2 = .ok (U.ofBytes impl).toList := by
  have intact := kept.intact apart
  simp only [Kept, constructed, List.forall_mem_cons] at kept
  have ran : ((deployment.system Asset).program deployment.factory ⟨sender, []⟩).run
      (deployment.system Asset) stack ⟨deployment.factory, ⟨sender, []⟩, readonly⟩ handlers
      (world.record stack ⟨deployment.factory, ⟨sender, []⟩, readonly⟩ .entered) =
      .done (U.ofBytes impl).toList
        (world.record stack ⟨deployment.factory, ⟨sender, []⟩, readonly⟩ .entered) := by
    simp only [system, if_true]
    rw [fallback, run_flat_load, World.record_store, kept.2.1, U.addr_ofBytes, if_neg stranger,
      run_flat_load, World.record_store, kept.1, U.addr_ofBytes, delegatecall, if_pos runs,
      ← intact.slotImpl]
    rfl
  simp only [System.enter, ran]

end Frames

variable (deployment impl admin publicKey) in
/-- After the constructor, and through any calls of the factory and calls back in which the admin is
never the sender, the slots of the constructor are at every moment as it left them. The beacon
always answers with the implementation. -/
theorem beacon_integrity (Asset : Type) [AssetRegistry Asset] (apart : deployment.Apart)
    (runs : deployment.runsAccount impl = true) (store : Address → U → U)
    (acts : List (Act flatSignature)) (stack : List (Frame flatSignature)) (readonly : Bool) :
    let after := Act.runAll (deployment.system Asset) acts stack readonly
      (deployment.deployed Asset impl admin publicKey store)
    after.Entered (deployment.FromStranger admin) →
    ∀ moment, (moment = after.store ∨ ∃ event ∈ after.trace, moment = event.store) →
      deployment.Intact impl admin publicKey moment ∧
        ∀ (world : World flatSignature) stack sender readonly handlers,
          world.store = moment → sender ≠ admin →
          ((deployment.system Asset).enter stack ⟨deployment.factory, ⟨sender, []⟩, readonly⟩
            handlers world).2 = .ok (U.ofBytes impl).toList := by
  intro after respected moment observed
  rcases deployed_kept Asset apart store with ⟨initially, noTrace⟩
  have along : Along (deployment.Kept impl admin publicKey)
      (deployment.deployed Asset impl admin publicKey store) after :=
    (stays_guarantee Asset apart runs).runAll acts respected initially
  have kept : deployment.Kept impl admin publicKey moment := by
    rcases observed with rfl | ⟨event, member, rfl⟩
    · exact along.1
    · rcases along.2 event member with earlier | holds
      · rw [noTrace] at earlier
        cases earlier
      · exact holds
  refine ⟨kept.intact apart, ?_⟩
  rintro world stack sender readonly handlers rfl stranger
  exact enter_beacon Asset kept apart runs stranger readonly handlers

end Integrity

end Deployment

/-! ### A factory in use -/

namespace Known

/-- Keccak-256 where it is used below, and one word elsewhere. -/
def keccak256 (bytes : List UInt8) : U :=
  if bytes = asciiBytes "eip1967.proxy.implementation" then
    Bytes.ofNat 32 0x360894a13ba1a3210667c828492db98dca3e2076cc3735a920a3ca505d382bbd
  else if bytes = asciiBytes "eip1967.proxy.admin" then
    Bytes.ofNat 32 0xb53127684a568b3173ae13b9f8a6016e243e63b6e8ee1178d6a717850b5d6104
  else if bytes = asciiBytes "superposition.accounts" then
    Bytes.ofNat 32 0x2d45d27736b0e4fd87386bc884e53857ad9ded4e33ac9eb50f5f9e06fda16e71
  else if bytes = U.two.toList ++ U.zero.toList then
    Bytes.ofNat 32 0xabbb5caa7dda850e60932de0934eb1f9d0f59695050f761dc64e443e5030a569
  else if bytes = (Bytes.ofNat 32 4).toList ++ U.one.toList then
    Bytes.ofNat 32 0xedc95719e9a3b28dd8e80877cb5880a9be7de1a13fc8b05e7999683b6b567643
  else
    U.max

def admin : Address :=
  Bytes.ofNat 20 0x8888888888888888888888888888888888888888

def deployment : Deployment where
  factory := account
  network := .arbitrum
  platform := { solvePlatform with keccak256 := keccak256 }
  slots :=
    { slotMap slot key := keccak256 (slot.toList ++ key.toList)
      constSlotOffCurve text := Bytes.ofNat 32 ((keccak256 text).toNat - 1)
      lockSlot := keccak256 }
  runsAccount implementation :=
    decide (implementation = Bytes.ofNat 20 0x6666666666666666666666666666666666666666)
  decodeUpgrade _ := none
  others _ _ := Prog.throw (S := flatSignature) .halted
  callee _ _ _ := none

/-- Only the key slot is both a hash and a slot of the constructor. -/
theorem eq_of_mem_constructorSlots {bytes : List UInt8}
    (member : keccak256 bytes ∈ deployment.constructorSlots) :
    bytes = U.two.toList ++ U.zero.toList := by
  by_contra other
  revert member
  simp only [keccak256, if_neg other]
  split
  · decide +kernel
  split
  · decide +kernel
  split
  · decide +kernel
  split
  · decide +kernel
  · decide +kernel

theorem deployment_apart : deployment.Apart where
  slotMap _ _ := rfl
  slotImpl := rfl
  constructed := by decide +kernel
  timestamps ms short member := by
    have equal : (Bytes.ofNat 32 4).toList ++ ms.toList = U.two.toList ++ U.zero.toList :=
      eq_of_mem_constructorSlots member
    have same := List.append_inj_left equal (by simp)
    revert same
    decide +kernel
  lock := by decide +kernel

/-- A stranger tries to migrate the factory, has it solve a request and asks for the beacon. -/
def strangerActs : List (Act flatSignature) :=
  [.call account ⟨relayer, selMigrate ++ Go.knownKey.toList ++ Go.knownKey.toList ++
      Go.knownKey.toList ++ U.zero.toList⟩ [],
    .call account ⟨relayer, Borsh.toVec solveRequest⟩ [.answer [] accepted],
    .call account ⟨relayer, []⟩ []]

def factoryRun : World flatSignature :=
  Act.runAll (deployment.system KnownAsset) strangerActs [] false
    (deployment.deployed KnownAsset (Bytes.ofNat 20 0x6666666666666666666666666666666666666666)
      admin Go.knownKey fun _ _ => U.zero)

end Known

theorem Deployment.beacon_integrity_used :
    Known.factoryRun.store Known.account
        (Slot.position Known.deployment.slots (.timestamps U.one)) = U.one ∧
      Known.deployment.Intact (Bytes.ofNat 20 0x6666666666666666666666666666666666666666)
        Known.admin Go.knownKey Known.factoryRun.store := by
  have respected : Known.factoryRun.Entered (Known.deployment.FromStranger Known.admin) := by
    decide +kernel
  refine ⟨by decide +kernel, ?_⟩
  rw [Known.factoryRun] at respected ⊢
  exact (Deployment.beacon_integrity Known.deployment _ _ _ KnownAsset Known.deployment_apart
    (by decide +kernel) _ _ _ _ respected _ (Or.inl rfl)).1

end SuperpositionAccounts
