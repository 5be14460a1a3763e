import SuperpositionAccounts.Factory.Requests

/-!
# Creating an account

An owner signs a text with a key and an authority. A request with the signature
that succeeds has created the account of exactly that owner, and it can succeed
only once.

The account belongs to the owner afterwards if it was migrated by the account
contract. That is not so in every run: the proxy does not check whether its
beacon answered, and the factory does not answer its own admin.
-/

namespace SuperpositionAccounts

open CallTree

namespace Chain

/-! ### What was signed -/

/-- `PREIMAGE_TXT_SIZE`. -/
def preimageTxtSize : ℕ :=
  28 + 63 + 22 + 40

/-- The text an owner signs. -/
def preimageTxt (pubKey : U) (authority : Address) : List UInt8 :=
  asciiBytes "New Superposition account: " ++ hexEncode pubKey.toList ++
    asciiBytes ", authority contract: " ++ hexEncode authority.toList

theorem makePreimage_eq (platform : Platform) (pubKey : U) (authority : Address) :
    makePreimage platform pubKey authority = platform.keccak256
      (0x19 :: asciiBytes "Ethereum Signed Message:\n153" ++ preimageTxt pubKey authority) := by
  simp only [makePreimage, preimageTxt, List.append_assoc, List.cons_append]

theorem length_preimageTxt (pubKey : U) (authority : Address) :
    (preimageTxt pubKey authority).length = preimageTxtSize := by
  have before : (asciiBytes "New Superposition account: ").length = 27 := by decide
  have between : (asciiBytes ", authority contract: ").length = 22 := by decide
  simp only [preimageTxt, List.length_append, length_hexEncode, before, between,
    List.Vector.toList_length, preimageTxtSize]

theorem preimageTxt_inj {pubKey otherKey : U} {authority otherAuthority : Address}
    (same : preimageTxt pubKey authority = preimageTxt otherKey otherAuthority) :
    pubKey = otherKey ∧ authority = otherAuthority := by
  rcases List.append_inj same (by simp [length_hexEncode]) with ⟨sameStart, sameAuthority⟩
  have sameKey := List.append_cancel_left (List.append_cancel_right sameStart)
  exact ⟨List.Vector.eq _ _ (hexEncode_injective sameKey),
    List.Vector.eq _ _ (hexEncode_injective sameAuthority)⟩

/-! ### Creation -/

/-- For every state of a factory that runs the account contract, whatever the contracts called on
the way do, and whatever happens later. -/
theorem creation_as_signed (chain : Chain) (Asset : Type) [AssetRegistry Asset]
    (documented : chain.Documented) {store : Address → Cell → U}
    (deployed : store chain.factory .code ≠ U.zero)
    (runs : (chain.code (store chain.factory (.slot .slotImpl)).addr).isAccount = true)
    (sender : Address) {calldata : List UInt8} {key : U} {eoaAddr : Address} {v : UInt8}
    {r s : U} {solveArgs : Vec (SolveArgsSigArgs Asset)} {authority : Option Address}
    (read : readRequest chain.platform calldata =
      .ok (.args (.freshBackwards key eoaAddr v r s solveArgs authority)))
    (vacant : store (chain.accountOf eoaAddr) .code = U.zero →
      ∀ slot, store (chain.accountOf eoaAddr) (.slot slot) = U.zero)
    (stack : List (Frame chainSignature)) (readonly : Bool)
    (script : List (Reaction chainSignature)) :
    let system := chain.system Asset
    let account := chain.accountOf eoaAddr
    let result := system.enter stack ⟨chain.factory, .call ⟨sender, calldata⟩, readonly⟩
      (Reaction.runAll system script) (World.start store)
    (∀ output, result.2 = .ok output →
      (chain.platform.ecrecoverPost (chain.platform.keccak256
          (0x19 :: asciiBytes "Ethereum Signed Message:\n153" ++
            preimageTxt key (authorityOf authority))) v r s = some eoaAddr ∧
        store account .code = U.zero ∧ result.1.store account .code ≠ U.zero ∧
        output = (U.ofBytes account).toList) ∧
      (result.1.Entered (chain.Undisturbed account eoaAddr) →
        Owned account key eoaAddr (authorityOf authority) (store chain.factory (.slot .slotImpl))
            (slots result.1.store) ∧
          (∀ nonce ∈ (Args.solve solveArgs).nonces,
            result.1.store account (.slot (.timestamps nonce)) = U.one) ∧
          (solveArgs.toList ≠ [] → chain.Solved account solveArgs result.1.log)) ∧
      ∀ acts laterStack laterReadonly,
        let later := Act.runAll system acts laterStack laterReadonly result.1
        (chain.code (later.store chain.factory (.slot .slotImpl)).addr).isAccount = true →
        ∀ laterSender laterCalldata laterKey laterV laterR laterS
          (laterArgs : Vec (SolveArgsSigArgs Asset)) laterAuthority,
          readRequest chain.platform laterCalldata = .ok (.args (.freshBackwards laterKey eoaAddr
            laterV laterR laterS laterArgs laterAuthority)) →
          ∀ stack readonly script, ∃ err, (system.enter stack
            ⟨chain.factory, .call ⟨laterSender, laterCalldata⟩, readonly⟩
            (Reaction.runAll system script) later).2 = .error err) ∧
    (∀ err, result.2 = .error err → result.1.store = store) ∧
    (preimageTxt key (authorityOf authority)).length = preimageTxtSize ∧
    ∀ otherKey otherAuthority,
      preimageTxt key (authorityOf authority) = preimageTxt otherKey otherAuthority →
        key = otherKey ∧ authorityOf authority = otherAuthority := by
  intro system account result
  refine ⟨?_, ?_, length_preimageTxt key _, fun _ _ => preimageTxt_inj⟩
  · intro output succeeded
    have completes : system.Completes stack
        ⟨chain.factory, .call ⟨sender, calldata⟩, readonly⟩ (World.start store) output result.1 :=
      ⟨script, Prod.ext rfl succeeded⟩
    rcases creates_of_request documented runs read completes with
      ⟨signed, unused, given, creates⟩
    have apart : account ≠ chain.factory := by
      intro same
      change store account .code = U.zero at unused
      rw [same] at unused
      exact deployed unused
    rw [makePreimage_eq] at signed
    refine ⟨⟨signed, unused, creates.hasCode, given⟩, ?_, ?_⟩
    · intro respected
      exact creates.owned documented apart runs (vacant unused .version) respected
    · intro acts laterStack laterReadonly later laterRuns laterSender laterCalldata _ _ _ _ _ _
        laterRead stack readonly script
      have stillCode : later.store account .code ≠ U.zero :=
        (code_guarantee chain Asset account).runAll acts (fun _ _ _ => trivial) creates.hasCode
      cases outcome : (system.enter stack
          ⟨chain.factory, .call ⟨laterSender, laterCalldata⟩, readonly⟩
          (Reaction.runAll system script) later).2 with
      | error err => exact ⟨err, rfl⟩
      | ok output =>
          have again : system.Completes stack
              ⟨chain.factory, .call ⟨laterSender, laterCalldata⟩, readonly⟩ later output _ :=
            ⟨script, Prod.ext rfl outcome⟩
          rcases creates_of_request documented laterRuns laterRead again with ⟨_, unused, _⟩
          exact absurd unused stillCode
  · intro err failed
    exact congrArg State.store (system.enter_failed failed)

/-! ### Known creations -/

namespace Known

def eoaAddr : Address :=
  Bytes.ofNat 20 0x9d8a62f656a8d1615c1294fd71e9cfb3e4855a4f

def account : Address :=
  Bytes.ofNat 20 0x714993be4a0e01a2284039437646997e12ee52fa

def implementation : Address :=
  Bytes.ofNat 20 0x6666666666666666666666666666666666666666

def digest : U :=
  Bytes.ofNat 32 0x283b7f73f69e5566b6694e0899b61dd6eab22a6680d7fb4bf7f73b78dfebe6da

def signatureR : U :=
  Bytes.ofNat 32 0xc84ee115013293517eb4093c0dfdb14850f2793e8bb2bca959530cce9cd6f145

def signatureS : U :=
  Bytes.ofNat 32 0x722c0643991594df65892478af7f3b310deefe386592d44bb41afa2d654033aa

def salt : U :=
  Bytes.ofNat 32 0x97b57340ce9e8b67ec924a29f2310201901547a5aa1a7de69b1b112758e9f860

def codeHash : U :=
  Bytes.ofNat 32 0xaa9a3027e578e60ef3b35ec32f13fa67add825cb2f954002db019f4259554293

/-- Keccak-256 where it is used below, and one word elsewhere. -/
def keccak256 (bytes : List UInt8) : U :=
  if bytes = asciiBytes "upgradeToAndCall(address,bytes)" then
    Bytes.ofNat 32 0x4f1ef2866b98625bdfefae89411f7a82754ac4089eff8e78c8832329a538337f
  else if bytes = 0x19 :: asciiBytes "Ethereum Signed Message:\n153" ++
      preimageTxt Go.knownKey (Bytes.ofNat 20 0) then
    digest
  else if bytes = eoaAddr.toList then
    salt
  else if bytes = Metamorphic.initCode Metamorphic.Known.factory then
    codeHash
  else if bytes = 0xff :: Metamorphic.Known.factory.toList ++ salt.toList ++ codeHash.toList then
    Bytes.ofNat 32 0xd96d9e175047327658096226714993be4a0e01a2284039437646997e12ee52fa
  else
    U.max

/-- The owner has signed for the known key. -/
def platform : Platform :=
  { SuperpositionAccounts.Known.solvePlatform with
    keccak256 := keccak256
    ecrecoverPost hash v r s :=
      if hash = digest ∧ v = 28 ∧ r = signatureR ∧ s = signatureS then some eoaAddr else none
    makeMetamorphicEvmfnBeaconProxy := Metamorphic.initCode }

def chain : Chain where
  factory := Metamorphic.Known.factory
  network := .arbitrum
  platform := platform
  decodeUpgrade _ := none
  code address := if address = implementation then .account else .empty
  route _ _ _ := none

/-- A factory right after its constructor, and nothing else. -/
def store (admin : Address) : Address → Cell → U := fun address cell =>
  if address = Metamorphic.Known.factory then
    match cell with
    | .code => U.one
    | .slotAdmin => U.ofBytes admin
    | .slot .wasCreated => U.one
    | .slot .ed25519Count => U.one
    | .slot (.ed25519Slot _) => Go.knownKey
    | .slot .ethereumOwner => U.ofBytes admin
    | .slot .version => U.two
    | .slot .slotImpl => U.ofBytes implementation
    | _ => U.zero
  else
    U.zero

theorem store_elsewhere (admin : Address) {address : Address}
    (elsewhere : address ≠ Metamorphic.Known.factory) (cell : Cell) :
    store admin address cell = U.zero :=
  if_neg elsewhere

/-- What the account is to solve first. -/
def solveArgs : Vec (SolveArgsSigArgs KnownAsset) :=
  Vec.singleton ⟨SuperpositionAccounts.Known.solveSig, SuperpositionAccounts.Known.solve⟩

def calldata (solveArgs : Vec (SolveArgsSigArgs KnownAsset)) : List UInt8 :=
  Borsh.toVec (Args.freshBackwards Go.knownKey eoaAddr 28 signatureR signatureS solveArgs none)

def result (admin : Address) (solveArgs : Vec (SolveArgsSigArgs KnownAsset))
    (script : List (Reaction chainSignature)) :
    World chainSignature × Except chainSignature.Err chainSignature.Output :=
  (chain.system KnownAsset).enter []
    ⟨chain.factory, .call ⟨SuperpositionAccounts.Known.relayer, calldata solveArgs⟩, false⟩
    (Reaction.runAll (chain.system KnownAsset) script) (World.start (store admin))

theorem wordAt_append {before : List UInt8} (index : ℕ) (placed : before.length = 32 * index)
    (word : U) (rest : List UInt8) : wordAt (before ++ (word.toList ++ rest)) index = word := by
  apply List.Vector.eq
  change ((before ++ (word.toList ++ rest)).drop (32 * index) ++ List.replicate 32 0).take 32 = _
  rw [← placed, List.drop_left, List.append_assoc, List.take_left' (by simp)]

theorem documented : chain.Documented where
  readWords first second third fourth := by
    have long : ¬(first.toList ++ second.toList ++ third.toList ++ fourth.toList).length < 128 := by
      simp
    change (if _ then _ else _) = _
    rw [if_neg long]
    have atFirst := wordAt_append 0 List.length_nil first
      (second.toList ++ (third.toList ++ fourth.toList))
    have atSecond := wordAt_append 1 first.toList_length second (third.toList ++ fourth.toList)
    have atThird := wordAt_append 2
      (by simp : (first.toList ++ second.toList).length = 64) third fourth.toList
    have atFourth := wordAt_append 3
      (by simp : (first.toList ++ second.toList ++ third.toList).length = 96) fourth []
    simp only [List.nil_append, List.append_nil, List.append_assoc] at *
    rw [atFirst, atSecond, atThird, atFourth]
  selector := by decide +kernel

/-- The beacon refuses its admin, and the account goes on without an implementation. -/
def refused : List (Reaction chainSignature) :=
  [.enter [.enter [], .enter [.enter [], .enter []]]]

/-- The beacon answers, the account is migrated and calls its target. -/
def answered : List (Reaction chainSignature) :=
  [.enter [.enter [], .enter [.enter [.enter []], .enter []],
    .enter [.enter [.answer [] SuperpositionAccounts.accepted]]]]

/-- The request of an owner, with the admin elsewhere. -/
def created : World chainSignature × Except chainSignature.Err chainSignature.Output :=
  result SuperpositionAccounts.Known.admin solveArgs answered

/-- The same request without solves, with the new account as the admin. -/
def unmigrated : World chainSignature × Except chainSignature.Err chainSignature.Output :=
  result account Vec.empty refused

end Known

/-- If the admin of the factory is the new account itself, the beacon refuses to answer it. The
request succeeds and the account exists, but it was not migrated and belongs to nobody. -/
theorem created_unmigrated :
    (Known.chain.Documented ∧
      Known.store Known.account Known.chain.factory .code ≠ U.zero ∧
      (Known.chain.code (Known.store Known.account Known.chain.factory
        (.slot .slotImpl)).addr).isAccount = true ∧
      (readRequest Known.chain.platform (Known.calldata Vec.empty) :
        Except String (Request KnownAsset)) = .ok (.args (.freshBackwards Go.knownKey
          Known.eoaAddr 28 Known.signatureR Known.signatureS Vec.empty none))) ∧
    let account := Known.chain.accountOf Known.eoaAddr
    Known.unmigrated.2 = .ok (U.ofBytes account).toList ∧
      Known.unmigrated.1.store account .code = U.one ∧
      slots Known.unmigrated.1.store account .version = U.zero ∧
      slots Known.unmigrated.1.store account .ethereumOwner = U.zero ∧
      slots Known.unmigrated.1.store account (.ed25519Slot U.zero) = U.zero := by
  refine ⟨⟨Known.documented, by decide +kernel, by decide +kernel, readRequest_toVec _ _⟩, ?_⟩
  decide +kernel

theorem creation_as_signed_known :
    Known.created.2 = .ok (U.ofBytes Known.account).toList ∧
      Owned Known.account Go.knownKey Known.eoaAddr (Bytes.ofNat 20 0)
        (U.ofBytes Known.implementation) (slots Known.created.1.store) ∧
      Known.created.1.store Known.account (.slot (.timestamps U.one)) = U.one := by
  have located : Known.chain.accountOf Known.eoaAddr = Known.account := by decide +kernel
  have succeeded : Known.created.2 = .ok (U.ofBytes Known.account).toList := by decide +kernel
  have respected : Known.created.1.Entered
      (Known.chain.Undisturbed (Known.chain.accountOf Known.eoaAddr) Known.eoaAddr) := by
    decide +kernel
  have elsewhere : Known.chain.accountOf Known.eoaAddr ≠ Metamorphic.Known.factory := by
    decide +kernel
  have deployed : Known.store SuperpositionAccounts.Known.admin Known.chain.factory .code ≠
      U.zero := by decide +kernel
  have implAddr : Known.store SuperpositionAccounts.Known.admin Known.chain.factory
      (.slot .slotImpl) = U.ofBytes Known.implementation := by decide +kernel
  have read : readRequest Known.chain.platform (Known.calldata Known.solveArgs) =
      .ok (.args (.freshBackwards Go.knownKey Known.eoaAddr 28 Known.signatureR Known.signatureS
        Known.solveArgs none)) := readRequest_toVec _ _
  have used : U.one ∈ (Args.solve Known.solveArgs).nonces := by decide +kernel
  rw [Known.created, Known.result] at succeeded respected ⊢
  have created := (creation_as_signed Known.chain KnownAsset Known.documented deployed
    (by decide +kernel) SuperpositionAccounts.Known.relayer read
    (fun _ _ => Known.store_elsewhere _ elsewhere _) [] false Known.answered).1 _ succeeded
  rw [located, implAddr] at created
  rcases created.2.1 (by rwa [located] at respected) with ⟨owned, spent, _⟩
  exact ⟨succeeded, owned, spent U.one used⟩

end Chain

end SuperpositionAccounts
