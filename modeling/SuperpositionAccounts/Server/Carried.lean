import SuperpositionAccounts.Server.HexTexts
import SuperpositionAccounts.Server.Outbox
import SuperpositionAccounts.Server.Spelling

/-!
# The transactions of the server as the contracts read them

Whatever the requests do and however they interleave, the server hands only two
kinds of transactions to the node. One goes to the factory, which reads from it
the creation of an account with the server's key. The other goes to the router
for the account of an address that showed a session secret; the account reads
from it one solve, whose signature passes its check, and which takes only from
that address and acts only for it.
-/

namespace SuperpositionAccounts

namespace Go

open Threads Result

/-! ### Reading addresses and arguments -/

theorem hex2Bytes_of_spells {text : List Char} {bytes : List UInt8} (spelled : Spells text bytes) :
    hex2Bytes text = bytes := by
  induction spelled with
  | nil => rfl
  | cons highDigit lowDigit _ ih =>
      rw [hex2Bytes, highDigit, lowDigit]
      simp only
      rw [ih, ofNat_sixteen]

/-- The upper-case mark is no digit, so only go-ethereum reads a text with it. -/
theorem strip0x_of_spells {text : List Char} {bytes : List UInt8}
    (spelled : Spells (trim0x text) bytes) : strip0x text = trim0x text := by
  unfold strip0x
  split
  · rfl
  · rename_i rest
    change Spells ('0' :: 'X' :: rest) bytes at spelled
    have none : hexValue 'X' = none := by decide
    cases spelled with
    | cons _ lowDigit _ =>
        rw [none] at lowDigit
        cases lowDigit
  · rename_i notLower _
    unfold trim0x
    split
    · exact absurd rfl (notLower _)
    · rfl

/-- The two readings of an address agree where both accept the text. -/
theorem hexToAddress_of_strToAddr {text : String} {addr : Address}
    (accepted : isHexAddress text = true) (parsed : strToAddr text = .ok addr) :
    hexToAddress text = addr := by
  rcases (strToAddr_eq_ok_iff text addr).mp parsed with ⟨rfl, _⟩ | spelled
  · cases accepted
  · have even : (trim0x text.toList).length % 2 ≠ 1 := by
      rw [length_of_spells spelled]
      omega
    rw [hexToAddress, fromHex, strip0x_of_spells spelled, if_neg even,
      hex2Bytes_of_spells spelled, bytesToAddress_toList]

section Contracts

variable {Asset : Type} [AssetRegistry Asset]

/-- The solves of the server: one takes an amount of a token from the address and mints with it
for the address, the other takes nothing and claims for the address. -/
inductive Moves (usdc : Asset) (claimantHelper eoa : Address) :
    SuperpositionAccounts.SolveArgs Asset → Prop where
  | mint {permit : Vec (SuperpositionAccounts.Permit Asset)}
      (permits : ∀ given ∈ permit.toList, given.asset = usdc) (market : Address)
      (outcome : Bytes 8) (amount : U) (referrer : Address) (msTs : Bytes 16) :
      Moves usdc claimantHelper eoa
        { permit
          fromArgs := Vec.singleton { asset := usdc, toTake := amount, maxUnspent := default }
          target := market
          cd := newMint outcome amount referrer eoa
          msTs }
  | claim (pools : Pools Address) (msTs : Bytes 16) :
      Moves usdc claimantHelper eoa
        { permit := Vec.empty
          fromArgs := Vec.empty
          target := claimantHelper
          cd := newPayoffForOther pools eoa
          msTs }

omit [AssetRegistry Asset] in
theorem asset_of_parsePermit {asset : Asset} {permit : Option Model.Permit}
    {parsed : Permit Asset} (read : parsePermit asset permit = .ok (some parsed)) :
    parsed.asset = asset := by
  cases permit with
  | none => cases read
  | some permit =>
      unfold parsePermit at read
      rcases bind_eq_ok (guard_eq_ok read).2 with ⟨made, wrapped, same⟩
      cases same
      have built := ok_of_wrap_eq_ok wrapped
      unfold newPermitGraph at built
      rcases bind_eq_ok (guard_eq_ok built).2 with ⟨r, _, built⟩
      rcases bind_eq_ok built with ⟨s, _, built⟩
      cases built
      rfl

theorem moves_of_mint {sum512 : List UInt8 → Bytes 64} {prog : Program} {usdc : Asset}
    {market outcome amount referrer : String} {eoa : Address} {permit : Option Model.Permit}
    {msTs : String} {f : SolveArgsSigArgs Asset}
    (made : createSolveArgsSigArgsMintGraph sum512 prog usdc market outcome amount referrer eoa
      permit msTs = .ok f) (claimantHelper : Address) :
    Moves usdc claimantHelper eoa f.args.toRust := by
  unfold createSolveArgsSigArgsMintGraph at made
  rcases bind_eq_ok made with ⟨o, _, made⟩
  rcases bind_eq_ok made with ⟨a, _, made⟩
  rcases bind_eq_ok made with ⟨m, _, made⟩
  rcases bind_eq_ok made with ⟨ref, _, made⟩
  rcases bind_eq_ok made with ⟨nonce, _, made⟩
  rcases bind_eq_ok made with ⟨p, read, made⟩
  have signed := eq_ok_of_lift made
  simp only [createSolveArgsSigArgsMint, createSolveArgsSigArgs, bind, Except.bind] at signed
  split at signed
  · cases signed
  · cases signed
    cases p with
    | none => exact .mint (by simp [Vec.map, Vec.empty]) m o a ref nonce
    | some parsed =>
        have same := asset_of_parsePermit read
        refine .mint ?_ m o a ref nonce
        simp [Vec.map, Vec.singleton, Permit.toRust, same]

theorem moves_of_claim {sum512 : List UInt8 → Bytes 64} {prog : Program}
    {claimantHelper eoa : Address} {markets : Pools String} {msTs : String}
    {f : SolveArgsSigArgs Asset}
    (made : createPayoffForOtherArgsGraph sum512 prog claimantHelper eoa markets msTs = .ok f)
    (usdc : Asset) : Moves usdc claimantHelper eoa f.args.toRust := by
  unfold createPayoffForOtherArgsGraph at made
  rcases bind_eq_ok made with ⟨nonce, _, made⟩
  rcases bind_eq_ok made with ⟨addrs, _, made⟩
  have signed := eq_ok_of_lift made
  simp only [createPayoffForOtherArgs, createSolveArgsSigArgsNoToken, bind, Except.bind] at signed
  split at signed
  · cases signed
  · cases signed
    exact .claim _ nonce

variable (env : Env Asset) (r : Resolver) (precompiles : Precompiles)

/-- One solve, of which the address is the owner in both places. -/
def ownSolve (eoa : Address) (item : SuperpositionAccounts.SolveArgs Asset) :
    SuperpositionAccounts.SolveV2Args Asset where
  args := Vec.singleton item
  permitOwner := eoa
  transferOwner := eoa

/-- The factory reads the creation of the account of the address, with the server's key and at
most one solve, which passes the check of the account. -/
def CarriesCreation (eoa : Address) (tx : Tx) : Prop :=
  ∃ v sigR sigS solves authority, tx.target = r.accountsFactoryAddr ∧
    Borsh.deserialize tx.data = some (SuperpositionAccounts.Args.freshBackwards r.accPubKey eoa v
      sigR sigS solves authority, []) ∧
    solves.toList.length ≤ 1 ∧
    ∀ solve ∈ solves.toList, Moves env.usdc r.claimantHelperAddr eoa solve.args ∧
      precompiles.edphverifyPre (Borsh.toVec solve.args) r.accPubKey solve.sig = true

/-- The account of the address gets one solve through the router, owned by the address, which
passes the check of the account. -/
def CarriesSolve (eoa : Address) (tx : Tx) : Prop :=
  ∃ item sig bytes, tx.target = r.safetyRouterAddr ∧
    tx.data = List.replicate 12 0 ++ (getClientAddr env r.accountsFactoryAddr eoa).toList ++ bytes ∧
    Borsh.deserialize bytes =
      some (SuperpositionAccounts.Args.solveV2 (ownSolve eoa item) sig, []) ∧
    Moves env.usdc r.claimantHelperAddr eoa item ∧
    precompiles.edphverifyPre (Borsh.toVec (ownSolve eoa item)) r.accPubKey sig = true

variable {env r precompiles} [Inhabited Asset]

theorem SendsSolve.carries (signs : env.progDalek.SignsWith precompiles r.accPubKey)
    (hashes : env.sum512 = precompiles.sha512) {eoa : Address} {args : SolveArgs Asset}
    {signed : SignedTx} (sends : SendsSolve env r eoa args signed)
    (moves : Moves env.usdc r.claimantHelperAddr eoa args.toRust) :
    signed.tx.value = 0 ∧ CarriesSolve env r precompiles eoa signed.tx := by
  rcases sends with ⟨sent, b, made, written, carries⟩
  rw [hashes] at made
  rcases createSolveV2_verifies signs made with ⟨bytes, sig, rewritten, read, verified⟩
  cases written.symm.trans rewritten
  exact ⟨carries.value, args.toRust, sig, b, carries.target, carries.data, read, moves, verified⟩

omit [AssetRegistry Asset] [Inhabited Asset] in
theorem createAccountToFreshBackwardsGraph_fields {pubKey : Bytes 32}
    {createAccount : Model.CreateAccount} {untagged : Untagged Asset}
    (created : createAccountToFreshBackwardsGraph pubKey createAccount = .ok untagged) :
    untagged.val.key = pubKey ∧ strToAddr createAccount.eoaAddr = .ok untagged.val.eoaAddr := by
  unfold createAccountToFreshBackwardsGraph at created
  rcases bind_eq_ok created with ⟨eoa, read, created⟩
  rcases bind_eq_ok created with ⟨authority, _, created⟩
  rcases bind_eq_ok (guard_eq_ok created).2 with ⟨r, _, created⟩
  rcases bind_eq_ok created with ⟨s, _, created⟩
  cases created
  exact ⟨rfl, ok_of_wrap_eq_ok read⟩

omit [Inhabited Asset] in
/-- The server signs the solve it tags onto a creation. -/
theorem BuildsCreation.solves (signs : env.progDalek.SignsWith precompiles r.accPubKey)
    (hashes : env.sum512 = precompiles.sha512) {createAccount : Model.CreateAccount}
    {mint : Option Model.Mint} {f : FreshBackwards Asset}
    (builds : BuildsCreation env r createAccount mint f) :
    f.key = r.accPubKey ∧ strToAddr createAccount.eoaAddr = .ok f.eoaAddr ∧
      f.solveArgs.toList.length ≤ 1 ∧
      ∀ solve ∈ f.solveArgs.toList,
        Moves env.usdc r.claimantHelperAddr (hexToAddress createAccount.eoaAddr)
          solve.toRust.args ∧
        precompiles.edphverifyPre (Borsh.toVec solve.toRust.args) r.accPubKey
          solve.toRust.sig = true := by
  rcases builds with ⟨untagged, created, ⟨_, rfl⟩ | ⟨given, _, tagged⟩⟩
  · rcases createAccountToFreshBackwardsGraph_fields created with ⟨key, addr⟩
    rw [untagged.property]
    exact ⟨key, addr, by simp [Vec.empty], by simp [Vec.empty]⟩
  · rcases createAccountToFreshBackwardsGraph_fields created with ⟨key, addr⟩
    unfold tagFreshBackwardsWithMintGraph at tagged
    rcases bind_eq_ok tagged with ⟨solve, made, same⟩
    cases same
    refine ⟨key, addr, by simp [Vec.singleton], ?_⟩
    intro other member
    obtain rfl : other = solve := by simpa [Vec.singleton] using member
    refine ⟨moves_of_mint made _, ?_⟩
    rw [hashes] at made
    unfold createSolveArgsSigArgsMintGraph at made
    rcases bind_eq_ok made with ⟨o, _, made⟩
    rcases bind_eq_ok made with ⟨a, _, made⟩
    rcases bind_eq_ok made with ⟨m, _, made⟩
    rcases bind_eq_ok made with ⟨ref, _, made⟩
    rcases bind_eq_ok made with ⟨nonce, _, made⟩
    rcases bind_eq_ok made with ⟨p, _, made⟩
    exact createSolveArgsSigArgs_verifies signs (eq_ok_of_lift made)

theorem BuildsCreation.carries (signs : env.progDalek.SignsWith precompiles r.accPubKey)
    (hashes : env.sum512 = precompiles.sha512) {createAccount : Model.CreateAccount}
    {mint : Option Model.Mint} {f : FreshBackwards Asset} {b : List UInt8} {tx : Tx}
    (builds : BuildsCreation env r createAccount mint f)
    (accepted : isHexAddress createAccount.eoaAddr = true)
    (written : (freshArgs f).serialize = some b)
    (carries : tx.Carries r.safetyRouterAddr false r.accountsFactoryAddr b none) :
    tx.value = 0 ∧
      CarriesCreation env r precompiles (hexToAddress createAccount.eoaAddr) tx := by
  rcases builds.solves signs hashes with ⟨key, addr, few, solves⟩
  have named : f.eoaAddr = hexToAddress createAccount.eoaAddr :=
    (hexToAddress_of_strToAddr accepted addr).symm
  have known : (freshArgs f).enum ≤ 10 := (by decide : (0 : UInt8) ≤ 10)
  rcases Args.deserialize_serialize known with ⟨bytes, decoded, rewritten, translated, read⟩
  cases written.symm.trans rewritten
  cases translated
  refine ⟨carries.value, f.v, f.r, f.s, f.solveArgs.map SolveArgsSigArgs.toRust, f.authority,
    carries.target, ?_, by simpa [Vec.map] using few, ?_⟩
  · rw [carries.data, ← key, ← named]
    exact read
  · intro solve member
    rcases List.mem_map.mp (by simpa [Vec.map] using member) with ⟨given, inside, rfl⟩
    exact solves given inside

/-- What a mutation sends is a creation of the account it names, or a solve of the address it is
served as. -/
theorem Mutation.SendsTx.carries (signs : env.progDalek.SignsWith precompiles r.accPubKey)
    (hashes : env.sum512 = precompiles.sha512) {ctx : Context} {mutation : Mutation}
    {signed : SignedTx} (sends : mutation.SendsTx env r ctx signed) :
    signed.tx.value = 0 ∧
      ((∃ eoa, CarriesCreation env r precompiles eoa signed.tx ∧ mutation.CreatesFor eoa) ∨
        ∃ eoa, CarriesSolve env r precompiles eoa signed.tx ∧ ctx.authed = true ∧
          ctx.eoa = some eoa) := by
  cases mutation with
  | createAccountExec createAccount mint dryrun =>
      rcases sends with ⟨real, accepted, f, b, builds, written, carries⟩
      rcases builds.carries signs hashes accepted written carries with ⟨value, creation⟩
      exact ⟨value, .inl ⟨_, creation, createAccount, mint, dryrun, rfl, real, accepted, rfl⟩⟩
  | requestSecret _ _ _ _ _ _ => exact sends.elim
  | ninelivesMint mint dryrun =>
      rcases sends with ⟨_, authed, eoa, f, named, made, sends⟩
      rcases sends.carries signs hashes (moves_of_mint made _) with ⟨value, solve⟩
      exact ⟨value, .inr ⟨eoa, solve, authed, named⟩⟩
  | claimRewards markets msTs dryrun =>
      rcases sends with ⟨_, authed, eoa, f, named, made, sends⟩
      rcases sends.carries signs hashes (moves_of_claim made _) with ⟨value, solve⟩
      exact ⟨value, .inr ⟨eoa, solve, authed, named⟩⟩

end Contracts

/-! ### Whole runs -/

section Runs

variable {Asset : Type} [AssetRegistry Asset] [Inhabited Asset] {env : Env Asset} {r : Resolver}
  {precompiles : Precompiles} {monthAfter : Timestamp → Timestamp}
  {allow : ServerConfig monthAfter → ℕ → Op → Prop} {config : ServerConfig monthAfter}

end Runs

/-! ### Known answers: the owner asks for a secret and mints with it -/

namespace Known

/-- The signing program has the signatures of the run below and fails otherwise. -/
def signingEnv : Env KnownAsset :=
  { ownersMint.env with
    progDalek := fun text =>
      if text = hexEncode ownersMint.digest.toList then .ok ownersMint.signature.toList
      else if text = hexEncode ownersMint.digestV2.toList then .ok ownersMint.signatureV2.toList
      else .error ("", "exit status 1") }

def signingPrecompiles : Precompiles where
  sha512 := ownersMint.env.sum512
  edphverifyPost digest key sig := decide (key = knownKey ∧
    (digest = ownersMint.digest ∧ sig = ownersMint.signature ∨
      digest = ownersMint.digestV2 ∧ sig = ownersMint.signatureV2))

theorem signingEnv_signsWith :
    signingEnv.progDalek.SignsWith signingPrecompiles resolver.accPubKey := by
  intro digest output printed
  simp only [signingEnv] at printed
  split at printed
  · rename_i sameText
    cases printed
    have sameDigest := List.Vector.eq _ _ (hexEncode_injective sameText)
    simp [signingPrecompiles, sameDigest, copySig_toList, resolver]
  · split at printed
    · rename_i sameText
      cases printed
      have sameDigest := List.Vector.eq _ _ (hexEncode_injective sameText)
      simp [signingPrecompiles, sameDigest, copySig_toList, resolver]
    · cases printed

/-- The run ends with the transaction of the mint and its record. -/
def signingRun : Option (ServerConfig monthAfter) :=
  Config.run (serveHTTP signingEnv resolver) ⟨withKey [], [], []⟩
    ([.arrive asking, .perform 0 .plain, .perform 0 (.random secret), .perform 0 .plain,
      .arrive ownersMint.minting] ++ mintSteps 1)

/-- The transaction an event hands to the node. -/
def handedOver (event : ServerEvent monthAfter) : Option SignedTx :=
  match event.entry with
  | ⟨.sendTransaction signed, _⟩ => some signed
  | _ => none

theorem sent_of_handedOver {event : ServerEvent monthAfter} {signed : SignedTx}
    (handed : handedOver event = some signed) : event.entry.op = .sendTransaction signed := by
  unfold handedOver at handed
  split at handed
  · rename_i sent
    cases handed
    exact congrArg Entry.op sent
  · cases handed

theorem signingRun_ends :
    (signingRun.bind fun config => config.history.tail.head?.bind fun event =>
      (handedOver event).map fun signed => signed.tx.target) =
      some resolver.safetyRouterAddr ∧
    signingRun.map (fun config =>
      (config.state.db.executed.length, config.state.accepted.length)) = some (1, 1) := by
  decide +kernel

end Known

end Go

end SuperpositionAccounts
