import SuperpositionAccounts.Account.Nonces
import SuperpositionAccounts.Account.Success

/-!
# Replay of signed requests on other accounts

The bytes under the signature of a fund-moving request do not name the account.
An account with the same key accepts a request that succeeded elsewhere, unless
one of its nonces happens to be used there: each account has nonces of its own.
-/

namespace SuperpositionAccounts

open CallTree

/-- A request with its signature: an element of a `Solve`, or one of the other operations. -/
inductive SignedRequest (Asset : Type) where
  | solve (item : SolveArgsSigArgs Asset)
  | solveV2 (args : SolveV2Args Asset) (sig : Sig)
  | solveV3 (args : SolveV3Args Asset) (sig : Sig)
  | transferOnly (args : TransferOnlyArgs Asset) (sig : Sig)

namespace SignedRequest

variable {Asset : Type}

/-- The request submitted on its own. -/
def alone : SignedRequest Asset → Args Asset
  | solve item => .solve (Vec.singleton item)
  | solveV2 args sig => .solveV2 args sig
  | solveV3 args sig => .solveV3 args sig
  | transferOnly args sig => .transferOnly args sig

/-- The calls that submit a request. An element of a `Solve` may come with others. -/
def SubmittedBy : SignedRequest Asset → Args Asset → Prop
  | solve item, args => ∃ items : Vec (SolveArgsSigArgs Asset),
      args = .solve items ∧ item ∈ items.toList
  | request, args => args = request.alone

theorem alone_submitted (request : SignedRequest Asset) :
    request.SubmittedBy request.alone := by
  cases request with
  | solve item => exact ⟨Vec.singleton item, rfl, List.mem_singleton_self item⟩
  | solveV2 args sig => rfl
  | solveV3 args sig => rfl
  | transferOnly args sig => rfl

theorem alone_operation (request : SignedRequest Asset) :
    request.alone.operation.isSome := by
  cases request <;> rfl

/-- The nonces a request consumes. -/
def nonces (request : SignedRequest Asset) : List U :=
  request.alone.nonces

variable {request : SignedRequest Asset} {args : Args Asset}

theorem nonces_sublist (submitted : request.SubmittedBy args) :
    request.nonces.Sublist args.nonces := by
  cases request with
  | solve item =>
      rcases submitted with ⟨items, rfl, member⟩
      exact List.Sublist.map (fun item => U.ofBytes item.args.msTs)
        (List.singleton_sublist.mpr member)
  | solveV2 v2Args sig =>
      cases submitted
      exact List.Sublist.refl _
  | solveV3 v3Args sig =>
      cases submitted
      exact List.Sublist.refl _
  | transferOnly transferArgs sig =>
      cases submitted
      exact List.Sublist.refl _

theorem valid_alone [AssetRegistry Asset] {platform : Platform} {network : Network} {key : U}
    (submitted : request.SubmittedBy args) (valid : args.Valid platform network key) :
    request.alone.Valid platform network key := by
  cases request with
  | solve item =>
      rcases submitted with ⟨items, rfl, member⟩
      intro other otherMem
      cases List.mem_singleton.mp otherMem
      exact valid item member
  | solveV2 v2Args sig =>
      cases submitted
      exact valid
  | solveV3 v3Args sig =>
      cases submitted
      exact valid
  | transferOnly transferArgs sig =>
      cases submitted
      exact valid

end SignedRequest

section Replay

variable (Asset : Type) [AssetRegistry Asset] (platform : Platform) (network : Network)
  (callee : (Address → Slot → U) → Frame accountSignature → Query → Option (Address × Call))

/-- A call submits a request to an account and is not reverted. -/
def Accepts (self : Address) (request : SignedRequest Asset)
    (stack : List (Frame accountSignature)) (frame : Frame accountSignature)
    (script : List (Reaction accountSignature)) (world : World accountSignature) : Prop :=
  frame.self = self ∧
    (∃ args, requestOf Asset platform frame = .ok (.args args) ∧ request.SubmittedBy args) ∧
    ∃ output, ((accounts Asset platform network callee).enter stack frame
      (Reaction.runAll (accounts Asset platform network callee) script) world).2 = .ok output

end Replay

section Acceptance

variable {Asset : Type} [AssetRegistry Asset] {platform : Platform} {network : Network}
  {callee : (Address → Slot → U) → Frame accountSignature → Query → Option (Address × Call)}
  {self : Address} {request : SignedRequest Asset} {stack : List (Frame accountSignature)}
  {frame : Frame accountSignature} {script : List (Reaction accountSignature)}
  {world : World accountSignature}

/-- An accepted request found each of its nonces unused, and uses it once. -/
theorem Accepts.fresh
    (accepts : Accepts Asset platform network callee self request stack frame script world) :
    FreshNonces self request.nonces world := by
  rcases accepts with ⟨onAccount, ⟨args, read, submitted⟩, output, completed⟩
  have eachOnce (nonce : U) : args.nonces.count nonce = 0 ∨
      world.store self (.timestamps nonce) = U.zero ∧ args.nonces.count nonce ≤ 1 := by
    have holds : (userEntrypoint Asset platform network frame.self frame.msg).wp
        (fun before after => NonceStep Asset platform self nonce before.toState after.toState)
        stack frame (fun _ => True)
        (fun _ after => Pending Asset platform self nonce world.toState
          (args.nonces.count nonce) after) (world.record stack frame .entered) := by
      rw [userEntrypoint_of_read read, onAccount]
      exact Pending.wp_serve onAccount frame.msg.sender (.args args)
        (Ticket.Pending.initial stack frame)
    rcases (nonce_guarantee Asset platform network callee self nonce).enter_completed holds
      completed with ⟨after, pending, _⟩
    rcases pending with ⟨_, _, none⟩ | ⟨free, _, single, _⟩
    · exact Or.inl none
    · exact Or.inr ⟨free, single⟩
  constructor
  · apply List.Nodup.sublist (SignedRequest.nonces_sublist submitted)
    rw [List.nodup_iff_count_le_one]
    intro nonce
    rcases eachOnce nonce with none | ⟨_, single⟩
    · omega
    · exact single
  · intro nonce member
    have carried := (SignedRequest.nonces_sublist submitted).subset member
    have counted := List.count_pos_iff.mpr carried
    rcases eachOnce nonce with none | ⟨free, _⟩
    · omega
    · exact free

/-- An accepted request is valid under the key of the account. -/
theorem Accepts.valid
    (accepts : Accepts Asset platform network callee self request stack frame script world) :
    request.alone.Valid platform network (world.store self (.ed25519Slot U.zero)) := by
  rcases accepts with ⟨onAccount, ⟨args, read, submitted⟩, output, completed⟩
  have holds : (userEntrypoint Asset platform network frame.self frame.msg).wp
      (fun before after => NonceStep Asset platform self U.zero before.toState after.toState)
      stack frame (fun _ => True)
      (fun _ _ => args.Valid platform network (world.store self (.ed25519Slot U.zero)))
      (world.record stack frame .entered) := by
    rw [userEntrypoint_of_read read, onAccount]
    exact wp_entry_valid onAccount args (world.record stack frame .entered)
  rcases (nonce_guarantee Asset platform network callee self U.zero).enter_completed holds
    completed with ⟨_, valid, _⟩
  exact SignedRequest.valid_alone submitted valid

/-- A valid request with fresh nonces is accepted by any account that is not locked. -/
theorem exists_accepts (stack : List (Frame accountSignature)) (sender : Address)
    (outside : ∀ store frame query, frame.self = self → callee store frame query = none)
    (valid : request.alone.Valid platform network (world.store self (.ed25519Slot U.zero)))
    (fresh : FreshNonces self request.nonces world)
    (unlocked : world.store self .reentrancy = U.zero) :
    ∃ script, Accepts Asset platform network callee self request stack
      ⟨self, ⟨sender, Borsh.toVec request.alone⟩, false⟩ script world := by
  let frame : Frame accountSignature := ⟨self, ⟨sender, Borsh.toVec request.alone⟩, false⟩
  have read : requestOf Asset platform frame = .ok (.args request.alone) :=
    readRequest_toVec platform _
  have possible : (userEntrypoint Asset platform network frame.self frame.msg).can
      (accounts Asset platform network callee) stack frame (fun _ _ => True)
      (world.record stack frame .entered) := by
    rw [userEntrypoint_of_read read]
    exact can_entry rfl (fun store query => outside store frame query rfl)
      request.alone_operation valid fresh unlocked
  rcases System.enter_of_can possible with ⟨script, output, after, entered, _⟩
  refine ⟨script, rfl, ⟨request.alone, read, request.alone_submitted⟩, output, ?_⟩
  exact congrArg Prod.snd entered

/-- A request that an account accepted is rejected, however it is submitted, by an account with the
same key if one of its nonces is used there already. Between calls this is the only reason, as long
as whom the account asks is outside the system. -/
theorem replay_rejected_iff {other : Address} {later : World accountSignature}
    (accepted : Accepts Asset platform network callee self request stack frame script world)
    (sameKey : later.store other (.ed25519Slot U.zero) =
      world.store self (.ed25519Slot U.zero)) :
    ((∃ nonce ∈ request.nonces, later.store other (.timestamps nonce) ≠ U.zero) →
      ∀ stack frame script,
        ¬Accepts Asset platform network callee other request stack frame script later) ∧
      (later.store other .reentrancy = U.zero →
        (∀ store frame query, frame.self = other → callee store frame query = none) →
        ((∀ stack frame script,
            ¬Accepts Asset platform network callee other request stack frame script later) ↔
          ∃ nonce ∈ request.nonces, later.store other (.timestamps nonce) ≠ U.zero)) := by
  have rejects : (∃ nonce ∈ request.nonces, later.store other (.timestamps nonce) ≠ U.zero) →
      ∀ stack frame script,
        ¬Accepts Asset platform network callee other request stack frame script later := by
    rintro ⟨nonce, member, taken⟩ stack frame script replayed
    exact taken (replayed.fresh.2 nonce member)
  refine ⟨rejects, fun unlocked outside => ⟨?_, rejects⟩⟩
  · intro rejected
    by_contra unused
    have fresh : FreshNonces other request.nonces later := by
      refine ⟨accepted.fresh.1, ?_⟩
      intro nonce member
      by_contra taken
      exact unused ⟨nonce, member, taken⟩
    have valid := accepted.valid
    rw [← sameKey] at valid
    rcases exists_accepts [] self outside valid fresh unlocked with ⟨script, replayed⟩
    exact rejected _ _ _ replayed

end Acceptance

/-! ### A replayed solve -/

namespace Replayed

def other : Address :=
  Bytes.ofNat 20 0x5555555555555555555555555555555555555555

def request : SignedRequest KnownAsset :=
  .solve ⟨Known.solveSig, Known.solve⟩

/-- A relayer submits the request to an account. -/
def frame (self : Address) : Frame accountSignature :=
  ⟨self, ⟨Known.relayer, Borsh.toVec Known.solveRequest⟩, false⟩

def submit (self : Address) : Act accountSignature :=
  .call self (frame self).msg [.answer [] accepted]

theorem submitted (self : Address) : ∃ args,
    requestOf KnownAsset Known.solvePlatform (frame self) = .ok (.args args) ∧
      request.SubmittedBy args :=
  ⟨Known.solveRequest, readRequest_toVec _ _, request.alone_submitted⟩

theorem accepted_first : Accepts KnownAsset Known.solvePlatform .arbitrum (fun _ _ _ => none)
    Known.account request [] (frame Known.account) [.answer [] accepted]
    (Known.after [Known.migrate Known.account, Known.migrate other]) := by
  refine ⟨rfl, submitted Known.account, [], ?_⟩
  decide +kernel

end Replayed

theorem replay_rejected_known :
    (∀ stack frame script, ¬Accepts KnownAsset Known.solvePlatform .arbitrum (fun _ _ _ => none)
      Replayed.other Replayed.request stack frame script
      (Known.after [Known.migrate Known.account, Known.migrate Replayed.other,
        Replayed.submit Known.account, Replayed.submit Replayed.other])) ∧
    ¬∀ stack frame script, ¬Accepts KnownAsset Known.solvePlatform .arbitrum (fun _ _ _ => none)
      Replayed.other Replayed.request stack frame script
      (Known.after [Known.migrate Known.account, Known.migrate Replayed.other]) := by
  constructor
  · exact (replay_rejected_iff Replayed.accepted_first (by decide +kernel)).1 (by decide +kernel)
  · rw [(replay_rejected_iff Replayed.accepted_first (by decide +kernel)).2 (by decide +kernel)
      fun _ _ _ _ => rfl]
    decide +kernel

/-- Two accounts are created with one key. A signed solve that the first one accepted is accepted by
the second one too. -/
theorem solve_replayed_on_other_account :
    Known.account ≠ Replayed.other ∧
      Accepts KnownAsset Known.solvePlatform .arbitrum (fun _ _ _ => none) Known.account
        Replayed.request [] (Replayed.frame Known.account) [.answer [] accepted]
        (Known.after [Known.migrate Known.account, Known.migrate Replayed.other]) ∧
      Accepts KnownAsset Known.solvePlatform .arbitrum (fun _ _ _ => none) Replayed.other
        Replayed.request [] (Replayed.frame Replayed.other) [.answer [] accepted]
        (Known.after [Known.migrate Known.account, Known.migrate Replayed.other,
          Replayed.submit Known.account]) := by
  refine ⟨by decide, Replayed.accepted_first, rfl, Replayed.submitted Replayed.other, [], ?_⟩
  decide +kernel

end SuperpositionAccounts
