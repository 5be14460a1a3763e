import SuperpositionAccounts.Account.Replay
import SuperpositionAccounts.Wire.Separation

/-!
# Statements

A statement is signed over a text that names the account, followed by the Borsh
bytes of the message and its nonce. The spending formats carry no such text.

What keeps them apart is the length. Each spending format starts with an element
count, and the first letters of the text read as one of about 1.7 billion. So
many elements take more bytes than any statement has, whose message is shorter
than 4 GiB.
-/

namespace SuperpositionAccounts

open CallTree

/-! ### The signed bytes -/

/-- The bytes that `statement_sha512` hashes. -/
def statementPreimage (args : StatementArgs) (contractAddr : Address) : List UInt8 :=
  asciiBytes "Superposition Accounts statement for " ++ hexEncode contractAddr.toList ++
    Borsh.toVec args

theorem statementSha512_eq (platform : Platform) (args : StatementArgs) (contractAddr : Address) :
    statementSha512 platform args contractAddr =
      platform.precompiles.sha512 (statementPreimage args contractAddr) :=
  rfl

theorem StatementArgs.toVec_eq (args : StatementArgs) :
    Borsh.toVec args = Borsh.toVec args.msg ++ args.msTs.toList :=
  rfl

theorem length_statementPreimage (args : StatementArgs) (contractAddr : Address) :
    (statementPreimage args contractAddr).length = 87 + args.msg.toList.length := by
  have text : (asciiBytes "Superposition Accounts statement for ").length = 37 := by decide
  rw [statementPreimage, StatementArgs.toVec_eq, Borsh.toVec_vec, Borsh.flatMap_toVec_byte]
  simp only [List.length_append, text, length_hexEncode, Borsh.length_leBytes,
    List.Vector.toList_length]
  omega

theorem statementPreimage_inj {args args' : StatementArgs} {contractAddr contractAddr' : Address}
    (same : statementPreimage args contractAddr = statementPreimage args' contractAddr') :
    args = args' ∧ contractAddr = contractAddr' := by
  rcases List.append_inj same (by simp [length_hexEncode]) with ⟨sameText, sameArgs⟩
  refine ⟨Borsh.toVec_injective sameArgs, ?_⟩
  exact List.Vector.eq _ _ (hexEncode_injective (List.append_cancel_left sameText))

/-! ### Separation from the spending formats -/

section Separation

variable {Element : Type} [Borsh Element]

theorem length_flatMap_toVec {least : ℕ}
    (atLeast : ∀ element : Element, least ≤ (Borsh.toVec element).length)
    (elements : List Element) :
    least * elements.length ≤ (elements.flatMap Borsh.toVec).length := by
  induction elements with
  | nil => simp
  | cons element rest ih =>
      have first := atLeast element
      rw [List.flatMap_cons, List.length_append, List.length_cons, Nat.mul_succ]
      omega

/-- The letters `Supe` as an element count. -/
theorem count_of_statementPreimage {elements : Vec Element} {rest : List UInt8}
    {args : StatementArgs} {contractAddr : Address}
    (same : Borsh.toVec elements ++ rest = statementPreimage args contractAddr) :
    elements.toList.length = 0x65707553 := by
  have letters : (asciiBytes "Superposition Accounts statement for ").take 4 =
      Borsh.leBytes 4 0x65707553 := by decide
  have short : elements.toList.length < 256 ^ 4 := elements.length_lt
  have firstFour := congrArg (List.take 4) same
  rw [Borsh.toVec_vec, List.append_assoc, List.take_left' (Borsh.length_leBytes 4 _),
    statementPreimage, List.append_assoc, List.take_append_of_le_length (by decide), letters] at firstFour
  have counts := congrArg Borsh.ofLeBytes firstFour
  rw [Borsh.ofLeBytes_leBytes, Borsh.ofLeBytes_leBytes, Nat.mod_eq_of_lt short] at counts
  exact counts

/-- Three bytes for each counted element already exceed the longest statement. -/
theorem toVec_append_ne_statementPreimage
    (atLeast : ∀ element : Element, 3 ≤ (Borsh.toVec element).length) (elements : Vec Element)
    (rest : List UInt8) (args : StatementArgs) (contractAddr : Address) :
    Borsh.toVec elements ++ rest ≠ statementPreimage args contractAddr := by
  intro same
  have count := count_of_statementPreimage same
  have total := congrArg List.length same
  have enough := length_flatMap_toVec atLeast elements.toList
  have message := args.msg.length_lt
  rw [length_statementPreimage, Borsh.toVec_vec] at total
  simp only [List.length_append, Borsh.length_leBytes] at total
  omega

end Separation

section Formats

variable {Asset : Type} [AssetRegistry Asset]

theorem three_le_length_toVec_solve (args : SolveArgs Asset) :
    3 ≤ (Borsh.toVec args).length := by
  rw [SolveArgs.toVec_eq]
  simp only [List.length_append, List.Vector.toList_length]
  omega

theorem three_le_length_toVec_transfer (transfer : Transfer Asset) :
    3 ≤ (Borsh.toVec transfer).length := by
  rw [Transfer.toVec_eq]
  simp only [List.length_append, List.Vector.toList_length]
  omega

theorem three_le_length_toVec_permit (permit : Permit Asset) :
    3 ≤ (Borsh.toVec permit).length := by
  rw [length_toVec_permit]
  omega

/-- No operation that moves funds is signed over the bytes of a statement. -/
theorem statementPreimage_not_mem_encodings (kind : SignedKind) (args : StatementArgs)
    (contractAddr : Address) :
    statementPreimage args contractAddr ∉ kind.encodings Asset := by
  cases kind with
  | solve =>
      rintro ⟨solveArgs, same⟩
      rw [SolveArgs.toVec_eq] at same
      exact toVec_append_ne_statementPreimage three_le_length_toVec_permit _ _ _ _ same
  | solveV2 =>
      rintro ⟨solveArgs, same⟩
      rw [SolveV2Args.toVec_eq] at same
      exact toVec_append_ne_statementPreimage three_le_length_toVec_solve _ _ _ _ same
  | solveV3 =>
      rintro ⟨solveArgs, same⟩
      rw [SolveV3Args.toVec_eq] at same
      exact toVec_append_ne_statementPreimage three_le_length_toVec_solve _ _ _ _ same
  | transferOnly =>
      rintro ⟨transferArgs, same⟩
      rw [TransferOnlyArgs.toVec_eq] at same
      exact toVec_append_ne_statementPreimage three_le_length_toVec_transfer _ _ _ _ same

end Formats

/-! ### Signatures in use -/

section Use

variable {Asset : Type} [AssetRegistry Asset]

/-- The byte strings an account checks the signatures of a request against, with the
signatures. -/
def Args.signed (self : Address) : Args Asset → List (List UInt8 × Sig)
  | .solve args => args.toList.map fun item => (Borsh.toVec item.args, item.sig)
  | .solveV2 args sig => [(Borsh.toVec args, sig)]
  | .solveV3 args sig => [(Borsh.toVec args, sig)]
  | .transferOnly args sig => [(Borsh.toVec args, sig)]
  | .statement args sig => [(statementPreimage args self, sig)]
  | _ => []

/-- What is signed is a statement, or has the format of an operation that moves funds. -/
theorem Args.signed_cases {self : Address} {request : Args Asset} {bytes : List UInt8} {sig : Sig}
    (checked : (bytes, sig) ∈ request.signed self) :
    (∃ args, request = .statement args sig ∧ bytes = statementPreimage args self) ∨
      ∃ kind, bytes ∈ SignedKind.encodings Asset kind := by
  cases request with
  | solve args =>
      rcases List.mem_map.mp checked with ⟨item, _, same⟩
      cases same
      exact Or.inr ⟨.solve, item.args, rfl⟩
  | solveV2 args _ =>
      cases List.mem_singleton.mp checked
      exact Or.inr ⟨.solveV2, args, rfl⟩
  | solveV3 args _ =>
      cases List.mem_singleton.mp checked
      exact Or.inr ⟨.solveV3, args, rfl⟩
  | transferOnly args _ =>
      cases List.mem_singleton.mp checked
      exact Or.inr ⟨.transferOnly, args, rfl⟩
  | statement args _ =>
      cases List.mem_singleton.mp checked
      exact Or.inl ⟨args, rfl, rfl⟩
  | _ => cases checked

variable {platform : Platform}

/-- A request that returns had each of its signatures verified under the key of the account. -/
theorem wp_entry_signed {imm : Imm} {self : Address}
    {rely : World accountSignature → World accountSignature → Prop}
    {stack : List (Frame accountSignature)} {frame : Frame accountSignature}
    (own : frame.self = self) (request : Args Asset) (world : World accountSignature) :
    (entry platform imm self request).wp rely stack frame (fun _ => True)
      (fun _ _ => ∀ checked ∈ request.signed self, platform.precompiles.edphverifyPre checked.1
        (world.store self (.ed25519Slot U.zero)) checked.2 = true) world := by
  have valid : (entry platform imm self request).wp rely stack frame (fun _ => True)
      (fun _ _ => request.Valid platform imm.network
        (world.store self (.ed25519Slot U.zero))) world := wp_entry_valid own request world
  cases request with
  | solve args =>
      apply Prog.wp_mono _ valid
      intro _ _ valid checked member
      rcases List.mem_map.mp member with ⟨item, itemMem, rfl⟩
      exact (valid item itemMem).1
  | statement args sig =>
      simp only [entry, entryStatement, Prog.wp_bind, wp_load, own]
      apply Prog.wp_mono _ (Prog.Returns.wp (assert_returns _ _) _)
      intro _ _ verified
      apply Prog.Returns.wp
      apply Prog.returns_of_forall
      intro _ checked member
      cases List.mem_singleton.mp member
      exact verified
  | solveV2 args sig | solveV3 args sig | transferOnly args sig =>
      apply Prog.wp_mono _ valid
      intro _ _ valid checked member
      cases List.mem_singleton.mp member
      exact valid.1
  | _ =>
      apply Prog.wp_mono _ valid
      intro _ _ _ checked member
      cases member

end Use

section Service

variable (Asset : Type) [AssetRegistry Asset] (platform : Platform) (network : Network)
  (callee : (Address → Slot → U) → Frame accountSignature → Query → Option (Address × Call))

/-- A call asks an account for something and is not reverted. -/
def Serves (self : Address) (request : Args Asset) (stack : List (Frame accountSignature))
    (frame : Frame accountSignature) (script : List (Reaction accountSignature))
    (world : World accountSignature) : Prop :=
  frame.self = self ∧ requestOf Asset platform frame = .ok (.args request) ∧
    ∃ output, ((accounts Asset platform network callee).enter stack frame
      (Reaction.runAll (accounts Asset platform network callee) script) world).2 = .ok output

/-- A signature that was made for a byte string verifies its hash and no other. -/
def SignatureOf (bytes : List UInt8) (sig : Sig) : Prop :=
  ∀ digest key, platform.precompiles.edphverifyPost digest key sig = true →
    digest = platform.precompiles.sha512 bytes

/-- Two byte strings are not a collision of SHA-512. -/
def NoCollision (left right : List UInt8) : Prop :=
  platform.precompiles.sha512 left = platform.precompiles.sha512 right → left = right

end Service

section Binding

variable {Asset : Type} [AssetRegistry Asset] {platform : Platform} {network : Network}
  {callee : (Address → Slot → U) → Frame accountSignature → Query → Option (Address × Call)}
  {self : Address} {request : Args Asset} {stack : List (Frame accountSignature)}
  {frame : Frame accountSignature} {script : List (Reaction accountSignature)}
  {world : World accountSignature}

theorem Serves.verified
    (serves : Serves Asset platform network callee self request stack frame script world)
    {bytes : List UInt8} {sig : Sig} (checked : (bytes, sig) ∈ request.signed self) :
    platform.precompiles.edphverifyPre bytes (world.store self (.ed25519Slot U.zero)) sig =
      true := by
  rcases serves with ⟨onAccount, read, output, completed⟩
  have holds : (userEntrypoint Asset platform network frame.self frame.msg).wp
      (fun before after => NonceStep Asset platform self U.zero before.toState after.toState)
      stack frame (fun _ => True)
      (fun _ _ => ∀ checked ∈ request.signed self, platform.precompiles.edphverifyPre checked.1
        (world.store self (.ed25519Slot U.zero)) checked.2 = true)
      (world.record stack frame .entered) := by
    rw [userEntrypoint_of_read read, onAccount]
    exact wp_entry_signed onAccount request (world.record stack frame .entered)
  rcases (nonce_guarantee Asset platform network callee self U.zero).enter_completed holds
    completed with ⟨_, verified, _⟩
  exact verified _ checked

/-- A request is served with the signature of some bytes only if these are the ones checked. -/
theorem Serves.bytes_eq
    (serves : Serves Asset platform network callee self request stack frame script world)
    {bytes signedBytes : List UInt8} {sig : Sig} (checked : (bytes, sig) ∈ request.signed self)
    (made : SignatureOf platform signedBytes sig)
    (noCollision : NoCollision platform bytes signedBytes) :
    bytes = signedBytes :=
  noCollision (made _ _ (serves.verified checked))

end Binding

/-- The bytes under the signature of a statement determine the message, the nonce and the account,
and no operation that moves funds is signed over them. A signature made for a statement is
therefore served for this statement at this account only, and one made for an operation that moves
funds is not served for a statement. -/
theorem statements_bound_and_separate (Asset : Type) [AssetRegistry Asset] (platform : Platform)
    (network : Network)
    (callee : (Address → Slot → U) → Frame accountSignature → Query → Option (Address × Call)) :
    (∀ args args' contractAddr contractAddr',
      statementPreimage args contractAddr = statementPreimage args' contractAddr' →
        args.msg = args'.msg ∧ args.msTs = args'.msTs ∧ contractAddr = contractAddr') ∧
    (∀ args contractAddr,
      (∀ spent : SolveArgs Asset, statementPreimage args contractAddr ≠ Borsh.toVec spent) ∧
      (∀ spent : SolveV2Args Asset, statementPreimage args contractAddr ≠ Borsh.toVec spent) ∧
      (∀ spent : SolveV3Args Asset, statementPreimage args contractAddr ≠ Borsh.toVec spent) ∧
      ∀ spent : TransferOnlyArgs Asset,
        statementPreimage args contractAddr ≠ Borsh.toVec spent) ∧
    (∀ args contractAddr sig,
      SignatureOf platform (statementPreimage args contractAddr) sig →
      ∀ self request stack frame script world,
      Serves Asset platform network callee self request stack frame script world →
      ∀ bytes, (bytes, sig) ∈ request.signed self →
      NoCollision platform bytes (statementPreimage args contractAddr) →
        request = .statement args sig ∧ self = contractAddr) ∧
    ∀ (kind : SignedKind) (bytes : List UInt8) (sig : Sig), bytes ∈ kind.encodings Asset →
      SignatureOf platform bytes sig →
      ∀ self args, NoCollision platform (statementPreimage args self) bytes →
      ∀ stack frame script world, ¬Serves Asset platform network callee self
        (.statement args sig) stack frame script world := by
  refine ⟨?_, ?_, ?_, ?_⟩
  · intro args args' contractAddr contractAddr' same
    rcases statementPreimage_inj same with ⟨rfl, rfl⟩
    exact ⟨rfl, rfl, rfl⟩
  · intro args contractAddr
    have apart (kind : SignedKind) : statementPreimage args contractAddr ∉ kind.encodings Asset :=
      statementPreimage_not_mem_encodings kind args contractAddr
    refine ⟨?_, ?_, ?_, ?_⟩
    · intro spent same
      exact apart .solve ⟨spent, same.symm⟩
    · intro spent same
      exact apart .solveV2 ⟨spent, same.symm⟩
    · intro spent same
      exact apart .solveV3 ⟨spent, same.symm⟩
    · intro spent same
      exact apart .transferOnly ⟨spent, same.symm⟩
  · intro args contractAddr sig made self request stack frame script world serves bytes checked
      noCollision
    cases serves.bytes_eq checked made noCollision
    rcases Args.signed_cases checked with ⟨args', rfl, same⟩ | ⟨kind, spends⟩
    · rcases statementPreimage_inj same with ⟨rfl, rfl⟩
      exact ⟨rfl, rfl⟩
    · exact absurd spends (statementPreimage_not_mem_encodings kind args contractAddr)
  · intro kind bytes sig spends made self args noCollision stack frame script world serves
    cases serves.bytes_eq (List.mem_singleton_self _) made noCollision
    exact statementPreimage_not_mem_encodings kind args self spends

/-! ### A known statement -/

namespace Known

variable {key : U} {preimage : List UInt8} {digest : Bytes 64} {sig : Sig}

theorem oneSignature_signatureOf : SignatureOf (oneSignature key preimage digest sig) preimage
    sig := by
  intro hash signer verified
  simp only [oneSignature, decide_eq_true_eq] at verified
  simp only [oneSignature, if_true]
  exact verified.1

theorem oneSignature_noCollision (hashed : digest ≠ Bytes.ofNat 64 0) (bytes : List UInt8) :
    NoCollision (oneSignature key preimage digest sig) bytes preimage := by
  intro same
  simp only [oneSignature, if_true] at same
  split at same
  · assumption
  · exact absurd same.symm hashed

def note : StatementArgs where
  msg := ⟨asciiBytes "hello", by decide⟩
  msTs := Bytes.ofNat 6 1

def noteDigest : Bytes 64 :=
  Bytes.ofNat 64 0x5396801032ac047a4e31c63d4f3a5aca0a1bb7c8e6ed60c80d3b009e65a27d9840deefcbe1fdd3164f73fefef7a5329a0588cf9248d5069f0291750afe9f97f7

/-- The Ed25519ph signature of the known key over the statement at the known account. -/
def noteSig : Sig :=
  Bytes.ofNat 64 0xfbe5ac0a83e15585dc40d58a1ecd7bf137e476f93c1b3d6e43836db843d0d773c2f5730dd5261c69c82287d54ed4a434d6f4b34560f8d6d4459af1f268a0f403

def notePlatform : Platform :=
  oneSignature Go.knownKey (statementPreimage note account) noteDigest noteSig

def noteRequest : Args KnownAsset :=
  .statement note noteSig

def noteFrame : Frame accountSignature :=
  ⟨account, ⟨relayer, Borsh.toVec noteRequest⟩, false⟩

end Known

theorem statements_bound_and_separate_known :
    Serves KnownAsset Known.notePlatform .arbitrum (fun _ _ _ => none) Known.account
      Known.noteRequest [] Known.noteFrame [] (World.start Known.store) ∧
    (∀ self request stack frame script world,
      Serves KnownAsset Known.notePlatform .arbitrum (fun _ _ _ => none) self request stack frame
        script world →
      ∀ bytes, (bytes, Known.noteSig) ∈ request.signed self →
        request = Known.noteRequest ∧ self = Known.account) ∧
    ∀ self args stack frame script world,
      ¬Serves KnownAsset Known.solvePlatform .arbitrum (fun _ _ _ => none) self
        (.statement args Known.solveSig) stack frame script world := by
  refine ⟨⟨rfl, readRequest_toVec _ _, [], by decide +kernel⟩, ?_, ?_⟩
  · intro self request stack frame script world serves bytes checked
    exact (statements_bound_and_separate KnownAsset Known.notePlatform .arbitrum
      fun _ _ _ => none).2.2.1 Known.note Known.account Known.noteSig
        Known.oneSignature_signatureOf self request stack frame script world serves bytes checked
        (Known.oneSignature_noCollision (by decide) bytes)
  · intro self args
    exact (statements_bound_and_separate KnownAsset Known.solvePlatform .arbitrum
      fun _ _ _ => none).2.2.2 .solve (Borsh.toVec Known.solve) Known.solveSig
        ⟨Known.solve, rfl⟩ Known.oneSignature_signatureOf self args
        (Known.oneSignature_noCollision (by decide) _)

end SuperpositionAccounts
