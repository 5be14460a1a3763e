import SuperpositionAccounts.Lite.Forwarding

/-!
# What the command line signs for a LiteAccount

`LiteArbitraryCd` of `accounts-cli` hashes a contract, a nonce, a target and
calldata one after another, signs the hash, and prints the signature and the last
three parts. A LiteAccount that gets these bytes puts its own address where the
signature stood and hashes the rest. This file shows that the two hash the same
bytes, and that the bytes determine the four parts.
-/

namespace SuperpositionAccounts.Cli

open CallTree Evm Lite

/-- What the command line uses of `ed25519_dalek`. -/
structure Dalek where
  sha512 : List UInt8 → Bytes 64
  verifyingKey : U → U
  /-- `sign_prehashed` without a context, which always succeeds. -/
  signPrehashed : U → Bytes 64 → Sig

/-- The precompiles hash as the crate does, and accept its signatures. -/
structure Dalek.Agrees (dalek : Dalek) (precompiles : Precompiles) : Prop where
  sha512 : ∀ bytes, precompiles.sha512 bytes = dalek.sha512 bytes
  verifies : ∀ privKey digest, precompiles.edphverifyPost digest (dalek.verifyingKey privKey)
    (dalek.signPrehashed privKey digest) = true

/-- The arguments of `LiteArbitraryCd` besides the private key. -/
@[ext]
structure LiteArbitraryCd where
  nonce : BitVec 128
  contract : Address
  target : Address
  cd : List UInt8

namespace LiteArbitraryCd

variable (args : LiteArbitraryCd)

/-- `nonce.to_be_bytes()`. -/
def nonceBytes : Bytes 16 :=
  Bytes.ofNat 16 args.nonce.toNat

/-- What the hash is updated with. -/
def hashed : List UInt8 :=
  args.contract.toList ++ (args.nonceBytes.toList ++ (args.target.toList ++ args.cd))

def sig (dalek : Dalek) (privKey : U) : Sig :=
  dalek.signPrehashed privKey (dalek.sha512 args.hashed)

/-- The line that is printed. -/
def output (dalek : Dalek) (privKey : U) : String :=
  hexText (args.sig dalek privKey).toList ++ hexText args.nonceBytes.toList ++
    hexText args.target.toList ++ hexText args.cd

/-- The bytes that the line spells. -/
def bytes (dalek : Dalek) (privKey : U) : List UInt8 :=
  (args.sig dalek privKey).toList ++ (args.nonceBytes.toList ++ (args.target.toList ++ args.cd))

theorem output_eq (dalek : Dalek) (privKey : U) :
    args.output dalek privKey = hexText (args.bytes dalek privKey) := by
  simp only [output, bytes, hexText_append, String.append_assoc]

theorem nonceBytes_injective {left right : LiteArbitraryCd}
    (same : left.nonceBytes = right.nonceBytes) : left.nonce = right.nonce := by
  have numbers := congrArg Bytes.toNat same
  rw [nonceBytes, nonceBytes, Bytes.toNat_ofNat, Bytes.toNat_ofNat] at numbers
  have leftFits := left.nonce.isLt
  have rightFits := right.nonce.isLt
  exact BitVec.eq_of_toNat_eq (by omega)

/-- The hashed bytes determine the parts. -/
theorem hashed_injective : Function.Injective hashed := by
  intro left right same
  rcases List.append_inj same (by simp) with ⟨sameContract, same⟩
  rcases List.append_inj same (by simp) with ⟨sameNonce, same⟩
  rcases List.append_inj same (by simp) with ⟨sameTarget, sameCd⟩
  exact LiteArbitraryCd.ext (nonceBytes_injective (List.Vector.eq _ _ sameNonce))
    (List.Vector.eq _ _ sameContract) (List.Vector.eq _ _ sameTarget) sameCd

/-- The printed bytes have the form that a LiteAccount expects. -/
theorem exists_argument {dalek : Dalek} {privKey : U} {calldata : Payload}
    (sent : calldata.bytes = args.bytes dalek privKey) :
    ∃ argument : Argument, calldata.bytes = argument.bytes ∧
      argument.sig = args.sig dalek privKey ∧ argument.nonce = args.nonceBytes ∧
      argument.target = args.target ∧ argument.cd.bytes = args.cd := by
  have enough : 0x64 ≤ calldata.bytes.length := by
    rw [sent]
    simp [LiteArbitraryCd.bytes]
    omega
  rcases Argument.exists_of_length enough with ⟨argument, reads⟩
  have same : argument.sig.toList ++ (argument.nonce.toList ++ (argument.target.toList ++
      argument.cd.bytes)) = args.bytes dalek privKey := by
    rw [← sent, reads]
    simp [Argument.sig, Argument.bytes]
  rcases List.append_inj same (by simp) with ⟨sig, same⟩
  rcases List.append_inj same (by simp) with ⟨nonce, same⟩
  rcases List.append_inj same (by simp) with ⟨target, cd⟩
  exact ⟨argument, reads, List.Vector.eq _ _ sig, List.Vector.eq _ _ nonce,
    List.Vector.eq _ _ target, cd⟩

/-- What a LiteAccount at the contract hashes of the printed bytes is what was signed. -/
theorem drop_bytes (dalek : Dalek) (privKey : U) :
    args.contract.toList ++ (args.bytes dalek privKey).drop 0x40 = args.hashed := by
  rw [bytes, List.drop_left' (by simp), hashed]

end LiteArbitraryCd

/-- The printed bytes make the LiteAccount at the contract call the target with the calldata, and
no other parts are hashed to the same bytes. -/
theorem printed_call_forwarded (setting : Setting) (steps : ℕ) (deployed : Address → Option Keys)
    (dalek : Dalek) (agrees : dalek.Agrees setting.precompiles) (privKey : U)
    (args : LiteArbitraryCd) (owner : Address)
    (located : deployed args.contract = some ⟨owner, dalek.verifyingKey privKey⟩)
    (message : Message) (unprivileged : message.sender ≠ owner)
    (sent : hexText message.calldata.bytes = args.output dalek privKey)
    (world : World signature) (enabled : world.store args.contract enabledSlot ≠ 0)
    (unused : world.store args.contract (setting.nonceSlot args.nonceBytes) = 0) :
    let accounts := system setting steps deployed
    -- the factory leaves the code that runs at the contract
    (∀ creation : Message,
      run setting.host (steps + 10) (initCode owner (dalek.verifyingKey privKey)) args.contract
          creation =
        .store enabledSlot 1 (.ret (deployedCode owner (dalek.verifyingKey privKey))) ∧
      accounts.program args.contract creation =
        run setting.host (steps + 96) (deployedCode owner (dalek.verifyingKey privKey)).bytes
          args.contract creation) ∧
    -- the signature passes the check
    setting.signed (dalek.verifyingKey privKey) args.contract message.calldata.bytes = true ∧
    -- the account calls the target
    (∃ cd : Payload, cd.bytes = args.cd ∧
      ∀ (stack : List (Frame signature)) (handlers : List (Handler signature)),
        (accounts.program args.contract message).run accounts stack
            ⟨args.contract, message, false⟩ handlers world =
          (Prog.ask (S := signature) (.call args.target 0 cd) passOn).run accounts stack
            ⟨args.contract, message, false⟩ handlers
            (world.write args.contract (setting.nonceSlot args.nonceBytes) 1)) ∧
    -- with a part changed, other bytes are hashed
    ∀ (other : LiteArbitraryCd) (otherKey : U), other ≠ args →
      other.contract.toList ++ (other.bytes dalek otherKey).drop 0x40 ≠
        args.contract.toList ++ message.calldata.bytes.drop 0x40 := by
  intro accounts
  have bytes : message.calldata.bytes = args.bytes dalek privKey := by
    rw [args.output_eq] at sent
    exact hexText_injective sent
  rcases args.exists_argument bytes with ⟨argument, reads, sig, nonce, target, cd⟩
  have hashed : argument.signedBytes args.contract = args.hashed := by
    rw [Argument.signedBytes, nonce, target, cd, LiteArbitraryCd.hashed]
  have verified : setting.precompiles.edphverifyPost
      (setting.precompiles.sha512 (argument.signedBytes args.contract))
      (dalek.verifyingKey privKey) argument.sig = true := by
    rw [hashed, sig, agrees.sha512]
    exact agrees.verifies privKey _
  have authorised : Authorised setting (dalek.verifyingKey privKey) args.contract
      (world.store args.contract) argument :=
    ⟨enabled, nonce ▸ unused, verified⟩
  refine ⟨fun creation => ⟨run_initCode _ _ _ _ _ steps, ?_⟩, ?_, ⟨argument.cd, cd, ?_⟩, ?_⟩
  · simp only [accounts, system, located]
    rfl
  · rw [Setting.signed, reads, argument.drop_bytes, argument.sigOf_bytes]
    exact verified
  · intro stack handlers
    rw [← target, ← nonce, system_program located]
    exact run_authorised unprivileged reads authorised
  · intro other otherKey different same
    rw [bytes, args.drop_bytes, other.drop_bytes] at same
    exact different (LiteArbitraryCd.hashed_injective same)

/-! ### Known answers: the key of 32 bytes 7 and the nonce 1 -/

namespace Known

def privKey : U :=
  Bytes.ofNat 32 0x0707070707070707070707070707070707070707070707070707070707070707

def dalek : Dalek where
  sha512 := Lite.Known.setting.precompiles.sha512
  verifyingKey _ := Lite.Known.keys.operator
  signPrehashed _ digest :=
    if digest = Lite.Known.digest then Lite.Known.argument.sig else default

/-- The verifier, where it is used below. -/
def setting : Setting :=
  { Lite.Known.setting with
    precompiles :=
      { sha512 := dalek.sha512
        edphverifyPost := fun digest key sig =>
          decide (key = Lite.Known.keys.operator ∧ sig = dalek.signPrehashed privKey digest) } }

theorem agrees : dalek.Agrees setting.precompiles where
  sha512 _ := rfl
  verifies _ _ := decide_eq_true ⟨rfl, rfl⟩

def args : LiteArbitraryCd where
  nonce := 1
  contract := Lite.Known.self
  target := Bytes.ofNat 20 0x3333333333333333333333333333333333333333
  cd := [0xd0, 0xe3, 0x0d, 0xb0]

end Known

theorem printed_call_forwarded_known :
    hexText Lite.Known.message.calldata.bytes = Known.args.output Known.dalek Known.privKey ∧
      ∃ cd : Payload, cd.bytes = [0xd0, 0xe3, 0x0d, 0xb0] ∧
        ∀ (stack : List (Frame signature)) (handlers : List (Handler signature)),
          ((system Known.setting 0 Lite.Known.deployed).program Lite.Known.self
              Lite.Known.message).run (system Known.setting 0 Lite.Known.deployed) stack
              ⟨Lite.Known.self, Lite.Known.message, false⟩ handlers
              (World.start (S := signature) Lite.Known.store) =
            (Prog.ask (S := signature) (.call Known.args.target 0 cd) passOn).run
              (system Known.setting 0 Lite.Known.deployed) stack
              ⟨Lite.Known.self, Lite.Known.message, false⟩ handlers
              ((World.start (S := signature) Lite.Known.store).write Lite.Known.self
                (Known.setting.nonceSlot Known.args.nonceBytes) 1) := by
  have sent : hexText Lite.Known.message.calldata.bytes =
      Known.args.output Known.dalek Known.privKey := by
    decide +kernel
  have notOwner : Lite.Known.message.sender ≠ Lite.Known.keys.owner := by decide +kernel
  have forwarded := printed_call_forwarded Known.setting 0 Lite.Known.deployed Known.dalek
    Known.agrees Known.privKey Known.args Lite.Known.keys.owner (if_pos (Or.inl rfl))
    Lite.Known.message notOwner sent (World.start (S := signature) Lite.Known.store) (by decide)
    (by decide +kernel)
  exact ⟨sent, forwarded.2.2.1⟩

end SuperpositionAccounts.Cli
