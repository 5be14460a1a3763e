import SuperpositionAccounts.Router.Code
import SuperpositionAccounts.Server.Sending
import SuperpositionAccounts.Server.Sessions

/-!
# Sending through the router

`client.Send` puts the address of the account before the calldata and sends the
transaction to the router instead of the account. What the account then receives
is compared with what it receives without the router.

The two are the same except for the caller and the value: the account is called by
the router, and the router keeps the value it is sent. An account may answer a
caller as it likes, so the answers are compared for the two callers.
-/

namespace SuperpositionAccounts.Router

open CallTree Evm Go

/-- The calls that accounts receive in a transaction, and how it ends. -/
abbrev Effect := List Evm.Query × Except Failure Payload

def isCall : Evm.Query → Bool
  | .codeHash _ => false
  | _ => true

section Chain

variable (host : Host) (steps : ℕ) (own : Word → Word)
  (answer : Address → Evm.Query → Evm.Reply)

/-- A transaction calls its target. There is none with calldata of 64-bit length or more. -/
def called (sender : Address) (tx : Tx) : Option Effect :=
  if short : tx.data.length < 2 ^ 64 then
    let query := .call tx.target (BitVec.ofNat 256 tx.value) ⟨tx.data, short⟩
    some ([query], (answer sender query).outcome)
  else none

/-- A transaction runs the code of the router, which is the caller of what it calls. -/
def routed (sender : Address) (tx : Tx) : Option Effect :=
  if short : tx.data.length < 2 ^ 64 then
    let (asked, outcome) :=
      (run host steps runtimeCode tx.target ⟨sender, tx.data, short⟩).answered
        (answer tx.target) own
    some (asked.filter isCall, outcome)
  else none

variable {answer} {tx : Tx} {sender addrSafetyRouter dest : Address} {b_ : List UInt8}
  {eth : Option Word}

theorem called_of_carries (short : b_.length < 2 ^ 64)
    (carries : tx.Carries addrSafetyRouter false dest b_ (eth.map BitVec.toNat)) :
    called answer sender tx = some ([.call dest (eth.getD 0) ⟨b_, short⟩],
      (answer sender (.call dest (eth.getD 0) ⟨b_, short⟩)).outcome) := by
  have target : tx.target = dest := carries.target
  have data : tx.data = b_ := carries.data
  have value : BitVec.ofNat 256 tx.value = eth.getD 0 := by
    rw [carries.value]
    cases eth <;> simp
  unfold called
  simp only [data, target, value, dif_pos short]

theorem destination_padded (payload : Payload)
    (padded : payload.bytes = List.replicate 12 0 ++ dest.toList ++ b_) :
    destination payload = dest := by
  have first : slice payload.bytes 0 32 = List.replicate 12 0 ++ dest.toList := by
    have whole : payload.bytes = [] ++ ((List.replicate 12 0 ++ dest.toList) ++ b_) := padded
    rw [whole]
    exact slice_middle rfl (by simp)
  apply List.Vector.eq
  change (Word.ofBytes (slice payload.bytes 0 32)).toBytes.drop 12 = dest.toList
  rw [first, Word.toBytes_ofBytes (by simp)]
  simp

theorem routed_of_carries (fits : b_.length + 32 < 2 ^ 64)
    (carries : tx.Carries addrSafetyRouter true dest b_ (eth.map BitVec.toNat)) :
    routed host (steps + 37) own answer sender tx =
      some (if Expected (answer addrSafetyRouter (.codeHash dest)) then
        ([.call dest 0 ⟨b_, by omega⟩],
          (answer addrSafetyRouter (.call dest 0 ⟨b_, by omega⟩)).outcome)
      else ([], .error (.reverted unexpectedCode))) := by
  have target : tx.target = addrSafetyRouter := carries.target
  have data : tx.data = List.replicate 12 0 ++ dest.toList ++ b_ := carries.data
  have short : tx.data.length < 2 ^ 64 := by
    rw [data]
    simp
    omega
  have enough : 32 ≤ tx.data.length := by
    rw [data]
    simp
  have named : destination ⟨tx.data, short⟩ = dest := destination_padded _ data
  have rest : Payload.drop ⟨tx.data, short⟩ 32 = ⟨b_, by omega⟩ := by
    apply Payload.ext
    simp only [Payload.drop, data]
    exact List.drop_left' (by simp)
  rw [routed, dif_pos short, run_runtimeCode, target]
  have passed : pass ⟨tx.data, short⟩ =
      Prog.ask (S := signature) (.call dest 0 ⟨b_, by omega⟩) Evm.Reply.relay := by
    rw [pass, if_pos enough, named, rest]
  simp only [router, Prog.answered, named, passed]
  by_cases expected : Expected (answer addrSafetyRouter (.codeHash dest))
  · simp only [if_pos expected, Prog.answered, Evm.Reply.answered_relay]
    rfl
  · simp only [if_neg expected, Prog.answered]
    rfl

end Chain

section Sending

variable {Asset : Type} (env : Go.Env Asset) (addrSafetyRouter : Address) (chainId : ℕ)
  (key : PrivateKey) (dest : Address) (b_ : List UInt8) (eth : Option Word)

/-- `client.Send` with the key of a sender, not as a dry run. -/
def sendWith (useSafetyRouter : Bool) : Action (SignedTx × UInt64) :=
  send env addrSafetyRouter useSafetyRouter chainId key (env.keyAddr key) dest b_
    (eth.map BitVec.toNat) false

variable (host : Host) (steps : ℕ) (own : Word → Word)
  (answer : Address → Evm.Query → Evm.Reply)

/-- The account receives the same, and answers the same, with the router as without. -/
def Transparent : Prop :=
  ∀ direct through, MaySend (sendWith env addrSafetyRouter chainId key dest b_ eth false) direct →
    MaySend (sendWith env addrSafetyRouter chainId key dest b_ eth true) through →
      routed host steps own answer (env.keyAddr key) through =
        called answer (env.keyAddr key) direct

/-- The account answers a call in the same way, whoever makes it. -/
def CallerBlind : Prop :=
  ∀ caller other value input,
    answer caller (.call dest value input) = answer other (.call dest value input)

variable {env key b_}

/-- With the router, the account receives no value and answers the router. -/
theorem transparent_iff_of_expected
    (signs : ∀ tx, ∃ signature, env.signTx key tx = .ok signature)
    (fits : b_.length + 32 < 2 ^ 64) (short : b_.length < 2 ^ 64)
    (expected : Expected (answer addrSafetyRouter (.codeHash dest))) :
    Transparent env addrSafetyRouter chainId key dest b_ eth host (steps + 37) own answer ↔
      eth.getD 0 = 0 ∧ (answer addrSafetyRouter (.call dest 0 ⟨b_, short⟩)).outcome =
        (answer (env.keyAddr key) (.call dest 0 ⟨b_, short⟩)).outcome := by
  constructor
  · intro transparent
    rcases signs (builtTx env addrSafetyRouter false chainId dest b_ (eth.map BitVec.toNat)
      0 0 0 0) with ⟨_, signsDirect⟩
    rcases signs (builtTx env addrSafetyRouter true chainId dest b_ (eth.map BitVec.toNat)
      0 0 0 0) with ⟨_, signsThrough⟩
    have direct : MaySend (sendWith env addrSafetyRouter chainId key dest b_ eth false) _ :=
      maySend_send 0 0 0 0 signsDirect
    have through : MaySend (sendWith env addrSafetyRouter chainId key dest b_ eth true) _ :=
      maySend_send 0 0 0 0 signsThrough
    have same := transparent _ _ direct through
    rw [routed_of_carries host steps own fits (carries_of_maySend through), if_pos expected,
      called_of_carries short (carries_of_maySend direct)] at same
    simp only [Option.some.injEq, Prod.mk.injEq, List.cons.injEq, Evm.Query.call.injEq] at same
    rcases same with ⟨⟨⟨_, value, _⟩, _⟩, outcome⟩
    rw [← value] at outcome
    exact ⟨value.symm, outcome⟩
  · rintro ⟨none, outcome⟩ direct through sendsDirect sendsThrough
    rw [routed_of_carries host steps own fits (carries_of_maySend sendsThrough),
      if_pos expected, called_of_carries short (carries_of_maySend sendsDirect), none, outcome]

/-- Routing to an account with the code the router knows is transparent exactly if no value is
sent and the account answers the router as it answers the sender. For an account that does not look
at the caller it is exactly if no value is sent. A transaction to an account with other code reverts
and calls nothing. -/
theorem routing_transparent_iff (signs : ∀ tx, ∃ signature, env.signTx key tx = .ok signature)
    (fits : b_.length + 32 < 2 ^ 64) :
    (∀ useSafetyRouter tx,
      MaySend (sendWith env addrSafetyRouter chainId key dest b_ eth useSafetyRouter) tx →
        tx.target = if useSafetyRouter then addrSafetyRouter else dest) ∧
      (Expected (answer addrSafetyRouter (.codeHash dest)) →
        (Transparent env addrSafetyRouter chainId key dest b_ eth host (steps + 37) own answer ↔
          eth.getD 0 = 0 ∧ (answer addrSafetyRouter (.call dest 0 ⟨b_, by omega⟩)).outcome =
            (answer (env.keyAddr key) (.call dest 0 ⟨b_, by omega⟩)).outcome)) ∧
      (Expected (answer addrSafetyRouter (.codeHash dest)) → CallerBlind dest answer →
        (Transparent env addrSafetyRouter chainId key dest b_ eth host (steps + 37) own answer ↔
          eth.getD 0 = 0)) ∧
      (¬Expected (answer addrSafetyRouter (.codeHash dest)) → ∀ through,
        MaySend (sendWith env addrSafetyRouter chainId key dest b_ eth true) through →
          routed host (steps + 37) own answer (env.keyAddr key) through =
            some ([], .error (.reverted unexpectedCode))) := by
  have short : b_.length < 2 ^ 64 := by omega
  refine ⟨fun _ _ sends => (carries_of_maySend sends).target,
    transparent_iff_of_expected _ _ _ _ _ _ _ _ signs fits short, ?_, ?_⟩
  · intro expected blind
    rw [transparent_iff_of_expected _ _ _ _ _ _ _ _ signs fits short expected]
    exact and_iff_left (congrArg Evm.Reply.outcome (blind _ _ _ _))
  · intro unexpected through sends
    rw [routed_of_carries host steps own fits (carries_of_maySend sends), if_neg unexpected]

end Sending

/-! ### Known answers: one wei and three bytes for the account 0x55.. -/

namespace Known

def account : Address :=
  Bytes.ofNat 20 0x5555555555555555555555555555555555555555

def safetyRouter : Address :=
  Bytes.ofNat 20 0x6666666666666666666666666666666666666666

def senderKey : PrivateKey :=
  Bytes.ofNat 32 0x4646464646464646464646464646464646464646464646464646464646464646

/-- The signatures of the two transactions. -/
def env : Go.Env KnownAsset :=
  { Go.Known.env with
    keyAddr := fun key => if key = senderKey then Go.Known.owner else default
    signTx := fun _ tx => .ok (if tx.target = account then
        Bytes.ofNat 65 0x33c2ba6bbe9723fe9ac6fb4adcf1cfaeb73f10ebad4012d9efda24bad95a27a47bd5549dc58531ed7a1f859cdeeb545d5faa5b2f4168bbf0c3cea98db484c28b00
      else
        Bytes.ofNat 65 0x7a42ddf550a2d48b67b41a3d3822f7945ad5c6baf271e61f5df45a6d8f37462969f92c9a38c80a5b1a03c7be19524c0e236af021aafdf7630b17fc62d296aee900) }

def host : Host :=
  ⟨fun _ => 0, fun _ => none, fun _ => 0⟩

/-- The account has the code the router knows, and accepts every call. -/
def answer (_ : Address) : Evm.Query → Evm.Reply
  | .codeHash _ => ⟨true, expectedHash.toList, by simp⟩
  | _ => ⟨true, Payload.empty⟩

def payload : Payload :=
  ⟨[1, 2, 3], by decide⟩

theorem expected : Expected (answer safetyRouter (.codeHash account)) := by
  decide +kernel

/-- `client.Send` of the payload. -/
abbrev sending (eth : Option Word) (useSafetyRouter : Bool) : Action (SignedTx × UInt64) :=
  sendWith env safetyRouter 55244 senderKey account payload.bytes eth useSafetyRouter

theorem maySend_sending (eth : Option Word) (useSafetyRouter : Bool) :
    MaySend (sending eth useSafetyRouter) (builtTx env safetyRouter useSafetyRouter 55244 account
      payload.bytes (eth.map BitVec.toNat) 200000 100000000 1 0) :=
  maySend_send 200000 100000000 1 0 rfl

end Known

/-- The account receives the wei without the router. With it the account receives none. -/
theorem routed_value_kept :
    ∃ direct through, MaySend (Known.sending (some 1) false) direct ∧
      MaySend (Known.sending (some 1) true) through ∧
      called Known.answer (Known.env.keyAddr Known.senderKey) direct =
        some ([.call Known.account 1 Known.payload], .ok Payload.empty) ∧
      routed Known.host 37 (fun _ => 0) Known.answer (Known.env.keyAddr Known.senderKey) through =
        some ([.call Known.account 0 Known.payload], .ok Payload.empty) := by
  have direct := Known.maySend_sending (some 1) false
  have through := Known.maySend_sending (some 1) true
  refine ⟨_, _, direct, through, ?_, ?_⟩
  · exact called_of_carries Known.payload.short (carries_of_maySend direct)
  · refine (routed_of_carries Known.host 0 _ (by decide) (carries_of_maySend through)).trans ?_
    rw [if_pos Known.expected]
    rfl

theorem routing_transparent_known :
    Transparent Known.env Known.safetyRouter 55244 Known.senderKey Known.account
      Known.payload.bytes none Known.host 37 (fun _ => 0) Known.answer := by
  have characterised := routing_transparent_iff Known.safetyRouter 55244 Known.account none
    Known.host 0 (fun _ => 0) Known.answer (fun _ => ⟨_, rfl⟩ :
      ∀ tx, ∃ signature, Known.env.signTx Known.senderKey tx = .ok signature)
    (by decide : Known.payload.bytes.length + 32 < 2 ^ 64)
  exact (characterised.2.2.1 Known.expected fun _ _ _ _ => rfl).mpr rfl

end SuperpositionAccounts.Router
