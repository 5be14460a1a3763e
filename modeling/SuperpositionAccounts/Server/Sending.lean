import SuperpositionAccounts.Server.Protocol

/-!
# Actions that come to send

What an action performs was said for all of its runs. This file is about single
runs: with suitable answers an action comes to hand a transaction to the node.
-/

namespace SuperpositionAccounts

namespace Go

open Threads Threads.Proc Result SuperpositionAccounts.Go.Action

/-- The action may come to hand a transaction with a property to the node. -/
def Sends {α : Type} (property : SignedTx → Prop) (action : Action α) : Prop :=
  ∃ signed next, Reaches action (.perform (.sendTransaction signed) next) ∧ property signed

/-- The action comes to send a transaction. -/
abbrev ComesToSend {α : Type} (action : Action α) : Prop :=
  Sends (fun _ => True) action

/-- The action may hand this transaction to the node. -/
abbrev MaySend {α : Type} (action : Action α) (tx : Tx) : Prop :=
  Sends (fun signed => signed.tx = tx) action

section Reaching

variable {α β : Type} {last : Action α}

theorem reaches_perform {op : Op} {after : op.Result → Action α} (result : op.Result)
    (rest : Reaches (after result) last) : Reaches (Action.perform op >>= after) last :=
  Reaches.perform (I := operations) result rest

theorem reaches_check {note : String} {result : Except String β} {after : β → Action α} {value : β}
    (given : result = .ok value) (rest : Reaches (after value) last) :
    Reaches (check note result >>= after) last := by
  subst given
  exact rest

theorem reaches_orFatal {note : String} {action : Action α} {value : α}
    (reaches : Reaches action (.ret value)) : Reaches (orFatal note action) (.ret value) := by
  rcases reaches with ⟨log, runs⟩
  exact Reaches.bind ⟨log, runs.attempt⟩ (.refl _)

variable {property : SignedTx → Prop}

theorem sends_here {signed : SignedTx} {after : Except String Unit → Action α}
    (holds : property signed) :
    Sends property (Action.perform (.sendTransaction signed) >>= after) :=
  ⟨signed, _, .refl _, holds⟩

theorem sends_perform {op : Op} {after : op.Result → Action α} (result : op.Result)
    (rest : Sends property (after result)) : Sends property (Action.perform op >>= after) := by
  rcases rest with ⟨signed, next, reaches, holds⟩
  exact ⟨signed, next, reaches_perform result reaches, holds⟩

theorem sends_check {note : String} {result : Except String β} {after : β → Action α}
    {value : β} (given : result = .ok value) (rest : Sends property (after value)) :
    Sends property (check note result >>= after) := by
  subst given
  exact rest

theorem sends_ofResult {result : Result β} {after : β → Action α} {value : β}
    (given : result = .ok value) (rest : Sends property (after value)) :
    Sends property (ofResult result >>= after) := by
  subst given
  exact rest

theorem sends_guard {condition : Prop} [Decidable condition] {text : String}
    {after : Unit → Action α} (passed : ¬condition) (rest : Sends property (after ())) :
    Sends property (if condition then err text >>= after else after ()) := by
  rw [if_neg passed]
  exact rest

theorem sends_later {first : Action β} {after : β → Action α} {value : β}
    (reaches : Reaches first (.ret value)) (rest : Sends property (after value)) :
    Sends property (first >>= after) := by
  rcases rest with ⟨signed, next, rest, holds⟩
  exact ⟨signed, next, reaches.bind rest, holds⟩

theorem sends_inside {first : Action β} {after : Except Fault β → Action α}
    (inside : Sends property first) : Sends property (attempt first >>= after) := by
  rcases inside with ⟨signed, next, ⟨log, runs⟩, holds⟩
  exact ⟨signed, _, ⟨log, runs.attempt.bind after⟩, holds⟩

end Reaching

section Sending

variable {Asset : Type} {env : Env Asset} {router : Address} {useSafetyRouter : Bool} {chainId : ℕ}
  {key : PrivateKey} {dest : Address} {b_ : List UInt8} {eth : Option ℕ}

theorem reaches_pickPrivateKey {text : String} (known : env.hexToECDSA text = .ok key) :
    Reaches (pickPrivateKey env) (.ret (key, env.keyAddr key)) := by
  unfold pickPrivateKey
  refine reaches_perform (.ok (some 0, 0)) (reaches_check rfl ?_)
  refine reaches_perform (.ok (some text)) (reaches_check rfl ?_)
  exact reaches_check known (.refl _)

variable (env router useSafetyRouter chainId dest b_ eth) in
/-- The transaction that `send` builds from the answers of the node. -/
def builtTx (gasLimit : UInt64) (baseFee gasTipCap nonce : ℕ) : Tx where
  chainId := chainId
  nonce := nonce
  gasFeeCap := gasTipCap + baseFee * 2
  gasTipCap := gasTipCap
  gas := gasLimit + env.thirtyPercent gasLimit
  value := eth.getD 0
  data := if useSafetyRouter then List.replicate 12 0 ++ dest.toList ++ b_ else b_
  target := if useSafetyRouter then router else dest

theorem maySend_send {sender : Address} (gasLimit : UInt64) (baseFee gasTipCap nonce : ℕ)
    {signature : Bytes 65}
    (signs : env.signTx key (builtTx env router useSafetyRouter chainId dest b_ eth gasLimit
      baseFee gasTipCap nonce) = .ok signature) :
    MaySend (send env router useSafetyRouter chainId key sender dest b_ eth false)
      (builtTx env router useSafetyRouter chainId dest b_ eth gasLimit baseFee gasTipCap
        nonce) := by
  unfold send
  refine sends_perform (.ok gasLimit) (sends_check rfl ?_)
  refine sends_perform (.ok baseFee) (sends_check rfl ?_)
  refine sends_perform (.ok gasTipCap) (sends_check rfl ?_)
  refine sends_perform (.ok nonce) (sends_check rfl ?_)
  exact sends_check signs (sends_here rfl)

theorem comesToSend_send {sender : Address}
    (signs : ∀ tx, ∃ signature, env.signTx key tx = .ok signature) :
    ComesToSend (send env router useSafetyRouter chainId key sender dest b_ eth false) := by
  rcases maySend_send 0 0 0 0 (signs _).choose_spec with ⟨signed, next, reaches, _⟩
  exact ⟨signed, next, reaches, trivial⟩

/-- Every transaction that `send` hands over holds what it was given. -/
theorem carries_of_maySend {dryrun : Bool} {tx : Tx}
    (sends : MaySend (send env router useSafetyRouter chainId key (env.keyAddr key) dest b_ eth
      dryrun) tx) :
    tx.Carries router useSafetyRouter dest b_ eth := by
  rcases sends with ⟨signed, next, reaches, rfl⟩
  let good (_ : List (Entry operations)) : Op → Prop
    | .sendTransaction signed => signed.tx.Carries router useSafetyRouter dest b_ eth
    | _ => True
  have harmless (log : List (Entry operations)) (op : Op) (isHarmless : op.harmless) :
      good log op := by
    cases op with
    | sendTransaction _ => exact absurd isHarmless Bool.false_ne_true
    | _ => trivial
  have does : Does good (fun _ _ => True) []
      (send env router useSafetyRouter chainId key (env.keyAddr key) dest b_ eth dryrun) :=
    does_send harmless rfl fun _ _ _ _ carries => carries
  rcases does.of_reaches reaches with ⟨log, carries⟩
  exact carries

end Sending

end Go

end SuperpositionAccounts
