import SuperpositionAccounts.CallTree.Tickets
import SuperpositionAccounts.Lite.Execution

/-!
# LiteAccounts forward what was signed, once

Any number of LiteAccounts run together, each on the code that the factory left at
its address, and everything else is outside. What one call does is read off
`account`. Over whole runs the nonces of an account are tickets: a call that is
not reverted and does not come from the owner uses one.
-/

namespace SuperpositionAccounts.Lite

open CallTree Evm

/-! ### Accounts and their calls -/

/-- When an account forwards an argument, given its storage. -/
structure Authorised (setting : Setting) (operator : U) (address : Address)
    (store : Word → Word) (argument : Argument) : Prop where
  enabled : store enabledSlot ≠ 0
  unused : store (setting.nonceSlot argument.nonce) = 0
  signed : setting.precompiles.edphverifyPost
    (setting.precompiles.sha512 (argument.signedBytes address)) operator argument.sig = true

/-- Whom an account was created for. -/
structure Keys where
  owner : Address
  operator : U

/-- The account that a call reaches, if it reaches one, and the message it gets. -/
def reached (deployed : Address → Option Keys) (self target : Address) (input : Payload) :
    Option (Address × Message) :=
  if (deployed target).isSome then some (target, ⟨self, input⟩) else none

/-- LiteAccounts at some addresses. -/
def system (setting : Setting) (steps : ℕ) (deployed : Address → Option Keys) :
    System signature where
  program self message :=
    match deployed self with
    | some keys =>
        run setting.host (steps + 96) (runtimeCode keys.owner keys.operator) self message
    | none => .fail .halted
  callee _ frame query :=
    match query with
    | .call target _ input => reached deployed frame.self target input
    | .staticcall target input => reached deployed frame.self target input
    -- the code makes neither of these
    | .delegatecall _ _ => none
    | .codeHash _ => none
  relay
    | .ok data => ⟨true, data⟩
    | .error (.reverted data) => ⟨false, data⟩
    | .error .halted => ⟨false, Payload.empty⟩
  failed reply := !reply.ok
  static
    | .call _ _ _ => false
    | .staticcall _ _ => true
    | .delegatecall _ _ => false
    | .codeHash _ => true
  halt := .halted

section Calls

variable {setting : Setting} {steps : ℕ} {deployed : Address → Option Keys} {keys : Keys}
  {self : Address} {stack : List (Frame signature)} {message : Message} {readonly : Bool}
  {handlers : List (Handler signature)} {world : World signature}

theorem system_program (located : deployed self = some keys) (message : Message) :
    (system setting steps deployed).program self message =
      account setting keys.owner keys.operator self message := by
  simp only [system, located]
  exact run_runtimeCode setting keys.owner keys.operator self message steps

/-- A call of the owner. -/
theorem enter_owner (located : deployed self = some keys)
    (privileged : message.sender = keys.owner) (stack : List (Frame signature))
    (handlers : List (Handler signature)) (world : World signature) :
    (system setting steps deployed).enter stack ⟨self, message, false⟩ handlers world =
      (((world.record stack ⟨self, message, false⟩ .entered).write self enabledSlot
          (Word.ofBytes (slice message.calldata.bytes 0 0x20))).record stack
          ⟨self, message, false⟩ (.completed Payload.empty), .ok Payload.empty) := by
  simp only [System.enter, system_program located, account_owner privileged, Prog.run]
  rfl

theorem authorised_of_done {output : Payload} {after : World signature}
    (unprivileged : message.sender ≠ keys.owner)
    (finished : (account setting keys.owner keys.operator self message).run
      (system setting steps deployed) stack ⟨self, message, readonly⟩ handlers world =
        .done output after) :
    readonly = false ∧ ∃ argument : Argument, message.calldata.bytes = argument.bytes ∧
      Authorised setting keys.operator self (world.store self) argument := by
  rw [account_other unprivileged] at finished
  simp only [Prog.run] at finished
  by_cases disabled : world.store self enabledSlot = 0
  · rw [if_pos disabled] at finished
    cases finished
  rw [if_neg disabled] at finished
  by_cases hasSig : 0x40 ≤ message.calldata.bytes.length
  swap
  · rw [if_neg hasSig] at finished
    cases finished
  simp only [if_pos hasSig, Prog.run] at finished
  by_cases unused : world.store self (setting.nonceSlot (nonceOf message.calldata.bytes)) = 0
  swap
  · rw [if_neg unused] at finished
    cases finished
  simp only [if_pos unused, Prog.run] at finished
  cases readonly with
  | true => cases finished
  | false =>
      rw [if_neg (by simp)] at finished
      by_cases signed : setting.signed keys.operator self message.calldata.bytes
      swap
      · rw [if_neg signed] at finished
        cases finished
      rw [if_pos signed, deliver_eq] at finished
      by_cases enough : 0x64 ≤ message.calldata.bytes.length
      swap
      · rw [if_neg enough] at finished
        cases finished
      rcases Argument.exists_of_length enough with ⟨argument, reads⟩
      refine ⟨rfl, argument, reads, disabled, ?_, ?_⟩
      · rw [reads, argument.nonceOf_bytes] at unused
        exact unused
      · rw [reads, Setting.signed, argument.drop_bytes, argument.sigOf_bytes] at signed
        exact signed

/-- A call that is not the owner's and is not reverted was authorised. -/
theorem authorised_of_enter {output : Payload} (located : deployed self = some keys)
    (unprivileged : message.sender ≠ keys.owner)
    (completed : ((system setting steps deployed).enter stack ⟨self, message, readonly⟩ handlers
      world).2 = .ok output) :
    readonly = false ∧ ∃ argument : Argument, message.calldata.bytes = argument.bytes ∧
      Authorised setting keys.operator self (world.store self) argument := by
  simp only [System.enter, system_program located] at completed
  split at completed
  · rename_i finished
    have authorised := authorised_of_done unprivileged finished
    exact authorised
  · cases completed

/-- A call that reverts and leaves nothing behind. -/
def Refused (accounts : System signature) (stack : List (Frame signature))
    (frame : Frame signature) (handlers : List (Handler signature)) (world : World signature) :
    Prop :=
  (∃ err, (accounts.enter stack frame handlers world).2 = .error err) ∧
    (accounts.enter stack frame handlers world).1.toState = world.toState

theorem refused_of_not_ok {frame : Frame signature}
    (notOk : ∀ output, ((system setting steps deployed).enter stack frame handlers world).2 ≠
      .ok output) : Refused (system setting steps deployed) stack frame handlers world := by
  cases outcome : ((system setting steps deployed).enter stack frame handlers world).2 with
  | ok output => exact absurd outcome (notOk output)
  | error err =>
      exact ⟨⟨err, outcome⟩, System.enter_failed (system setting steps deployed) outcome⟩

/-- A static call, and one that is neither the owner's nor authorised. -/
theorem refused (located : deployed self = some keys)
    (unauthorised : readonly = true ∨ message.sender ≠ keys.owner ∧
      ∀ argument : Argument, message.calldata.bytes = argument.bytes →
        ¬Authorised setting keys.operator self (world.store self) argument) :
    Refused (system setting steps deployed) stack ⟨self, message, readonly⟩ handlers world := by
  apply refused_of_not_ok
  intro output completed
  by_cases privileged : message.sender = keys.owner
  · rcases unauthorised with static | ⟨unprivileged, _⟩
    · subst static
      simp only [System.enter, system_program located, account_owner privileged,
        Prog.run] at completed
      cases completed
    · exact unprivileged privileged
  · rcases authorised_of_enter located privileged completed with
      ⟨notStatic, argument, reads, authorised⟩
    rcases unauthorised with static | ⟨_, never⟩
    · rw [static] at notStatic
      cases notStatic
    · exact never argument reads authorised

theorem account_argument {owner : Address} {operator : U} {argument : Argument}
    (unprivileged : message.sender ≠ owner) (reads : message.calldata.bytes = argument.bytes) :
    account setting owner operator self message =
      .load enabledSlot fun enabled =>
        if enabled = 0 then .fail internalError
        else .load (setting.nonceSlot argument.nonce) fun used =>
          if used = 0 then
            .store (setting.nonceSlot argument.nonce) 1
              (if setting.precompiles.edphverifyPost
                  (setting.precompiles.sha512 (argument.signedBytes self)) operator argument.sig
                then Prog.ask (S := signature) (.call argument.target 0 argument.cd) passOn
              else .fail unverified)
          else .fail internalError := by
  have long := argument.length_bytes
  have hasSig : 0x40 ≤ argument.bytes.length := by omega
  have enough : 0x64 ≤ argument.bytes.length := by omega
  rw [account_other unprivileged, deliver_eq, Setting.signed, argument.forwarded_eq reads, reads,
    argument.nonceOf_bytes, argument.targetOf_bytes, argument.sigOf_bytes, argument.drop_bytes,
    if_pos enough]
  simp only [if_pos hasSig]
  rfl

theorem run_authorised {argument : Argument} (unprivileged : message.sender ≠ keys.owner)
    (reads : message.calldata.bytes = argument.bytes)
    (authorised : Authorised setting keys.operator self (world.store self) argument) :
    (account setting keys.owner keys.operator self message).run (system setting steps deployed)
        stack ⟨self, message, false⟩ handlers world =
      (Prog.ask (S := signature) (.call argument.target 0 argument.cd) passOn).run
        (system setting steps deployed) stack ⟨self, message, false⟩ handlers
        (world.write self (setting.nonceSlot argument.nonce) 1) := by
  have enabled : ¬world.store self enabledSlot = 0 := authorised.enabled
  have unused : world.store self (setting.nonceSlot argument.nonce) = 0 := authorised.unused
  rw [account_argument unprivileged reads, if_pos authorised.signed]
  simp only [Prog.run]
  rw [if_neg enabled]
  simp only [Prog.run]
  rw [if_pos unused]
  rfl

/-- An authorised call makes one call and passes its outcome on. -/
theorem enter_authorised {argument : Argument} (located : deployed self = some keys)
    (unprivileged : message.sender ≠ keys.owner)
    (reads : message.calldata.bytes = argument.bytes)
    (authorised : Authorised setting keys.operator self (world.store self) argument)
    {handler : Handler signature} {after : World signature} {reply : Evm.Reply}
    (handled : handler (⟨self, message, false⟩ :: stack) false
      (reached deployed self argument.target argument.cd)
      ((world.record stack ⟨self, message, false⟩ .entered).write self
        (setting.nonceSlot argument.nonce) 1) = some (after, reply)) :
    (system setting steps deployed).enter stack ⟨self, message, false⟩ (handler :: handlers)
        world =
      let finished := after.record stack ⟨self, message, false⟩
        (.asked (.call argument.target 0 argument.cd) reply)
      if reply.ok then
        (finished.record stack ⟨self, message, false⟩ (.completed reply.data), .ok reply.data)
      else (finished.revertTo world, .error (.reverted reply.data)) := by
  have authorisedInside : Authorised setting keys.operator self
      ((world.record stack ⟨self, message, false⟩ .entered).store self) argument := authorised
  simp only [System.enter, system_program located]
  rw [run_authorised unprivileged reads authorisedInside]
  simp only [Prog.run, system, Bool.false_or, handled]
  cases ok : reply.ok with
  | true => simp [passOn, ok, Prog.run]
  | false => simp [passOn, ok, Prog.run]

end Calls

/-! ### Nonces over whole runs -/

/-- A nonce of an account, used by each call that is not the owner's. -/
def forwardTicket (setting : Setting) (keys : Keys) (self : Address) (nonce : Bytes 16) :
    Ticket signature where
  self := self
  slot := setting.nonceSlot nonce
  free := 0
  taken := 1
  taken_ne_free := by decide
  demand frame :=
    if frame.msg.sender ≠ keys.owner ∧
      setting.nonceSlot (nonceOf frame.msg.calldata.bytes) = setting.nonceSlot nonce then 1
    else 0

/-- How many calls with a nonce, not reverted, an account has forwarded. -/
def forwards (setting : Setting) (keys : Keys) (self : Address) (nonce : Bytes 16)
    (log : List (Event signature)) : ℕ :=
  (forwardTicket setting keys self nonce).uses log

section Runs

variable {setting : Setting} {steps : ℕ} {deployed : Address → Option Keys} {keys : Keys}
  {self : Address} {nonce : Bytes 16}

theorem deliver_within (message : Message) {writable : Word → Prop} {markable : Empty → Prop} :
    Prog.Within (S := signature) writable markable (deliver message) := by
  rw [deliver_eq]
  split
  · intro reply
    rw [passOn]
    split
    · trivial
    · trivial
  · trivial

/-- The write of a nonce begins a use of it. -/
theorem Pending.written {frame : Frame signature} {before : State signature}
    {world : World signature} (own : frame.self = self)
    (unprivileged : frame.msg.sender ≠ keys.owner)
    (pending : (forwardTicket setting keys self nonce).Pending before 0 world)
    (unused : world.store frame.self
      (setting.nonceSlot (nonceOf frame.msg.calldata.bytes)) = 0) :
    (forwardTicket setting keys self nonce).Pending before
      ((forwardTicket setting keys self nonce).demand frame)
      (world.write frame.self (setting.nonceSlot (nonceOf frame.msg.calldata.bytes)) 1) := by
  by_cases same : setting.nonceSlot (nonceOf frame.msg.calldata.bytes) = setting.nonceSlot nonce
  · have one : (forwardTicket setting keys self nonce).demand frame = 0 + 1 := by
      simp [forwardTicket, unprivileged, same]
    rw [one, own, same]
    rw [own, same] at unused
    exact pending.take unused
  · have none : (forwardTicket setting keys self nonce).demand frame = 0 := by
      simp [forwardTicket, same]
    have survives : Survives (S := signature)
        (fun world after =>
          (forwardTicket setting keys self nonce).Step world.toState after.toState) [] frame
        (fun slot => slot ≠ setting.nonceSlot nonce) (fun _ => True)
        ((forwardTicket setting keys self nonce).Pending before 0) :=
      Ticket.Pending.survives fun _ changed => changed rfl
    rw [none]
    exact survives.written _ _ same pending

theorem account_begins (apart : setting.nonceSlot nonce ≠ enabledSlot)
    (stack : List (Frame signature)) (frame : Frame signature) (world : World signature)
    (own : frame.self = self) :
    (account setting keys.owner keys.operator self frame.msg).wp
      (fun world after =>
        (forwardTicket setting keys self nonce).Step world.toState after.toState) stack frame
      (fun _ => True)
      (fun _ after => (forwardTicket setting keys self nonce).Pending world.toState
        ((forwardTicket setting keys self nonce).demand frame) after)
      (world.record stack frame .entered) := by
  have initial : (forwardTicket setting keys self nonce).Pending world.toState 0
      (world.record stack frame .entered) := Ticket.Pending.initial stack frame
  by_cases privileged : frame.msg.sender = keys.owner
  · have none : (forwardTicket setting keys self nonce).demand frame = 0 := by
      simp [forwardTicket, privileged]
    have within : Prog.Within (S := signature) (α := Payload)
        (fun slot => slot ≠ setting.nonceSlot nonce) (fun _ => True)
        (.store enabledSlot (Word.ofBytes (slice frame.msg.calldata.bytes 0 0x20))
          (.ret Payload.empty)) := ⟨apart.symm, trivial⟩
    rw [account_owner privileged, none]
    exact initial.wp_within within
  · rw [account_other privileged]
    simp only [Prog.wp]
    split
    · trivial
    split
    swap
    · trivial
    simp only [Prog.wp]
    split
    swap
    · trivial
    rename_i free
    refine ⟨trivial, ?_⟩
    split
    · exact (Pending.written own privileged initial free).wp_within (deliver_within frame.msg)
    · trivial

/-- Every run keeps the count of every nonce of every account. -/
theorem forward_guarantee (located : deployed self = some keys)
    (apart : setting.nonceSlot nonce ≠ enabledSlot) :
    Guarantee (system setting steps deployed) (fun _ _ => True)
      (fun _ world after =>
        (forwardTicket setting keys self nonce).Step world.toState after.toState) := by
  apply Ticket.guarantee
  intro stack frame world own
  have located' : deployed frame.self = some keys := own ▸ located
  rw [system_program located', own]
  exact account_begins apart stack frame world own

/-- A nonce whose slot were the one that enables the account could not be used at all. -/
theorem unusable_guarantee (located : deployed self = some keys)
    (collides : setting.nonceSlot nonce = enabledSlot) :
    Guarantee (system setting steps deployed) (fun _ _ => True)
      (fun _ world after =>
        forwards setting keys self nonce after.log =
          forwards setting keys self nonce world.log) := by
  apply Guarantee.ofState fun _ (before after : State signature) =>
    forwards setting keys self nonce after.log = forwards setting keys self nonce before.log
  · intro _ state
    rfl
  · intro _ _ _ _ first second
    exact second.trans first
  · intro stack frame world _
    have initial : forwards setting keys self nonce
        (world.record stack frame .entered).log = forwards setting keys self nonce world.log := by
      simp [forwards, Ticket.eventUses]
    have survives : Survives (S := signature)
        (fun before after => forwards setting keys self nonce after.log =
          forwards setting keys self nonce before.log) stack frame (fun _ => True) (fun _ => True)
        (fun after => forwards setting keys self nonce after.log =
          forwards setting keys self nonce world.log) := by
      refine ⟨fun moved kept => moved.trans kept, ?_, ?_, fun _ _ _ kept => kept⟩
      · intro _ query reply kept
        simpa [forwards, Ticket.eventUses] using kept
      · intro _ mark
        cases mark
    by_cases wanted : frame.self = self ∧ frame.msg.sender ≠ keys.owner ∧
        setting.nonceSlot (nonceOf frame.msg.calldata.bytes) = setting.nonceSlot nonce
    · rcases wanted with ⟨own, unprivileged, same⟩
      have located' : deployed frame.self = some keys := own ▸ located
      rw [system_program located', account_other unprivileged, same, collides]
      simp only [Prog.wp]
      split
      · trivial
      rename_i enabled
      split
      · simp only [Prog.wp]
        rw [if_neg enabled]
        trivial
      · trivial
    · apply Prog.wp_mono _ ((Prog.within_true _).wp survives (fun _ => trivial) initial)
      intro output after kept
      have none : (forwardTicket setting keys self nonce).eventUses
          ⟨stack, frame, .completed output, after.store⟩ = 0 := by
        by_cases own : frame.self = self
        · rw [Ticket.eventUses_completed (S := signature) own]
          exact if_neg fun used => wanted ⟨own, used⟩
        · exact Ticket.eventUses_elsewhere (S := signature) own stack _ after.store
      rw [World.record_log, forwards, Ticket.uses_cons (S := signature), none, Nat.zero_add]
      exact kept

/-- The nonce of an authorised call is consumed exactly if the call is not reverted. -/
theorem consumed_iff (located : deployed self = some keys) {message : Message} {argument : Argument}
    (unprivileged : message.sender ≠ keys.owner)
    (reads : message.calldata.bytes = argument.bytes) {world : World signature}
    (authorised : Authorised setting keys.operator self (world.store self) argument)
    (stack : List (Frame signature)) (script : List (Reaction signature)) :
    let result := (system setting steps deployed).enter stack ⟨self, message, false⟩
      (Reaction.runAll (system setting steps deployed) script) world
    result.1.store self (setting.nonceSlot argument.nonce) ≠ 0 ↔
      ∃ output, result.2 = .ok output := by
  intro result
  have apart : setting.nonceSlot argument.nonce ≠ enabledSlot := by
    intro same
    exact authorised.enabled (same ▸ authorised.unused)
  cases outcome : result.2 with
  | error err =>
      have restored : result.1.toState = world.toState :=
        System.enter_failed (system setting steps deployed) outcome
      apply iff_of_false
      · rw [show result.1.store = world.store from congrArg State.store restored]
        exact not_not.mpr authorised.unused
      · rintro ⟨output, completed⟩
        cases completed
  | ok output =>
      apply iff_of_true _ ⟨output, rfl⟩
      have holds : ((system setting steps deployed).program self message).wp
          (fun world after =>
            (forwardTicket setting keys self argument.nonce).Step world.toState after.toState)
          stack ⟨self, message, false⟩ (fun _ => True)
          (fun _ after => (forwardTicket setting keys self argument.nonce).Pending world.toState
            ((forwardTicket setting keys self argument.nonce).demand ⟨self, message, false⟩) after)
          (world.record stack ⟨self, message, false⟩ .entered) := by
        rw [system_program located]
        exact account_begins apart stack ⟨self, message, false⟩ world rfl
      have one : (forwardTicket setting keys self argument.nonce).demand
          ⟨self, message, false⟩ = 1 := by
        simp [forwardTicket, unprivileged, reads, argument.nonceOf_bytes]
      rcases (forward_guarantee located apart).enter_completed holds outcome with
        ⟨after, pending, final⟩
      rw [one] at pending
      rcases pending with ⟨_, _, absurd⟩ | ⟨_, taken, _⟩
      · cases absurd
      · have final' : result.1 = after.record stack ⟨self, message, false⟩ (.completed output) :=
          final
        rw [final', World.record_store]
        intro zero
        exact (forwardTicket setting keys self argument.nonce).taken_ne_free
          (taken.symm.trans zero)

/-- Each nonce of an account forwards at most one call, and is consumed exactly then. -/
theorem forwards_once (located : deployed self = some keys) {store : Address → Word → Word}
    (constructed : ∀ slot, store self slot = if slot = enabledSlot then 1 else 0)
    (acts : List (Act signature)) (nonce : Bytes 16) :
    let after := Act.runAll (system setting steps deployed) acts [] false
      (World.start (S := signature) store)
    forwards setting keys self nonce after.log ≤ 1 ∧
      (setting.nonceSlot nonce ≠ enabledSlot →
        (after.store self (setting.nonceSlot nonce) ≠ 0 ↔
          forwards setting keys self nonce after.log = 1)) := by
  intro after
  by_cases collides : setting.nonceSlot nonce = enabledSlot
  · have same : forwards setting keys self nonce after.log =
        forwards setting keys self nonce (World.start (S := signature) store).log :=
      (unusable_guarantee located collides).runAll acts fun _ _ _ => trivial
    refine ⟨?_, fun apart => absurd collides apart⟩
    rw [same]
    exact Nat.zero_le 1
  · have step : (forwardTicket setting keys self nonce).Step
        (World.start (S := signature) store).toState after.toState :=
      (forward_guarantee located collides).runAll acts fun _ _ _ => trivial
    have free : store self (setting.nonceSlot nonce) = 0 := by
      rw [constructed, if_neg collides]
    refine ⟨step.uses_le, fun _ => ?_⟩
    rcases step with ⟨slotSame, usesSame⟩ | ⟨_, taken, oneMore⟩
    · apply iff_of_false
      · exact not_not.mpr (slotSame.trans free)
      · intro one
        exact absurd (usesSame.symm.trans one) (by simp [World.start])
    · apply iff_of_true
      · intro zero
        exact (forwardTicket setting keys self nonce).taken_ne_free (taken.symm.trans zero)
      · exact oneMore

/-- A signature is valid for one digest only, whatever the key. -/
def OneDigest (precompiles : Precompiles) (sig : Sig) : Prop :=
  ∀ digest digest' key key', precompiles.edphverifyPost digest key sig = true →
    precompiles.edphverifyPost digest' key' sig = true → digest = digest'

/-- A signature for one account is not one for another: the signed bytes begin with the
address. -/
theorem not_authorised_elsewhere {other : Address} {operator : U} {argument presented : Argument}
    (different : other ≠ self) (sameSig : presented.sig = argument.sig)
    (signed : setting.precompiles.edphverifyPost
      (setting.precompiles.sha512 (argument.signedBytes self)) keys.operator argument.sig = true)
    (oneDigest : OneDigest setting.precompiles argument.sig)
    (noCollision : setting.precompiles.sha512 (argument.signedBytes self) =
        setting.precompiles.sha512 (presented.signedBytes other) →
      argument.signedBytes self = presented.signedBytes other) {store : Word → Word} :
    ¬Authorised setting operator other store presented := by
  intro authorised
  have signedElsewhere := authorised.signed
  rw [sameSig] at signedElsewhere
  have sameBytes := noCollision (oneDigest _ _ _ _ signed signedElsewhere)
  have sameAddress := (List.append_inj sameBytes (by simp)).1
  exact different (List.Vector.eq _ _ sameAddress).symm

end Runs

/-- A LiteAccount forwards exactly what its operator signed, once. -/
theorem forwards_what_was_signed_once (setting : Setting) (steps : ℕ)
    (deployed : Address → Option Keys) :
    let accounts := system setting steps deployed
    -- the bytes of the factory enable the account and leave its code
    (∀ (keys : Keys) (self : Address) (message : Message),
      run setting.host (steps + 10) (initCode keys.owner keys.operator) self message =
        .store enabledSlot 1 (.ret (deployedCode keys.owner keys.operator))) ∧
    ∀ (self : Address) (keys : Keys), deployed self = some keys →
      -- a call of the owner sets the enabled slot
      (∀ (stack : List (Frame signature)) (message : Message)
          (handlers : List (Handler signature)) (world : World signature),
        message.sender = keys.owner →
        accounts.enter stack ⟨self, message, false⟩ handlers world =
          (((world.record stack ⟨self, message, false⟩ .entered).write self enabledSlot
            (Word.ofBytes (slice message.calldata.bytes 0 0x20))).record stack
              ⟨self, message, false⟩ (.completed Payload.empty), .ok Payload.empty)) ∧
      -- any other call is refused unless it is authorised
      (∀ (stack : List (Frame signature)) (message : Message) (readonly : Bool)
          (handlers : List (Handler signature)) (world : World signature),
        (readonly = true ∨ message.sender ≠ keys.owner ∧
          ∀ argument : Argument, message.calldata.bytes = argument.bytes →
            ¬Authorised setting keys.operator self (world.store self) argument) →
        Refused accounts stack ⟨self, message, readonly⟩ handlers world) ∧
      -- an authorised call makes one call, whose outcome is passed on, and consumes the nonce
      (∀ (stack : List (Frame signature)) (message : Message) (argument : Argument)
          (world : World signature),
        message.sender ≠ keys.owner → message.calldata.bytes = argument.bytes →
        Authorised setting keys.operator self (world.store self) argument →
        (∀ (handler : Handler signature) (handlers : List (Handler signature))
            (after : World signature) (reply : Evm.Reply),
          handler (⟨self, message, false⟩ :: stack) false
              (reached deployed self argument.target argument.cd)
              ((world.record stack ⟨self, message, false⟩ .entered).write self
                (setting.nonceSlot argument.nonce) 1) = some (after, reply) →
          accounts.enter stack ⟨self, message, false⟩ (handler :: handlers) world =
            let finished := after.record stack ⟨self, message, false⟩
              (.asked (.call argument.target 0 argument.cd) reply)
            if reply.ok then
              (finished.record stack ⟨self, message, false⟩ (.completed reply.data),
                .ok reply.data)
            else (finished.revertTo world, .error (.reverted reply.data))) ∧
        ∀ script : List (Reaction signature),
          let result := accounts.enter stack ⟨self, message, false⟩
            (Reaction.runAll accounts script) world
          result.1.store self (setting.nonceSlot argument.nonce) ≠ 0 ↔
            ∃ output, result.2 = .ok output) ∧
      -- in every run from the constructor's storage a nonce forwards at most one call
      (∀ (store : Address → Word → Word) (acts : List (Act signature)) (nonce : Bytes 16),
        (∀ slot, store self slot = if slot = enabledSlot then 1 else 0) →
        let after := Act.runAll accounts acts [] false (World.start (S := signature) store)
        forwards setting keys self nonce after.log ≤ 1 ∧
          (setting.nonceSlot nonce ≠ enabledSlot →
            (after.store self (setting.nonceSlot nonce) ≠ 0 ↔
              forwards setting keys self nonce after.log = 1))) ∧
      -- a signature for this account is refused by every other, if it is valid for one digest
      -- only and the two messages are no collision
      ∀ (other : Address) (otherKeys : Keys) (argument presented : Argument),
        deployed other = some otherKeys → other ≠ self → presented.sig = argument.sig →
        setting.precompiles.edphverifyPost
          (setting.precompiles.sha512 (argument.signedBytes self)) keys.operator
          argument.sig = true →
        OneDigest setting.precompiles argument.sig →
        (setting.precompiles.sha512 (argument.signedBytes self) =
            setting.precompiles.sha512 (presented.signedBytes other) →
          argument.signedBytes self = presented.signedBytes other) →
        ∀ (stack : List (Frame signature)) (message : Message) (readonly : Bool)
          (handlers : List (Handler signature)) (world : World signature),
        message.sender ≠ otherKeys.owner → message.calldata.bytes = presented.bytes →
        Refused accounts stack ⟨other, message, readonly⟩ handlers world := by
  intro accounts
  refine ⟨fun keys self message => run_initCode setting _ _ self message steps, ?_⟩
  intro self keys located
  refine ⟨?_, ?_, ?_, ?_, ?_⟩
  · intro stack message handlers world privileged
    exact enter_owner located privileged stack handlers world
  · intro stack message readonly handlers world unauthorised
    exact refused located unauthorised
  · intro stack message argument world unprivileged reads authorised
    refine ⟨?_, ?_⟩
    · intro handler handlers after reply handled
      exact enter_authorised located unprivileged reads authorised handled
    · intro script
      exact consumed_iff located unprivileged reads authorised stack script
  · intro store acts nonce constructed
    exact forwards_once located constructed acts nonce
  · intro other otherKeys argument presented elsewhere different sameSig signed oneDigest
      noCollision stack message readonly handlers world unprivileged reads
    apply refused elsewhere
    refine Or.inr ⟨unprivileged, ?_⟩
    intro found reads' authorised
    have same : found = presented := Argument.bytes_injective (reads'.symm.trans reads)
    rw [same] at authorised
    exact not_authorised_elsewhere different sameSig signed oneDigest noCollision authorised

/-! ### Two accounts and a relayer -/

namespace Known

def self : Address :=
  Bytes.ofNat 20 0x1111111111111111111111111111111111111111

def other : Address :=
  Bytes.ofNat 20 0x5555555555555555555555555555555555555555

def relayer : Address :=
  Bytes.ofNat 20 0x4444444444444444444444444444444444444444

/-- The operator's key is that of 32 bytes 7. -/
def keys : Keys where
  owner := Bytes.ofNat 20 0x2222222222222222222222222222222222222222
  operator := Bytes.ofNat 32 0xea4a6c63e29c520abef5507b132ec5f9954776aebebe7b92421eea691446d22c

def deployed (address : Address) : Option Keys :=
  if address = self ∨ address = other then some keys else none

def argument : Argument where
  sigA := Bytes.ofNat 32 0x2d877941e7ef13a0a9846435c95535fd84e12d14b570e7da04d6e1830f13b570
  sigB := Bytes.ofNat 32 0xb699c411819ffb60a83b14ce88e46d6da0e3e546f39259cce469eceb5bc57207
  nonce := Bytes.ofNat 16 1
  target := Bytes.ofNat 20 0x3333333333333333333333333333333333333333
  cd := ⟨[0xd0, 0xe3, 0x0d, 0xb0], by simp⟩

def digest : Bytes 64 :=
  Bytes.ofNat 64 0x167c8ef823b1e2fb34ee34a5d773998278fb77e93b951b6f11e8cbdeeef9e2b4c82985a90e5c2b9bf90964546994a7fdd9451d055850d53252e12cef7d92f5f0

/-- SHA-512, the verifier and Keccak-256 where they are used below. -/
def setting : Setting where
  precompiles :=
    { sha512 := fun preimage =>
        if preimage = argument.signedBytes self then digest else Bytes.ofNat 64 0
      edphverifyPost := fun hash key sig =>
        decide (hash = digest ∧ key = keys.operator ∧ sig = argument.sig) }
  keccak256 bytes :=
    if bytes = 0x01 :: argument.nonce.toList then
      0xbee95854a0a11cda84039e57a07aa83e6e1903bcb8dbbd586c3aee6c1ab7c318
    else 1
  gasLeft _ := 0xffff

def message : Message where
  sender := relayer
  calldata := ⟨argument.bytes, by
    rw [argument.length_bytes]
    simp [argument]⟩

/-- The storage of new accounts. -/
def store (_ : Address) (slot : Word) : Word :=
  if slot = enabledSlot then 1 else 0

def reply : Evm.Reply :=
  ⟨true, ⟨[0x01], by simp⟩⟩

theorem authorised : Authorised setting keys.operator self (store self) argument where
  enabled := by decide
  unused := by decide +kernel
  signed := by decide +kernel

end Known

theorem forwards_what_was_signed_once_relayed :
    ((system Known.setting 0 Known.deployed).enter [] ⟨Known.self, Known.message, false⟩
        [fun _ _ _ world => some (world, Known.reply)]
        (World.start (S := signature) Known.store)).2 = .ok Known.reply.data ∧
      Refused (system Known.setting 0 Known.deployed) [] ⟨Known.other, Known.message, false⟩ []
        (World.start (S := signature) Known.store) := by
  have facts := (forwards_what_was_signed_once Known.setting 0 Known.deployed).2 Known.self
    Known.keys (if_pos (Or.inl rfl))
  rcases facts with ⟨_, _, authorisedCall, _, elsewhere⟩
  have notOwner : Known.message.sender ≠ Known.keys.owner := by decide +kernel
  constructor
  · have entered := (authorisedCall [] Known.message Known.argument
      (World.start (S := signature) Known.store) notOwner rfl Known.authorised).1
      (fun _ _ _ world => some (world, Known.reply)) [] _ Known.reply rfl
    exact congrArg Prod.snd entered
  · apply elsewhere Known.other Known.keys Known.argument Known.argument
      (if_pos (Or.inr rfl)) (by decide +kernel) rfl Known.authorised.signed
    · intro digest digest' key key' first second
      have same := (of_decide_eq_true first).1
      have same' := (of_decide_eq_true second).1
      exact same.trans same'.symm
    · intro collision
      exfalso
      revert collision
      decide +kernel
    · exact notOwner
    · rfl

end SuperpositionAccounts.Lite
