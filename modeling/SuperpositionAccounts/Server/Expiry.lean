import SuperpositionAccounts.Server.HexTexts
import SuperpositionAccounts.Server.Sessions

/-!
# Presented secrets and their expiry

A request presents a secret if its header is a spelling of an address and a
secret, and the middleware does not answer it by its method or take the header
for that of the administrator. The middleware then counts the rows that hold
both. What it does next depends on nothing but the count: `serveHTTP_of_presents`
says so of a request that presents a secret, and `presents_of_runs` goes back from
the handler to the secret.

The expiry of a row is a month after its insertion, and the middleware does not
look at it. So a stored secret is served at any age, and the rows of all served
requests are valid exactly in the runs in which the secrets that are presented
are young enough.
-/

namespace SuperpositionAccounts

namespace Go

open Threads Threads.Proc

/-! ### Presenting a secret -/

/-- The context of a request that is served as the address. -/
def Context.of (eoa : Address) : Context :=
  { Context.background with authed := true, eoa := some eoa }

/-- The request presents a secret of an address. -/
structure Request.Presents (r : Resolver) (request : Request) (eoa : Address) (bearer : String) :
    Prop where
  header : request.BearerOf eoa bearer
  method : request.method ≠ "OPTIONS"
  notAdmin : request.authorization ≠ r.adminSecret

theorem colon_not_mem_of_spells {text : List Char} {bytes : List UInt8}
    (spelled : Spells text bytes) : ':' ∉ text := by
  induction spelled with
  | nil => simp
  | cons highDigit lowDigit _ ih =>
      simp only [List.mem_cons, not_or]
      refine ⟨?_, ?_, ih⟩
      · rintro rfl
        cases highDigit
      · rintro rfl
        cases lowDigit

/-- The middleware takes a header apart at its colon. -/
theorem Request.BearerOf.splitOn {request : Request} {eoa : Address} {bearer : String}
    (header : request.BearerOf eoa bearer) :
    ∃ eoaText secretText, request.authorization.toList.splitOn ':' = [eoaText, secretText] ∧
      isHexAddress (String.ofList eoaText) = true ∧ hexToAddress (String.ofList eoaText) = eoa ∧
      String.ofList secretText = bearer ∧
      ∃ bytes, hexDecodeString (String.ofList secretText) = .ok bytes := by
  rcases header with ⟨eoaText, spelled, accepted, named, bytes, decoded⟩
  have plain := colon_not_mem accepted
  have digits := colon_not_mem_of_spells ((hexDecode_eq_ok_iff _ (Nat.zero_le _)).mp decoded).1
  refine ⟨eoaText.toList, bearer.toList, ?_, ?_, ?_, String.ofList_toList, bytes, ?_⟩
  rotate_left
  · rwa [String.ofList_toList]
  · rwa [String.ofList_toList]
  · rwa [String.ofList_toList]
  rw [spelled, List.splitOn, List.splitOnP_append_cons_of_forall_mem _ ':' (by simp),
    List.splitOnP_eq_singleton]
  · intro c member
    rw [beq_eq_false_iff_ne]
    rintro rfl
    exact digits member
  · intro c member
    rw [beq_eq_false_iff_ne]
    rintro rfl
    exact plain member

section Middleware

variable {Asset : Type} [AssetRegistry Asset] [Inhabited Asset] {env : Env Asset} {r : Resolver}
  {request : Request} {eoa : Address} {bearer : String}

variable (env r) in
/-- What the middleware does with the count. -/
def afterCount (eoa : Address) (mutations : List Mutation) : Except String ℕ → Action Response
  | .error text => .fail (.fatal ("error scanning secrets, snowflake: snowflake: " ++ text))
  | .ok 0 => pure (.status 401)
  | .ok _ => serveGraph env r (.of eoa) mutations

/-- A request that presents a secret is decided by the count of its rows. -/
theorem serveHTTP_of_presents (presents : request.Presents r eoa bearer) :
    serveHTTP env r request =
      Action.perform (.countSecrets (lowerAddr eoa) (toLower bearer)) >>=
        afterCount env r eoa request.mutations := by
  rcases presents with ⟨header, method, notAdmin⟩
  rcases header.splitOn with ⟨eoaText, secretText, parts, accepted, rfl, rfl, bytes, decoded⟩
  have nonempty : request.authorization ≠ "" := by
    intro empty
    have lengths := congrArg List.length parts
    rw [empty] at lengths
    simp at lengths
  unfold serveHTTP
  rw [if_neg method, if_neg nonempty, if_neg notAdmin]
  simp only [parts, accepted, decoded, hexToAddress_lowerAddr, Bool.not_true, Bool.false_eq_true,
    if_false]
  refine congrArg (_ >>= ·) (funext fun counted => ?_)
  rcases counted with text | _ | count
  · rfl
  · rfl
  · rfl

/-- The request is served as the address if there are rows, and refused if not. -/
theorem runs_of_presents (presents : request.Presents r eoa bearer) (count : ℕ) :
    Runs (serveHTTP env r request)
      [⟨.countSecrets (lowerAddr eoa) (toLower bearer), .ok count⟩]
      (if count = 0 then pure (.status 401)
        else serveGraph env r (.of eoa) request.mutations) := by
  rw [serveHTTP_of_presents presents]
  cases count with
  | zero => exact .next .start _
  | succ count => exact .next .start _

/-- The handler is called once, before the mutations. -/
theorem handles_serveGraph {allowed : List (Entry operations) → Context → Prop}
    {log : List (Entry operations)} {ctx : Context} (mutations : List Mutation)
    (handled : ctx.authed = true → allowed log ctx) :
    Does (fun log op => ∀ ctx, op = .handle ctx → ctx.authed = true → allowed log ctx)
      (fun _ _ => True) log (serveGraph env r ctx mutations) := by
  refine does_perform ?_ fun _ => ?_
  · rintro _ ⟨⟩
    exact handled
  · refine does_bind (does_resolveAll ctx ?_) fun _ _ _ => does_pure trivial
    rintro mutation _ log op performs other rfl
    exact performs.elim

/-- A request that comes to the handler as an address presents a secret of it, and rows were
counted. -/
theorem presents_of_runs {log : List (Entry operations)} {op : Op}
    {next : operations.Result op → Action Response} {ctx : Context}
    (runs : Runs (serveHTTP env r request) log (.perform op next)) (handled : op = .handle ctx)
    (authed : ctx.authed = true) :
    ∃ eoa bearer count, ctx = .of eoa ∧ request.Presents r eoa bearer ∧ count ≠ 0 ∧
      log = [⟨.countSecrets (lowerAddr eoa) (toLower bearer), .ok count⟩] := by
  let allowed (log : List (Entry operations)) (ctx : Context) : Prop :=
    ∃ eoa bearer count, ctx = .of eoa ∧ request.Presents r eoa bearer ∧ count ≠ 0 ∧
      log = [⟨.countSecrets (lowerAddr eoa) (toLower bearer), .ok count⟩]
  have does : Does (fun log op => ∀ ctx, op = .handle ctx → ctx.authed = true → allowed log ctx)
      (fun _ _ => True) [] (serveHTTP env r request) := by
    unfold serveHTTP
    split
    · exact does_pure trivial
    · rename_i method
      split
      · exact handles_serveGraph _ fun authed => by cases authed
      split
      · exact handles_serveGraph _ fun authed => by cases authed
      · rename_i notAdmin
        split
        · rename_i eoaText secretText parts
          dsimp only
          split
          · exact does_pure trivial
          · rename_i refused
            split
            · exact does_pure trivial
            · rename_i bytes decoded
              refine does_perform (by rintro _ ⟨⟩) fun counted => ?_
              split
              · exact does_fail _
              · exact does_pure trivial
              · rename_i count positive
                refine handles_serveGraph _ fun _ => ?_
                refine ⟨hexToAddress (String.ofList eoaText), String.ofList secretText, count,
                  ?_, ⟨⟨String.ofList eoaText, ?_, ?_, rfl, bytes, decoded⟩, method, notAdmin⟩,
                  ?_, rfl⟩
                · rw [Context.of, hexToAddress_lowerAddr]
                · simpa using eq_of_splitOn parts
                · simpa using refused
                · rintro rfl
                  exact positive rfl
        · exact does_pure trivial
  exact (Obeys.of_runs does runs).1 ctx handled authed

end Middleware

/-! ### The rows behind a count -/

/-- The state holds a secret of the address. -/
def State.HasSecret (state : State) (eoaAddr secret : String) : Prop :=
  ∃ row ∈ state.db.secrets, row.eoaAddr = eoaAddr ∧ row.secret = some secret

instance (state : State) (eoaAddr secret : String) : Decidable (state.HasSecret eoaAddr secret) :=
  inferInstanceAs (Decidable (∃ row ∈ state.db.secrets,
    row.eoaAddr = eoaAddr ∧ row.secret = some secret))

/-- The state holds it in a row that has not expired. -/
def State.HasValidSecret (state : State) (eoaAddr secret : String) : Prop :=
  ∃ row ∈ state.db.secrets, row.eoaAddr = eoaAddr ∧ row.secret = some secret ∧
    state.clock < row.validUntil

theorem ne_zero_of_counted (monthAfter : Timestamp → Timestamp) {state : State} {choice : Choice}
    {eoaAddr secret : String} {count : ℕ} (has : state.HasSecret eoaAddr secret)
    (counted : (answer monthAfter state (.countSecrets eoaAddr secret) choice).1 = .ok count) :
    count ≠ 0 := by
  rcases has with ⟨row, member, found⟩
  have positive : 0 < state.db.secrets.countP fun row =>
      row.eoaAddr = eoaAddr ∧ row.secret = some secret :=
    List.countP_pos_iff.mpr ⟨row, member, by simpa using found⟩
  cases choice with
  | unreached err => cases counted
  | unacknowledged err => cases counted
  | _ =>
      cases counted
      exact Nat.ne_of_gt positive

section Runs

variable {Asset : Type} [AssetRegistry Asset] [Inhabited Asset] {env : Env Asset} {r : Resolver}
  {monthAfter : Timestamp → Timestamp}

/-- Rows are counted exactly if the secret is stored, expired or not. -/
theorem count_ne_zero_iff {event : ServerEvent monthAfter} {older : List (ServerEvent monthAfter)}
    {eoaAddr secret : String} {count : ℕ} (proper : event.Proper (serveHTTP env r) older)
    (counted : event.entry = ⟨.countSecrets eoaAddr secret, .ok count⟩) :
    count ≠ 0 ↔ event.before.HasSecret eoaAddr secret := by
  constructor
  · exact fun positive => row_of_count proper counted (Nat.pos_of_ne_zero positive)
  · intro has
    rcases proper.answered with ⟨choice, answered⟩
    rw [counted] at answered
    exact ne_zero_of_counted monthAfter has (congrArg Prod.fst answered)

variable (r) in
/-- The event is the lookup of a request that presents the secret, and the database answered. -/
structure LooksUp (event : ServerEvent monthAfter) (eoa : Address) (bearer : String) : Prop where
  presents : event.job.Presents r eoa bearer
  counted : ∃ count,
    event.entry = ⟨.countSecrets (lowerAddr eoa) (toLower bearer), .ok count⟩

/-- The event is the next one of the request whose lookup this is. -/
structure GoesOn (event lookup : ServerEvent monthAfter) : Prop where
  thread : event.thread = lookup.thread
  job : event.job = lookup.job
  past : event.past = [lookup.entry]

/-- The request was served as this address with this secret. -/
def ServedAs (event : ServerEvent monthAfter) (eoa : Address) (bearer : String) : Prop :=
  ∃ ctx, event.entry.op = .handle ctx ∧ ctx.authed = true ∧ ctx.eoa = some eoa ∧
    event.job.BearerOf eoa bearer

section Reached

variable {allow : ServerConfig monthAfter → ℕ → Op → Prop} {config : ServerConfig monthAfter}

/-- A lookup decides about the request: what remains is the handler, or a refusal. -/
theorem runs_of_looksUp (reached : Reachable (serveHTTP env r) Migrated allow config)
    {lookup : ServerEvent monthAfter} {older : List (ServerEvent monthAfter)} {eoa : Address}
    {bearer : String} (suffix : lookup :: older <:+ config.history)
    (looks : LooksUp r lookup eoa bearer) :
    Runs (serveHTTP env r lookup.job) [lookup.entry]
      (if lookup.before.HasSecret (lowerAddr eoa) (toLower bearer) then
        serveGraph env r (.of eoa) lookup.job.mutations
      else pure (.status 401)) := by
  rcases looks with ⟨presents, count, counted⟩
  have stored := count_ne_zero_iff (reached.proper suffix) counted
  have runs : Runs (serveHTTP env r lookup.job) _ _ := runs_of_presents presents count
  rw [← counted] at runs
  by_cases none : count = 0
  · rw [if_pos none] at runs
    rwa [if_neg fun has => stored.mpr has none]
  · rw [if_neg none] at runs
    rwa [if_pos (stored.mp none)]

/-- A request with a stored secret is served by its next operation. -/
theorem servedAs_of_goesOn (reached : Reachable (serveHTTP env r) Migrated allow config)
    {event lookup : ServerEvent monthAfter} {older : List (ServerEvent monthAfter)} {eoa : Address}
    {bearer : String} (suffix : event :: older <:+ config.history) (recorded : lookup ∈ older)
    (looks : LooksUp r lookup eoa bearer) (goesOn : GoesOn event lookup)
    (has : lookup.before.HasSecret (lowerAddr eoa) (toLower bearer)) :
    ServedAs event eoa bearer := by
  rcases exists_suffix_of_older suffix recorded with ⟨_, place, _⟩
  have runs := runs_of_looksUp reached place looks
  rw [if_pos has, ← goesOn.job, ← goesOn.past] at runs
  rcases (reached.proper suffix).runs with ⟨next, stands⟩
  have same := stands.unique runs
  injection same with handled
  exact ⟨.of eoa, handled, rfl, rfl, goesOn.job ▸ looks.presents.header⟩

/-- A served request has looked its secret up, and it was stored. -/
theorem lookup_of_servedAs (reached : Reachable (serveHTTP env r) Migrated allow config)
    {event : ServerEvent monthAfter} {older : List (ServerEvent monthAfter)} {eoa : Address}
    {bearer : String} (suffix : event :: older <:+ config.history)
    (served : ServedAs event eoa bearer) :
    ∃ lookup ∈ older, LooksUp r lookup eoa bearer ∧ GoesOn event lookup ∧
      lookup.before.HasSecret (lowerAddr eoa) (toLower bearer) := by
  rcases served with ⟨ctx, handled, authed, named, header⟩
  have proper := reached.proper suffix
  rcases proper.runs with ⟨next, runs⟩
  rcases presents_of_runs runs handled authed with
    ⟨other, presented, count, rfl, presents, positive, past⟩
  cases named
  rcases header.unique presents.header with ⟨_, rfl⟩
  rcases proper.recorded _ (past ▸ List.mem_cons_self) with
    ⟨lookup, recorded, thread, job, counted⟩
  rcases exists_suffix_of_older suffix recorded with ⟨_, place, _⟩
  refine ⟨lookup, recorded, ⟨job ▸ presents, count, counted⟩,
    ⟨thread.symm, job.symm, counted ▸ past⟩, ?_⟩
  exact (count_ne_zero_iff (reached.proper place) counted).mp positive

/-- A secret that is presented and stored is served, whatever its expiry; one that is not stored is
refused. So the rows of all served requests are valid in a run exactly if every request that goes
on with a stored secret does so less than a month after the secret was inserted. -/
theorem presented_before_expiry_iff
    (reached : Reachable (serveHTTP env r) Migrated allow config) :
    (∀ lookup ∈ config.history, ∀ eoa bearer, LooksUp r lookup eoa bearer →
        Runs (serveHTTP env r lookup.job) [lookup.entry]
          (if lookup.before.HasSecret (lowerAddr eoa) (toLower bearer) then
            serveGraph env r (.of eoa) lookup.job.mutations
          else pure (.status 401))) ∧
      ((∀ event older eoa bearer, event :: older <:+ config.history →
          ServedAs event eoa bearer →
            event.before.HasValidSecret (lowerAddr eoa) (toLower bearer)) ↔
        ∀ event older lookup eoa bearer, event :: older <:+ config.history → lookup ∈ older →
          LooksUp r lookup eoa bearer →
          lookup.before.HasSecret (lowerAddr eoa) (toLower bearer) → GoesOn event lookup →
            ∃ earlier ∈ older, Inserted earlier (lowerAddr eoa) (toLower bearer) ∧
              event.before.clock < monthAfter earlier.before.clock) := by
  refine ⟨?_, ?_, ?_⟩
  · intro lookup recorded eoa bearer looks
    rcases exists_suffix_of_mem recorded with ⟨older, suffix, _⟩
    exact runs_of_looksUp reached suffix looks
  · intro valid event older lookup eoa bearer suffix recorded looks has goesOn
    have served := servedAs_of_goesOn reached suffix recorded looks goesOn has
    rcases valid event older eoa bearer suffix served with ⟨row, member, addr, secret, early⟩
    have books := ((ledger reached).2 suffix).2
    rcases books.inserted row member _ secret with ⟨earlier, before, inserted, expiry⟩
    exact ⟨earlier, before, addr ▸ inserted, expiry ▸ early⟩
  · intro young event older eoa bearer suffix served
    rcases lookup_of_servedAs reached suffix served with ⟨lookup, recorded, looks, goesOn, has⟩
    rcases young event older lookup eoa bearer suffix recorded looks has goesOn with
      ⟨earlier, before, inserted, early⟩
    have books := ((ledger reached).2 suffix).2
    exact ⟨_, books.secrets earlier before _ _ inserted, rfl, rfl, early⟩

end Reached

end Runs

theorem presented_before_expiry_known :
    ∃ config last before, Known.sessionRun 100 = some config ∧
      config.history = last :: before ∧ ServedAs last Known.owner Known.bearer ∧
      ∀ event older eoa bearer, event :: older <:+ config.history → ServedAs event eoa bearer →
        event.before.HasValidSecret (lowerAddr eoa) (toLower bearer) := by
  rcases Known.last_of_sessionRun Known.sessionRun_ends.1 with
    ⟨config, last, before, ran, history, served, header, _⟩
  have measured := Known.sessionRun_ends.2.1
  rw [ran] at measured
  simp only [Option.map_some, Option.some.injEq, Prod.mk.injEq, List.all_eq_true,
    decide_eq_true_eq] at measured
  have clocks := measured.2
  have reached := Known.reached_of_sessionRun ran
  refine ⟨config, last, before, ran, history,
    ⟨_, served, rfl, rfl, Known.bearerOf_presenting header⟩,
    (presented_before_expiry_iff reached).2.mpr ?_⟩
  intro event older lookup eoa bearer suffix recorded _ has _
  -- the secret is stored at the lookup, hence was inserted before it, and the whole run is short
  rcases exists_suffix_of_older suffix recorded with ⟨_, place, among⟩
  rcases has with ⟨row, member, addr, secret⟩
  rcases ((ledger reached).2 place).2.inserted row member _ secret with
    ⟨earlier, first, inserted, _⟩
  rw [addr] at inserted
  have now := clocks event (suffix.subset List.mem_cons_self)
  have start := clocks earlier (suffix.subset (List.mem_cons_of_mem _ (among _ first)))
  have month : 1700000100 < 1700000000 + 30 * 86400 := by decide
  exact ⟨earlier, among _ first, inserted, Nat.lt_of_le_of_lt now.2
    (Nat.lt_of_lt_of_le month (Nat.add_le_add_right start.1 _))⟩

/-- Forty days later the secret is still accepted, though no row is valid any more. -/
theorem expired_secret_served :
    ∃ config event older, Known.sessionRun (40 * 86400) = some config ∧
      config.history = event :: older ∧ ServedAs event Known.owner Known.bearer ∧
      ∀ row ∈ event.before.db.secrets, row.validUntil ≤ event.before.clock := by
  rcases Known.last_of_sessionRun Known.sessionRun_ends.2.2 with
    ⟨config, event, older, ran, history, served, header, clock, rows⟩
  refine ⟨config, event, older, ran, history,
    ⟨_, served, rfl, rfl, Known.bearerOf_presenting header⟩, ?_⟩
  rw [rows, clock]
  decide

end Go

end SuperpositionAccounts
