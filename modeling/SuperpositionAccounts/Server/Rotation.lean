import Mathlib.Data.Finset.Max
import SuperpositionAccounts.Scheduling.LeastRecent
import SuperpositionAccounts.Server.Operations

/-!
# The rotation of the sender keys

`accounts_get_private_key_2` gives the key that was accessed least recently. This
file follows calls of it that do not overlap, each at a later time than the one
before, and shows that they go round all keys in a fixed order.
-/

namespace SuperpositionAccounts

namespace Go

open Scheduling

/-- The whole function. The place decides among rows that were accessed at the same time. -/
def accountsGetPrivateKey2 (place : ℕ) (now : Timestamp) (rows : List KeyRow) :
    Option String × List KeyRow :=
  let candidates := leastAccessed rows
  updateAccessed ((candidates[place]?.or candidates.head?).map KeyRow.id) now rows

/-- Its two operations do this, if nothing comes between them and nothing fails. -/
theorem answer_updateKey_selectKey (monthAfter : Timestamp → Timestamp) (state : State)
    (place : ℕ) :
    ∃ id, answer monthAfter state .selectKey (.number place) = (.ok (id, state.clock), state) ∧
      answer monthAfter state (.updateKey id state.clock) .plain =
        (.ok (accountsGetPrivateKey2 place state.clock state.db.senderKeys).1,
          { state with db := { state.db with
            senderKeys :=
              (accountsGetPrivateKey2 place state.clock state.db.senderKeys).2 } }) :=
  ⟨_, rfl, rfl⟩

/-- What successive calls return; each comes with its place and its time. -/
def returnedKeys : List (ℕ × Timestamp) → List KeyRow → List (Option String)
  | [], _ => []
  | (place, now) :: calls, rows =>
    let (key, rows) := accountsGetPrivateKey2 place now rows
    key :: returnedKeys calls rows

/-- The table, with its primary key and its unique column. -/
structure SenderKeys where
  rows : List KeyRow
  idsDiffer : (rows.map KeyRow.id).Nodup
  keysDiffer : (rows.map KeyRow.privateKey).Nodup

/-! ### One call -/

/-- The time of the last access; never is before every time. -/
def KeyRow.accessed (row : KeyRow) : WithBot Timestamp :=
  row.lastAccessed.elim ⊥ fun time => time

theorem KeyRow.first_iff {row other : KeyRow} :
    row.first other = true ↔ row.accessed ≤ other.accessed := by
  rcases row with ⟨id, key, _ | mine⟩ <;> rcases other with ⟨otherId, otherKey, _ | theirs⟩ <;>
    simp [KeyRow.first, KeyRow.accessed]

theorem mem_leastAccessed {row : KeyRow} {rows : List KeyRow} :
    row ∈ leastAccessed rows ↔ row ∈ rows ∧ ∀ other ∈ rows, row.accessed ≤ other.accessed := by
  simp [leastAccessed, KeyRow.first_iff]

theorem leastAccessed_ne_nil {rows : List KeyRow} (nonempty : rows ≠ []) :
    leastAccessed rows ≠ [] := by
  have some : rows.toFinset.Nonempty := by
    rw [List.toFinset_nonempty_iff]
    exact nonempty
  rcases Finset.exists_min_image rows.toFinset KeyRow.accessed some with ⟨row, member, least⟩
  refine List.ne_nil_of_mem (a := row) (mem_leastAccessed.mpr ⟨List.mem_toFinset.mp member, ?_⟩)
  intro other found
  exact least other (List.mem_toFinset.mpr found)

/-- Some row is chosen, at every place. -/
theorem exists_chosen {candidates : List KeyRow} (nonempty : candidates ≠ []) (place : ℕ) :
    ∃ row ∈ candidates, candidates[place]?.or candidates.head? = some row := by
  cases found : candidates[place]? with
  | some row => exact ⟨row, List.mem_of_getElem? found, rfl⟩
  | none =>
      exact ⟨candidates.head nonempty, List.head_mem nonempty, List.head?_eq_some_head nonempty⟩

/-- The table as a set of members, each with its private key and its time. -/
structure Describes (members : Finset ℕ) (key : ℕ → String) (last : ℕ → WithBot Timestamp)
    (rows : List KeyRow) : Prop where
  member : ∀ id, id ∈ members ↔ ∃ row ∈ rows, row.id = id
  key : ∀ row ∈ rows, key row.id = row.privateKey
  last : ∀ row ∈ rows, last row.id = row.accessed

/-- A call picks a member with the least time. -/
theorem accountsGetPrivateKey2_picks {members : Finset ℕ} {key : ℕ → String}
    {last : ℕ → WithBot Timestamp} {rows : List KeyRow} (table : Describes members key last rows)
    (nonempty : members.Nonempty) (place : ℕ) (now : Timestamp) :
    ∃ id ∈ members, (∀ other ∈ members, last id ≤ last other) ∧
      (accountsGetPrivateKey2 place now rows).1 = some (key id) ∧
        Describes members key (Function.update last id now)
          (accountsGetPrivateKey2 place now rows).2 := by
  have present : rows ≠ [] := by
    rcases nonempty with ⟨id, member⟩
    rcases (table.member id).mp member with ⟨row, found, _⟩
    exact List.ne_nil_of_mem found
  rcases exists_chosen (leastAccessed_ne_nil present) place with ⟨row, candidate, chosen⟩
  rcases mem_leastAccessed.mp candidate with ⟨found, least⟩
  refine ⟨row.id, (table.member row.id).mpr ⟨row, found, rfl⟩, ?_, ?_, ?_⟩
  · intro other member
    rcases (table.member other).mp member with ⟨otherRow, otherFound, rfl⟩
    rw [table.last row found, table.last otherRow otherFound]
    exact least otherRow otherFound
  · simp only [accountsGetPrivateKey2, chosen, updateAccessed, Option.map_some]
    cases same : rows.find? fun other => some other.id = some row.id with
    | none =>
        have differs := List.find?_eq_none.mp same row found
        simp at differs
    | some other =>
        have sameId : other.id = row.id := by simpa using List.find?_some same
        rw [← sameId, table.key other (List.mem_of_find?_eq_some same), Option.map_some]
  · simp only [accountsGetPrivateKey2, chosen, updateAccessed, Option.map_some,
      Option.some.injEq]
    constructor
    · intro id
      rw [table.member id]
      simp only [List.mem_map, exists_exists_and_eq_and, apply_ite KeyRow.id, ite_self]
    · intro changed member
      rcases List.mem_map.mp member with ⟨other, otherFound, rfl⟩
      split_ifs
      · exact table.key other otherFound
      · exact table.key other otherFound
    · intro changed member
      rcases List.mem_map.mp member with ⟨other, otherFound, rfl⟩
      split_ifs with same
      · rw [same, Function.update_self]
        rfl
      · rw [Function.update_of_ne same]
        exact table.last other otherFound

/-! ### Successive calls -/

/-- Successive calls are a run of picks of the least recent member. -/
theorem returnedKeys_picks {members : Finset ℕ} {key : ℕ → String} (nonempty : members.Nonempty)
    (calls : List (ℕ × Timestamp)) :
    ∀ {last : ℕ → WithBot Timestamp} {rows : List KeyRow}, Describes members key last rows →
      ∃ picks, Run members last picks ∧
        picks.map Prod.snd = calls.map (fun call => (call.2 : WithBot Timestamp)) ∧
          returnedKeys calls rows = picks.map fun pick => some (key pick.1) := by
  induction calls with
  | nil => exact fun _ => ⟨[], .nil, rfl, rfl⟩
  | cons call calls ih =>
      intro last rows table
      rcases accountsGetPrivateKey2_picks table nonempty call.1 call.2 with
        ⟨id, member, least, returned, next⟩
      rcases ih next with ⟨picks, run, times, keys⟩
      refine ⟨(id, (call.2 : WithBot Timestamp)) :: picks, .cons member least run, ?_, ?_⟩
      · simp [times]
      · simp [returnedKeys, returned, keys]

namespace SenderKeys

variable (table : SenderKeys)

def rowOf (id : ℕ) : Option KeyRow := table.rows.find? fun row => row.id = id

def keyOf (id : ℕ) : String := (table.rowOf id).elim "" KeyRow.privateKey

def lastOf (id : ℕ) : WithBot Timestamp := (table.rowOf id).elim ⊥ KeyRow.accessed

def ids : Finset ℕ := (table.rows.map KeyRow.id).toFinset

theorem rowOf_id {row : KeyRow} (found : row ∈ table.rows) : table.rowOf row.id = some row := by
  cases same : table.rowOf row.id with
  | none =>
      have differs := List.find?_eq_none.mp same row found
      simp at differs
  | some other =>
      have sameId : other.id = row.id := by simpa using List.find?_some same
      have sameRow := List.inj_on_of_nodup_map table.idsDiffer
        (List.mem_of_find?_eq_some same) found sameId
      rw [sameRow]

theorem mem_ids {id : ℕ} : id ∈ table.ids ↔ ∃ row ∈ table.rows, row.id = id := by
  simp [ids]

theorem card_ids : table.ids.card = table.rows.length := by
  rw [ids, List.toFinset_card_of_nodup table.idsDiffer, List.length_map]

theorem describes : Describes table.ids table.keyOf table.lastOf table.rows where
  member _ := table.mem_ids
  key row found := by simp [keyOf, table.rowOf_id found]
  last row found := by simp [lastOf, table.rowOf_id found]

theorem keyOf_injOn : Set.InjOn table.keyOf table.ids := by
  intro id member other otherMember same
  rcases table.mem_ids.mp member with ⟨row, found, rfl⟩
  rcases table.mem_ids.mp otherMember with ⟨otherRow, otherFound, rfl⟩
  rw [table.describes.key row found, table.describes.key otherRow otherFound] at same
  rw [List.inj_on_of_nodup_map table.keysDiffer found otherFound same]

/-- Calls at increasing times, later than every time of the table. -/
theorem timely {calls : List (ℕ × Timestamp)} {picks : List (ℕ × WithBot Timestamp)}
    (times : picks.map Prod.snd = calls.map fun call => (call.2 : WithBot Timestamp))
    (increasing : (calls.map Prod.snd).Pairwise (· < ·))
    (later : ∀ row ∈ table.rows, ∀ time ∈ row.lastAccessed, ∀ call ∈ calls, time < call.2) :
    Timely table.ids table.lastOf picks := by
  constructor
  · rw [times, List.pairwise_map]
    rw [List.pairwise_map] at increasing
    exact increasing.imp WithBot.coe_lt_coe.mpr
  · intro id member pick picked
    rcases table.mem_ids.mp member with ⟨row, found, rfl⟩
    have sent : pick.2 ∈ calls.map fun call => (call.2 : WithBot Timestamp) := by
      rw [← times]
      exact List.mem_map_of_mem picked
    rcases List.mem_map.mp sent with ⟨call, called, time⟩
    rw [table.describes.last row found, ← time]
    cases accessed : row.lastAccessed with
    | none => simp [KeyRow.accessed, accessed]
    | some before =>
        have earlier := later row found before accessed call called
        simpa [KeyRow.accessed, accessed] using earlier

end SenderKeys

/-- As many successive calls as there are keys return different keys, and then they repeat. -/
theorem keys_rotate (table : SenderKeys) (nonempty : 1 ≤ table.rows.length)
    (calls : List (ℕ × Timestamp)) (increasing : (calls.map Prod.snd).Pairwise (· < ·))
    (later : ∀ row ∈ table.rows, ∀ time ∈ row.lastAccessed, ∀ call ∈ calls, time < call.2) :
    ∃ keys : List String, returnedKeys calls table.rows = keys.map some ∧
      keys.length = calls.length ∧
      (∀ i, i + table.rows.length ≤ calls.length →
        ((keys.drop i).take table.rows.length).Nodup) ∧
      ∀ i, i + table.rows.length < calls.length →
        keys[i + table.rows.length]? = keys[i]? := by
  have members : 0 < table.ids.card := by
    rw [table.card_ids]
    exact nonempty
  rcases returnedKeys_picks (Finset.card_pos.mp members) calls table.describes with
    ⟨picks, run, times, returned⟩
  have timely := table.timely times increasing later
  have length : picks.length = calls.length := by simpa using congrArg List.length times
  refine ⟨(picks.map Prod.fst).map table.keyOf, ?_, ?_, ?_, ?_⟩
  · rw [returned, List.map_map, List.map_map]
    rfl
  · rw [List.length_map, List.length_map, length]
  · intro i _
    rw [← List.map_drop, ← List.map_take, ← table.card_ids]
    refine List.Nodup.map_on ?_ (run.nodup_take_drop timely i)
    have inside : ∀ id ∈ ((picks.map Prod.fst).drop i).take table.ids.card, id ∈ table.ids := by
      intro id found
      rcases List.mem_map.mp (List.mem_of_mem_drop (List.mem_of_mem_take found)) with
        ⟨pick, picked, rfl⟩
      exact run.mem pick picked
    intro id found other otherFound same
    exact table.keyOf_injOn (inside id found) (inside other otherFound) same
  · intro i within
    rw [← table.card_ids, ← length] at within
    rw [← table.card_ids]
    have repeated := run.getElem_add_card timely within members
    rw [List.getElem?_map, repeated, ← List.getElem?_map]

theorem keys_rotate_known :
    ∃ keys : List String,
      returnedKeys [(0, 6), (1, 7), (0, 8), (0, 9), (2, 10)]
        [⟨1, "46", none⟩, ⟨2, "47", some 5⟩, ⟨3, "48", none⟩] = keys.map some ∧
      keys.length = 5 ∧
      (∀ i, i + 3 ≤ 5 → ((keys.drop i).take 3).Nodup) ∧
      ∀ i, i + 3 < 5 → keys[i + 3]? = keys[i]? :=
  keys_rotate ⟨[⟨1, "46", none⟩, ⟨2, "47", some 5⟩, ⟨3, "48", none⟩], by decide, by decide⟩
    (by decide) [(0, 6), (1, 7), (0, 8), (0, 9), (2, 10)] (by decide) (by decide)

end Go

end SuperpositionAccounts
