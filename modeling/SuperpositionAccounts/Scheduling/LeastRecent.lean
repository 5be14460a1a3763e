import Mathlib.Data.Finset.Card
import Mathlib.Data.List.Nodup
import Mathlib.Order.Basic

/-!
# Picking what was picked least recently

Each member of a finite set has a time at which it was last picked. A pick takes
one of the members with the least time and sets its time to the present. Ties are
broken in any way.

As long as a member is missing among some recent picks, its time is before all of
them, so the next pick is none of them. Hence as many picks in a row as there are
members are all different, and after them the picks repeat.
-/

namespace Scheduling

variable {α τ : Type} [DecidableEq α]

/-- The times after some picks with their times. -/
def lastAfter (last : α → τ) (picks : List (α × τ)) : α → τ :=
  picks.foldl (fun last pick => Function.update last pick.1 pick.2) last

theorem lastAfter_append (last : α → τ) (older recent : List (α × τ)) :
    lastAfter last (older ++ recent) = lastAfter (lastAfter last older) recent :=
  List.foldl_append

/-- What is not picked keeps its time. -/
theorem lastAfter_of_not_mem {member : α} (picks : List (α × τ)) :
    ∀ (last : α → τ), member ∉ picks.map Prod.fst →
      lastAfter last picks member = last member := by
  induction picks with
  | nil => exact fun _ _ => rfl
  | cons pick rest ih =>
      intro last missing
      simp only [List.map_cons, List.mem_cons, not_or] at missing
      have kept := ih (Function.update last pick.1 pick.2) missing.2
      rw [Function.update_of_ne missing.1] at kept
      exact kept

/-- What was picked has the time of one of its picks. -/
theorem lastAfter_of_mem {member : α} (picks : List (α × τ)) :
    ∀ (last : α → τ), member ∈ picks.map Prod.fst →
      ∃ time : τ, (member, time) ∈ picks ∧ lastAfter last picks member = time := by
  induction picks with
  | nil => simp
  | cons pick rest ih =>
      intro last picked
      by_cases again : member ∈ rest.map Prod.fst
      · rcases ih (Function.update last pick.1 pick.2) again with ⟨time, found, value⟩
        exact ⟨time, List.mem_cons_of_mem _ found, value⟩
      · simp only [List.map_cons, List.mem_cons, again, or_false] at picked
        subst picked
        refine ⟨pick.2, List.mem_cons_self, ?_⟩
        have kept := lastAfter_of_not_mem rest (Function.update last pick.1 pick.2) again
        rw [Function.update_self] at kept
        exact kept

section Run

variable [Preorder τ]

/-- Each pick is a member with the least time. -/
inductive Run (members : Finset α) : (α → τ) → List (α × τ) → Prop where
  | nil {last : α → τ} : Run members last []
  | cons {last : α → τ} {pick : α} {now : τ} {rest : List (α × τ)}
      (member : pick ∈ members) (least : ∀ other ∈ members, last pick ≤ last other)
      (later : Run members (Function.update last pick now) rest) :
      Run members last ((pick, now) :: rest)

/-- The times of the picks increase, and are later than all last times. -/
def Timely (members : Finset α) (last : α → τ) (picks : List (α × τ)) : Prop :=
  (picks.map Prod.snd).Pairwise (· < ·) ∧
    ∀ member ∈ members, ∀ pick ∈ picks, last member < pick.2

variable {members : Finset α} {last : α → τ}

/-- A pick in the middle of a run has the least time at that moment. -/
theorem Run.least_at {pick : α} {now : τ} (before after : List (α × τ)) :
    ∀ {last : α → τ}, Run members last (before ++ (pick, now) :: after) →
      ∀ other ∈ members, lastAfter last before pick ≤ lastAfter last before other := by
  induction before with
  | nil =>
      intro last run
      cases run with
      | cons member least later => exact least
  | cons first rest ih =>
      intro last run
      cases run with
      | cons member least later => exact ih later

theorem Run.mem {picks : List (α × τ)} (run : Run members last picks) :
    ∀ pick ∈ picks, pick.1 ∈ members := by
  induction run with
  | nil => simp
  | cons member least later ih => simpa using ⟨member, fun pick now found => ih (pick, now) found⟩

/-- The next pick is none of the recent ones, as long as these are fewer than the members. -/
theorem Run.fresh {older recent after : List (α × τ)} {pick : α} {now : τ}
    (run : Run members last (older ++ recent ++ (pick, now) :: after))
    (timely : Timely members last (older ++ recent ++ (pick, now) :: after))
    (fewer : recent.length < members.card) : pick ∉ recent.map Prod.fst := by
  intro picked
  -- some member is not among the recent picks
  have missing : ∃ other ∈ members, other ∉ recent.map Prod.fst := by
    by_contra all
    have covered : members ⊆ (recent.map Prod.fst).toFinset := by
      intro other member
      rw [List.mem_toFinset]
      by_contra absent
      exact all ⟨other, member, absent⟩
    have few := (Finset.card_le_card covered).trans (List.toFinset_card_le _)
    rw [List.length_map] at few
    omega
  rcases missing with ⟨other, member, absent⟩
  have least := run.least_at _ _ other member
  rw [lastAfter_append, lastAfter_of_not_mem recent _ absent] at least
  rcases lastAfter_of_mem recent (lastAfter last older) picked with ⟨time, found, value⟩
  rw [value] at least
  -- and it was last picked before all of them
  have early : lastAfter last older other < time := by
    by_cases before : other ∈ older.map Prod.fst
    · rcases lastAfter_of_mem older last before with ⟨earlier, foundEarlier, value⟩
      rw [value]
      have increasing := timely.1
      rw [List.append_assoc, List.map_append, List.pairwise_append] at increasing
      have ordered := increasing.2.2 earlier (List.mem_map_of_mem foundEarlier) time
        (List.mem_map_of_mem (List.mem_append_left _ found))
      exact ordered
    · rw [lastAfter_of_not_mem older _ before]
      exact timely.2 other member (pick, time) (by simp [found])
  exact absurd (least.trans_lt early) (lt_irrefl _)

/-- As many picks in a row as there are members are different. -/
theorem Run.nodup_window (window : List (α × τ)) {older : List (α × τ)} :
    ∀ {after : List (α × τ)}, Run members last (older ++ window ++ after) →
      Timely members last (older ++ window ++ after) → window.length ≤ members.card →
        (window.map Prod.fst).Nodup := by
  induction window using List.reverseRecOn with
  | nil => simp
  | append_singleton window pick ih =>
      intro after run timely short
      rw [List.length_append, List.length_singleton] at short
      have split : older ++ (window ++ [pick]) ++ after = older ++ window ++ pick :: after := by
        simp
      rw [split] at run timely
      have fresh := run.fresh timely (by omega)
      have earlier := ih run timely (by omega)
      rw [List.map_append, List.nodup_append]
      refine ⟨earlier, by simp, ?_⟩
      intro value picked other isLast same
      rw [List.map_singleton, List.mem_singleton] at isLast
      rw [same, isLast] at picked
      exact fresh picked

/-- After a window with all members but one, the pick before the window comes again. -/
theorem Run.same_after_window {older window after : List (α × τ)} {first next : α × τ}
    (run : Run members last (older ++ first :: window ++ next :: after))
    (timely : Timely members last (older ++ first :: window ++ next :: after))
    (size : window.length + 1 = members.card) : next.1 = first.1 := by
  have whole := run.nodup_window (first :: window) timely (by rw [List.length_cons]; omega)
  rw [List.map_cons, List.nodup_cons] at whole
  have moved : older ++ first :: window ++ next :: after =
      older ++ [first] ++ window ++ next :: after := by simp
  have fresh : next.1 ∉ window.map Prod.fst := by
    rw [moved] at run timely
    exact run.fresh timely (by omega)
  by_contra different
  -- otherwise there were more members
  have nodup : (next.1 :: first.1 :: window.map Prod.fst).Nodup := by
    rw [List.nodup_cons, List.nodup_cons, List.mem_cons, not_or]
    exact ⟨⟨different, fresh⟩, whole⟩
  have inside : (next.1 :: first.1 :: window.map Prod.fst).toFinset ⊆ members := by
    intro value found
    rw [List.mem_toFinset, List.mem_cons, List.mem_cons] at found
    rcases found with rfl | rfl | found
    · exact run.mem next (by simp)
    · exact run.mem first (by simp)
    · rcases List.mem_map.mp found with ⟨pick, member, rfl⟩
      exact run.mem pick (by simp [member])
  have count := Finset.card_le_card inside
  rw [List.toFinset_card_of_nodup nodup, List.length_cons, List.length_cons,
    List.length_map] at count
  omega

/-! ### By place -/

theorem Run.nodup_take_drop {picks : List (α × τ)} (run : Run members last picks)
    (timely : Timely members last picks) (i : ℕ) :
    (((picks.map Prod.fst).drop i).take members.card).Nodup := by
  have split : picks = picks.take i ++ (picks.drop i).take members.card ++
      (picks.drop i).drop members.card := by
    rw [List.append_assoc, List.take_append_drop, List.take_append_drop]
  rw [← List.map_drop, ← List.map_take]
  rw [split] at run timely
  exact run.nodup_window _ timely (List.length_take_le _ _)

theorem Run.getElem_add_card {picks : List (α × τ)} (run : Run members last picks)
    (timely : Timely members last picks) {i : ℕ} (inside : i + members.card < picks.length)
    (positive : 0 < members.card) :
    (picks.map Prod.fst)[i + members.card]? = (picks.map Prod.fst)[i]? := by
  have within : i < picks.length := by omega
  let window := (picks.drop (i + 1)).take (members.card - 1)
  have size : window.length + 1 = members.card := by
    rw [List.length_take, List.length_drop]
    omega
  have tail : picks.drop (i + 1) =
      window ++ picks[i + members.card] :: picks.drop (i + members.card + 1) := by
    have rest : (picks.drop (i + 1)).drop (members.card - 1) = picks.drop (i + members.card) := by
      rw [List.drop_drop]
      congr 1
      omega
    rw [← List.drop_eq_getElem_cons inside, ← rest, List.take_append_drop]
  have split : picks = picks.take i ++ picks[i] :: window ++
      picks[i + members.card] :: picks.drop (i + members.card + 1) := by
    rw [List.append_assoc, List.cons_append, ← tail, ← List.drop_eq_getElem_cons within,
      List.take_append_drop]
  rw [List.getElem?_eq_getElem (by simpa using inside),
    List.getElem?_eq_getElem (by simpa using within), List.getElem_map, List.getElem_map]
  have same : picks[i + members.card].1 = picks[i].1 := by
    generalize picks[i] = first, picks[i + members.card] = next at split
    rw [split] at run timely
    exact run.same_after_window timely size
  rw [same]

end Run

end Scheduling
