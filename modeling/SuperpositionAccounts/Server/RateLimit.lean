import Mathlib.Data.List.Pairwise
import Mathlib.Order.MinMax
import SuperpositionAccounts.Wire.Types

/-!
# The rate limiter

The loop of `lib/ratelimit/ratelimit.go` serves requests one after another. It
counts the requests it allowed in a map that is shared by all ids and that the
first request of a new timeslice empties for everybody.

What it is for is said without a map: a request is limited if enough requests of
the same id came before it in the same slice. The loop gives these answers if
time does not go back. The invariant of the loop relates the map to the whole
past of every id.
-/

namespace SuperpositionAccounts

namespace RateLimit

/-! ### The loop -/

/-- Nanoseconds to enforce the restrictions within. -/
def timesliceBlock : ℤ :=
  5 * 60 * 10 ^ 9

/-- Count to enforce within the timeslice. -/
def maxCount : ℕ :=
  4

/-- Go's `Truncate`: down to a multiple of the block. Times are nanoseconds since the zero time. -/
def truncate (time : ℤ) : ℤ :=
  time - time % timesliceBlock

/-- A request, with the time at which the loop receives it. -/
structure Req where
  time : ℤ
  id : Address
deriving DecidableEq

/-- The variables of the loop. An id that is not in the map has the count zero. -/
structure Loop where
  lastSlice : ℤ
  seen : Address → ℕ

def Loop.start : Loop where
  lastSlice := 0
  seen _ := 0

/-- One pass of the loop: whether the request is limited. -/
def Loop.handle (loop : Loop) (r : Req) : Bool × Loop :=
  let curSlice := truncate r.time
  if loop.lastSlice ≠ curSlice then
    (false, ⟨curSlice, Function.update (fun _ => 0) r.id 1⟩)
  else
    let curCount := loop.seen r.id
    if curCount + 1 > maxCount then
      (true, loop)
    else
      (false, { loop with seen := Function.update loop.seen r.id (loop.seen r.id + 1) })

def Loop.answers (loop : Loop) : List Req → List Bool
  | [] => []
  | r :: rest => (loop.handle r).1 :: (loop.handle r).2.answers rest

/-- The answers of the server, which allows everything when it is not enabled. -/
def run (dryrun : Bool) (requests : List Req) : List Bool :=
  if dryrun then requests.map fun _ => false else Loop.start.answers requests

/-! ### What it is for -/

/-- The request is of the id and in the slice. -/
def Req.within (id : Address) (slice : ℤ) (r : Req) : Bool :=
  r.id = id ∧ truncate r.time = slice

/-- How many of some requests are of the same id and in the same slice. -/
def earlier (past : List Req) (r : Req) : ℕ :=
  past.countP (Req.within r.id (truncate r.time))

/-- The answers to requests after some others, by the past of each. -/
def expected (past : List Req) : List Req → List Bool
  | [] => []
  | r :: rest => decide (maxCount ≤ earlier past r) :: expected (past ++ [r]) rest

theorem getElem_expected (requests : List Req) :
    ∀ (past : List Req) (index : ℕ), (expected past requests)[index]? =
      requests[index]?.map fun r =>
        decide (maxCount ≤ earlier (past ++ requests.take index) r) := by
  induction requests with
  | nil => simp [expected]
  | cons r rest ih =>
      intro past index
      cases index with
      | zero => simp [expected]
      | succ index =>
          have moved : past ++ [r] ++ rest.take index = past ++ (r :: rest).take (index + 1) := by
            simp
          rw [expected, List.getElem?_cons_succ, List.getElem?_cons_succ, ih, moved]

/-- The requests of an id in a slice that are allowed. -/
def allowed (id : Address) (slice : ℤ) (requests : List Req) (answers : List Bool) : ℕ :=
  (requests.zip answers).countP fun served => served.1.within id slice && !served.2

/-- Requests are allowed until there were enough. -/
theorem allowed_expected (id : Address) (slice : ℤ) (requests : List Req) :
    ∀ past : List Req,
      min (past.countP (Req.within id slice)) maxCount +
          allowed id slice requests (expected past requests) =
        min ((past ++ requests).countP (Req.within id slice)) maxCount := by
  induction requests with
  | nil => simp [allowed, expected]
  | cons r rest ih =>
      intro past
      have later := ih (past ++ [r])
      rw [List.append_assoc, List.singleton_append] at later
      rw [← later]
      simp only [allowed, expected, List.zip_cons_cons, List.countP_cons, List.countP_append,
        List.countP_nil, Nat.zero_add]
      by_cases within : r.within id slice = true
      · have same : earlier past r = past.countP (Req.within id slice) := by
          simp only [Req.within, decide_eq_true_eq] at within
          rw [earlier, within.1, within.2]
        rw [same]
        by_cases enough : maxCount ≤ past.countP (Req.within id slice)
        · simp [within, enough]
          omega
        · simp [within, enough]
          omega
      · simp [within]

/-- The answers for one id are those to its own requests. -/
theorem filter_expected (id : Address) (requests : List Req) :
    ∀ past : List Req,
      ((requests.zip (expected past requests)).filter fun served => served.1.id = id) =
        (requests.filter fun r => r.id = id).zip
          (expected (past.filter fun r => r.id = id) (requests.filter fun r => r.id = id)) := by
  induction requests with
  | nil => simp [expected]
  | cons r rest ih =>
      intro past
      have later := ih (past ++ [r])
      by_cases own : r.id = id
      · have same : earlier past r = earlier (past.filter fun r => r.id = id) r := by
          rw [earlier, earlier, List.countP_filter]
          apply List.countP_congr
          intro other _
          simp only [Req.within, own, decide_eq_true_eq, Bool.and_eq_true]
          tauto
        simp only [expected, List.zip_cons_cons, List.filter_cons, own, decide_true, if_true]
        rw [later, same, List.filter_append]
        simp [own]
      · simp only [expected, List.zip_cons_cons, List.filter_cons, own, decide_false,
          Bool.false_eq_true, if_false]
        rw [later, List.filter_append]
        simp [own]

/-! ### The loop does what it is for -/

theorem truncate_mono {time later : ℤ} (ordered : time ≤ later) :
    truncate time ≤ truncate later := by
  have quotients : time / timesliceBlock ≤ later / timesliceBlock :=
    Int.ediv_le_ediv (by decide) ordered
  have multiple (time : ℤ) : truncate time = timesliceBlock * (time / timesliceBlock) := by
    have division := Int.emod_add_mul_ediv time timesliceBlock
    rw [truncate]
    omega
  rw [multiple, multiple]
  exact Int.mul_le_mul_of_nonneg_left quotients (by decide)

section Handle

variable {loop : Loop} {r : Req}

theorem Loop.handle_of_fresh (fresh : loop.lastSlice ≠ truncate r.time) :
    loop.handle r = (false, ⟨truncate r.time, Function.update (fun _ => 0) r.id 1⟩) :=
  if_pos fresh

theorem Loop.handle_of_full (same : loop.lastSlice = truncate r.time)
    (full : maxCount ≤ loop.seen r.id) : loop.handle r = (true, loop) := by
  rw [Loop.handle, if_neg (not_not.mpr same)]
  exact if_pos (Nat.lt_succ_of_le full)

theorem Loop.handle_of_room (same : loop.lastSlice = truncate r.time)
    (room : loop.seen r.id < maxCount) :
    loop.handle r =
      (false, { loop with seen := Function.update loop.seen r.id (loop.seen r.id + 1) }) := by
  rw [Loop.handle, if_neg (not_not.mpr same)]
  exact if_neg (Nat.not_lt.mpr room)

end Handle

/-- The map holds the counts of the last slice, up to the maximum. -/
structure Loop.Invariant (past : List Req) (loop : Loop) : Prop where
  counts : ∀ id, loop.seen id = min (past.countP (Req.within id loop.lastSlice)) maxCount
  latest : ∀ r ∈ past, truncate r.time ≤ loop.lastSlice
  reached : past = [] ∨ ∃ r ∈ past, truncate r.time = loop.lastSlice

theorem Loop.invariant_start : Loop.start.Invariant [] where
  counts _ := rfl
  latest := nofun
  reached := .inl rfl

/-- A request of a new slice is the first of its slice. -/
theorem Loop.Invariant.none_within {past : List Req} {loop : Loop}
    (invariant : loop.Invariant past) {time : ℤ} (ordered : ∀ r ∈ past, r.time ≤ time)
    (fresh : loop.lastSlice ≠ truncate time) (id : Address) :
    past.countP (Req.within id (truncate time)) = 0 := by
  rw [List.countP_eq_zero]
  intro other member within
  simp only [Req.within, decide_eq_true_eq] at within
  have notLater := invariant.latest other member
  rcases invariant.reached with empty | ⟨last, lastMember, slice⟩
  · rw [empty] at member
    cases member
  · have before := truncate_mono (ordered last lastMember)
    omega

theorem countP_snoc (past : List Req) (r : Req) (id : Address) (slice : ℤ) :
    (past ++ [r]).countP (Req.within id slice) =
      past.countP (Req.within id slice) + if r.within id slice = true then 1 else 0 := by
  rw [List.countP_append, List.countP_singleton]

/-- One pass gives the expected answer and keeps the invariant. -/
theorem Loop.Invariant.handle {past : List Req} {loop : Loop} (invariant : loop.Invariant past)
    {r : Req} (ordered : ∀ other ∈ past, other.time ≤ r.time) :
    (loop.handle r).1 = decide (maxCount ≤ earlier past r) ∧
      (loop.handle r).2.Invariant (past ++ [r]) := by
  have latest (slice : ℤ) (bound : ∀ other ∈ past, truncate other.time ≤ slice)
      (own : truncate r.time ≤ slice) : ∀ other ∈ past ++ [r], truncate other.time ≤ slice := by
    intro other member
    rcases List.mem_append.mp member with old | new
    · exact bound other old
    · rw [List.mem_singleton.mp new]
      exact own
  have itself : r ∈ past ++ [r] := by simp
  have foreign {id : Address} (other : id ≠ r.id) (slice : ℤ) : r.within id slice ≠ true := by
    simp [Req.within, Ne.symm other]
  by_cases fresh : loop.lastSlice ≠ truncate r.time
  · have none := invariant.none_within ordered fresh
    rw [Loop.handle_of_fresh fresh]
    refine ⟨?_, ?_, ?_, .inr ⟨r, itself, rfl⟩⟩
    · rw [earlier, none]
      rfl
    · intro id
      rw [countP_snoc, none]
      by_cases own : id = r.id
      · simp [own, Req.within, maxCount]
      · simp [foreign own, Function.update_of_ne own]
    · apply latest
      · intro other member
        exact truncate_mono (ordered other member)
      · exact le_refl _
  · rw [not_not] at fresh
    have count : loop.seen r.id = min (earlier past r) maxCount := by
      rw [invariant.counts, fresh]
      rfl
    have within : r.within r.id loop.lastSlice = true := by simp [Req.within, fresh]
    have reached : ∃ other ∈ past ++ [r], truncate other.time = loop.lastSlice :=
      ⟨r, itself, fresh.symm⟩
    by_cases full : maxCount ≤ loop.seen r.id
    · have enough : maxCount ≤ earlier past r := by omega
      rw [Loop.handle_of_full fresh full]
      refine ⟨(decide_eq_true enough).symm, ?_, latest _ invariant.latest (le_of_eq fresh.symm),
        .inr reached⟩
      intro id
      dsimp only
      rw [invariant.counts, countP_snoc]
      by_cases own : id = r.id
      · have counted := invariant.counts r.id
        rw [own, if_pos within]
        omega
      · rw [if_neg (foreign own _), Nat.add_zero]
    · rw [Loop.handle_of_room fresh (by omega)]
      refine ⟨(decide_eq_false (by omega)).symm, ?_,
        latest _ invariant.latest (le_of_eq fresh.symm), .inr reached⟩
      intro id
      dsimp only
      rw [countP_snoc]
      by_cases own : id = r.id
      · have counted := invariant.counts r.id
        rw [own, if_pos within, Function.update_self]
        omega
      · rw [if_neg (foreign own _), Nat.add_zero, Function.update_of_ne own]
        exact invariant.counts id

theorem Loop.Invariant.answers (requests : List Req) :
    ∀ {past : List Req} {loop : Loop}, loop.Invariant past →
      (past ++ requests).Pairwise (fun r later => r.time ≤ later.time) →
        loop.answers requests = expected past requests := by
  induction requests with
  | nil => exact fun _ _ => rfl
  | cons r rest ih =>
      intro past loop invariant ordered
      have before : ∀ other ∈ past, other.time ≤ r.time := by
        intro other member
        exact (List.pairwise_append.mp ordered).2.2 other member r List.mem_cons_self
      rcases invariant.handle before with ⟨answer, kept⟩
      rw [Loop.answers, expected, answer, ih kept (by simpa using ordered)]

/-- The enabled server limits a request exactly if there were enough of its id in its slice before,
so it allows the first ones of every id in every slice, whatever the others do. -/
theorem limited_iff_enough_before (requests : List Req)
    (ordered : requests.Pairwise fun r later => r.time ≤ later.time) :
    (∀ index r, requests[index]? = some r → (run false requests)[index]? =
        some (decide (maxCount ≤ earlier (requests.take index) r))) ∧
      (∀ id slice, allowed id slice requests (run false requests) =
        min (requests.countP (Req.within id slice)) maxCount) ∧
      ∀ id, ((requests.zip (run false requests)).filter fun served => served.1.id = id) =
        (requests.filter fun r => r.id = id).zip
          (run false (requests.filter fun r => r.id = id)) := by
  have meets {requests : List Req}
      (ordered : requests.Pairwise fun r later => r.time ≤ later.time) :
      run false requests = expected [] requests :=
    Loop.invariant_start.answers requests ordered
  rw [meets ordered]
  refine ⟨?_, ?_, ?_⟩
  · intro index r found
    rw [getElem_expected, found]
    rfl
  · intro id slice
    have counted := allowed_expected id slice requests []
    simpa using counted
  · intro id
    rw [meets (ordered.filter _)]
    exact filter_expected id requests []

/-- Five requests of one id and one of another in a slice, and one more in the next. -/
theorem limited_iff_enough_before_known :
    let first : Address := Bytes.ofNat 20 1
    let second : Address := Bytes.ofNat 20 2
    let requests : List Req := [⟨0, first⟩, ⟨1, first⟩, ⟨2, second⟩, ⟨3, first⟩, ⟨4, first⟩,
      ⟨5, first⟩, ⟨timesliceBlock, first⟩]
    run false requests = [false, false, false, false, false, true, false] ∧
      allowed first 0 requests (run false requests) = 4 := by
  intro first second requests
  have ordered : requests.Pairwise fun r later => r.time ≤ later.time := by decide
  refine ⟨by decide +kernel, ?_⟩
  rw [(limited_iff_enough_before requests ordered).2.1]
  decide +kernel

end RateLimit

end SuperpositionAccounts
