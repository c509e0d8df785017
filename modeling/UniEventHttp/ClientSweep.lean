import UniEventHttp.ErasingLoop
import UniEventHttp.Client

namespace UniEventHttp.ClientSide.World

/-!
# The sweep of idle clients

`Pool::check_inactivity` is two nested loops that erase while they iterate.  They
visit every free client and every location once, so the sweep is what
`checkInactivity` says.  Its cutoff is `now - timeout` in `uint64_t`: a clock that
is younger than the timeout makes it wrap.
-/

/-! ## The loops of the source -/

/-- One row of `_clients`. -/
abbrev Row := NetLoc × NetLocList

/-- `auto remove_time = _loop->now() - _idle_timeout;` -/
def removeTime (w : World) (p : Nat) : Nat :=
  (w.now (w.pools p).loop + 2 ^ 64 - (w.pools p).idleTimeout) % 2 ^ 64

/-- The inner loop: the free clients of one location. -/
def sweepFree (w : World) (removeTime : Nat) (free : List Nat) : List Nat :=
  (ErasingLoop.run
    (fun (_ : Unit) c =>
      ((), if (w.clients c).lastActivityTime < removeTime then none else some c))
    () free 0).2

/-- The outer loop: the rows of `_clients`, in some order. -/
def sweepRows (w : World) (p : Nat) (rows : List Row) : List Row :=
  (ErasingLoop.run
    (fun (_ : Unit) (row : Row) =>
      let list := w.sweepFree (w.removeTime p) row.2.free
      ((),
        if list = [] ∧ row.2.busy = [] then none
        else some (row.1, { row.2 with free := list })))
    () rows 0).2

/-- The rows are those of a map. -/
def Enumerates
    (rows : List Row)
    (clients : NetLoc → Option NetLocList) :
    Prop :=
  ∀ key entry, (key, entry) ∈ rows ↔ clients key = some entry

theorem sweepFree_eq (w : World) (removeTime : Nat) (free : List Nat) :
    w.sweepFree removeTime free =
      free.filter fun c =>
        !decide ((w.clients c).lastActivityTime < removeTime) := by
  unfold sweepFree
  rw [ErasingLoop.run_filterMap, ← List.filterMap_eq_filter]
  refine List.filterMap_congr fun c _ => ?_
  by_cases idle : (w.clients c).lastActivityTime < removeTime <;>
    simp [idle, Option.guard]

/-- A row is visited once, and `sweep` is what is done with it. -/
theorem sweepRows_eq (w : World) (p : Nat) (rows : List Row) :
    w.sweepRows p rows =
      rows.filterMap fun row =>
        (w.sweep (w.removeTime p) row.2).map fun entry => (row.1, entry) := by
  unfold sweepRows
  rw [ErasingLoop.run_filterMap]
  refine List.filterMap_congr fun row _ => ?_
  rw [sweepFree_eq]
  unfold sweep
  dsimp only
  split <;> rfl

theorem checkInactivity_clients (w : World) (p : Nat) :
    ((w.checkInactivity p).pools p).clients =
      fun key => ((w.pools p).clients key).bind (w.sweep (w.removeTime p)) := by
  simp [checkInactivity, removeTime]

/-- The loops of the source do what `checkInactivity` does. -/
theorem sweepRows_enumerates
    {w : World}
    {p : Nat}
    {rows : List Row}
    (enumerates : Enumerates rows (w.pools p).clients) :
    Enumerates (w.sweepRows p rows)
      ((w.checkInactivity p).pools p).clients := by
  intro key entry
  rw [sweepRows_eq, checkInactivity_clients, Option.bind_eq_some_iff]
  simp only [List.mem_filterMap, Option.map_eq_some_iff, Prod.mk.injEq,
    Prod.exists]
  constructor
  · rintro ⟨key, before, member, after, isAfter, rfl, rfl⟩
    exact ⟨before, (enumerates key before).mp member, isAfter⟩
  · rintro ⟨before, present, isAfter⟩
    exact ⟨key, before, (enumerates key before).mpr present, entry, isAfter,
      rfl, rfl⟩

/-! ## What the sweep is for -/

/-- The last activity of a client is more than the timeout of its pool ago. -/
def Inactive (w : World) (p c : Nat) : Prop :=
  (w.clients c).lastActivityTime + (w.pools p).idleTimeout <
    w.now (w.pools p).loop

instance (w : World) (p c : Nat) : Decidable (w.Inactive p c) :=
  inferInstanceAs (Decidable (_ < _))

/-- What is to be left of a location: busy clients and the queue stay. -/
def withoutInactive
    (w : World)
    (p : Nat)
    (entry : NetLocList) :
    Option NetLocList :=
  let free := entry.free.filter fun c => !decide (w.Inactive p c)
  if free = [] ∧ entry.busy = [] then none else some { entry with free := free }

/--
The sweep removes exactly the inactive clients among the free ones, and erases
exactly the locations that are left without clients.
-/
def SweepsInactive (w : World) (p : Nat) (rows : List Row) : Prop :=
  Enumerates (w.sweepRows p rows)
    fun key => ((w.pools p).clients key).bind (w.withoutInactive p)

/-- No free client looks idle to a cutoff that has wrapped. -/
def Unwrapped (w : World) (p : Nat) : Prop :=
  (w.pools p).idleTimeout ≤ w.now (w.pools p).loop ∨
    ∀ key, ∀ entry ∈ (w.pools p).clients key, ∀ c ∈ entry.free,
      w.now (w.pools p).loop + 2 ^ 64 ≤
        (w.clients c).lastActivityTime + (w.pools p).idleTimeout

section Cutoff

variable {w : World} {p : Nat}

/-- A cutoff that does not wrap is in the past. -/
theorem removeTime_of_le
    (clock : w.now (w.pools p).loop < 2 ^ 64)
    (old : (w.pools p).idleTimeout ≤ w.now (w.pools p).loop) :
    w.removeTime p = w.now (w.pools p).loop - (w.pools p).idleTimeout := by
  unfold removeTime
  omega

/-- A cutoff that wraps is in the far future. -/
theorem removeTime_of_lt
    (timeout : (w.pools p).idleTimeout < 2 ^ 32)
    (young : w.now (w.pools p).loop < (w.pools p).idleTimeout) :
    w.removeTime p =
      w.now (w.pools p).loop + 2 ^ 64 - (w.pools p).idleTimeout := by
  unfold removeTime
  omega

/-- On a clock that is old enough the cutoff finds the inactive clients. -/
theorem removed_iff_of_le
    (clock : w.now (w.pools p).loop < 2 ^ 64)
    (old : (w.pools p).idleTimeout ≤ w.now (w.pools p).loop)
    (c : Nat) :
    (w.clients c).lastActivityTime < w.removeTime p ↔ w.Inactive p c := by
  rw [removeTime_of_le clock old]
  unfold Inactive
  omega

/-- Where the cutoff finds the inactive clients, the sweep is right. -/
theorem sweep_eq_of_removed_iff
    {entry : NetLocList}
    (same :
      ∀ c ∈ entry.free,
        (w.clients c).lastActivityTime < w.removeTime p ↔ w.Inactive p c) :
    w.sweep (w.removeTime p) entry = w.withoutInactive p entry := by
  have sameFree :
      (entry.free.filter fun c =>
          !decide ((w.clients c).lastActivityTime < w.removeTime p)) =
        entry.free.filter fun c => !decide (w.Inactive p c) :=
    List.filter_congr fun c member => by simp [same c member]
  unfold sweep withoutInactive
  rw [sameFree]

/-- A clock that is younger than the timeout has seen no client inactive. -/
theorem not_inactive_of_lt
    (young : w.now (w.pools p).loop < (w.pools p).idleTimeout)
    (c : Nat) :
    ¬ w.Inactive p c := by
  unfold Inactive
  omega

/-- A sweep that keeps every free client of a location has found none idle. -/
theorem not_removed_of_sweep_eq
    {entry : NetLocList}
    (young : w.now (w.pools p).loop < (w.pools p).idleTimeout)
    (same : w.sweep (w.removeTime p) entry = w.withoutInactive p entry)
    {c : Nat}
    (member : c ∈ entry.free) :
    ¬ (w.clients c).lastActivityTime < w.removeTime p := by
  have allStay :
      (entry.free.filter fun c => !decide (w.Inactive p c)) = entry.free :=
    List.filter_eq_self.mpr fun c _ => by
      simp [not_inactive_of_lt young c]
  have notEmpty : entry.free ≠ [] := List.ne_nil_of_mem member
  unfold sweep withoutInactive at same
  simp only [allStay, notEmpty, false_and, ↓reduceIte] at same
  split at same
  · cases same
  · have sameFree := congrArg NetLocList.free (Option.some.inj same)
    have kept := List.filter_eq_self.mp sameFree c member
    simpa using kept

/-- What a cutoff that has wrapped does not find is later than the clock. -/
theorem late_of_not_removed
    {c : Nat}
    (timeout : (w.pools p).idleTimeout < 2 ^ 32)
    (young : w.now (w.pools p).loop < (w.pools p).idleTimeout)
    (stays : ¬ (w.clients c).lastActivityTime < w.removeTime p) :
    w.now (w.pools p).loop + 2 ^ 64 ≤
      (w.clients c).lastActivityTime + (w.pools p).idleTimeout := by
  rw [removeTime_of_lt timeout young] at stays
  omega

theorem Unwrapped.removed_iff
    (unwrapped : w.Unwrapped p)
    (clock : w.now (w.pools p).loop < 2 ^ 64)
    (timeout : (w.pools p).idleTimeout < 2 ^ 32)
    {key : NetLoc}
    {entry : NetLocList}
    (present : (w.pools p).clients key = some entry)
    {c : Nat}
    (member : c ∈ entry.free) :
    (w.clients c).lastActivityTime < w.removeTime p ↔ w.Inactive p c := by
  rcases Nat.lt_or_ge (w.now (w.pools p).loop) (w.pools p).idleTimeout with
    young | old
  · rcases unwrapped with old | far
    · omega
    · have late := far key entry present c member
      have never := not_inactive_of_lt young c
      rw [removeTime_of_lt timeout young]
      simp only [never, iff_false]
      omega
  · exact removed_iff_of_le clock old c

end Cutoff

/-- The sweep is right unless its cutoff wraps and finds a free client idle. -/
theorem sweepsInactive_iff
    {w : World}
    {p : Nat}
    {rows : List Row}
    (clock : w.now (w.pools p).loop < 2 ^ 64)
    (timeout : (w.pools p).idleTimeout < 2 ^ 32)
    (enumerates : Enumerates rows (w.pools p).clients) :
    w.SweepsInactive p rows ↔ w.Unwrapped p := by
  have swept := sweepRows_enumerates enumerates
  rw [checkInactivity_clients] at swept
  constructor
  · intro sweeps
    rcases Nat.lt_or_ge (w.now (w.pools p).loop) (w.pools p).idleTimeout with
      young | old
    · refine Or.inr fun key entry present c member => ?_
      have present : (w.pools p).clients key = some entry := present
      have same :
          w.sweep (w.removeTime p) entry = w.withoutInactive p entry := by
        refine Option.ext fun after => ?_
        have bySweep := swept key after
        have byPurpose := sweeps key after
        simp only [present, Option.bind_some] at bySweep byPurpose
        exact bySweep.symm.trans byPurpose
      exact late_of_not_removed timeout young
        (not_removed_of_sweep_eq young same member)
    · exact Or.inl old
  · intro unwrapped key after
    rw [swept key after]
    dsimp only
    cases present : (w.pools p).clients key with
    | none =>
        simp only [Option.bind_none]
    | some entry =>
        have same :
            w.sweep (w.removeTime p) entry = w.withoutInactive p entry := by
          refine sweep_eq_of_removed_iff fun c member => ?_
          exact unwrapped.removed_iff clock timeout present member
        simp only [Option.bind_some, same]

/-- A client that was active five seconds ago, and one of a minute ago. -/
def quiet (now : Nat) : World :=
  { initial {} with
    now := fun _ => now
    clients := fun c =>
      { lastActivityTime := if c = 0 then now - 5000 else now - 70000 }
    pools := fun _ =>
      { clients := fun key =>
          if key = {} then some { free := [0, 1] } else none } }

/-- The rows of the pool of `quiet`. -/
def quietRows : List Row := [({}, { free := [0, 1] })]

theorem quietRows_enumerates (now : Nat) :
    Enumerates quietRows ((quiet now).pools 0).clients := by
  intro key entry
  by_cases same : key = {} <;> simp [quiet, quietRows, same, eq_comm]

/-- On a loop that has run for long enough. -/
theorem sweepsInactive_quiet :
    (quiet 100000).SweepsInactive 0 quietRows :=
  (sweepsInactive_iff (by simp [quiet]) (by simp [quiet])
    (quietRows_enumerates 100000)).mpr (Or.inl (by simp [quiet]))

/--
Ten seconds after the start of the clock a timeout of a minute removes a client
that was active five seconds ago.
-/
theorem quiet_not_sweepsInactive :
    ¬ (quiet 10000).SweepsInactive 0 quietRows := by
  intro sweeps
  have stays :
      ({}, { free := [0, 1] }) ∈ (quiet 10000).sweepRows 0 quietRows := by
    rw [sweeps]
    simp [quiet, withoutInactive, Inactive]
  simp [sweepRows_eq, sweep, removeTime, quiet, quietRows] at stays

end UniEventHttp.ClientSide.World
