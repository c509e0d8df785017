import UniEventHttp.ClientDeeds

namespace UniEventHttp.ClientSide.World

/-!
# The lists of a pool

A pool changes the list of a location in a few ways only.  What none of them
breaks holds of every list in every run, as long as the limit of a pool is
changed with care.
-/

/-- Finding a client changes the lists of the pool and its clients only. -/
theorem Places.same
    {w placed : World}
    {p c : Nat}
    {key : NetLoc}
    (places : Places w p key c placed) :
    placed.config = w.config ∧
      placed.requests = w.requests ∧
      placed.trace = w.trace := by
  cases places <;> exact ⟨rfl, rfl, rfl⟩

theorem Places.verifyContext
    {w placed : World}
    {p c : Nat}
    {key : NetLoc}
    (places : Places w p key c placed) :
    placed.verifyContext = w.verifyContext := by
  cases places <;> rfl

/-- Every list, with the limit of its pool and the name of the next client. -/
def Everywhere (good : Nat → Nat → NetLocList → Prop) (w : World) : Prop :=
  ∀ p key, ∀ entry ∈ (w.pools p).clients key,
    good (w.pools p).maxConnections w.nextClient entry

/-- A property of a list that the operations of a pool keep. -/
structure Lasting (good : Nat → Nat → NetLocList → Prop) : Prop where
  first :
    ∀ limit count,
      good limit (count + 1)
        { ({} : NetLocList) with busy := List.insert count [] }
  pops :
    ∀ limit count entry place rest,
      good limit count entry →
      entry.queue = place :: rest →
      good limit count { entry with queue := rest }
  frees :
    ∀ limit count entry c,
      good limit count entry →
      entry.queue = [] →
      c ∈ entry.busy →
      good limit count
        { entry with free := entry.free.insert c, busy := entry.busy.erase c }
  takes :
    ∀ limit count entry c,
      good limit count entry →
      c ∈ entry.free →
      good limit count
        { entry with free := entry.free.erase c, busy := entry.busy.insert c }
  grows :
    ∀ limit count entry,
      good limit count entry →
      entry.free = [] →
      entry.busy.length < limit →
      good limit (count + 1) { entry with busy := entry.busy.insert count }
  enqueues :
    ∀ limit count entry r,
      good limit count entry →
      entry.free = [] →
      limit ≤ entry.busy.length →
      good limit count
        { entry with
          queue := entry.queue ++ [{ ticket := entry.nextTicket, req := r }]
          generation := entry.generation + 1
          nextTicket := entry.nextTicket + 1 }
  erases :
    ∀ limit count entry index generation,
      good limit count entry →
      good limit count
        { entry with
          queue := entry.queue.eraseIdx index, generation := generation }
  sweeps :
    ∀ limit count entry free,
      good limit count entry →
      free.Sublist entry.free →
      (entry.free ≠ [] ∨ entry.busy ≠ [] → free ≠ [] ∨ entry.busy ≠ []) →
      good limit count { entry with free := free }
  later :
    ∀ limit count entry,
      good limit count entry →
      good limit (count + 1) entry

/-- A new limit of a pool breaks nothing. -/
def Suits
    (good : Nat → Nat → NetLocList → Prop)
    (w : World)
    (cause : Cause) :
    Prop :=
  ∀ p value,
    cause = .input (.maxConnections p value) →
    ∀ key, ∀ entry ∈ (w.pools p).clients key,
      good (w.pools p).maxConnections w.nextClient entry →
      good value w.nextClient entry

section

variable {good : Nat → Nat → NetLocList → Prop} {w next : World}

theorem Everywhere.congr
    (everywhere : Everywhere good w)
    (pools : next.pools = w.pools)
    (nextClient : next.nextClient = w.nextClient) :
    Everywhere good next := by
  unfold Everywhere
  rw [pools, nextClient]
  exact everywhere

theorem Everywhere.tunes
    (everywhere : Everywhere good w)
    (tunes : Tunes w next) :
    Everywhere good next :=
  everywhere.congr tunes.pools tunes.nextClient

theorem Everywhere.apart
    {c r : Nat}
    (everywhere : Everywhere good w)
    (apart : Apart w c r next) :
    Everywhere good next :=
  everywhere.congr apart.pools apart.nextClient

theorem Everywhere.emit (everywhere : Everywhere good w) (event : Event) :
    Everywhere good (w.emit event) :=
  everywhere.congr rfl rfl

theorem Everywhere.setRequest
    (everywhere : Everywhere good w)
    (r : Nat)
    (request : Request) :
    Everywhere good (w.setRequest r request) :=
  everywhere.congr rfl rfl

theorem Everywhere.detached (everywhere : Everywhere good w) (c : Nat) :
    Everywhere good (w.detached c) :=
  everywhere.congr rfl rfl

theorem Everywhere.ending (everywhere : Everywhere good w) (r : Nat) :
    Everywhere good (w.ending r) :=
  everywhere.congr rfl rfl

theorem Everywhere.leaving (everywhere : Everywhere good w) (c r : Nat) :
    Everywhere good (w.leaving c r) :=
  everywhere.congr rfl rfl

theorem Everywhere.weak (everywhere : Everywhere good w) (c : Nat) (value : Bool) :
    Everywhere good (w.weak c value) :=
  everywhere.congr rfl rfl

theorem Everywhere.parseShift
    (everywhere : Everywhere good w)
    (c buffer context : Nat)
    (result : Parsed) :
    Everywhere good (w.parseShift c buffer context result) :=
  everywhere.congr rfl rfl

theorem setEntry_limit
    (w : World)
    (p : Nat)
    (key : NetLoc)
    (entry : Option NetLocList)
    (q : Nat) :
    ((w.setEntry p key entry).pools q).maxConnections =
      (w.pools q).maxConnections := by
  by_cases same : q = p
  · subst same
    simp [setEntry]
  · simp [setEntry, same]

theorem Everywhere.setEntry
    {p : Nat}
    {key : NetLoc}
    {entry : NetLocList}
    (everywhere : Everywhere good w)
    (isGood : good (w.pools p).maxConnections w.nextClient entry) :
    Everywhere good (w.setEntry p key (some entry)) := by
  intro q other list member
  rw [setEntry_limit]
  rw [Option.mem_def, setEntry_clients] at member
  split at member
  · rename_i same
    obtain ⟨rfl, rfl⟩ := same
    cases member
    exact isGood
  · exact everywhere q other list member

theorem Everywhere.newClient
    (lasting : Lasting good)
    (everywhere : Everywhere good w)
    (loop : Nat)
    (pool : Option Nat) :
    Everywhere good (w.newClient loop pool) :=
  fun p key entry member =>
    lasting.later _ _ entry (everywhere p key entry member)

theorem Everywhere.putsBack
    {p c : Nat}
    (lasting : Lasting good)
    (everywhere : Everywhere good w)
    (putsBack : PutsBack w p c next) :
    Everywhere good next := by
  cases putsBack with
  | starts present queue started =>
      refine Everywhere.apart ?_ started.toApart
      exact everywhere.setEntry
        (lasting.pops _ _ _ _ _ (everywhere p _ _ present) queue)
  | frees present queue busy =>
      exact everywhere.setEntry
        (lasting.frees _ _ _ _ (everywhere p _ _ present) queue busy)

theorem Everywhere.refusesNext
    {p c : Nat}
    (lasting : Lasting good)
    (everywhere : Everywhere good w)
    (refuses : RefusesNext w p c next) :
    Everywhere good next := by
  obtain ⟨entry, place, rest, present, queue, refused⟩ := refuses
  refine Everywhere.apart ?_ refused.toApart
  exact everywhere.setEntry
    (lasting.pops _ _ _ _ _ (everywhere p _ _ present) queue)

theorem Everywhere.places
    {p c : Nat}
    {key : NetLoc}
    (lasting : Lasting good)
    (everywhere : Everywhere good w)
    (places : Places w p key c next) :
    Everywhere good next := by
  cases places with
  | creates found =>
      refine (everywhere.newClient lasting _ _).setEntry ?_
      rcases found with ⟨_, rfl⟩ | ⟨present, noneFree, below⟩
      · exact lasting.first _ _
      · exact lasting.grows _ _ _ (everywhere p key _ present) noneFree below
  | reuses present isFree =>
      exact everywhere.setEntry
        (lasting.takes _ _ _ _ (everywhere p key _ present) isFree)

theorem Everywhere.pooled
    {p r : Nat}
    (lasting : Lasting good)
    (everywhere : Everywhere good w)
    (pooled : Pooled w p r next) :
    Everywhere good next := by
  cases pooled with
  | starts places started =>
      exact (everywhere.places lasting places).apart started.toApart
  | queues present noneFree full =>
      unfold enqueue
      dsimp only
      refine Everywhere.emit (Everywhere.setRequest ?_ _ _) _
      exact everywhere.setEntry
        (lasting.enqueues _ _ _ r (everywhere p _ _ present) noneFree full)

theorem Everywhere.poolRefuses
    {p r : Nat}
    (lasting : Lasting good)
    (everywhere : Everywhere good w)
    (refuses : PoolRefuses w p r next) :
    Everywhere good next := by
  cases refuses with
  | early exception =>
      exact everywhere.emit _
  | late isPooled places refused =>
      subst isPooled
      exact ((everywhere.setRequest r _).places lasting places).apart
        refused.toApart

theorem Everywhere.act
    (lasting : Lasting good)
    (everywhere : Everywhere good w)
    (act : Act w next) :
    Everywhere good next := by
  cases act with
  | tunes tunes =>
      exact everywhere.tunes tunes
  | ends tunes ends =>
      obtain ⟨_, left, released, leaves, releases, rfl⟩ := ends
      have kept := ((everywhere.tunes tunes).detached _).tunes leaves
      cases releases with
      | alone _ =>
          exact kept.ending _
      | back _ putsBack =>
          exact (kept.putsBack lasting putsBack).ending _
  | follows tunes follows =>
      cases follows with
      | same _ leaves started =>
          exact (((everywhere.tunes tunes).leaving _ _).tunes leaves).apart
            started.toApart
      | pooled _ _ leaves putsBack pooled =>
          have kept := ((everywhere.tunes tunes).leaving _ _).tunes leaves
          have back := kept.putsBack lasting putsBack
          exact ((back.weak _ true).setRequest _ _).pooled lasting pooled
  | dequeues tunes _ =>
      exact (everywhere.tunes tunes).ending _

theorem Everywhere.mishap
    (lasting : Lasting good)
    (everywhere : Everywhere good w)
    (mishap : Mishap w next) :
    Everywhere good next := by
  cases mishap with
  | tunes tunes =>
      exact everywhere.tunes tunes
  | ends tunes ends =>
      obtain ⟨_, left, p, leaves, _, refuses⟩ := ends
      have kept := ((everywhere.tunes tunes).detached _).tunes leaves
      exact kept.refusesNext lasting refuses
  | restarts tunes _ leaves refused =>
      exact (((everywhere.tunes tunes).leaving _ _).tunes leaves).apart
        refused.toApart
  | leaves tunes _ _ leaves refuses =>
      exact (((everywhere.tunes tunes).leaving _ _).tunes leaves).refusesNext
        lasting refuses
  | pooled tunes _ _ leaves putsBack refuses =>
      have kept := ((everywhere.tunes tunes).leaving _ _).tunes leaves
      have back := kept.putsBack lasting putsBack
      exact (back.weak _ true).poolRefuses lasting refuses

/-- Every deed keeps what lasts. -/
theorem Everywhere.deed
    {cause : Cause}
    (lasting : Lasting good)
    (suits : Suits good w cause)
    (everywhere : Everywhere good w)
    (deed : Deed w cause next) :
    Everywhere good next := by
  cases deed with
  | act act =>
      exact everywhere.act lasting act
  | mishap mishap =>
      exact everywhere.mishap lasting mishap
  | parses _ either =>
      have parsed := everywhere.parseShift
      rcases either with act | mishap
      · exact (parsed _ _ _ _).act lasting act
      · exact (parsed _ _ _ _).mishap lasting mishap
  | erases present same inside returned =>
      simp only [cancelReturn, present, same, inside, and_self, if_true,
        CallMachine.Outcome.next.injEq, and_true] at returned
      subst returned
      exact everywhere.setEntry
        (lasting.erases _ _ _ _ _ (everywhere _ _ _ present))
  | edits _ =>
      exact everywhere.setRequest _ _
  | creates loop =>
      exact everywhere.newClient lasting loop none
  | begins _ started =>
      exact (everywhere.apart started.toApart).emit _
  | refuses _ refused =>
      exact everywhere.apart refused.toApart
  | submits offers _ pooled =>
      have offered := everywhere.tunes offers.tunes
      exact ((offered.setRequest _ _).pooled lasting pooled).emit _
  | rejects offers refuses =>
      exact (everywhere.tunes offers.tunes).poolRefuses lasting refuses
  | limits p value =>
      intro q key entry member
      by_cases same : q = p
      · subst same
        simp only [Function.update_self] at member ⊢
        exact suits q value rfl key entry member
          (everywhere q key entry member)
      · simp only [Function.update_of_ne same] at member ⊢
        exact everywhere q key entry member
  | advances _ _ =>
      exact everywhere.congr rfl rfl
  | delivers _ =>
      exact everywhere.congr rfl rfl
  | rings _ either =>
      rcases either with act | mishap
      · exact (everywhere.setRequest _ _).act lasting act
      · exact (everywhere.setRequest _ _).mishap lasting mishap
  | sweeps p =>
      intro q key entry member
      have limit :
          ((w.checkInactivity p).pools q).maxConnections =
            (w.pools q).maxConnections := by
        by_cases same : q = p
        · subst same
          simp [checkInactivity]
        · simp [checkInactivity, same]
      obtain ⟨old, present, free, rfl, fewer, alive⟩ :=
        checkInactivity_from member
      rw [limit]
      exact lasting.sweeps _ _ _ _ (everywhere q key old present) fewer alive

/-- No pool has a list before the first request. -/
theorem everywhere_of_fresh (fresh : Fresh w) : Everywhere good w := by
  intro p key entry member
  simp [fresh.pools] at member

/-- What lasts holds of every list at the end of a run with suitable limits. -/
theorem everywhere_of_suits
    {labels : List Label}
    {final : Config}
    (lasting : Lasting good)
    (fresh : Fresh w)
    (suits : machine.Guarded (Permits (Suits good)) (start w) labels)
    (ran : run? w labels = some final) :
    Everywhere good final.state :=
  run_of_deeds
    (fun _ _ _ suits everywhere deed => everywhere.deed lasting suits deed)
    (everywhere_of_fresh fresh) suits ran

end

/-! ## Clients have different names -/

/-- No client of the list is yet to be made. -/
def Named (_limit count : Nat) (entry : NetLocList) : Prop :=
  ∀ c, c ∈ entry.free ∨ c ∈ entry.busy → c < count

theorem lasting_named : Lasting Named where
  first limit count c isMember := by
    simp only [List.not_mem_nil, false_or, List.mem_insert_iff, or_false]
      at isMember
    omega
  pops _ _ _ _ _ named _ := named
  frees limit count entry c named _ busy d isMember := by
    rcases isMember with isFree | isBusy
    · rcases List.mem_insert_iff.mp isFree with rfl | old
      · exact named d (Or.inr busy)
      · exact named d (Or.inl old)
    · exact named d (Or.inr (List.mem_of_mem_erase isBusy))
  takes limit count entry c named free d isMember := by
    rcases isMember with isFree | isBusy
    · exact named d (Or.inl (List.mem_of_mem_erase isFree))
    · rcases List.mem_insert_iff.mp isBusy with rfl | old
      · exact named d (Or.inl free)
      · exact named d (Or.inr old)
  grows limit count entry named _ _ d isMember := by
    rcases isMember with isFree | isBusy
    · have before := named d (Or.inl isFree)
      omega
    · rcases List.mem_insert_iff.mp isBusy with rfl | old
      · omega
      · have before := named d (Or.inr old)
        omega
  enqueues _ _ _ _ named _ _ := named
  erases _ _ _ _ _ named := named
  sweeps _ _ _ _ named fewer _ d isMember :=
    named d (isMember.imp (fun isFree => fewer.subset isFree) id)
  later _ _ _ named d isMember := by
    have before := named d isMember
    omega

/-- In every run a new client is in no list of any pool. -/
theorem named_of_run
    {w : World}
    {labels : List Label}
    {final : Config}
    (fresh : Fresh w)
    (ran : run? w labels = some final) :
    Everywhere Named final.state := by
  refine everywhere_of_suits lasting_named fresh ?_ ran
  refine (CallMachine.Machine.guarded_true machine (start w) labels).imp ?_
  intro config label _ cause _ p value _ key entry _ named
  exact named

/-! ## Active clients have been made -/

/-- The clients that have requests have been made. -/
def Introduced (w : World) : Prop :=
  ∀ c r, (w.clients c).request = some r → c < w.nextClient

section Introduced

variable {w next : World}

theorem Introduced.congr
    (introduced : Introduced w)
    (nextClient : w.nextClient ≤ next.nextClient)
    (fewer :
      ∀ c r,
        (next.clients c).request = some r →
        (w.clients c).request = some r ∨ c < next.nextClient) :
    Introduced next := by
  intro c r active
  rcases fewer c r active with before | made
  · exact (introduced c r before).trans_le nextClient
  · exact made

theorem Introduced.tunes
    (introduced : Introduced w)
    (tunes : Tunes w next) :
    Introduced next :=
  introduced.congr tunes.nextClient.ge fun c _ active =>
    Or.inl ((tunes.request c).symm.trans active)

theorem Introduced.detached
    (introduced : Introduced w)
    (c : Nat) :
    Introduced (w.detached c) := by
  refine introduced.congr le_rfl fun d r active => ?_
  by_cases same : d = c
  · subst d
    simp [World.detached, setClient] at active
  · simp only [World.detached, setClient, ne_eq, same, not_false_eq_true,
      Function.update_of_ne] at active
    exact Or.inl active

theorem Introduced.setRequest
    (introduced : Introduced w)
    (r : Nat)
    (request : Request) :
    Introduced (w.setRequest r request) :=
  introduced

theorem Introduced.emit (introduced : Introduced w) (event : Event) :
    Introduced (w.emit event) :=
  introduced

theorem Introduced.ending (introduced : Introduced w) (r : Nat) :
    Introduced (w.ending r) :=
  introduced

theorem Introduced.setEntry
    (introduced : Introduced w)
    (p : Nat)
    (key : NetLoc)
    (entry : Option NetLocList) :
    Introduced (w.setEntry p key entry) :=
  introduced

theorem Introduced.leaving
    (introduced : Introduced w)
    (c r : Nat) :
    Introduced (w.leaving c r) :=
  (introduced.detached c).setRequest r _

theorem Introduced.started
    {c r : Nat}
    (introduced : Introduced w)
    (made : c < w.nextClient)
    (started : Started w c r next) :
    Introduced next := by
  refine introduced.congr started.nextClient.ge fun d s active => ?_
  by_cases same : d = c
  · subst d
    exact Or.inr (made.trans_eq started.nextClient.symm)
  · rw [started.clients d same] at active
    exact Or.inl active

theorem Introduced.refused
    {c r : Nat}
    (introduced : Introduced w)
    (refused : Refused w c r next) :
    Introduced next := by
  obtain ⟨tcp, client⟩ := refused.client
  refine introduced.congr refused.nextClient.ge fun d s active => Or.inl ?_
  by_cases same : d = c
  · subst d
    rwa [client] at active
  · rwa [refused.clients d same] at active

theorem Introduced.putsBack
    {p c : Nat}
    (introduced : Introduced w)
    (made : c < w.nextClient)
    (back : PutsBack w p c next) :
    Introduced next := by
  cases back with
  | starts _ _ started =>
      exact (introduced.setEntry p _ _).started made started
  | frees _ _ _ =>
      exact introduced

theorem Introduced.refusesNext
    {p c : Nat}
    (introduced : Introduced w)
    (refuses : RefusesNext w p c next) :
    Introduced next := by
  obtain ⟨_, _, _, _, _, refused⟩ := refuses
  exact (introduced.setEntry p _ _).refused refused

theorem Introduced.newClient
    (introduced : Introduced w)
    (loop : Nat)
    (pool : Option Nat) :
    Introduced (w.newClient loop pool) := by
  refine introduced.congr (Nat.le_succ _) fun d r active => ?_
  by_cases same : d = w.nextClient
  · subst d
    exact Or.inr (Nat.lt_succ_self _)
  · simp only [World.newClient, setClient, ne_eq, same, not_false_eq_true,
      Function.update_of_ne] at active
    exact Or.inl active

/-- The client that a pool finds has been made. -/
theorem Introduced.places
    {p c : Nat}
    {key : NetLoc}
    (named : Everywhere Named w)
    (introduced : Introduced w)
    (places : Places w p key c next) :
    c < next.nextClient ∧ Introduced next := by
  cases places with
  | creates _ =>
      exact ⟨Nat.lt_succ_self _, introduced.newClient _ _⟩
  | reuses present isFree =>
      exact ⟨named p key _ present _ (Or.inl isFree), introduced⟩

theorem Introduced.pooled
    {p r : Nat}
    (named : Everywhere Named w)
    (introduced : Introduced w)
    (pooled : Pooled w p r next) :
    Introduced next := by
  cases pooled with
  | starts places started =>
      obtain ⟨made, placed⟩ := introduced.places named places
      exact placed.started made started
  | queues _ _ _ =>
      exact introduced

theorem Introduced.poolRefuses
    {p r : Nat}
    (named : Everywhere Named w)
    (introduced : Introduced w)
    (refuses : PoolRefuses w p r next) :
    Introduced next := by
  cases refuses with
  | early _ =>
      exact introduced
  | late isPooled places refused =>
      subst isPooled
      exact ((introduced.setRequest r _).places (named.setRequest r _)
        places).2.refused refused

theorem Introduced.act
    (named : Everywhere Named w)
    (introduced : Introduced w)
    (act : Act w next) :
    Introduced next := by
  cases act with
  | tunes tunes =>
      exact introduced.tunes tunes
  | ends tunes ends =>
      obtain ⟨active, left, released, leaves, releases, rfl⟩ := ends
      have made := (introduced.tunes tunes) _ _ active
      have kept := ((introduced.tunes tunes).detached _).tunes leaves
      cases releases with
      | alone _ =>
          exact kept.ending _
      | back _ putsBack =>
          have back :=
            kept.putsBack (made.trans_eq leaves.nextClient.symm) putsBack
          exact back.ending _
  | follows tunes follows =>
      cases follows with
      | same active leaves started =>
          have made := (introduced.tunes tunes) _ _ active
          have left := ((introduced.tunes tunes).leaving _ _).tunes leaves
          exact left.started
            (made.trans_eq leaves.nextClient.symm) started
      | pooled active _ leaves putsBack pooled =>
          have made := (introduced.tunes tunes) _ _ active
          have left := ((introduced.tunes tunes).leaving _ _).tunes leaves
          have back :=
            left.putsBack
              (made.trans_eq leaves.nextClient.symm) putsBack
          have kept := ((named.tunes tunes).leaving _ _).tunes leaves
          have backNamed := kept.putsBack lasting_named putsBack
          exact Introduced.pooled
            (Everywhere.setRequest (backNamed.weak _ true) _ _)
            (Introduced.setRequest (back.tunes (Tunes.weak _ _ true)) _ _)
            pooled
  | dequeues tunes _ =>
      exact (introduced.tunes tunes).ending _

theorem Introduced.mishap
    (named : Everywhere Named w)
    (introduced : Introduced w)
    (mishap : Mishap w next) :
    Introduced next := by
  cases mishap with
  | tunes tunes =>
      exact introduced.tunes tunes
  | ends tunes ends =>
      obtain ⟨_, left, p, leaves, _, refuses⟩ := ends
      exact (((introduced.tunes tunes).detached _).tunes leaves).refusesNext
        refuses
  | restarts tunes _ leaves refused =>
      have left := ((introduced.tunes tunes).leaving _ _).tunes leaves
      exact left.refused refused
  | leaves tunes _ _ leaves refuses =>
      have left := ((introduced.tunes tunes).leaving _ _).tunes leaves
      exact left.refusesNext refuses
  | pooled tunes active _ leaves putsBack refuses =>
      have made := (introduced.tunes tunes) _ _ active
      have left := ((introduced.tunes tunes).leaving _ _).tunes leaves
      have back :=
        left.putsBack
          (made.trans_eq leaves.nextClient.symm) putsBack
      have kept := ((named.tunes tunes).leaving _ _).tunes leaves
      have backNamed := kept.putsBack lasting_named putsBack
      exact Introduced.poolRefuses (backNamed.weak _ true)
        (back.tunes (Tunes.weak _ _ true)) refuses

theorem Introduced.deed
    {cause : Cause}
    (named : Everywhere Named w)
    (introduced : Introduced w)
    (deed : Deed w cause next) :
    Introduced next := by
  cases deed with
  | act act =>
      exact introduced.act named act
  | mishap mishap =>
      exact introduced.mishap named mishap
  | @parses c buffer context _ result _ _ either =>
      have parsed : Introduced (w.parseShift c buffer context result) := by
        refine introduced.congr le_rfl fun d r active => Or.inl ?_
        by_cases same : d = c
        · subst d
          simpa [parseShift, World.emit, setClient] using active
        · simpa [parseShift, World.emit, setClient, same] using active
      rcases either with act | mishap
      · exact parsed.act (named.parseShift _ _ _ _) act
      · exact parsed.mishap (named.parseShift _ _ _ _) mishap
  | erases present same inside returned =>
      simp only [cancelReturn, present, same, inside, and_self, if_true,
        CallMachine.Outcome.next.injEq, and_true] at returned
      subst returned
      exact introduced
  | edits _ =>
      exact introduced
  | creates loop =>
      exact introduced.newClient loop none
  | begins made started =>
      exact (introduced.started made started).emit _
  | refuses _ refused =>
      exact introduced.refused refused
  | submits offers _ pooled =>
      have submitted :=
        Introduced.pooled
          (Everywhere.setRequest (named.tunes offers.tunes) _ _)
          (Introduced.setRequest (introduced.tunes offers.tunes) _ _) pooled
      exact submitted.emit _
  | rejects offers refuses =>
      exact (introduced.tunes offers.tunes).poolRefuses
        (named.tunes offers.tunes) refuses
  | limits _ _ | advances _ _ | delivers _ | sweeps _ =>
      exact introduced
  | rings _ either =>
      rcases either with act | mishap
      · exact (introduced.setRequest _ _).act (named.setRequest _ _) act
      · exact (introduced.setRequest _ _).mishap (named.setRequest _ _) mishap

/-- In every run the clients that have requests have been made. -/
theorem guarded_introduced
    {guard : Config → Label → Prop}
    {labels : List Label}
    (fresh : Fresh w)
    (guarded : machine.Guarded guard (start w) labels) :
    machine.Guarded
      (fun config label => guard config label ∧ Introduced config.state)
      (start w) labels := by
  have kept :
      ∀ config label after,
        (fun config : Config =>
          Everywhere Named config.state ∧ Introduced config.state) config →
        guard config label →
        machine.step? config label = some after →
        (fun config : Config =>
          Everywhere Named config.state ∧ Introduced config.state) after := by
    rintro before label after ⟨named, introduced⟩ _ stepped
    rcases step_deed stepped with same | ⟨cause, _, deed⟩
    · simp only [same]
      exact ⟨named, introduced⟩
    · exact ⟨named.deed lasting_named (fun _ _ _ _ _ _ named => named) deed,
        introduced.deed named deed⟩
  refine CallMachine.Machine.Guarded.strengthen kept
    (fun config _ both _ => both.2) ⟨everywhere_of_fresh fresh, ?_⟩ guarded
  intro c r active
  simp [start, fresh.clients] at active

end Introduced

end UniEventHttp.ClientSide.World
