import UniEventHttp.Server

namespace UniEventHttp

/-!
# Configuring a server and starting to listen

`start_listening` walks over the locations of the configuration, makes the calls
of the operating system that each of them needs, and appends a listener.  Every
call may fail, at any location, and then the exception leaves the loop with the
listeners of the locations before it.  Neither `run`, which has made the server
`running`, nor `configure`, which has dropped the old listeners, takes them back.

This is the code of systems other than Windows.
-/

namespace Server

/-- `AF_INET` -/
def afInet : Int := 2

/-- `Server::Location` -/
structure Location where
  host : String
  port : Nat := 0
  path : String := ""
  reusePort : Bool := true
  backlog : Int := 4096
  domain : Int := afInet
  tcpNodelay : Bool := false
  /-- `ssl_ctx` is set. -/
  ssl : Bool := false
  sock : Option Nat := none
  deriving Repr, DecidableEq

/-- `Server::Config`: the part of it that `configure` looks at. -/
structure Conf where
  locations : List Location
  tcpNodelay : Bool := false
  deriving Repr, DecidableEq

/-- The calls that are made for a location. -/
inductive Call where
  | getsockname (sock : Nat)
  | newPipe
  /-- `new Tcp(_loop, domain)`, or without a domain. -/
  | newTcp (domain : Option Int)
  | open (sock : Nat)
  | setNodelay (value : Bool)
  | setReusePort
  | bindPath (path : String)
  | bind (host : String) (port : Nat)
  | listen (backlog : Int)
  | useSsl
  deriving Repr, DecidableEq

/-- What the operating system answers. -/
structure System where
  /-- The sockets of the unix domain. -/
  isUnix : Nat → Bool
  /-- The error of a call that is made for the location with the index. -/
  fails : Nat → Call → Option ErrorCode

/-- The calls that make the stream of a listener. -/
def Location.streamCalls (loc : Location) (isUnix : Nat → Bool) : List Call :=
  match loc.sock with
  | some sock =>
      if isUnix sock then
        [.getsockname sock, .newPipe, .open sock]
      else
        [.getsockname sock, .newTcp none, .open sock, .setNodelay loc.tcpNodelay]
  | none =>
      if loc.path ≠ "" then
        [.newPipe, .bindPath loc.path]
      else
        [.newTcp loc.domain, .setNodelay loc.tcpNodelay] ++
          ((if loc.reusePort then [.setReusePort] else []) ++
            [.bind loc.host loc.port])

/-- One iteration of the loop of `start_listening`, as the calls that it makes. -/
def Location.calls (loc : Location) (isUnix : Nat → Bool) : List Call :=
  loc.streamCalls isUnix ++
    .listen loc.backlog :: (if loc.ssl then [.useSsl] else [])

/-- The error that ends the iteration of the location with the index. -/
def System.failure? (system : System) (index : Nat) (loc : Location) :
    Option ErrorCode :=
  (loc.calls system.isUnix).findSome? (system.fails index)

/-- The loop of `start_listening`, from the location with the index. -/
def listenFrom
    (system : System) :
    Nat → List Location → List Nat → List Nat × Option ErrorCode
  | _, [], listeners => (listeners, none)
  | index, loc :: rest, listeners =>
      match system.failure? index loc with
      | some error => (listeners, some error)
      | none => listenFrom system (index + 1) rest (listeners ++ [index])

/-- `!loc.host && !loc.path && !loc.sock` -/
def Location.isUndefined (loc : Location) : Bool :=
  loc.host = "" && loc.path = "" && loc.sock.isNone

/-- The locations pass the checks of `configure`. -/
def Conf.isValid (conf : Conf) : Bool :=
  !conf.locations.isEmpty && !conf.locations.any Location.isUndefined

/-- The defaults that `configure` puts in the locations. -/
def Conf.completed (conf : Conf) : Conf :=
  { conf with
    locations := conf.locations.map fun loc =>
      { loc with
        backlog := if loc.backlog = 0 then 4096 else loc.backlog
        tcpNodelay := conf.tcpNodelay || loc.tcpNodelay } }

/-- A server with its `_conf`. -/
structure Configured where
  server : Server
  conf : Conf
  counted : server.locations = conf.locations.length

namespace Configured

/-- What a call leaves behind, and the exception that it throws. -/
abbrev Result := Configured × Option Exception

/-- `start_listening` -/
def startListening (c : Configured) (system : System) : Result :=
  if c.server.listeners ≠ [] then
    (c, some (.httpError "server is already listening"))
  else
    let listened := listenFrom system 0 c.conf.locations c.server.listeners
    ({ c with server := { c.server with listeners := listened.1 } },
      listened.2.map .unchecked)

/-- `stop_listening` -/
def stopListening (c : Configured) : Configured :=
  { c with server := c.server.stopListening }

/-- `configure` -/
def configure (c : Configured) (system : System) (conf : Conf) : Result :=
  if conf.locations = [] then
    (c, some (.httpError "no locations to listen supplied"))
  else if conf.locations.any Location.isUndefined then
    (c, some (.httpError
      "neither host nor path nor socket defined in one of the locations"))
  else
    let c := if c.server.state = .running then c.stopListening else c
    let c : Configured :=
      { server := { c.server with locations := conf.completed.locations.length }
        conf := conf.completed
        counted := rfl }
    if c.server.state = .running then c.startListening system else (c, none)

/-- `run`, up to `run_event`. -/
def run (c : Configured) (system : System) : Result :=
  if c.server.state ≠ .initial then
    (c, some (.httpError "server is already running"))
  else
    ({ c with server := { c.server with state := .running } } : Configured)
      |>.startListening system

end Configured

/-! ## The loop -/

/-- No call that the locations need fails. -/
def System.Starts (system : System) (locations : List Location) : Prop :=
  ∀ index loc,
    locations[index]? = some loc →
    ∀ call ∈ loc.calls system.isUnix, system.fails index call = none

/-- The loop listens on the locations before the first one that fails. -/
theorem listenFrom_cases
    (system : System)
    (index : Nat)
    (locations : List Location)
    (listeners : List Nat) :
    ∃ bound,
      (listenFrom system index locations listeners).1 =
          listeners ++ List.range' index bound ∧
        ((bound = locations.length ∧
            (listenFrom system index locations listeners).2 = none) ∨
          (bound < locations.length ∧
            ∃ error,
              (listenFrom system index locations listeners).2 = some error)) := by
  induction locations generalizing index listeners with
  | nil => exact ⟨0, by simp [listenFrom], .inl ⟨rfl, rfl⟩⟩
  | cons loc rest inductionHypothesis =>
      rcases failed : system.failure? index loc with _ | error
      · obtain ⟨bound, listened, ending⟩ :=
          inductionHypothesis (index + 1) (listeners ++ [index])
        refine ⟨bound + 1, ?_, ?_⟩
        · simp [listenFrom, failed, listened, List.range'_succ]
        · simpa [listenFrom, failed] using ending
      · exact ⟨0, by simp [listenFrom, failed],
          .inr ⟨by simp, error, by simp [listenFrom, failed]⟩⟩

/-- The loop comes to its end where no location fails. -/
theorem listenFrom_snd_eq_none
    (system : System)
    (index : Nat)
    (locations : List Location)
    (listeners : List Nat) :
    (listenFrom system index locations listeners).2 = none ↔
      ∀ (k : Nat) (loc : Location),
        locations[k]? = some loc → system.failure? (index + k) loc = none := by
  induction locations generalizing index listeners with
  | nil => simp [listenFrom]
  | cons loc rest inductionHypothesis =>
      rcases failed : system.failure? index loc with _ | error
      · simp only [listenFrom, failed, inductionHypothesis]
        constructor
        · rintro later (_ | k) other found
          · simp only [List.getElem?_cons_zero, Option.some.injEq] at found
            rw [← found]
            exact failed
          · rw [← Nat.add_assoc, Nat.add_right_comm]
            exact later k other found
        · intro all k other found
          rw [Nat.add_right_comm, Nat.add_assoc]
          exact all (k + 1) other found
      · simp only [listenFrom, failed, reduceCtorEq, false_iff]
        intro all
        exact absurd ((all 0 loc rfl).symm.trans failed) (by simp)

namespace Configured

theorem startListening_listening
    {c : Configured}
    (system : System)
    (listening : c.server.listeners ≠ []) :
    c.startListening system =
      (c, some (.httpError "server is already listening")) := by
  rw [startListening, if_pos listening]

/-- Locations that can all be bound are all listened on. -/
theorem startListening_starts
    {c : Configured}
    {system : System}
    (unlistening : c.server.listeners = [])
    (starts : system.Starts c.conf.locations) :
    c.startListening system =
      ({ c with
        server :=
          { c.server with listeners := List.range c.server.locations } },
        none) := by
  have finished :
      (listenFrom system 0 c.conf.locations c.server.listeners).2 = none := by
    rw [listenFrom_snd_eq_none]
    intro k loc found
    rw [Nat.zero_add]
    exact List.findSome?_eq_none_iff.mpr (starts k loc found)
  obtain ⟨bound, listened, ⟨whole, -⟩ | ⟨-, error, failed⟩⟩ :=
    listenFrom_cases system 0 c.conf.locations c.server.listeners
  · rw [unlistening, List.nil_append, whole, ← c.counted,
      ← List.range_eq_range'] at listened
    simp only [unlistening] at finished
    simp [startListening, unlistening, listened, finished]
  · exact absurd (finished.symm.trans failed) (by simp)

/-- A location that fails leaves the server with listeners for fewer locations. -/
theorem startListening_fails
    {c : Configured}
    {system : System}
    (unlistening : c.server.listeners = [])
    (fails : ¬ system.Starts c.conf.locations) :
    ∃ bound error,
      bound < c.server.locations ∧
        c.startListening system =
          ({ c with
            server := { c.server with listeners := List.range bound } },
            some (.unchecked error)) := by
  obtain ⟨bound, listened, ⟨-, finished⟩ | ⟨part, error, failed⟩⟩ :=
    listenFrom_cases system 0 c.conf.locations c.server.listeners
  · refine absurd ?_ fails
    intro index loc found
    have passed :=
      (listenFrom_snd_eq_none system 0 _ _).mp finished index loc found
    rw [Nat.zero_add] at passed
    exact List.findSome?_eq_none_iff.mp passed
  · refine ⟨bound, error, c.counted ▸ part, ?_⟩
    rw [unlistening, List.nil_append, ← List.range_eq_range'] at listened
    simp only [unlistening] at failed
    simp [startListening, unlistening, listened, failed]

/-- `start_listening` is that of a server which knows how many locations can be bound. -/
theorem startListening_refines (c : Configured) (system : System) :
    ∃ bound error,
      c.server.startListening bound error =
        ((c.startListening system).1.server,
          (c.startListening system).2) := by
  by_cases unlistening : c.server.listeners = []
  · by_cases starts : system.Starts c.conf.locations
    · refine ⟨c.server.locations, .foreign 0, ?_⟩
      rw [startListening_starts unlistening starts]
      simp [Server.startListening, unlistening]
    · obtain ⟨bound, error, part, failed⟩ :=
        startListening_fails unlistening starts
      refine ⟨bound, error, ?_⟩
      rw [failed]
      simp [Server.startListening, unlistening, part]
  · refine ⟨0, .foreign 0, ?_⟩
    simp [Server.startListening, startListening, unlistening]

/-- `run` is a step of the server whose locations are only counted. -/
theorem run_refines (c : Configured) (system : System) :
    ∃ bound error,
      c.server.run bound error =
        match c.run system with
        | (after, some exception) => after.server.throwing exception
        | (after, none) =>
            .next (after.server.emit .ran) [.callback .runEvent] := by
  by_cases initial : c.server.state = .initial
  · obtain ⟨bound, error, listened⟩ :=
      startListening_refines
        { c with server := { c.server with state := .running } } system
    refine ⟨bound, error, ?_⟩
    simp only [Server.run, run, initial, ne_eq, not_true_eq_false, if_false]
    rw [listened]
    rcases Configured.startListening _ system with ⟨after, _ | exception⟩ <;> rfl
  · refine ⟨0, .foreign 0, ?_⟩
    simp [Server.run, run, initial]

/-! ## Atomicity -/

/-- The server runs, and some of its locations have no listener. -/
def Partly (c : Configured) : Prop :=
  c.server.state = .running ∧
    c.server.listeners.length < c.server.locations

/--
A `run` whose `start_listening` throws leaves the server `initial` and without
listeners, and it can be run with a configuration that does not fail.
-/
def RunsAtomically (c : Configured) (system : System) : Prop :=
  c.server.state = .initial →
    ∀ after exception,
      c.run system = (after, some exception) →
      after.server.state = .initial ∧ after.server.listeners = [] ∧
        ∀ (later : System) (conf : Conf),
          conf.isValid = true →
          later.Starts conf.completed.locations →
          (((after.configure later conf).1.run later)).2 = none

/--
A `configure` of a running server that throws has rejected the configuration and
changed nothing, or does not leave the server listening on a part of it.
-/
def ConfiguresAtomically
    (c : Configured)
    (system : System)
    (conf : Conf) :
    Prop :=
  c.server.state = .running →
    ∀ after exception,
      c.configure system conf = (after, some exception) →
      (conf.isValid = false ∧ after = c) ∨ ¬ after.Partly

/-- Starting to listen is atomic. -/
def StartsAtomically
    (c : Configured)
    (system : System)
    (conf : Conf) :
    Prop :=
  c.RunsAtomically system ∧ c.ConfiguresAtomically system conf

/-- `configure` rejects a configuration before it changes anything. -/
theorem configure_invalid
    {c : Configured}
    {conf : Conf}
    (system : System)
    (invalid : conf.isValid = false) :
    ∃ exception, c.configure system conf = (c, some exception) := by
  unfold configure
  split
  · exact ⟨_, rfl⟩
  · rename_i nonempty
    split
    · exact ⟨_, rfl⟩
    · rename_i wellDefined
      exact absurd invalid (by simp [Conf.isValid, nonempty, wellDefined])

/-- The server with another configuration, and without listeners if it runs. -/
def replaced (c : Configured) (conf : Conf) : Configured where
  server :=
    { c.server with
      locations := conf.completed.locations.length
      listeners :=
        if c.server.state = .running then [] else c.server.listeners }
  conf := conf.completed
  counted := rfl

theorem configure_valid
    {c : Configured}
    {conf : Conf}
    (system : System)
    (valid : conf.isValid = true) :
    c.configure system conf =
      if c.server.state = .running then
        (c.replaced conf).startListening system
      else
        (c.replaced conf, none) := by
  simp only [Conf.isValid, Bool.and_eq_true, Bool.not_eq_true', List.isEmpty_eq_false_iff]
    at valid
  by_cases running : c.server.state = .running <;>
    simp [configure, valid, running, replaced, stopListening,
      Server.stopListening]

/--
The calls of `run` and `configure` that listen find no listeners left, and none
of the calls of the operating system fails.
-/
def Listenable
    (c : Configured)
    (system : System)
    (conf : Conf) :
    Prop :=
  (c.server.state = .initial →
      c.server.listeners = [] ∧ system.Starts c.conf.locations) ∧
    (c.server.state = .running →
      conf.isValid = true → system.Starts conf.completed.locations)

/-- A `run` that does not start to listen has made the server `running`. -/
theorem run_fails
    {c : Configured}
    {system : System}
    (initial : c.server.state = .initial)
    (fails :
      ¬ (c.server.listeners = [] ∧ system.Starts c.conf.locations)) :
    ∃ after exception,
      c.run system = (after, some exception) ∧
        after.server.state = .running := by
  unfold run
  rw [if_neg (by simp [initial])]
  by_cases unlistening : c.server.listeners = []
  · obtain ⟨bound, error, -, failed⟩ :=
      startListening_fails
        (c := { c with server := { c.server with state := .running } })
        unlistening (fun starts => fails ⟨unlistening, starts⟩)
    exact ⟨_, _, failed, rfl⟩
  · exact ⟨_, _, startListening_listening system unlistening, rfl⟩

theorem runsAtomically_iff (c : Configured) (system : System) :
    c.RunsAtomically system ↔
      (c.server.state = .initial →
        c.server.listeners = [] ∧ system.Starts c.conf.locations) := by
  constructor
  · intro atomic initial
    by_contra fails
    obtain ⟨after, exception, ran, running⟩ := run_fails initial fails
    have restored := (atomic initial after exception ran).1
    exact absurd (running.symm.trans restored) (by decide)
  · intro listenable initial after exception ran
    obtain ⟨unlistening, starts⟩ := listenable initial
    have listened :=
      startListening_starts
        (c := { c with server := { c.server with state := .running } })
        unlistening starts
    rw [run, if_neg (by simp [initial]), listened] at ran
    cases ran

theorem configuresAtomically_iff
    (c : Configured)
    (system : System)
    (conf : Conf) :
    c.ConfiguresAtomically system conf ↔
      (c.server.state = .running →
        conf.isValid = true → system.Starts conf.completed.locations) := by
  constructor
  · intro atomic running valid
    by_contra fails
    obtain ⟨bound, error, part, failed⟩ :=
      startListening_fails (c := c.replaced conf)
        (by simp [replaced, running]) fails
    have configured := configure_valid (c := c) system valid
    rw [if_pos running, failed] at configured
    rcases atomic running _ _ configured with ⟨invalid, -⟩ | notPartly
    · exact absurd (valid.symm.trans invalid) (by decide)
    · exact notPartly ⟨running, by simpa using part⟩
  · intro listenable running after exception configured
    rcases valid : conf.isValid with _ | _
    · obtain ⟨_, rejected⟩ := configure_invalid (c := c) system valid
      rw [rejected] at configured
      cases configured
      exact .inl ⟨rfl, rfl⟩
    · have listened :=
        startListening_starts (c := c.replaced conf)
          (by simp [replaced, running]) (listenable running valid)
      rw [configure_valid system valid, if_pos running, listened] at configured
      cases configured

/--
Starting to listen is atomic exactly where it does not fail: nothing undoes the
part of it that is done.
-/
theorem startsAtomically_iff
    (c : Configured)
    (system : System)
    (conf : Conf) :
    c.StartsAtomically system conf ↔ c.Listenable system conf := by
  unfold StartsAtomically Listenable
  rw [runsAtomically_iff, configuresAtomically_iff]

/-- A new server with a configuration. -/
def start (conf : Conf) : Configured where
  server := { locations := conf.locations.length }
  conf := conf
  counted := rfl

/-- The address with the port. -/
def address (port : Nat) : Location where
  host := "127.0.0.1"
  port := port

/-- The second address that is listened on is in use. -/
def secondInUse : System where
  isUnix := fun _ => false
  fails := fun index call =>
    if index = 1 ∧ call = .listen 4096 then some (.foreign 98) else none

/-- A server fails to run with two addresses. -/
def halfRun : Configured :=
  ((start { locations := [address 80, address 81] }).run secondInUse).1

/-- A server that runs with one address fails to be configured with two others. -/
def halfConfigured : Configured :=
  ((((start { locations := [address 80] }).run secondInUse).1).configure
    secondInUse { locations := [address 81, address 82] }).1

/--
The server that failed to run is running with one of its addresses, and cannot be
run again; the server that failed to be configured runs with one of two addresses.
-/
theorem secondInUse_not_startsAtomically :
    ¬ (start { locations := [address 80, address 81] }).StartsAtomically
        secondInUse { locations := [] } ∧
      ¬ ((start { locations := [address 80] }).run secondInUse).1.StartsAtomically
        secondInUse { locations := [address 81, address 82] } ∧
      halfRun.Partly ∧ halfConfigured.Partly ∧
      ∀ later,
        halfRun.run later =
          (halfRun, some (.httpError "server is already running")) := by
  refine ⟨fun atomic => ?_, fun atomic => ?_, ?_, ?_, fun later => rfl⟩
  · have restored := (atomic.1 rfl halfRun (.unchecked (.foreign 98)) rfl).1
    exact absurd restored (by decide)
  · rcases atomic.2 rfl halfConfigured (.unchecked (.foreign 98)) rfl with
      ⟨invalid, -⟩ | whole
    · exact absurd invalid (by decide)
    · exact whole ⟨rfl, by decide⟩
  · exact ⟨rfl, by decide⟩
  · exact ⟨rfl, by decide⟩

end Configured

end Server

end UniEventHttp
