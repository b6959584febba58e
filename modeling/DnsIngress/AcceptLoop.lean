import DnsIngress.Backoff
import DnsIngress.Pacing
import DnsIngress.Progress

/-! # The accept loop of a TCP listener

`DoTServer::run`, `DoHServer::run` and `HealthcheckServer::run` accept a client, wait for a permit
of `connection_limit`, and spawn a task that owns the permit.  After an accept error DoT and DoH
sleep for the next delay of their backoff counter; the health check does not.

Only the two `select!`s look at the token: neither a sleep nor the spawn is cut short by it.  When
both branches of a `select!` are ready, either is taken.

A client is named by its place in the order of acceptance. -/

namespace DnsIngress

open Backoff (BackoffCounter scheduled)

/-- The base and the maximum of the delays after accept errors. -/
def DoTServer.acceptBackoff : Option (UInt64 × UInt64) := some (100, 5000)
def DoHServer.acceptBackoff : Option (UInt64 × UInt64) := some (100, 5000)
def HealthcheckServer.acceptBackoff : Option (UInt64 × UInt64) := none

/-- Program counter of the loop. -/
inductive Accept
  /-- awaiting `shutdown.cancelled()` or `listener.accept()` -/
  | accepting
  /-- awaiting `shutdown.cancelled()` or a permit for this client -/
  | acquiring (client : ℕ)
  /-- awaiting `tasks.spawn(..)`, whose future owns the permit and the socket -/
  | spawning (client : ℕ)
  | sleeping (deadline : ℕ)
  /-- out of the loop, or dropped -/
  | stopped
deriving DecidableEq

namespace Accept

/-- The sockets that the loop owns. -/
def clients : Accept → List ℕ
  | acquiring client | spawning client => [client]
  | accepting | sleeping _ | stopped => []

/-- The permits that it owns. -/
def permits : Accept → ℕ
  | spawning _ => 1
  | accepting | acquiring _ | sleeping _ | stopped => 0

/-- In one of the two `select!`s. -/
def selects : Accept → Bool
  | accepting | acquiring _ => true
  | spawning _ | sleeping _ | stopped => false

theorem permits_of_selects {phase : Accept} (h : phase.selects = true) : phase.permits = 0 := by
  cases phase <;> first | rfl | cases h

end Accept

structure AcceptLoop where
  /-- in milliseconds -/
  now : ℕ
  phase : Accept
  /-- the free permits of `connection_limit` -/
  free : ℕ
  backoff : BackoffCounter
  /-- the clients of the running connection tasks -/
  tasks : List ℕ
  /-- how many clients have been accepted -/
  accepted : ℕ
  /-- when `listener.accept()` has failed -/
  errors : List ℕ
  cancelled : Bool
  /-- the task group is closed: it drops the futures it is given -/
  closed : Bool

namespace AcceptLoop

inductive Action
  | accept
  | acceptError
  | acquire
  | spawn
  | wake
  /-- a `select!` takes the branch of the token -/
  | stop
  /-- the future of `run` is dropped, which a spawn may have survived -/
  | abort (sent : Bool)
  /-- a connection task ends or is dropped -/
  | finish (client : ℕ)
  | cancel
  | closeGroup
  | tick (ms : ℕ)

def new (maxConnections : ℕ) : AcceptLoop where
  now := 0
  phase := .accepting
  free := maxConnections
  backoff := .new
  tasks := []
  accepted := 0
  errors := []
  cancelled := false
  closed := false

variable (s : AcceptLoop)

def fail : Option (UInt64 × UInt64) → AcceptLoop
  | none => { s with errors := s.errors ++ [s.now] }
  | some (baseDelayMs, maxDelayMs) =>
      let (delay, backoff) := s.backoff.nextDelay baseDelayMs maxDelayMs
      { s with
        errors := s.errors ++ [s.now]
        backoff := backoff
        phase := .sleeping (s.now + delay.toNat) }

/-- The group starts the task, or drops its future. -/
def give (client : ℕ) (phase : Accept) : AcceptLoop :=
  if s.closed then { s with phase := phase, free := s.free + 1 }
  else { s with phase := phase, tasks := client :: s.tasks }

def step (backoff : Option (UInt64 × UInt64)) : Action → Option AcceptLoop
  | .accept =>
      if s.phase = .accepting then
        some { s with phase := .acquiring s.accepted, accepted := s.accepted + 1 }
      else none
  | .acceptError => if s.phase = .accepting then some (s.fail backoff) else none
  | .acquire =>
      match s.phase with
      | .acquiring client =>
          if 0 < s.free then some { s with phase := .spawning client, free := s.free - 1 }
          else none
      | _ => none
  | .spawn =>
      match s.phase with
      | .spawning client => some (s.give client .accepting)
      | _ => none
  | .wake =>
      match s.phase with
      | .sleeping deadline => if deadline ≤ s.now then some { s with phase := .accepting } else none
      | _ => none
  | .stop =>
      match s.phase with
      | .accepting | .acquiring _ => if s.cancelled then some { s with phase := .stopped } else none
      | _ => none
  | .abort sent =>
      match s.phase with
      | .spawning client =>
          if sent then some (s.give client .stopped)
          else some { s with phase := .stopped, free := s.free + 1 }
      | _ => some { s with phase := .stopped }
  | .finish client =>
      if client ∈ s.tasks then
        some { s with tasks := s.tasks.erase client, free := s.free + 1 }
      else none
  | .cancel => some { s with cancelled := true }
  | .closeGroup => some { s with closed := true }
  | .tick ms => some { s with now := s.now + ms }

def system (backoff : Option (UInt64 × UInt64)) (maxConnections : ℕ) :
    Transition.System AcceptLoop Action where
  init s := s = new maxConnections
  step s := s.step backoff

/-- The clients whose sockets are open. -/
def sockets : List ℕ := s.phase.clients ++ s.tasks

variable {backoff : Option (UInt64 × UInt64)} {maxConnections : ℕ} {s s' : AcceptLoop}

/-- What a step does. -/
inductive Move (backoff : Option (UInt64 × UInt64)) (s : AcceptLoop) : Action → AcceptLoop → Prop
  | accept : s.phase = .accepting →
      Move backoff s .accept
        { s with phase := .acquiring s.accepted, accepted := s.accepted + 1 }
  | acceptError : s.phase = .accepting → Move backoff s .acceptError (s.fail backoff)
  | acquire {client : ℕ} : s.phase = .acquiring client → 0 < s.free →
      Move backoff s .acquire { s with phase := .spawning client, free := s.free - 1 }
  | spawn {client : ℕ} : s.phase = .spawning client →
      Move backoff s .spawn (s.give client .accepting)
  | wake {deadline : ℕ} : s.phase = .sleeping deadline → deadline ≤ s.now →
      Move backoff s .wake { s with phase := .accepting }
  | stop : s.phase.selects = true → s.cancelled = true →
      Move backoff s .stop { s with phase := .stopped }
  | abortSpawn {client : ℕ} : s.phase = .spawning client →
      Move backoff s (.abort true) (s.give client .stopped)
  | abortDrop {client : ℕ} : s.phase = .spawning client →
      Move backoff s (.abort false) { s with phase := .stopped, free := s.free + 1 }
  | abort (sent : Bool) : s.phase.permits = 0 →
      Move backoff s (.abort sent) { s with phase := .stopped }
  | finish {client : ℕ} : client ∈ s.tasks →
      Move backoff s (.finish client)
        { s with tasks := s.tasks.erase client, free := s.free + 1 }
  | cancel : Move backoff s .cancel { s with cancelled := true }
  | closeGroup : Move backoff s .closeGroup { s with closed := true }
  | tick (ms : ℕ) : Move backoff s (.tick ms) { s with now := s.now + ms }

/-- **Every step is one of these.** -/
theorem move_of_step {a : Action} (h : s.step backoff a = some s') : Move backoff s a s' := by
  cases a with
  | accept | acceptError =>
      simp only [step] at h
      split_ifs at h with hp
      cases h
      first | exact .accept hp | exact .acceptError hp
  | acquire =>
      simp only [step] at h
      split at h
      · next hp =>
        split_ifs at h with hfree
        cases h
        exact .acquire hp hfree
      · cases h
  | spawn =>
      simp only [step] at h
      split at h
      · next hp =>
        cases h
        exact .spawn hp
      · cases h
  | wake =>
      simp only [step] at h
      split at h
      · next hp =>
        split_ifs at h with hnow
        cases h
        exact .wake hp hnow
      · cases h
  | stop =>
      simp only [step] at h
      split at h
      · next hp =>
        split_ifs at h with hc
        cases h
        exact .stop (by rw [hp]; rfl) hc
      · next hp =>
        split_ifs at h with hc
        cases h
        exact .stop (by rw [hp]; rfl) hc
      · cases h
  | abort sent =>
      simp only [step] at h
      split at h
      · next hp =>
        cases sent with
        | true =>
            cases h
            exact .abortSpawn hp
        | false =>
            cases h
            exact .abortDrop hp
      · next hp =>
        cases h
        refine .abort sent ?_
        cases hphase : s.phase with
        | spawning client => exact absurd hphase (hp client)
        | _ => rfl
  | finish client =>
      simp only [step] at h
      split_ifs at h with hc
      cases h
      exact .finish hc
  | cancel | closeGroup | tick =>
      cases h
      constructor

/-! ### Permits and sockets -/

variable {client : ℕ} {phase : Accept}

structure Bounded (maxConnections : ℕ) (s : AcceptLoop) : Prop where
  /-- no permit is lost, and none is given twice -/
  permits : s.free + s.phase.permits + s.tasks.length = maxConnections
  /-- no client has two tasks -/
  nodup : s.sockets.Nodup
  accepted : ∀ client ∈ s.sockets, client < s.accepted

theorem bounded_new : Bounded maxConnections (new maxConnections) where
  permits := rfl
  nodup := List.nodup_nil
  accepted := by simp [sockets, new, Accept.clients]

theorem Bounded.release (h : Bounded maxConnections s) (hclients : phase.clients = [])
    (hpermits : phase.permits = 0) :
    Bounded maxConnections { s with phase := phase, free := s.free + s.phase.permits } := by
  have hopen : ({ s with phase := phase, free := s.free + s.phase.permits } : AcceptLoop).sockets =
      s.tasks := by
    simp only [sockets, hclients, List.nil_append]
  constructor
  · have := h.permits
    show s.free + s.phase.permits + phase.permits + s.tasks.length = maxConnections
    omega
  · rw [hopen]
    exact (List.nodup_append.mp h.nodup).2.1
  · rw [hopen]
    exact fun c hc => h.accepted c (List.mem_append_right _ hc)

/-- The socket goes from the loop to a task, or is closed. -/
theorem Bounded.give (h : Bounded maxConnections s) (hp : s.phase = .spawning client)
    (hclients : phase.clients = []) (hpermits : phase.permits = 0) :
    Bounded maxConnections (s.give client phase) := by
  have hsockets : s.sockets = client :: s.tasks := by
    rw [sockets, hp]
    rfl
  unfold AcceptLoop.give
  split_ifs with hclosed
  · have := h.release hclients hpermits
    rwa [hp] at this
  · have hopen : ({ s with phase := phase, tasks := client :: s.tasks } : AcceptLoop).sockets =
        s.sockets := by
      rw [hsockets]
      simp only [sockets, hclients, List.nil_append]
    constructor
    · have := h.permits
      rw [hp] at this
      show s.free + phase.permits + (s.tasks.length + 1) = maxConnections
      simp only [Accept.permits] at this
      omega
    · rw [hopen]
      exact h.nodup
    · rw [hopen]
      exact h.accepted

theorem Bounded.accept (h : Bounded maxConnections s) (hp : s.phase = .accepting) :
    Bounded maxConnections
      { s with phase := .acquiring s.accepted, accepted := s.accepted + 1 } := by
  have hsockets : s.sockets = s.tasks := by
    rw [sockets, hp]
    rfl
  have haccepted := h.accepted
  rw [hsockets] at haccepted
  constructor
  · have := h.permits
    rwa [hp] at this
  · refine List.nodup_cons.mpr ⟨fun hmem => ?_, hsockets ▸ h.nodup⟩
    exact Nat.lt_irrefl _ (haccepted _ hmem)
  · intro c hc
    rcases List.mem_cons.mp hc with rfl | hc
    · exact Nat.lt_succ_self _
    · exact Nat.lt_succ_of_lt (haccepted c hc)

theorem Bounded.finish (h : Bounded maxConnections s) (hc : client ∈ s.tasks) :
    Bounded maxConnections { s with tasks := s.tasks.erase client, free := s.free + 1 } := by
  have hsub : (s.phase.clients ++ s.tasks.erase client).Sublist s.sockets :=
    List.Sublist.append_left List.erase_sublist _
  constructor
  · have hlen := List.length_erase_of_mem hc
    have hpos := List.length_pos_of_mem hc
    have := h.permits
    show s.free + 1 + s.phase.permits + (s.tasks.erase client).length = maxConnections
    omega
  · exact h.nodup.sublist hsub
  · exact fun c hc => h.accepted c (hsub.subset hc)

theorem Bounded.step {a : Action} (h : Bounded maxConnections s)
    (hs : s.step backoff a = some s') : Bounded maxConnections s' := by
  have hleave : ∀ phase : Accept, phase.clients = [] → phase.permits = 0 → s.phase.permits = 0 →
      Bounded maxConnections { s with phase := phase } := by
    intro phase hclients hpermits hnone
    have := h.release hclients hpermits
    rwa [hnone] at this
  cases move_of_step hs with
  | accept hp => exact h.accept hp
  | acceptError hp =>
      have hnone : s.phase.permits = 0 := by
        rw [hp]
        rfl
      unfold fail
      split
      · exact ⟨h.permits, h.nodup, h.accepted⟩
      · obtain ⟨hpermits, hnodup, haccepted⟩ := hleave (.sleeping _) rfl rfl hnone
        exact ⟨hpermits, hnodup, haccepted⟩
  | @acquire client hp hfree =>
      constructor
      · have := h.permits
        rw [hp] at this
        show s.free - 1 + 1 + s.tasks.length = maxConnections
        simp only [Accept.permits] at this
        omega
      · have := h.nodup
        rwa [sockets, hp] at this
      · have := h.accepted
        rwa [sockets, hp] at this
  | spawn hp => exact h.give hp rfl rfl
  | wake hp hnow => exact hleave .accepting rfl rfl (by rw [hp]; rfl)
  | stop hp hc => exact hleave .stopped rfl rfl (Accept.permits_of_selects hp)
  | abortSpawn hp => exact h.give hp rfl rfl
  | abortDrop hp =>
      have hstopped : Bounded maxConnections
          { s with phase := .stopped, free := s.free + s.phase.permits } := h.release rfl rfl
      rwa [hp] at hstopped
  | abort sent hp => exact hleave .stopped rfl rfl hp
  | finish hc => exact h.finish hc
  | cancel | closeGroup | tick => exact ⟨h.permits, h.nodup, h.accepted⟩

theorem bounded_of_reachable (h : Transition.Reachable (system backoff maxConnections) s) :
    Bounded maxConnections s :=
  h.invariant (fun s hs => by rw [hs]; exact bounded_new) fun _ _ _ hb _ hs => hb.step hs

/-- Of the clients at most one has no task. -/
theorem Bounded.length_sockets_le (h : Bounded maxConnections s) :
    s.tasks.length ≤ maxConnections ∧ s.sockets.length ≤ maxConnections + 1 := by
  have hpermits := h.permits
  have hclients : s.phase.clients.length ≤ 1 := by
    cases s.phase <;> simp [Accept.clients]
  rw [sockets, List.length_append]
  omega

/-! ### The pauses after errors -/

section
variable {baseDelayMs maxDelayMs : UInt64}

/-- The delay after the error of this number. -/
def delay (baseDelayMs maxDelayMs : UInt64) (n : ℕ) : ℕ :=
  min (baseDelayMs.toNat * 2 ^ (n % 11)) maxDelayMs.toNat

/-- The loop is back from the pause of an error at `t`. -/
def Rested (pause t now : ℕ) : Accept → Prop
  | .sleeping deadline => deadline = t + pause
  | .stopped => True
  | .accepting | .acquiring _ | .spawning _ => t + pause ≤ now

theorem Rested.tick {pause t now : ℕ} (h : Rested pause t now phase) (ms : ℕ) :
    Rested pause t (now + ms) phase := by
  cases phase with
  | sleeping _ | stopped => exact h
  | accepting | acquiring _ | spawning _ => exact Nat.le_add_right_of_le h

structure Scheduled (baseDelayMs maxDelayMs : UInt64) (s : AcceptLoop) : Prop where
  counter : s.backoff = scheduled s.errors.length
  paced : Paced (delay baseDelayMs maxDelayMs) s.errors
  rested : ∀ t, s.errors.getLast? = some t →
    Rested (delay baseDelayMs maxDelayMs (s.errors.length - 1)) t s.now s.phase

theorem scheduled_new : Scheduled baseDelayMs maxDelayMs (new maxConnections) where
  counter := rfl
  paced := Paced.nil
  rested := by simp [new]

theorem Scheduled.fail (h : Scheduled baseDelayMs maxDelayMs s) (hp : s.phase = .accepting) :
    Scheduled baseDelayMs maxDelayMs (s.fail (some (baseDelayMs, maxDelayMs))) := by
  have hlt : s.errors.length % 11 ≤ 10 := Nat.le_of_lt_succ (Nat.mod_lt _ (by decide))
  have hdelay : (Backoff.exponentialBackoff (scheduled s.errors.length).counter baseDelayMs
      maxDelayMs).toNat = delay baseDelayMs maxDelayMs s.errors.length := by
    rw [Backoff.toNat_exponentialBackoff, Backoff.toNat_scheduled, Nat.min_eq_left hlt, delay]
  have hrested := h.rested
  rw [hp] at hrested
  simp only [AcceptLoop.fail, h.counter, Backoff.nextDelay_scheduled, hdelay]
  constructor
  · simp only [List.length_append, List.length_singleton]
  · exact h.paced.concat hrested
  · intro t ht
    have hnow : s.now = t := by simpa using ht
    simp only [List.length_append, List.length_singleton, Nat.add_sub_cancel, Rested, hnow]

theorem Scheduled.step {a : Action} (h : Scheduled baseDelayMs maxDelayMs s)
    (hs : s.step (some (baseDelayMs, maxDelayMs)) a = some s') :
    Scheduled baseDelayMs maxDelayMs s' := by
  obtain ⟨hcounter, hpaced, hrested⟩ := h
  cases move_of_step hs with
  | acceptError hp => exact Scheduled.fail ⟨hcounter, hpaced, hrested⟩ hp
  | accept hp | acquire hp _ =>
      rw [hp] at hrested
      exact ⟨hcounter, hpaced, hrested⟩
  | spawn hp =>
      rw [hp] at hrested
      unfold give
      split_ifs <;> exact ⟨hcounter, hpaced, hrested⟩
  | wake hp hnow =>
      rw [hp] at hrested
      refine ⟨hcounter, hpaced, fun t ht => ?_⟩
      rw [hrested t ht] at hnow
      exact hnow
  | stop | abort | abortDrop => exact ⟨hcounter, hpaced, fun _ _ => trivial⟩
  | abortSpawn =>
      unfold give
      split_ifs <;> exact ⟨hcounter, hpaced, fun _ _ => trivial⟩
  | finish hc => exact ⟨hcounter, hpaced, hrested⟩
  | cancel | closeGroup => exact ⟨hcounter, hpaced, hrested⟩
  | tick ms => exact ⟨hcounter, hpaced, fun t ht => (hrested t ht).tick ms⟩

theorem scheduled_of_reachable
    (h : Transition.Reachable (system (some (baseDelayMs, maxDelayMs)) maxConnections) s) :
    Scheduled baseDelayMs maxDelayMs s :=
  h.invariant (fun s hs => by rw [hs]; exact scheduled_new) fun _ _ _ hi _ hs => hi.step hs

end

theorem sum_delay (i : ℕ) : ∑ j ∈ Finset.range 11, delay 100 5000 (i + j) = 31300 := by
  have hround : ∀ r < 11, ∑ j ∈ Finset.range 11, delay 100 5000 (r + j) = 31300 := by decide
  have hmod : ∀ j, delay 100 5000 (i + j) = delay 100 5000 (i % 11 + j) := by
    intro j
    rw [delay, delay, Nat.mod_add_mod]
  simp only [hmod]
  exact hround _ (Nat.mod_lt i (by decide))

/-- **The accept loop** never owns more sockets than there are permits, and one, and logs at most
eleven errors in any 31.3 seconds. -/
theorem accept_exact (h : Transition.Reachable (system backoff maxConnections) s) :
    Bounded maxConnections s ∧ s.tasks.length ≤ maxConnections ∧
      s.sockets.length ≤ maxConnections + 1 ∧
      (backoff = DoTServer.acceptBackoff ∨ backoff = DoHServer.acceptBackoff → ∀ start,
        (s.errors.filter fun t => start ≤ t ∧ t < start + 31300).length ≤ 11) := by
  have hb := bounded_of_reachable h
  refine ⟨hb, hb.length_sockets_le.1, hb.length_sockets_le.2, fun hbackoff start => ?_⟩
  obtain rfl : backoff = some (100, 5000) := by tauto
  exact (scheduled_of_reachable h).paced.length_window_le (fun i => (sum_delay i).ge) start

/-- A client, and then two errors with the first pause between them. -/
def erringRun : List Action :=
  [.accept, .acquire, .spawn, .acceptError, .tick 100, .wake, .acceptError]

theorem accept_exact_erringRun :
    ∃ s, Transition.run (system DoTServer.acceptBackoff 1) (new 1) erringRun = some s ∧
      s.errors = [0, 100] ∧ s.phase = .sleeping 300 ∧ s.sockets.length ≤ 1 + 1 ∧
      (s.errors.filter fun t => 0 ≤ t ∧ t < 0 + 31300).length ≤ 11 := by
  obtain ⟨s, hrun, herrors, hphase⟩ : ∃ s,
      Transition.run (system DoTServer.acceptBackoff 1) (new 1) erringRun = some s ∧
        s.errors = [0, 100] ∧ s.phase = .sleeping 300 := ⟨_, rfl, rfl, rfl⟩
  obtain ⟨-, -, hsockets, hrate⟩ := accept_exact (.of_run erringRun rfl hrun)
  exact ⟨s, hrun, herrors, hphase, hsockets, hrate (.inl rfl) 0⟩

end AcceptLoop

end DnsIngress
