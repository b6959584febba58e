import DnsIngress.Permits
import DnsIngress.Transition
import Mathlib.Algebra.Order.BigOperators.Group.Finset

/-! # The limits of the DoQ and DoH3 listeners

`DoQServer` and `DoH3Server` run the same two loops.  The accept loop takes a connection, waits
for a permit of `connection_limit`, and spawns a connection task that owns the permit.  The
connection task takes a request stream, waits for a permit of its own `stream_limit`, and spawns
a request task that owns this permit.  Both are spawned into the task group of the listener, so
a request task outlives its connection task: it ends when its transaction does.

A connection is named by the slot of `connection_limit` that its task owns.  A request task is
an element of `requests`, the connection it came from. -/

namespace DnsIngress.ListenerLimits

open Function (update)

/-- Program counter of the accept loop of `run`. -/
inductive AcceptLoop
  /-- awaiting `endpoint.accept()` -/
  | accepting
  /-- awaiting a permit of `connection_limit` -/
  | acquiring
  | stopped
deriving DecidableEq

/-- Program counter of a connection task. -/
inductive Connection
  | handshaking
  /-- awaiting a request stream -/
  | serving
  /-- awaiting a permit of `stream_limit` -/
  | acquiring
  | ended
deriving DecidableEq

structure Listener (maxConnections : ℕ) where
  /-- `connection_limit`, with the permits that connection tasks own -/
  limit : Permits maxConnections
  accept : AcceptLoop
  connection : ℕ → Connection
  /-- the free permits of the `stream_limit` of each connection -/
  streams : ℕ → ℕ
  /-- the running request tasks -/
  requests : List ℕ
  cancelled : Bool
  /-- the task group is closed: it drops the futures it is given -/
  closed : Bool

inductive Action
  | accept
  | acquirePermit
  /-- the accept loop ends: the token is cancelled, or `endpoint.accept()` is `None` -/
  | stop (endpointClosed : Bool)
  | cancel
  | closeGroup
  | handshake (c : ℕ)
  | acceptStream (c : ℕ)
  | acquireStream (c : ℕ)
  /-- the connection task ends: its handshake fails, the client closes the connection, or the
  listener shuts down -/
  | endConnection (c : ℕ)
  /-- a request task of connection `c` finishes, fails or is dropped -/
  | finish (c : ℕ)

namespace Listener

variable {maxConnections : ℕ}

def new (maxConnections maxInflight : ℕ) : Listener maxConnections where
  limit := .new maxConnections
  accept := .accepting
  connection := fun _ => .ended
  streams := fun _ => maxInflight
  requests := []
  cancelled := false
  closed := false

variable (s : Listener maxConnections)

/-- The permit of `connection_limit`, and the spawn of the connection task that takes it. -/
def acquirePermit : Option (Listener maxConnections) :=
  match s.accept, s.limit.tryAcquire with
  | .acquiring, some (c, limit) =>
      if s.closed then some { s with limit := limit.drop c, accept := .accepting }
      else some { s with
        limit := limit
        accept := .accepting
        connection := update s.connection c .handshaking }
  | _, _ => none

/-- The permit of `stream_limit`, and the spawn of the request task that takes it. -/
def acquireStream (c : ℕ) : Option (Listener maxConnections) :=
  if s.connection c = .acquiring ∧ 0 < s.streams c then
    if s.closed then some { s with connection := update s.connection c .serving }
    else some { s with
      connection := update s.connection c .serving
      streams := update s.streams c (s.streams c - 1)
      requests := c :: s.requests }
  else none

/-- The connection task is in a state it can leave. -/
def mayEnd (c : ℕ) : Bool :=
  match s.connection c with
  | .handshaking | .serving => true
  | .acquiring => s.cancelled || s.closed
  | .ended => false

def step : Action → Option (Listener maxConnections)
  | .accept => if s.accept = .accepting then some { s with accept := .acquiring } else none
  | .acquirePermit => s.acquirePermit
  | .stop endpointClosed =>
      if s.cancelled || (s.accept = .accepting && endpointClosed) then
        some { s with accept := .stopped }
      else none
  | .cancel => some { s with cancelled := true }
  | .closeGroup => some { s with closed := true }
  | .handshake c =>
      if s.connection c = .handshaking then
        some { s with connection := update s.connection c .serving }
      else none
  | .acceptStream c =>
      if s.connection c = .serving then
        some { s with connection := update s.connection c .acquiring }
      else none
  | .acquireStream c => s.acquireStream c
  | .endConnection c =>
      if s.mayEnd c then
        some { s with connection := update s.connection c .ended, limit := s.limit.drop c }
      else none
  | .finish c =>
      if c ∈ s.requests then
        some { s with
          requests := s.requests.erase c
          streams := update s.streams c (s.streams c + 1) }
      else none

/-- The connections that are open or still have a running request task. -/
def busy : Finset ℕ := s.limit.live ∪ s.requests.toFinset

end Listener

variable {maxConnections maxInflight : ℕ}

def system (maxConnections maxInflight : ℕ) :
    Transition.System (Listener maxConnections) Action where
  init s := s = .new maxConnections maxInflight
  step := Listener.step

/-- A connection is admitted only while fewer than `maxConnections` are busy. -/
def Admits (s : Listener maxConnections) : Action → Prop
  | .acquirePermit => s.busy.card < maxConnections
  | _ => True

/-! ### The invariant -/

structure Inv (maxInflight : ℕ) (s : Listener maxConnections) : Prop where
  /-- a stream permit is free or owned by a running request task -/
  streams : ∀ c, s.streams c + s.requests.count c = maxInflight
  live : ∀ c, s.connection c ≠ .ended → c ∈ s.limit.live
  busy : s.busy.card ≤ maxConnections

namespace Inv

variable {s s' : Listener maxConnections} {c : ℕ}

theorem new : Inv maxInflight (.new maxConnections maxInflight) where
  streams _ := by simp [Listener.new]
  live _ h := absurd rfl h
  busy := by
    have : (Permits.new maxConnections).live = ∅ := by
      ext n; simp [Permits.new]
    simp [Listener.busy, Listener.new, this]

theorem setConnection (hi : Inv maxInflight s) (hc : s.connection c ≠ .ended) (pc : Connection) :
    Inv maxInflight { s with connection := update s.connection c pc } := by
  refine ⟨hi.streams, fun d hd => ?_, hi.busy⟩
  by_cases he : d = c
  · exact hi.live d (he ▸ hc)
  · exact hi.live d (by simpa [he] using hd)

theorem live_drop {p : Permits maxConnections} {d : ℕ} (hd : d ≠ c) :
    d ∈ (p.drop c).live ↔ d ∈ p.live := by
  rw [Permits.mem_live, Permits.mem_live, Permits.strong_drop, if_neg hd, Nat.sub_zero]

theorem endConnection (hi : Inv maxInflight s) :
    Inv maxInflight { s with connection := update s.connection c .ended,
                             limit := s.limit.drop c } := by
  refine ⟨hi.streams, fun d hd => ?_, ?_⟩
  · have hne : d ≠ c := by
      rintro rfl
      simp at hd
    rw [live_drop hne]
    exact hi.live d (by simpa [hne] using hd)
  · refine (Finset.card_le_card ?_).trans hi.busy
    exact Finset.union_subset_union_left Permits.live_drop_subset

theorem acquirePermit (hi : Inv maxInflight s) (hok : s.busy.card < maxConnections)
    (h : s.acquirePermit = some s') : Inv maxInflight s' := by
  unfold Listener.acquirePermit at h
  split at h
  · next c limit _ hl =>
      obtain ⟨hc, -, hs⟩ := Permits.tryAcquire_eq_some hl
      have hlive : ∀ d, d ∈ limit.live ↔ d = c ∨ d ∈ s.limit.live := fun d => by
        rw [Permits.mem_live, Permits.mem_live, hs, hc, Function.update_apply]
        split_ifs with he <;> simp [he]
      split_ifs at h
      · cases h
        have hnew : c ∉ s.limit.live := by simp [hc, s.limit.fresh _ le_rfl]
        refine ⟨hi.streams, fun d hd => ?_, ?_⟩
        · have hm := hi.live d hd
          have hne : d ≠ c := fun he => hnew (he ▸ hm)
          exact (live_drop hne).mpr ((hlive d).mpr (.inr hm))
        · refine (Finset.card_le_card ?_).trans hi.busy
          refine Finset.union_subset_union_left fun d hd => ?_
          have hne : d ≠ c := by
            rintro rfl
            rw [Permits.mem_live, Permits.strong_drop, hs, hc, Function.update_self] at hd
            simp at hd
          exact ((hlive d).mp ((live_drop hne).mp hd)).resolve_left hne
      · cases h
        refine ⟨hi.streams, fun d hd => (hlive d).mpr ?_, ?_⟩
        · by_cases he : d = c
          · exact .inl he
          · exact .inr (hi.live d (by simpa [he] using hd))
        · have hb : limit.live ∪ s.requests.toFinset ⊆ insert c s.busy := by
            intro d hd
            rw [Finset.mem_union, hlive d] at hd
            rw [Finset.mem_insert, Listener.busy, Finset.mem_union]
            tauto
          have := Finset.card_le_card hb
          have := Finset.card_insert_le c s.busy
          exact (Finset.card_le_card hb).trans (by omega)
  · cases h

theorem acquireStream (hi : Inv maxInflight s) (h : s.acquireStream c = some s') :
    Inv maxInflight s' := by
  unfold Listener.acquireStream at h
  split_ifs at h with hc
  · cases h
    exact hi.setConnection (by rw [hc.1]; nofun) _
  · cases h
    have hi' := hi.setConnection (c := c) (by rw [hc.1]; nofun) .serving
    refine ⟨fun d => ?_, hi'.live, ?_⟩
    · have hd := hi.streams d
      simp only [Function.update_apply, List.count_cons]
      by_cases he : d = c
      · subst he; simp; omega
      · simp [he, Ne.symm he]; exact hd
    · -- the connection is open, so it was busy already
      have hm : c ∈ s.busy := Finset.mem_union_left _ (hi.live c (by rw [hc.1]; nofun))
      have hb : s.limit.live ∪ (c :: s.requests).toFinset = s.busy := by
        rw [List.toFinset_cons, Finset.union_insert]
        exact Finset.insert_eq_of_mem hm
      rw [Listener.busy, hb]
      exact hi.busy

theorem finish (hi : Inv maxInflight s) (hc : c ∈ s.requests) :
    Inv maxInflight { s with requests := s.requests.erase c,
                             streams := update s.streams c (s.streams c + 1) } := by
  refine ⟨fun d => ?_, hi.live, ?_⟩
  · have hd := hi.streams d
    simp only [Function.update_apply]
    by_cases he : d = c
    · subst he
      have := List.count_pos_iff.mpr hc
      rw [if_pos rfl, List.count_erase_self]
      omega
    · rw [if_neg he, List.count_erase_of_ne he]
      exact hd
  · refine (Finset.card_le_card ?_).trans hi.busy
    refine Finset.union_subset_union_right fun d hd => ?_
    rw [List.mem_toFinset] at hd ⊢
    exact List.mem_of_mem_erase hd

/-- **Step lemma.** -/
theorem step {a : Action} (hi : Inv maxInflight s) (hok : Admits s a) (h : s.step a = some s') :
    Inv maxInflight s' := by
  cases a with
  | acquirePermit => exact hi.acquirePermit hok h
  | acquireStream c => exact hi.acquireStream h
  | cancel | closeGroup =>
      cases h
      exact ⟨hi.streams, hi.live, hi.busy⟩
  | accept | stop =>
      simp only [Listener.step] at h
      split_ifs at h
      cases h
      exact ⟨hi.streams, hi.live, hi.busy⟩
  | handshake c | acceptStream c =>
      simp only [Listener.step] at h
      split_ifs at h with hc
      cases h
      exact hi.setConnection (by rw [hc]; nofun) _
  | endConnection c =>
      simp only [Listener.step] at h
      split_ifs at h
      cases h
      exact hi.endConnection
  | finish c =>
      simp only [Listener.step] at h
      split_ifs at h with hc
      cases h
      exact hi.finish hc

/-- **Run lemma.** -/
theorem of_reachWhile (h : Transition.ReachWhile (system maxConnections maxInflight) Admits s) :
    Inv maxInflight s := by
  refine h.invariant ?_ ?_
  · rintro s rfl
    exact .new
  · intro s a s' hi hok hs
    exact hi.step hok hs

end Inv

/-- The request tasks of the listener are within its limits. -/
def Bounded (maxInflight : ℕ) (s : Listener maxConnections) : Prop :=
  s.requests.length ≤ maxConnections * maxInflight

/-- **The limits bound the work in flight** as long as no connection is admitted while
`maxConnections` others are open or still have a running request. -/
theorem bounded_of_admits {s : Listener maxConnections}
    (h : Transition.ReachWhile (system maxConnections maxInflight) Admits s) :
    Bounded maxInflight s := by
  have hi := Inv.of_reachWhile h
  have hsub : s.requests.toFinset ⊆ s.busy := Finset.subset_union_right
  calc s.requests.length
      = ∑ c ∈ s.requests.toFinset, s.requests.count c := (List.sum_toFinset_count_eq_length _).symm
    _ ≤ s.requests.toFinset.card * maxInflight := by
        refine Finset.sum_le_card_nsmul _ _ _ fun c _ => ?_
        have := hi.streams c
        omega
    _ ≤ maxConnections * maxInflight :=
        Nat.mul_le_mul_right _ ((Finset.card_le_card hsub).trans hi.busy)

/-! ### Runs of a listener for one connection with one request -/

/-- Connection `c` is admitted and starts a request. -/
def serve (c : ℕ) : List Action :=
  [.accept, .acquirePermit, .handshake c, .acceptStream c, .acquireStream c]

instance (s : Listener maxConnections) (a : Action) : Decidable (Admits s a) := by
  unfold Admits
  cases a <;> infer_instance

/-- The request of connection `0` finishes before connection `1` is admitted. -/
def oneByOne : List Action := serve 0 ++ [.finish 0, .endConnection 0] ++ serve 1

theorem bounded_of_admits_oneByOne :
    ∃ s, Transition.run (system 1 1) (.new 1 1) oneByOne = some s ∧ s.requests = [1] ∧
      Bounded 1 s := by
  refine ⟨_, rfl, rfl, bounded_of_admits ?_⟩
  exact .of_run (fun s a => decide (Admits s a)) (fun _ _ h => of_decide_eq_true h)
    oneByOne (.init rfl) rfl

/-- The client closes connection `0` while its request is in flight. -/
def closesEarly : List Action := serve 0 ++ [.endConnection 0] ++ serve 1

theorem not_bounded :
    ¬ ∀ s, Transition.Reachable (system 1 1) s → Bounded 1 s := by
  intro h
  have hr : ∃ s, Transition.run (system 1 1) (.new 1 1) closesEarly = some s ∧
      s.requests = [1, 0] := ⟨_, rfl, rfl⟩
  obtain ⟨s, hs, hreq⟩ := hr
  have hb := h s (.of_run closesEarly rfl hs)
  rw [Bounded, hreq] at hb
  exact absurd hb (by decide)

end DnsIngress.ListenerLimits
