import DnsIngress.Error
import DnsIngress.Permits
import DnsIngress.Transition
import Mathlib.Data.List.AList
import Mathlib.Algebra.Order.Group.Multiset

/-! # The QUIC and HTTP/3 connection pools (`upstream/quic_pool.rs`)

`QuicConnectionPool` and `Http3ConnectionPool` are one algorithm over two key types; the second
has a set-up phase between the handshake and the cache.  The model is a transition system whose
atomic steps are the steps between two await points, or between two shared effects:

* **Calls of `get`** have an identity (their index) and a program counter.  A section under the
  entries lock is one step; the lock is never held across an await point.
* **Slots** are the `Arc<PoolSlot>`s: `Permits` counts their handles and returns a permit with
  the last one.  The locals of a call are dropped in the step in which it returns.
* **Leases** pair a connection with a slot.  They are cached, lent to a caller of `get`, or held
  by a call that evicted them; a borrower may clone and drop its leases at any time.
* **Connections** are named by their index in `connections`, which records the key and the slot
  each was established with.  A connection may die at any time, and stays dead.

`HashMap` has no order, so which of several least recently used idle entries is evicted is left
to the action. -/

namespace DnsIngress.QuicPool

/-- What distinguishes the two pools. -/
structure Kind (κ : Type) where
  hostname : κ → Bytes
  port : κ → UInt16
  protocol : Bytes
  /-- `h3::client::new` follows the QUIC handshake -/
  setup : Bool

inductive QuicApplication
  | doq | h3
deriving DecidableEq

/-- `QuicKey` and `QuicConnectionPool`. -/
def quicConnectionPool : Kind (QuicApplication × Bytes × UInt16) where
  hostname := (·.2.1)
  port := (·.2.2)
  protocol := utf8 "QUIC"
  setup := false

/-- `H3Key` and `Http3ConnectionPool`. -/
def http3ConnectionPool : Kind (Bytes × UInt16) where
  hostname := (·.1)
  port := (·.2)
  protocol := utf8 "HTTP/3"
  setup := true

/-- `QuicConnectionLease` and `Http3SessionLease`. -/
structure Lease where
  connection : ℕ
  slot : ℕ
deriving DecidableEq

structure CachedLease where
  lease : Lease
  lastUsed : ℕ
deriving DecidableEq

/-- Program counter of a call of `get`. -/
inductive Pc
  /-- awaiting the entries lock for the first time -/
  | lookup
  /-- before the first `try_acquire_owned` of `acquire_slot` -/
  | acquire
  /-- awaiting the entries lock in `acquire_slot` -/
  | evict
  /-- before `drop(evicted)` -/
  | dropEvicted (evicted : Option Lease)
  /-- before the second `try_acquire_owned` -/
  | retry
  /-- awaiting the entries lock with a slot -/
  | recheck (slot : ℕ)
  /-- awaiting `lookup_host` -/
  | resolve (slot : ℕ)
  /-- awaiting `connect_quic_upstream` -/
  | connect (slot : ℕ)
  /-- awaiting `h3::client::new` -/
  | setup (slot connection : ℕ)
  /-- awaiting the entries lock with a connection -/
  | insert (slot connection : ℕ)
  | returned (lease : Lease)
  | failed (error : DnsProxyError)
  | cancelled
deriving DecidableEq

/-- The slot in the local `slot` of `get`. -/
def Pc.slot? : Pc → Option ℕ
  | recheck n | resolve n | connect n | setup n _ | insert n _ => some n
  | lookup | acquire | evict | dropEvicted _ | retry | returned _ | failed _ | cancelled => none

/-- The lease in the local `evicted` of `acquire_slot`. -/
def Pc.evicted? : Pc → Option Lease
  | dropEvicted l => l
  | lookup | acquire | evict | retry | recheck _ | resolve _ | connect _ | setup _ _ | insert _ _
  | returned _ | failed _ | cancelled => none

/-- The call is suspended at an await point. -/
def Pc.awaits : Pc → Bool
  | lookup | evict | recheck _ | resolve _ | connect _ | setup _ _ | insert _ _ => true
  | acquire | dropEvicted _ | retry | returned _ | failed _ | cancelled => false

structure Get (κ : Type) where
  key : κ
  pc : Pc

abbrev Cache (κ : Type) := AList fun _ : κ => CachedLease

/-- `HashMap::retain`. -/
def Cache.retain {κ : Type} (p : CachedLease → Bool) (c : Cache κ) : Cache κ where
  entries := c.entries.filter fun e => p e.2
  nodupKeys := c.nodupKeys.sublist List.filter_sublist

structure Pool (max : ℕ) (κ : Type) where
  now : ℕ
  /-- the semaphore `slots` and the slots made of its permits -/
  permits : Permits max
  entries : Cache κ
  gets : List (Get κ)
  /-- the leases held by callers of `get` -/
  borrowed : List Lease
  /-- the key and the slot of every connection established so far -/
  connections : List (κ × ℕ)
  closed : ℕ → Bool

inductive Action (κ : Type)
  | tick
  | get (k : κ)
  | lookup (i : ℕ)
  | tryAcquire (i : ℕ)
  | evict (i : ℕ) (victim : Option κ)
  | dropEvicted (i : ℕ)
  | recheck (i : ℕ)
  /-- `lookup_host`, with the reason if it fails -/
  | resolve (i : ℕ) (failure : Option Bytes)
  | connect (i : ℕ) (failure : Option Bytes)
  | setup (i : ℕ) (failure : Option Bytes)
  | insert (i : ℕ)
  /-- the future of the call is dropped at an await point -/
  | cancel (i : ℕ)
  | cloneLease (l : Lease)
  | dropLease (l : Lease)
  /-- the connection closes, or the driver of the session ends -/
  | die (connection : ℕ)
  | invalidate (k : κ)

namespace Pool

variable {max : ℕ} {κ : Type} [DecidableEq κ]

/-- `with_root_store(max_entries, ..)`. -/
def new (max : ℕ) (κ : Type) : Pool max κ where
  now := 0
  permits := .new max
  entries := ∅
  gets := []
  borrowed := []
  connections := []
  closed := fun _ => false

variable (kind : Kind κ) (s : Pool max κ)

/-- `close_reason().is_none()`, or `is_alive()`. -/
def isAlive (c : CachedLease) : Bool := !s.closed c.lease.connection

/-- `is_idle()`: the cache holds the only handle of the slot. -/
def isIdle (c : CachedLease) : Bool := s.permits.strong c.lease.slot == 1

/-- `entries.get_mut(&key)` with a live connection. -/
def cached (k : κ) : Option CachedLease := (s.entries.lookup k).filter s.isAlive

def setPc (i : ℕ) (k : κ) (pc : Pc) : Pool max κ := { s with gets := s.gets.set i ⟨k, pc⟩ }

/-- Drop a lease, or the slot of a call. -/
def dropSlot (n : ℕ) : Pool max κ := { s with permits := s.permits.drop n }

/-- `entry.last_used = Instant::now()` and `entry.lease.clone()`. -/
def touch (i : ℕ) (k : κ) (c : CachedLease) : Pool max κ :=
  { s with
    permits := s.permits.clone c.lease.slot
    entries := s.entries.insert k { c with lastUsed := s.now }
    gets := s.gets.set i ⟨k, .returned c.lease⟩
    borrowed := c.lease :: s.borrowed }

/-- `entries.remove(&key)`, with the removed lease dropped. -/
def remove (k : κ) : Pool max κ :=
  { s with
    permits := s.permits.dropAll ((s.entries.lookup k).map (·.lease.slot)).toList
    entries := s.entries.erase k }

/-- `entries.retain(..)` on the live entries, with the removed leases dropped. -/
def sweep : Pool max κ :=
  { s with
    permits := s.permits.dropAll
      ((s.entries.entries.filter fun e => !s.isAlive e.2).map (·.2.lease.slot))
    entries := s.entries.retain s.isAlive }

/-- The choices of `filter(is_idle).min_by_key(last_used)`. -/
def IsVictim (victim : Option κ) : Prop :=
  let idle := s.entries.entries.filter fun e => s.isIdle e.2
  match victim with
  | none => idle = []
  | some k => ∃ e ∈ idle, e.1 = k ∧ ∀ e' ∈ idle, e.2.lastUsed ≤ e'.2.lastUsed

instance (victim : Option κ) : Decidable (s.IsVictim victim) := by
  unfold IsVictim
  cases victim <;> infer_instance

/-- A call that fails drops its slot. -/
def fail (i : ℕ) (k : κ) (slot : ℕ) (e : DnsProxyError) : Pool max κ :=
  (s.setPc i k (.failed e)).dropSlot slot

/-- The section of `acquire_slot`. -/
def evict (i : ℕ) (k : κ) (victim : Option κ) : Option (Pool max κ) :=
  let s := s.sweep
  if s.IsVictim victim then
    some { s.setPc i k (.dropEvicted ((victim.bind s.entries.lookup).map (·.lease))) with
      entries := victim.elim s.entries s.entries.erase }
  else none

/-- The last section of `get`. -/
def insert (i : ℕ) (k : κ) (slot connection : ℕ) : Pool max κ :=
  match s.cached k with
  -- another call was faster: its lease is returned, and the slot and the connection are dropped
  | some c => (s.touch i k c).dropSlot slot
  | none =>
      let lease : Lease := ⟨connection, slot⟩
      { s with
        permits := (s.permits.clone slot).dropAll
          ((s.entries.lookup k).map (·.lease.slot)).toList
        entries := s.entries.insert k ⟨lease, s.now⟩
        gets := s.gets.set i ⟨k, .returned lease⟩
        borrowed := lease :: s.borrowed }

def step : Action κ → Option (Pool max κ)
  | .tick => some { s with now := s.now + 1 }
  | .get k => some { s with gets := s.gets ++ [⟨k, .lookup⟩] }
  | .lookup i =>
      match s.gets[i]? with
      | some ⟨k, .lookup⟩ =>
          match s.cached k with
          | some c => some (s.touch i k c)
          | none => some ((s.remove k).setPc i k .acquire)
      | _ => none
  | .tryAcquire i =>
      match s.gets[i]? with
      | some ⟨k, .acquire⟩ =>
          match s.permits.tryAcquire with
          | some (slot, p) => some { s.setPc i k (.recheck slot) with permits := p }
          | none => some (s.setPc i k .evict)
      | some ⟨k, .retry⟩ =>
          match s.permits.tryAcquire with
          | some (slot, p) => some { s.setPc i k (.recheck slot) with permits := p }
          | none =>
              some (s.setPc i k
                (.failed (overloaded (kind.hostname k) (kind.port k) kind.protocol)))
      | _ => none
  | .evict i victim =>
      match s.gets[i]? with
      | some ⟨k, .evict⟩ => s.evict i k victim
      | _ => none
  | .dropEvicted i =>
      match s.gets[i]? with
      | some ⟨k, .dropEvicted none⟩ => some (s.setPc i k .retry)
      | some ⟨k, .dropEvicted (some l)⟩ => some ((s.setPc i k .retry).dropSlot l.slot)
      | _ => none
  | .recheck i =>
      match s.gets[i]? with
      | some ⟨k, .recheck slot⟩ =>
          match s.cached k with
          | some c => some ((s.touch i k c).dropSlot slot)
          | none => some (s.setPc i k (.resolve slot))
      | _ => none
  | .resolve i failure =>
      match s.gets[i]? with
      | some ⟨k, .resolve slot⟩ =>
          match failure with
          | none => some (s.setPc i k (.connect slot))
          | some reason =>
              some (s.fail i k slot (upstreamError (kind.hostname k) (kind.port k) reason))
      | _ => none
  | .connect i failure =>
      match s.gets[i]? with
      | some ⟨k, .connect slot⟩ =>
          match failure with
          | none =>
              let c := s.connections.length
              some { s.setPc i k (if kind.setup then .setup slot c else .insert slot c) with
                connections := s.connections ++ [(k, slot)] }
          | some reason =>
              some (s.fail i k slot (upstreamError (kind.hostname k) (kind.port k) reason))
      | _ => none
  | .setup i failure =>
      match s.gets[i]? with
      | some ⟨k, .setup slot c⟩ =>
          match failure with
          | none => some (s.setPc i k (.insert slot c))
          | some reason =>
              some (s.fail i k slot (.protocol (utf8 "HTTP/3 client setup failed: " ++ reason)))
      | _ => none
  | .insert i =>
      match s.gets[i]? with
      | some ⟨k, .insert slot c⟩ => some (s.insert i k slot c)
      | _ => none
  | .cancel i =>
      match s.gets[i]? with
      | some ⟨k, pc⟩ =>
          if pc.awaits then
            some { s.setPc i k .cancelled with permits := s.permits.dropAll pc.slot?.toList }
          else none
      | none => none
  | .cloneLease l =>
      if l ∈ s.borrowed then
        some { s with permits := s.permits.clone l.slot, borrowed := l :: s.borrowed }
      else none
  | .dropLease l =>
      if l ∈ s.borrowed then
        some { s with permits := s.permits.drop l.slot, borrowed := s.borrowed.erase l }
      else none
  | .die c =>
      if c < s.connections.length then some { s with closed := Function.update s.closed c true }
      else none
  | .invalidate k => some (s.remove k)

/-! ### What a step can do -/

/-- The new entry of the key. -/
def publish (i : ℕ) (k : κ) (lease : Lease) : Pool max κ :=
  { s with
    permits := (s.permits.clone lease.slot).dropAll
      ((s.entries.lookup k).map (·.lease.slot)).toList
    entries := s.entries.insert k ⟨lease, s.now⟩
    gets := s.gets.set i ⟨k, .returned lease⟩
    borrowed := lease :: s.borrowed }

/-- The victim, if any, is in the hands of the call. -/
def evictTo (i : ℕ) (k : κ) (victim : Option κ) : Pool max κ :=
  { s.sweep.setPc i k (.dropEvicted ((victim.bind s.sweep.entries.lookup).map (·.lease))) with
    entries := victim.elim s.sweep.entries s.sweep.entries.erase }

/-- Steps that change the program counter of one call and nothing else. -/
inductive Advance : Action κ → κ → Pc → Pc → Prop
  | evict {i k} : s.permits.tryAcquire = none → Advance (.tryAcquire i) k .acquire .evict
  | refuse {i k} : s.permits.tryAcquire = none → Advance (.tryAcquire i) k .retry
      (.failed (overloaded (kind.hostname k) (kind.port k) kind.protocol))
  | retry {i k} : Advance (.dropEvicted i) k (.dropEvicted none) .retry
  | resolve {i k n} : s.cached k = none → Advance (.recheck i) k (.recheck n) (.resolve n)
  | connect {i k n} : Advance (.resolve i none) k (.resolve n) (.connect n)
  | insert {i k n c} : Advance (.setup i none) k (.setup n c) (.insert n c)

/-- The cases of `step`. -/
inductive Move : Action κ → Pool max κ → Prop
  | tick : Move .tick { s with now := s.now + 1 }
  | get {k} : Move (.get k) { s with gets := s.gets ++ [⟨k, .lookup⟩] }
  | advance {a i k pc pc'} : s.gets[i]? = some ⟨k, pc⟩ → Advance kind s a k pc pc' →
      Move a (s.setPc i k pc')
  /-- the first lookup finds a live entry -/
  | found {i k c} : s.gets[i]? = some ⟨k, .lookup⟩ → s.cached k = some c →
      Move (.lookup i) (s.touch i k c)
  | missed {i k} : s.gets[i]? = some ⟨k, .lookup⟩ → s.cached k = none →
      Move (.lookup i) ((s.remove k).setPc i k .acquire)
  | acquired {i k pc n p} : s.gets[i]? = some ⟨k, pc⟩ → pc = .acquire ∨ pc = .retry →
      s.permits.tryAcquire = some (n, p) →
      Move (.tryAcquire i) { s.setPc i k (.recheck n) with permits := p }
  | evicted {i k victim} : s.gets[i]? = some ⟨k, .evict⟩ → s.sweep.IsVictim victim →
      Move (.evict i victim) (s.evictTo i k victim)
  | dropped {i k l} : s.gets[i]? = some ⟨k, .dropEvicted (some l)⟩ →
      Move (.dropEvicted i) ((s.setPc i k .retry).dropSlot l.slot)
  /-- a call with a slot finds a live entry, and gives its slot back -/
  | foundLate {a i k pc n c} : s.gets[i]? = some ⟨k, pc⟩ →
      (a = .recheck i ∧ pc = .recheck n) ∨ (∃ d, a = .insert i ∧ pc = .insert n d) →
      s.cached k = some c → Move a ((s.touch i k c).dropSlot n)
  | connected {i k n} : s.gets[i]? = some ⟨k, .connect n⟩ →
      Move (.connect i none)
        { s.setPc i k (if kind.setup then .setup n s.connections.length
            else .insert n s.connections.length) with
          connections := s.connections ++ [(k, n)] }
  | failed {a i k pc n r e} : s.gets[i]? = some ⟨k, pc⟩ → pc.slot? = some n → pc.evicted? = none →
      a = .resolve i (some r) ∨ a = .connect i (some r) ∨ a = .setup i (some r) →
      (∀ upstream protocol, e ≠ .overloaded upstream protocol) → Move a (s.fail i k n e)
  | published {i k n d} : s.gets[i]? = some ⟨k, .insert n d⟩ → s.cached k = none →
      Move (.insert i) (s.publish i k ⟨d, n⟩)
  | cancelled {i k pc} : s.gets[i]? = some ⟨k, pc⟩ → pc.awaits = true →
      Move (.cancel i)
        { s.setPc i k .cancelled with permits := s.permits.dropAll pc.slot?.toList }
  | cloned {l} : l ∈ s.borrowed →
      Move (.cloneLease l) { s with permits := s.permits.clone l.slot, borrowed := l :: s.borrowed }
  | returned {l} : l ∈ s.borrowed →
      Move (.dropLease l)
        { s with permits := s.permits.drop l.slot, borrowed := s.borrowed.erase l }
  | died {c} : c < s.connections.length →
      Move (.die c) { s with closed := Function.update s.closed c true }
  | invalidated {k} : Move (.invalidate k) (s.remove k)

variable {kind s} {s' : Pool max κ} {a : Action κ}

/-- **Every step is one of these.** -/
theorem move_of_step (h : s.step kind a = some s') : Move kind s a s' := by
  cases a with
  | tick => cases h; exact .tick
  | get k => cases h; exact .get
  | lookup i =>
      simp only [step] at h
      split at h
      · next k hg =>
          split at h <;> cases h
          · next c hc => exact .found hg hc
          · next hc => exact .missed hg hc
      · cases h
  | tryAcquire i =>
      simp only [step] at h
      split at h
      · next k hg =>
          split at h <;> cases h
          · next n p hp => exact .acquired hg (.inl rfl) hp
          · next hp => exact .advance hg (.evict hp)
      · next k hg =>
          split at h <;> cases h
          · next n p hp => exact .acquired hg (.inr rfl) hp
          · next hp => exact .advance hg (.refuse hp)
      · cases h
  | evict i victim =>
      simp only [step] at h
      split at h
      · next k hg =>
          simp only [evict] at h
          split_ifs at h with hv
          cases h
          exact .evicted hg hv
      · cases h
  | dropEvicted i =>
      simp only [step] at h
      split at h <;> cases h
      · next k hg => exact .advance hg .retry
      · next k l hg => exact .dropped hg
  | recheck i =>
      simp only [step] at h
      split at h
      · next k n hg =>
          split at h <;> cases h
          · next c hc => exact .foundLate hg (.inl ⟨rfl, rfl⟩) hc
          · next hc => exact .advance hg (.resolve hc)
      · cases h
  | resolve i failure =>
      simp only [step] at h
      split at h
      · next k n hg =>
          split at h <;> cases h
          · exact .advance hg .connect
          · exact .failed hg rfl rfl (.inl rfl) nofun
      · cases h
  | connect i failure =>
      simp only [step] at h
      split at h
      · next k n hg =>
          split at h <;> cases h
          · exact .connected hg
          · exact .failed hg rfl rfl (.inr (.inl rfl)) nofun
      · cases h
  | setup i failure =>
      simp only [step] at h
      split at h
      · next k n d hg =>
          split at h <;> cases h
          · exact .advance hg .insert
          · exact .failed hg rfl rfl (.inr (.inr rfl)) nofun
      · cases h
  | insert i =>
      simp only [step] at h
      split at h
      · next k n d hg =>
          cases h
          unfold Pool.insert
          split
          · next c hc => exact .foundLate hg (.inr ⟨d, rfl, rfl⟩) hc
          · next hc => exact .published hg hc
      · cases h
  | cancel i =>
      simp only [step] at h
      split at h
      · next k pc hg =>
          split_ifs at h with haw
          cases h
          exact .cancelled hg haw
      · cases h
  | cloneLease l =>
      simp only [step] at h
      split_ifs at h with hl
      cases h
      exact .cloned hl
  | dropLease l =>
      simp only [step] at h
      split_ifs at h with hl
      cases h
      exact .returned hl
  | die c =>
      simp only [step] at h
      split_ifs at h with hc
      cases h
      exact .died hc
  | invalidate k => cases h; exact .invalidated

end Pool

/-- One pool, any number of calls of `get` and `invalidate` and any number of borrowers. -/
def system {κ : Type} [DecidableEq κ] (kind : Kind κ) (max : ℕ) :
    Transition.System (Pool max κ) (Action κ) where
  init s := s = .new max κ
  step s a := s.step kind a

end DnsIngress.QuicPool
