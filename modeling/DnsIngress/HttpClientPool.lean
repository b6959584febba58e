import DnsIngress.Error
import DnsIngress.ShardedMap

/-! # The HTTP client cache (`upstream/pool.rs`)

`ConnectionPool::get_client` on a call that runs alone, with the shard locks it takes.  In Rust
edition 2024 the temporaries of an `if let` scrutinee live to the end of the block: while the
evicted key is removed, the iterator it was found with still holds the lock of its shard. -/

namespace DnsIngress.HttpClientPool

variable {n : ℕ} {α : Type}

/-- `clients` and `max_clients`; a client is opaque. -/
structure ConnectionPool (n : ℕ) (α : Type) where
  clients : ShardedMap n Bytes α
  maxClients : ℕ

/-- The eviction of an arbitrary entry. -/
def evict (s : Session n Bytes α) : Except (SelfBlocked n) (Session n Bytes α) := do
  let (first, s) ← s.first
  match first with
  | some (i, key) =>
      let s ← s.remove key
      -- the iterator is dropped with the other temporaries of the scrutinee
      .ok (s.release (.read i))
  | none => .ok s

/-- The insertion of a new client, and the lookup of the one to return. -/
def insertClient (sni : Bytes) (client : α) (s : Session n Bytes α) :
    Except (SelfBlocked n) (Except Bytes α × Session n Bytes α) := do
  let s ← s.orInsert sni client
  let (hit, s) ← s.get sni
  match hit with
  | some cached => .ok (.ok cached, s.release (.read (s.map.shardOf sni)))
  | none => .ok (.ok client, s)

/-- `get_client(sni)`, with the locks held before and after it; `created` is the result of
`create_client()`. -/
def getClient (maxClients : ℕ) (created : Except Bytes α) (sni : Bytes) (s : Session n Bytes α) :
    Except (SelfBlocked n) (Except Bytes α × Session n Bytes α) := do
  let (hit, s) ← s.get sni
  match hit with
  | some client => .ok (.ok client, s.release (.read (s.map.shardOf sni)))
  | none =>
      let (len, s) ← s.len
      let s ← if maxClients ≤ len then evict s else .ok s
      match created with
      | .error e => .ok (.error e, s)
      | .ok client => insertClient sni client s

/-- The call reaches its return, with every lock released. -/
def Returns (p : ConnectionPool n α) (created : Except Bytes α) (sni : Bytes) : Prop :=
  ∃ r m, getClient p.maxClients created sni ⟨p.clients, []⟩ = .ok (r, ⟨m, []⟩)

variable {p : ConnectionPool n α} {m : ShardedMap n Bytes α} {created : Except Bytes α}
  {sni : Bytes}

/-- The first entry cannot be removed while the iterator holds its shard. -/
theorem evict_free :
    evict ⟨m, []⟩ = match m.firstOf (List.finRange n) with
      | some (i, _) => .error (.on (.write i))
      | none => .ok ⟨m, []⟩ := by
  simp only [evict, Session.first, Session.firstOf_free, bind, Except.bind]
  cases h : m.firstOf (List.finRange n) with
  | none => rfl
  | some e =>
      obtain ⟨i, key⟩ := e
      have hi := m.placed i key (m.firstOf_some h)
      have hl : ShardLock.read (m.shardOf key) ∈
          ((some (i, key)).map fun e => ShardLock.read e.1).toList := by simp [hi]
      simp only [Session.remove_reading m key hl, hi]

theorem insertClient_free (client : α) :
    ∃ r m', insertClient sni client ⟨m, []⟩ = .ok (r, ⟨m', []⟩) := by
  simp only [insertClient, Session.orInsert_free, Session.get_free, bind, Except.bind]
  cases (m.orInsert sni client).lookup sni with
  | none => exact ⟨.ok client, _, rfl⟩
  | some cached => exact ⟨.ok cached, m.orInsert sni client, by simp [Session.release]⟩

theorem getClient_miss {maxClients : ℕ} (h : m.lookup sni = none) :
    getClient maxClients created sni ⟨m, []⟩ =
      (if maxClients ≤ m.len then evict ⟨m, []⟩ else .ok ⟨m, []⟩).bind fun s =>
        match created with
        | .error e => .ok (.error e, s)
        | .ok client => insertClient sni client s := by
  simp only [getClient, Session.get_free, h, Option.map_none, Option.toList_none, Session.len_free,
    bind, Except.bind]
  split <;> rfl

/-- **`get_client` returns exactly when it has nothing to evict**: the host is cached, or the
cache is below its limit, or it is empty. -/
theorem returns_iff :
    Returns p created sni ↔
      p.clients.Contains sni ∨ p.clients.len < p.maxClients ∨ p.clients.len = 0 := by
  obtain ⟨m, maxClients⟩ := p
  unfold Returns
  dsimp only
  cases hl : m.lookup sni with
  | some client =>
      have hc : m.Contains sni := by
        by_contra hn
        rw [m.lookup_eq_none.mpr hn] at hl
        cases hl
      refine iff_of_true ⟨.ok client, m, ?_⟩ (.inl hc)
      simp [getClient, Session.get_free, hl, Session.release, bind, Except.bind]
  | none =>
      have hc : ¬ m.Contains sni := m.lookup_eq_none.mp hl
      have hfirst : m.firstOf (List.finRange n) = none ↔ m.len = 0 := m.firstOf_eq_none
      rw [getClient_miss hl, evict_free]
      have hrest : ∃ r m', (match created with
          | .error e => .ok (.error e, ⟨m, []⟩)
          | .ok client => insertClient sni client ⟨m, []⟩ :
          Except (SelfBlocked n) (Except Bytes α × Session n Bytes α)) = .ok (r, ⟨m', []⟩) := by
        cases created with
        | error e => exact ⟨.error e, m, rfl⟩
        | ok client => exact insertClient_free client
      by_cases hlen : maxClients ≤ m.len
      · rw [if_pos hlen]
        cases hf : m.firstOf (List.finRange n) with
        | none => exact iff_of_true hrest (.inr (.inr (hfirst.mp hf)))
        | some e =>
            have hne : m.len ≠ 0 := fun h0 => by rw [hfirst.mpr h0] at hf; cases hf
            refine iff_of_false ?_ (by simp only [hc, hne, or_false, false_or]; omega)
            rintro ⟨r, m', h⟩
            cases h
      · rw [if_neg hlen]
        exact iff_of_true hrest (.inr (.inl (by simpa using hlen)))

/-- A full cache of one client. -/
def fullPool : ConnectionPool 4 Unit where
  clients :=
    { shardOf := fun _ => 2
      shard := Function.update (fun _ => ∅) 2 (AList.singleton (utf8 "a.example") ())
      placed := fun i k h => by
        by_contra hne
        rw [Function.update_of_ne (Ne.symm hne)] at h
        exact absurd h (AList.notMem_empty k) }
  maxClients := 1

theorem not_returns : ¬ Returns fullPool (.ok ()) (utf8 "b.example") := by
  rintro ⟨r, m, h⟩
  have hb : getClient 1 (.ok ()) (utf8 "b.example") ⟨fullPool.clients, []⟩ =
      .error (.on (.write 2)) := rfl
  rw [show fullPool.maxClients = 1 from rfl, hb] at h
  cases h

end DnsIngress.HttpClientPool
