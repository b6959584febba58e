import Mathlib

/-! # A sharded map and the locks of its shards

A `ShardedMap` is a hash map cut into `n` shards, each with a read-write lock of its own; a key
lives in the shard that `shardOf` says.

A `Session` is one thread's view: the map and the locks the thread holds.  Its operations take
and release locks the way a concurrent map does.  Locks are not re-entrant, so asking for a
write lock on a shard of which the thread holds a lock, or for a read lock where it holds the
write lock, blocks the thread on itself for ever: the operation fails with `SelfBlocked`.  Locks
held by other threads are not part of a session.

`get` and `first` return with the read lock of the entry they found; the caller releases it. -/

/-- A map of `n` shards. -/
structure ShardedMap (n : ℕ) (κ α : Type) where
  shardOf : κ → Fin n
  shard : Fin n → AList fun _ : κ => α
  placed : ∀ i k, k ∈ shard i → shardOf k = i

namespace ShardedMap

variable {n : ℕ} {κ α : Type} (m : ShardedMap n κ α)

/-- The empty map. -/
def new (shardOf : κ → Fin n) : ShardedMap n κ α where
  shardOf := shardOf
  shard _ := ∅
  placed _ k h := absurd h (AList.notMem_empty k)

def Contains (k : κ) : Prop := k ∈ m.shard (m.shardOf k)

/-- The sizes of the shards, added up. -/
def len : ℕ := ((List.finRange n).map fun i => (m.shard i).entries.length).sum

/-- The first entry of some shards, in their order. -/
def firstOf : List (Fin n) → Option (Fin n × κ)
  | [] => none
  | i :: is =>
      match (m.shard i).entries with
      | e :: _ => some (i, e.1)
      | [] => firstOf is

variable [DecidableEq κ]

instance (k : κ) : Decidable (m.Contains k) :=
  inferInstanceAs (Decidable (k ∈ (m.shard (m.shardOf k)).keys))

def lookup (k : κ) : Option α := (m.shard (m.shardOf k)).lookup k

def remove (k : κ) : ShardedMap n κ α where
  shardOf := m.shardOf
  shard := Function.update m.shard (m.shardOf k) ((m.shard (m.shardOf k)).erase k)
  placed i k' h := by
    rw [Function.update_apply] at h
    split_ifs at h with he
    · exact m.placed i k' (he ▸ (AList.mem_erase.mp h).2)
    · exact m.placed i k' h

/-- `entry(k).or_insert(v)`. -/
def orInsert (k : κ) (v : α) : ShardedMap n κ α where
  shardOf := m.shardOf
  shard := Function.update m.shard (m.shardOf k)
    (if k ∈ m.shard (m.shardOf k) then m.shard (m.shardOf k)
      else (m.shard (m.shardOf k)).insert k v)
  placed i k' h := by
    rw [Function.update_apply] at h
    split_ifs at h with he hk
    · exact m.placed i k' (he ▸ h)
    · rcases (AList.mem_insert _).mp h with rfl | h
      · exact he.symm
      · exact m.placed i k' (he ▸ h)
    · exact m.placed i k' h

theorem lookup_eq_none {k : κ} : m.lookup k = none ↔ ¬ m.Contains k := AList.lookup_eq_none

omit [DecidableEq κ] in
theorem firstOf_some {is : List (Fin n)} {i : Fin n} {k : κ} (h : m.firstOf is = some (i, k)) :
    k ∈ m.shard i := by
  induction is with
  | nil => cases h
  | cons j is ih =>
      unfold firstOf at h
      split at h
      · next e es he =>
          cases h
          exact List.mem_map.mpr ⟨e, by rw [he]; exact List.mem_cons_self, rfl⟩
      · exact ih h

omit [DecidableEq κ] in
theorem firstOf_eq_none {is : List (Fin n)} :
    m.firstOf is = none ↔ (is.map fun i => (m.shard i).entries.length).sum = 0 := by
  induction is with
  | nil => simp [firstOf]
  | cons i is ih =>
      unfold firstOf
      split
      · next e es he => simp [he]
      · next he => simp [he, ih]

/-- The keys of the map, of which there are `len`. -/
def keys : Finset κ := Finset.univ.biUnion fun i => (m.shard i).keys.toFinset

omit [DecidableEq κ] in
theorem mem_shard {i : Fin n} {k : κ} : k ∈ m.shard i ↔ m.shardOf k = i ∧ m.Contains k := by
  constructor
  · intro h
    obtain rfl := m.placed i k h
    exact ⟨rfl, h⟩
  · rintro ⟨rfl, h⟩
    exact h

@[simp] theorem mem_keys {k : κ} : k ∈ m.keys ↔ m.Contains k := by
  simp only [keys, Finset.mem_biUnion, Finset.mem_univ, true_and, List.mem_toFinset]
  constructor
  · rintro ⟨i, h⟩
    exact (m.mem_shard.mp h).2
  · intro h
    exact ⟨m.shardOf k, h⟩

theorem card_keys : m.keys.card = m.len := by
  rw [keys, Finset.card_biUnion]
  · rw [len, Fin.sum_univ_def]
    refine congrArg List.sum (List.map_congr_left fun i _ => ?_)
    have hn : (m.shard i).keys.Nodup := (m.shard i).nodupKeys
    rw [List.toFinset_card_of_nodup hn, AList.keys, List.keys, List.length_map]
  · intro i _ j _ hij
    refine Finset.disjoint_left.mpr fun k hi hj => hij ?_
    rw [List.mem_toFinset] at hi hj
    exact (m.placed i k hi).symm.trans (m.placed j k hj)

@[simp] theorem keys_new (shardOf : κ → Fin n) : (new shardOf : ShardedMap n κ α).keys = ∅ := by
  refine Finset.eq_empty_of_forall_notMem fun k hk => ?_
  exact AList.notMem_empty k (mem_keys _ |>.mp hk)

theorem keys_remove (k : κ) : (m.remove k).keys = m.keys.erase k := by
  ext k'
  simp only [mem_keys, Finset.mem_erase, Contains, remove, Function.update_apply]
  split_ifs with he
  · rw [AList.mem_erase, he]
  · exact ⟨fun h => ⟨fun hk => he (congrArg _ hk), h⟩, And.right⟩

theorem keys_orInsert (k : κ) (v : α) : (m.orInsert k v).keys = insert k m.keys := by
  ext k'
  simp only [mem_keys, Finset.mem_insert, Contains, orInsert, Function.update_apply]
  split_ifs with he hk
  · rw [he]
    refine ⟨.inr, ?_⟩
    rintro (rfl | h)
    · exact hk
    · exact h
  · rw [AList.mem_insert, he]
  · refine ⟨.inr, ?_⟩
    rintro (rfl | h)
    · exact absurd rfl he
    · exact h

end ShardedMap

/-- A lock on a shard. -/
inductive ShardLock (n : ℕ)
  | read (i : Fin n)
  | write (i : Fin n)
deriving DecidableEq

/-- The thread waits for a lock that it excludes itself from. -/
inductive SelfBlocked (n : ℕ)
  | on (l : ShardLock n)
deriving DecidableEq

/-- The map and the locks that the thread holds. -/
structure Session (n : ℕ) (κ α : Type) where
  map : ShardedMap n κ α
  held : List (ShardLock n)

namespace Session

variable {n : ℕ} {κ α : Type} (s : Session n κ α)

def lockRead (i : Fin n) : Except (SelfBlocked n) (Session n κ α) :=
  if .write i ∈ s.held then .error (.on (.read i))
  else .ok { s with held := .read i :: s.held }

def lockWrite (i : Fin n) : Except (SelfBlocked n) (Session n κ α) :=
  if .read i ∈ s.held ∨ .write i ∈ s.held then .error (.on (.write i))
  else .ok { s with held := .write i :: s.held }

def release (l : ShardLock n) : Session n κ α := { s with held := s.held.erase l }

def lenOf : List (Fin n) → Session n κ α → Except (SelfBlocked n) (ℕ × Session n κ α)
  | [], s => .ok (0, s)
  | i :: is, s => do
      let s ← s.lockRead i
      let (rest, s') ← lenOf is (s.release (.read i))
      .ok ((s.map.shard i).entries.length + rest, s')

/-- `len()`: the shards are read one after the other. -/
def len : Except (SelfBlocked n) (ℕ × Session n κ α) := lenOf (List.finRange n) s

def firstOf : List (Fin n) → Session n κ α →
    Except (SelfBlocked n) (Option (Fin n × κ) × Session n κ α)
  | [], s => .ok (none, s)
  | i :: is, s => do
      let s ← s.lockRead i
      match (s.map.shard i).entries with
      | e :: _ => .ok (some (i, e.1), s)
      | [] => firstOf is (s.release (.read i))

/-- `iter().next()`: the iterator holds the lock of the shard of the entry it yielded. -/
def first : Except (SelfBlocked n) (Option (Fin n × κ) × Session n κ α) :=
  firstOf (List.finRange n) s

section ops
variable [DecidableEq κ]

/-- `get(k)`: the guard returned with the value holds the lock. -/
def get (k : κ) : Except (SelfBlocked n) (Option α × Session n κ α) := do
  let s ← s.lockRead (s.map.shardOf k)
  match s.map.lookup k with
  | some v => .ok (some v, s)
  | none => .ok (none, s.release (.read (s.map.shardOf k)))

def remove (k : κ) : Except (SelfBlocked n) (Session n κ α) := do
  let s ← s.lockWrite (s.map.shardOf k)
  .ok ({ s with map := s.map.remove k }.release (.write (s.map.shardOf k)))

/-- `entry(k).or_insert(v)`, with the entry dropped. -/
def orInsert (k : κ) (v : α) : Except (SelfBlocked n) (Session n κ α) := do
  let s ← s.lockWrite (s.map.shardOf k)
  .ok ({ s with map := s.map.orInsert k v }.release (.write (s.map.shardOf k)))

end ops

/-! ### Operations of a thread that holds no lock -/

section free
variable {s} (m : ShardedMap n κ α)

theorem lockRead_free (i : Fin n) : lockRead ⟨m, []⟩ i = .ok ⟨m, [.read i]⟩ := by
  simp [lockRead]

theorem lenOf_free (is : List (Fin n)) :
    lenOf is ⟨m, []⟩ = .ok ((is.map fun i => (m.shard i).entries.length).sum, ⟨m, []⟩) := by
  induction is with
  | nil => rfl
  | cons i is ih =>
      have hr : release ⟨m, [.read i]⟩ (.read i) = ⟨m, []⟩ := by simp [release]
      simp only [lenOf, lockRead_free, bind, Except.bind, hr, ih, List.map_cons, List.sum_cons]

theorem len_free : len ⟨m, []⟩ = .ok (m.len, ⟨m, []⟩) := lenOf_free m _

theorem firstOf_free (is : List (Fin n)) :
    firstOf is ⟨m, []⟩ =
      .ok (m.firstOf is, ⟨m, ((m.firstOf is).map fun e => ShardLock.read e.1).toList⟩) := by
  induction is with
  | nil => rfl
  | cons i is ih =>
      have hr : release ⟨m, [.read i]⟩ (.read i) = ⟨m, []⟩ := by simp [release]
      simp only [firstOf, lockRead_free, bind, Except.bind, ShardedMap.firstOf]
      cases he : (m.shard i).entries with
      | nil => simp only [hr, ih]
      | cons e es => rfl

variable [DecidableEq κ] (k : κ)

theorem get_free : get ⟨m, []⟩ k =
    .ok (m.lookup k, ⟨m, ((m.lookup k).map fun _ => ShardLock.read (m.shardOf k)).toList⟩) := by
  simp only [get, lockRead_free, bind, Except.bind]
  cases m.lookup k <;> simp [release]

theorem orInsert_free (v : α) : orInsert ⟨m, []⟩ k v = .ok ⟨m.orInsert k v, []⟩ := by
  simp [orInsert, lockWrite, release, bind, Except.bind]

/-- A thread that reads a shard blocks itself when it removes from it. -/
theorem remove_reading {held : List (ShardLock n)} (h : .read (m.shardOf k) ∈ held) :
    remove ⟨m, held⟩ k = .error (.on (.write (m.shardOf k))) := by
  simp [remove, lockWrite, h, bind, Except.bind]

end free

end Session
