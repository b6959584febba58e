import DnsIngress.HttpClientPool
import DnsIngress.Transition

/-! # Concurrent calls of `get_client`

Here every operation on the map is one atomic step, whatever locks it takes, and any number of
calls take their steps in any order.  A call reads `len()`, evicts, and inserts in separate
steps: between the check and the insertion the cache has promised a place to a host that it does
not hold yet.  `reserved` counts these hosts in. -/

namespace DnsIngress.HttpClientPool

/-- Program counter of a call of `get_client`. -/
inductive Pc (α : Type)
  /-- before the first `get` -/
  | lookup
  /-- before `len()` -/
  | check
  /-- before `iter().next()` -/
  | first
  /-- before `remove(&key)` -/
  | evict (key : Bytes)
  /-- before `create_client()` -/
  | create
  /-- before `entry(sni).or_insert_with(..)` -/
  | insert (client : α)
  /-- before the last `get` -/
  | reread (client : α)
  | returned (result : Except Bytes α)

/-- The call will insert its host. -/
def Pc.inserts {α : Type} : Pc α → Bool
  | create | insert _ => true
  | lookup | check | first | evict _ | reread _ | returned _ => false

structure Call (α : Type) where
  sni : Bytes
  pc : Pc α

/-- A pool and the calls of `get_client` on it. -/
structure Clients (n : ℕ) (α : Type) extends ConnectionPool n α where
  calls : List (Call α)

inductive Action (α : Type)
  | getClient (sni : Bytes)
  | get (i : ℕ)
  | len (i : ℕ)
  /-- `HashMap` has no order: any entry can be the first one -/
  | first (i : ℕ) (key : Option Bytes)
  | remove (i : ℕ)
  | create (i : ℕ) (created : Except Bytes α)
  | orInsert (i : ℕ)

namespace Clients

variable {n : ℕ} {α : Type} (s : Clients n α)

def setPc (i : ℕ) (sni : Bytes) (pc : Pc α) : Clients n α :=
  { s with calls := s.calls.set i ⟨sni, pc⟩ }

def step : Action α → Option (Clients n α)
  | .getClient sni => some { s with calls := s.calls ++ [⟨sni, .lookup⟩] }
  | .get i =>
      match s.calls[i]? with
      | some ⟨sni, .lookup⟩ =>
          match s.clients.lookup sni with
          | some client => some (s.setPc i sni (.returned (.ok client)))
          | none => some (s.setPc i sni .check)
      | some ⟨sni, .reread client⟩ =>
          some (s.setPc i sni (.returned (.ok ((s.clients.lookup sni).getD client))))
      | _ => none
  | .len i =>
      match s.calls[i]? with
      | some ⟨sni, .check⟩ =>
          some (s.setPc i sni (if s.maxClients ≤ s.clients.len then .first else .create))
      | _ => none
  | .first i key =>
      match s.calls[i]?, key with
      | some ⟨sni, .first⟩, some key =>
          if s.clients.Contains key then some (s.setPc i sni (.evict key)) else none
      | some ⟨sni, .first⟩, none =>
          if s.clients.len = 0 then some (s.setPc i sni .create) else none
      | _, _ => none
  | .remove i =>
      match s.calls[i]? with
      | some ⟨sni, .evict key⟩ =>
          some { s.setPc i sni .create with clients := s.clients.remove key }
      | _ => none
  | .create i created =>
      match s.calls[i]? with
      | some ⟨sni, .create⟩ =>
          match created with
          | .ok client => some (s.setPc i sni (.insert client))
          | .error e => some (s.setPc i sni (.returned (.error e)))
      | _ => none
  | .orInsert i =>
      match s.calls[i]? with
      | some ⟨sni, .insert client⟩ =>
          some { s.setPc i sni (.reread client) with clients := s.clients.orInsert sni client }
      | _ => none

/-- The hosts of the calls that will insert. -/
def inserting : Finset Bytes := ((s.calls.filter (·.pc.inserts)).map Call.sni).toFinset

/-- The hosts cached or about to be. -/
def reserved : Finset Bytes := s.clients.keys ∪ s.inserting

/-- The call that the step takes to its insertion, and what is cached then. -/
def goesOn : Action α → Option (Bytes × Finset Bytes)
  | .len i =>
      match s.calls[i]? with
      | some ⟨sni, .check⟩ =>
          if s.maxClients ≤ s.clients.len then none else some (sni, s.clients.keys)
      | _ => none
  | .first i none =>
      match s.calls[i]? with
      | some ⟨sni, .first⟩ => some (sni, s.clients.keys)
      | _ => none
  | .remove i =>
      match s.calls[i]? with
      | some ⟨sni, .evict key⟩ => some (sni, s.clients.keys.erase key)
      | _ => none
  | _ => none

end Clients

variable {n : ℕ} {α : Type}

/-- `with_max_clients(max_clients)`. -/
def ConnectionPool.new (shardOf : Bytes → Fin n) (maxClients : ℕ) : ConnectionPool n α where
  clients := .new shardOf
  maxClients := maxClients

/-- One pool and any number of calls of `get_client`. -/
def system (α : Type) (shardOf : Bytes → Fin n) (maxClients : ℕ) :
    Transition.System (Clients n α) (Action α) where
  init s := s = ⟨.new shardOf maxClients, []⟩
  step s a := s.step a

/-- A call goes on to its insertion only while its host has a place: the hosts cached or about
to be, and its own, are at most `max_clients`. -/
def Admits (s : Clients n α) (a : Action α) : Prop :=
  ∀ sni cached, s.goesOn a = some (sni, cached) →
    (insert sni (cached ∪ s.inserting)).card ≤ s.maxClients

/-! ### The invariant -/

structure Inv (maxClients : ℕ) (s : Clients n α) : Prop where
  max : s.maxClients = maxClients
  reserved : s.reserved.card ≤ maxClients

namespace Clients

variable {s s' : Clients n α} {i : ℕ} {sni : Bytes} {pc : Pc α}

theorem mem_inserting {host : Bytes} :
    host ∈ s.inserting ↔ ∃ c ∈ s.calls, c.pc.inserts = true ∧ c.sni = host := by
  simp [inserting, and_assoc]

theorem inserting_setPc (h : pc.inserts = false) : (s.setPc i sni pc).inserting ⊆ s.inserting := by
  intro host hh
  obtain ⟨c, hc, hi, rfl⟩ := mem_inserting.mp hh
  rcases List.mem_or_eq_of_mem_set hc with hc | rfl
  · exact mem_inserting.mpr ⟨c, hc, hi, rfl⟩
  · rw [h] at hi
    cases hi

/-- A call counts for its own host only. -/
theorem inserting_setPc_insert : (s.setPc i sni pc).inserting ⊆ insert sni s.inserting := by
  intro host hh
  obtain ⟨c, hc, hi, rfl⟩ := mem_inserting.mp hh
  rcases List.mem_or_eq_of_mem_set hc with hc | rfl
  · exact Finset.mem_insert_of_mem (mem_inserting.mpr ⟨c, hc, hi, rfl⟩)
  · exact Finset.mem_insert_self _ _

theorem sni_mem_inserting (h : s.calls[i]? = some ⟨sni, pc⟩) (hi : pc.inserts = true) :
    sni ∈ s.inserting :=
  mem_inserting.mpr ⟨_, List.mem_of_getElem? h, hi, rfl⟩

end Clients

namespace Inv

variable {maxClients : ℕ} {s s' : Clients n α} {i : ℕ} {sni : Bytes} {pc : Pc α}

theorem new (shardOf : Bytes → Fin n) :
    Inv maxClients (⟨.new shardOf maxClients, []⟩ : Clients n α) := by
  refine ⟨rfl, ?_⟩
  simp [Clients.reserved, Clients.inserting, ConnectionPool.new]

theorem mono (hi : Inv maxClients s) (hm : s'.maxClients = s.maxClients)
    (h : s'.reserved ⊆ s.reserved) : Inv maxClients s' :=
  ⟨hm.trans hi.max, (Finset.card_le_card h).trans hi.reserved⟩

theorem setPc (hi : Inv maxClients s) (h : pc.inserts = false) :
    Inv maxClients (s.setPc i sni pc) :=
  hi.mono rfl (Finset.union_subset_union_right (Clients.inserting_setPc h))

theorem goOn {clients : ShardedMap n Bytes α} (hi : Inv maxClients s)
    (h : (insert sni (clients.keys ∪ s.inserting)).card ≤ s.maxClients) :
    Inv maxClients { s.setPc i sni .create with clients := clients } := by
  refine ⟨hi.max, (Finset.card_le_card ?_).trans (h.trans_eq hi.max)⟩
  rw [← Finset.union_insert]
  exact Finset.union_subset_union_right Clients.inserting_setPc_insert

theorem orInsert {client : α} (hi : Inv maxClients s)
    (h : s.calls[i]? = some ⟨sni, .insert client⟩) :
    Inv maxClients { s.setPc i sni (.reread client) with
      clients := s.clients.orInsert sni client } := by
  refine hi.mono rfl (Finset.union_subset ?_ ?_)
  · rw [ShardedMap.keys_orInsert]
    exact Finset.insert_subset (Finset.mem_union_right _ (Clients.sni_mem_inserting h rfl))
      Finset.subset_union_left
  · exact (Clients.inserting_setPc rfl).trans Finset.subset_union_right

/-- **Step lemma.** -/
theorem step {a : Action α} (hi : Inv maxClients s) (hok : Admits s a)
    (h : s.step a = some s') : Inv maxClients s' := by
  cases a with
  | getClient sni =>
      cases h
      refine hi.mono rfl (Finset.union_subset_union_right fun host hh => ?_)
      obtain ⟨c, hc, hins, rfl⟩ := Clients.mem_inserting.mp hh
      rcases List.mem_append.mp hc with hc | hc
      · exact Clients.mem_inserting.mpr ⟨c, hc, hins, rfl⟩
      · rw [List.mem_singleton.mp hc] at hins
        cases hins
  | get i =>
      simp only [Clients.step] at h
      split at h
      · split at h <;> cases h <;> exact hi.setPc rfl
      · cases h
        exact hi.setPc rfl
      · cases h
  | len i =>
      simp only [Clients.step] at h
      split at h
      · next sni hc =>
          cases h
          split_ifs with hlen
          · exact hi.setPc rfl
          · exact hi.goOn (hok sni _ (by simp [Clients.goesOn, hc, hlen]))
      · cases h
  | first i key =>
      simp only [Clients.step] at h
      split at h
      · split_ifs at h
        cases h
        exact hi.setPc rfl
      · next sni hc =>
          split_ifs at h
          cases h
          exact hi.goOn (hok sni _ (by simp [Clients.goesOn, hc]))
      · cases h
  | remove i =>
      simp only [Clients.step] at h
      split at h
      · next sni key hc =>
          cases h
          refine hi.goOn ?_
          rw [ShardedMap.keys_remove]
          exact hok sni _ (by simp [Clients.goesOn, hc])
      · cases h
  | create i created =>
      simp only [Clients.step] at h
      split at h
      · next sni hc =>
          split at h <;> cases h
          · next client =>
              refine hi.mono rfl (Finset.union_subset_union_right ?_)
              refine Clients.inserting_setPc_insert.trans ?_
              exact Finset.insert_subset (Clients.sni_mem_inserting hc rfl) subset_rfl
          · exact hi.setPc rfl
      · cases h
  | orInsert i =>
      simp only [Clients.step] at h
      split at h
      · next sni client hc =>
          cases h
          exact hi.orInsert hc
      · cases h

/-- **Run lemma.** -/
theorem of_reachWhile {shardOf : Bytes → Fin n}
    (h : Transition.ReachWhile (system α shardOf maxClients) Admits s) : Inv maxClients s := by
  refine h.invariant ?_ ?_
  · rintro s rfl
    exact .new shardOf
  · intro s a s' hi hok hs
    exact hi.step hok hs

end Inv

/-- The cache is within its limit. -/
def Capped (maxClients : ℕ) (s : Clients n α) : Prop := s.clients.len ≤ maxClients

/-- **The cache is bounded** in every run in which a call goes on to its insertion only while
its host has a place. -/
theorem capped_of_admits {shardOf : Bytes → Fin n} {maxClients : ℕ} {s : Clients n α}
    (h : Transition.ReachWhile (system α shardOf maxClients) Admits s) : Capped maxClients s := by
  have hi := Inv.of_reachWhile h
  rw [Capped, ← ShardedMap.card_keys]
  exact (Finset.card_le_card Finset.subset_union_left).trans hi.reserved

/-! ### Runs of a pool for one client -/

/-- The pool of one shard. -/
def oneClient : Clients 1 Unit := ⟨.new (fun _ => 0) 1, []⟩

/-- A call that misses, up to its insertion. -/
def call (i : ℕ) (sni : Bytes) (evicted : List (Action Unit)) : List (Action Unit) :=
  [.getClient sni, .get i, .len i] ++ evicted ++ [.create i (.ok ()), .orInsert i, .get i]

instance (s : Clients n α) (a : Action α) : Decidable (Admits s a) :=
  match h : s.goesOn a with
  | none => .isTrue fun _ _ hg => by rw [h] at hg; cases hg
  | some (sni, cached) =>
      decidable_of_iff ((insert sni (cached ∪ s.inserting)).card ≤ s.maxClients)
        ⟨fun hle _ _ hg => by rw [h] at hg; cases hg; exact hle, fun hok => hok _ _ h⟩

/-- The second call evicts the client of the first one. -/
def evicts : List (Action Unit) :=
  call 0 (utf8 "a.example") [] ++
    call 1 (utf8 "b.example") [.first 1 (some (utf8 "a.example")), .remove 1]

theorem capped_of_admits_evicts :
    ∃ s, Transition.runWhile (system Unit (fun _ => (0 : Fin 1)) 1) (fun s a => decide (Admits s a))
      oneClient evicts = some s ∧ s.clients.Contains (utf8 "b.example") ∧ Capped 1 s := by
  have hr : ∃ s, Transition.runWhile (system Unit (fun _ => (0 : Fin 1)) 1)
      (fun s a => decide (Admits s a)) oneClient evicts = some s ∧
      s.clients.Contains (utf8 "b.example") := ⟨_, rfl, by decide⟩
  obtain ⟨s, hs, hc⟩ := hr
  exact ⟨s, hs, hc, capped_of_admits
    (.of_run _ (fun _ _ h => of_decide_eq_true h) evicts (.init rfl) hs)⟩

/-- Both calls read `len()` before one of them inserts. -/
def races : List (Action Unit) :=
  [.getClient (utf8 "a.example"), .getClient (utf8 "b.example"), .get 0, .get 1, .len 0, .len 1,
    .create 0 (.ok ()), .create 1 (.ok ()), .orInsert 0, .orInsert 1]

theorem not_capped :
    ¬ ∀ s, Transition.Reachable (system Unit (fun _ => (0 : Fin 1)) 1) s → Capped 1 s := by
  intro h
  have hr : ∃ s, Transition.run (system Unit (fun _ => (0 : Fin 1)) 1) oneClient races = some s ∧
      s.clients.len = 2 := ⟨_, rfl, rfl⟩
  obtain ⟨s, hs, hlen⟩ := hr
  have hb := h s (.of_run races rfl hs)
  rw [Capped, hlen] at hb
  exact absurd hb (by decide)

end DnsIngress.HttpClientPool
