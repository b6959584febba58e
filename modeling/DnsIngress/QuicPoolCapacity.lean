import DnsIngress.QuicPool
import Mathlib.Data.List.Pairwise
import Mathlib.Data.Multiset.Dedup

/-! # Capacity of the connection pools

The ledger of a pool lists who holds a handle of a slot: the calls of `get` in progress
(`owners`) and the leases, cached, borrowed or evicted (`leases`).

* `Account` is the abstract ledger: its handles are those the reference counts count, an owner
  shares its slot with nobody, and leases of one slot are leases of one connection.
* Its lemmas are the six things a pool does to it: take a permit, give a slot back, record a
  connection, turn a slot into a lease, clone a lease and drop leases.
* `Inv` says that the pool keeps such a ledger; each step is a composition of the six. -/

namespace DnsIngress.QuicPool

variable {max : ℕ} {κ : Type}

/-! ### The ledger -/

/-- The handles of the slots behind `p`, and the connections established with them. -/
structure Account (p : Permits max) (leases : Multiset Lease) (owners : Multiset ℕ)
    (connections : List (κ × ℕ)) : Prop where
  held : p.HeldBy (leases.map Lease.slot + owners)
  nodup : owners.Nodup
  apart : ∀ n ∈ owners, ∀ l ∈ leases, l.slot ≠ n
  recorded : ∀ l ∈ leases, ∃ k, connections[l.connection]? = some (k, l.slot)
  once : (connections.map Prod.snd).Nodup
  lt_next : ∀ n ∈ connections.map Prod.snd, n < p.next

namespace Account

variable {p q : Permits max} {leases : Multiset Lease} {owners : Multiset ℕ}
  {connections : List (κ × ℕ)} {n c : ℕ} {l : Lease}

theorem new : Account (.new max) 0 0 ([] : List (κ × ℕ)) where
  held := .new
  nodup := Multiset.nodup_zero
  apart _ h := absurd h (Multiset.notMem_zero _)
  recorded _ h := absurd h (Multiset.notMem_zero _)
  once := List.nodup_nil
  lt_next _ h := by cases h

theorem tryAcquire (ha : Account p leases owners connections)
    (h : p.tryAcquire = some (n, q)) :
    Account q leases (n ::ₘ owners) connections ∧ n ∉ connections.map Prod.snd := by
  obtain ⟨hq, hn, hnext⟩ := ha.held.tryAcquire h
  obtain ⟨rfl, -, -⟩ := Permits.tryAcquire_eq_some h
  rw [Multiset.mem_add, not_or] at hn
  refine ⟨⟨?_, Multiset.nodup_cons.mpr ⟨hn.2, ha.nodup⟩, ?_, ha.recorded, ha.once, ?_⟩, ?_⟩
  · rwa [Multiset.add_cons]
  · intro m hm l hl
    rcases Multiset.mem_cons.mp hm with rfl | hm
    · exact fun he => hn.1 (he ▸ Multiset.mem_map_of_mem _ hl)
    · exact ha.apart m hm l hl
  · intro m hm
    have := ha.lt_next m hm
    omega
  · exact fun hm => absurd (ha.lt_next _ hm) (lt_irrefl _)

theorem release (ha : Account p leases (n ::ₘ owners) connections) :
    Account (p.drop n) leases owners connections where
  held := .drop (by rw [← Multiset.add_cons]; exact ha.held)
  nodup := (Multiset.nodup_cons.mp ha.nodup).2
  apart m hm := ha.apart m (Multiset.mem_cons_of_mem hm)
  recorded := ha.recorded
  once := ha.once
  lt_next m hm := by rw [Permits.next_drop]; exact ha.lt_next m hm

theorem connect (ha : Account p leases owners connections) (k : κ) (hn : n ∈ owners)
    (hc : n ∉ connections.map Prod.snd) :
    Account p leases owners (connections ++ [(k, n)]) where
  held := ha.held
  nodup := ha.nodup
  apart := ha.apart
  recorded l hl := by
    obtain ⟨k', hk⟩ := ha.recorded l hl
    have hlt := (List.getElem?_eq_some_iff.mp hk).1
    exact ⟨k', by rw [List.getElem?_append_left hlt, hk]⟩
  once := by
    rw [List.map_append, List.map_cons, List.map_nil]
    exact ha.once.append (List.nodup_singleton n) (by simpa using hc)
  lt_next m hm := by
    rw [List.map_append, List.mem_append] at hm
    rcases hm with hm | hm
    · exact ha.lt_next m hm
    · obtain rfl : m = n := by simpa using hm
      exact ha.held.lt_next (Multiset.mem_add.mpr (.inr hn))

theorem publish (ha : Account p leases (n ::ₘ owners) connections) {k : κ}
    (hc : connections[c]? = some (k, n)) :
    Account p (⟨c, n⟩ ::ₘ leases) owners connections where
  held := by
    rw [Multiset.map_cons, Multiset.cons_add, ← Multiset.add_cons]
    exact ha.held
  nodup := (Multiset.nodup_cons.mp ha.nodup).2
  apart m hm l hl := by
    rcases Multiset.mem_cons.mp hl with rfl | hl
    · rintro rfl
      exact (Multiset.nodup_cons.mp ha.nodup).1 hm
    · exact ha.apart m (Multiset.mem_cons_of_mem hm) l hl
  recorded l hl := by
    rcases Multiset.mem_cons.mp hl with rfl | hl
    · exact ⟨k, hc⟩
    · exact ha.recorded l hl
  once := ha.once
  lt_next := ha.lt_next

theorem clone (ha : Account p leases owners connections) (hl : l ∈ leases) :
    Account (p.clone l.slot) (l ::ₘ leases) owners connections where
  held := by
    rw [Multiset.map_cons, Multiset.cons_add]
    exact ha.held.clone (Multiset.mem_add.mpr (.inl (Multiset.mem_map_of_mem _ hl)))
  nodup := ha.nodup
  apart n hn l' hl' := by
    rcases Multiset.mem_cons.mp hl' with rfl | hl'
    · exact ha.apart n hn _ hl
    · exact ha.apart n hn l' hl'
  recorded l' hl' := by
    rcases Multiset.mem_cons.mp hl' with rfl | hl'
    · exact ha.recorded _ hl
    · exact ha.recorded l' hl'
  once := ha.once
  lt_next m hm := by rw [Permits.next_clone]; exact ha.lt_next m hm

theorem dropAll {ls : List Lease} (ha : Account p (ls + leases) owners connections) :
    Account (p.dropAll (ls.map Lease.slot)) leases owners connections where
  held := .dropAll (by
    rw [← Multiset.map_coe, ← Multiset.add_assoc, ← Multiset.map_add]
    exact ha.held)
  nodup := ha.nodup
  apart n hn l hl := ha.apart n hn l (Multiset.mem_add.mpr (.inr hl))
  recorded l hl := ha.recorded l (Multiset.mem_add.mpr (.inr hl))
  once := ha.once
  lt_next m hm := by rw [Permits.next_dropAll]; exact ha.lt_next m hm

theorem drop (ha : Account p (l ::ₘ leases) owners connections) :
    Account (p.drop l.slot) leases owners connections := by
  have h : Account p (([l] : List Lease) + leases) owners connections := by simpa using ha
  exact h.dropAll

theorem connection_unique (ha : Account p leases owners connections) {c' : ℕ}
    (h : ⟨c, n⟩ ∈ leases) (h' : ⟨c', n⟩ ∈ leases) : c = c' := by
  obtain ⟨k, hk⟩ := ha.recorded _ h
  obtain ⟨k', hk'⟩ := ha.recorded _ h'
  obtain ⟨hc, he⟩ := List.getElem?_eq_some_iff.mp hk
  obtain ⟨hc', he'⟩ := List.getElem?_eq_some_iff.mp hk'
  have hlt : c < (connections.map Prod.snd).length := by simpa using hc
  have hlt' : c' < (connections.map Prod.snd).length := by simpa using hc'
  rw [← List.Nodup.getElem_inj_iff ha.once, List.getElem_map, List.getElem_map, he, he']
  · exact hlt
  · exact hlt'

theorem two_le {A B : Multiset Lease} {l' : Lease} (ha : Account p (A + B) owners connections)
    (hl : l ∈ A) (hl' : l' ∈ B) (hs : l'.slot = l.slot) : 2 ≤ p.strong l.slot := by
  have hcount := ha.held l.slot
  rw [Multiset.map_add, Multiset.count_add, Multiset.count_add] at hcount
  have := Multiset.count_pos.mpr (Multiset.mem_map_of_mem Lease.slot hl)
  have := Multiset.count_pos.mpr (hs ▸ Multiset.mem_map_of_mem Lease.slot hl')
  omega

theorem card_le (ha : Account p leases owners connections) :
    (leases.map Lease.connection).toFinset.card + owners.card ≤ max := by
  have hsub : (leases.map Lease.slot).toFinset ∪ owners.toFinset ⊆ p.live := by
    intro n hn
    rw [ha.held.live_iff, Multiset.mem_add]
    simpa using hn
  have hdisj : Disjoint (leases.map Lease.slot).toFinset owners.toFinset := by
    rw [Finset.disjoint_left]
    intro n hn ho
    rw [Multiset.mem_toFinset] at hn ho
    obtain ⟨l, hl, rfl⟩ := Multiset.mem_map.mp hn
    exact ha.apart _ ho l hl rfl
  have hcard := Finset.card_le_card hsub
  rw [Finset.card_union_of_disjoint hdisj, Multiset.toFinset_card_of_nodup ha.nodup] at hcard
  have hinj : Set.InjOn Lease.slot (leases.toFinset : Set Lease) := by
    intro l hl l' hl' he
    simp only [Finset.mem_coe, Multiset.mem_toFinset] at hl hl'
    have hc : l.connection = l'.connection :=
      ha.connection_unique (n := l.slot) hl (by rw [he]; exact hl')
    cases l; cases l'
    simp_all
  have hconn := Finset.card_image_le (s := leases.toFinset) (f := Lease.connection)
  rw [Multiset.toFinset_map, Finset.card_image_of_injOn hinj] at hcard
  rw [Multiset.toFinset_map]
  have := p.free_add_card_live
  omega

end Account

/-! ### The handles of a pool -/

/-- One more handle, if there is one. -/
def hold {β : Type} : Option β → Multiset β → Multiset β
  | none, m => m
  | some b, m => b ::ₘ m

theorem hold_eq {β : Type} (o : Option β) (m : Multiset β) : hold o m = o.toList + m := by
  cases o with
  | none => exact (Multiset.zero_add m).symm
  | some b => exact (Multiset.singleton_add b m).symm

/-- The handles in one optional local of every call. -/
def handles {β : Type} (f : Pc → Option β) (gets : List (Get κ)) : Multiset β :=
  (gets.filterMap fun g => f g.pc : List β)

section handles
variable {β : Type} {f : Pc → Option β} {gets : List (Get κ)} {i : ℕ} {g g' : Get κ}

theorem handles_cons : handles f (g :: gets) = hold (f g.pc) (handles f gets) := by
  unfold handles
  cases h : f g.pc <;> simp [h, hold]

theorem handles_eq (h : gets[i]? = some g) :
    handles f gets = hold (f g.pc) (handles f (gets.eraseIdx i)) := by
  obtain ⟨hi, rfl⟩ := List.getElem?_eq_some_iff.mp h
  rw [← handles_cons]
  exact Multiset.coe_eq_coe.mpr ((List.getElem_cons_eraseIdx_perm hi).symm.filterMap _)

theorem handles_set (h : gets[i]? = some g) :
    handles f (gets.set i g') = hold (f g'.pc) (handles f (gets.eraseIdx i)) := by
  obtain ⟨hi, rfl⟩ := List.getElem?_eq_some_iff.mp h
  rw [← handles_cons]
  exact Multiset.coe_eq_coe.mpr ((List.set_perm_cons_eraseIdx hi _).filterMap _)

theorem mem_set (h : gets[i]? = some g) {x : Get κ} :
    x ∈ gets.set i g' ↔ x = g' ∨ x ∈ gets.eraseIdx i := by
  obtain ⟨hi, rfl⟩ := List.getElem?_eq_some_iff.mp h
  rw [(List.set_perm_cons_eraseIdx hi _).mem_iff, List.mem_cons]

theorem getElem?_set_cases {j : ℕ} (h : (gets.set j g')[i]? = some g) :
    i = j ∧ g = g' ∨ i ≠ j ∧ gets[i]? = some g := by
  rw [List.getElem?_set] at h
  split_ifs at h with hij
  · exact .inl ⟨hij.symm, (Option.some.inj h).symm⟩
  · exact .inr ⟨Ne.symm hij, h⟩

theorem getElem?_append_cases (h : (gets ++ [g'])[i]? = some g) : g = g' ∨ gets[i]? = some g := by
  rw [List.getElem?_append] at h
  split_ifs at h
  · exact .inr h
  · exact .inl (List.mem_singleton.mp (List.mem_of_getElem? h))

end handles

/-- The leases of the cache. -/
def Cache.leases (c : Cache κ) : Multiset Lease := (c.entries.map fun e => e.2.lease : List Lease)

theorem Cache.leases_retain (c : Cache κ) (p : CachedLease → Bool) :
    c.leases = ((c.entries.filter fun e => !p e.2).map fun e => e.2.lease : List Lease) +
      (c.retain p).leases := by
  have h := List.filter_append_perm (fun e : Sigma fun _ : κ => CachedLease => !p e.2) c.entries
  simp only [Bool.not_not] at h
  rw [Cache.leases, Cache.leases, Multiset.coe_add, ← List.map_append]
  exact Multiset.coe_eq_coe.mpr (h.symm.map _)

section erase
variable [DecidableEq κ] (c : Cache κ) (k : κ)

theorem Cache.leases_erase :
    c.leases = hold ((c.lookup k).map CachedLease.lease) (Cache.leases (c.erase k)) := by
  by_cases hk : k ∈ c
  · obtain ⟨v, l, l', hn, he, hk'⟩ := List.exists_of_kerase hk
    have hv : c.lookup k = some v := AList.mem_lookup_iff.mpr (by rw [he]; simp)
    have hr : (c.erase k).entries = l ++ l' := hk'
    rw [hv, Cache.leases, Cache.leases, hr, he]
    refine Multiset.coe_eq_coe.mpr ?_
    simp only [List.map_append, List.map_cons]
    exact List.perm_middle
  · have hr : (c.erase k).entries = c.entries := List.kerase_of_notMem_keys hk
    rw [AList.lookup_eq_none.mpr hk, Cache.leases, Cache.leases, hr]
    rfl

theorem Cache.leases_insert (v : CachedLease) :
    Cache.leases (c.insert k v) = v.lease ::ₘ Cache.leases (c.erase k) := rfl

end erase

namespace Pool

variable (s : Pool max κ)

/-- Every lease: cached, borrowed, or held by the call that evicted it. -/
def leases : Multiset Lease := s.entries.leases + (s.borrowed + handles Pc.evicted? s.gets)

/-- The slots of the calls in progress. -/
def owners : Multiset ℕ := handles Pc.slot? s.gets

end Pool

/-! ### The invariant -/

/-- A call has no connection before its handshake, and its own one after it. -/
def GetInv (connections : List (κ × ℕ)) (g : Get κ) : Prop :=
  match g.pc with
  | .recheck n | .resolve n | .connect n => n ∉ connections.map Prod.snd
  | .setup n c | .insert n c => connections[c]? = some (g.key, n)
  | .lookup | .acquire | .evict | .dropEvicted _ | .retry | .returned _ | .failed _ | .cancelled =>
      True

structure Inv (s : Pool max κ) : Prop where
  account : Account s.permits s.leases s.owners s.connections
  gets : ∀ g ∈ s.gets, GetInv s.connections g

namespace Inv

variable {s s' : Pool max κ} {i : ℕ} {k : κ} {pc pc' : Pc}

theorem new : Inv (Pool.new max κ) := ⟨.new, fun _ h => by cases h⟩

/-- A step of call `i` that establishes no connection: what it does to the ledger is said for
any other holders `L` and `O`. -/
theorem of_set (hi : Inv s) (h : s.gets[i]? = some ⟨k, pc⟩)
    (hg : s'.gets = s.gets.set i ⟨k, pc'⟩) (hc : s'.connections = s.connections)
    (hpc : GetInv s.connections ⟨k, pc'⟩)
    (hacc : ∀ L O, Account s.permits (s.entries.leases + (s.borrowed + hold pc.evicted? L))
        (hold pc.slot? O) s.connections →
      Account s'.permits (s'.entries.leases + (s'.borrowed + hold pc'.evicted? L))
        (hold pc'.slot? O) s.connections) : Inv s' := by
  refine ⟨?_, fun g hm => ?_⟩
  · have ha := hi.account
    rw [Pool.leases, Pool.owners, handles_eq h, handles_eq h] at ha
    rw [Pool.leases, Pool.owners, hg, hc, handles_set h, handles_set h]
    exact hacc _ _ ha
  · rw [hg, mem_set h] at hm
    rw [hc]
    rcases hm with rfl | hm
    · exact hpc
    · exact hi.gets g (List.mem_of_mem_eraseIdx hm)

theorem setPc (hi : Inv s) (h : s.gets[i]? = some ⟨k, pc⟩)
    (hpc : GetInv s.connections ⟨k, pc⟩ → GetInv s.connections ⟨k, pc'⟩)
    (hs : pc'.slot? = pc.slot?) (he : pc'.evicted? = pc.evicted?) : Inv (s.setPc i k pc') :=
  hi.of_set h rfl rfl (hpc (hi.gets _ (List.mem_of_getElem? h))) fun L O ha => by
    rw [hs, he]
    exact ha

section steps
variable [DecidableEq κ] {c : CachedLease} {L : Multiset Lease} {O : Multiset ℕ}

theorem lookup_of_cached (hc : s.cached k = some c) : s.entries.lookup k = some c :=
  (Option.filter_eq_some_iff.mp hc).1

theorem touch (hc : s.cached k = some c)
    (ha : Account s.permits (s.entries.leases + (s.borrowed + L)) O s.connections) :
    Account (s.touch i k c).permits
      ((s.touch i k c).entries.leases + ((s.touch i k c).borrowed + L)) O s.connections := by
  have he := Cache.leases_erase s.entries k
  rw [lookup_of_cached hc] at he
  have hins : (s.touch i k c).entries.leases = s.entries.leases := by
    rw [he]
    exact Cache.leases_insert _ _ _
  have hm : c.lease ∈ s.entries.leases := by
    rw [he, Option.map_some, hold]
    exact Multiset.mem_cons_self _ _
  have hcl := ha.clone (Multiset.mem_add.mpr (.inl hm))
  rw [hins]
  rwa [← Multiset.add_cons, ← Multiset.cons_add] at hcl

theorem remove (ha : Account s.permits (s.entries.leases + L) O s.connections) :
    Account (s.remove k).permits (Cache.leases (s.remove k).entries + L) O s.connections := by
  rw [Cache.leases_erase s.entries k, hold_eq, Multiset.add_assoc] at ha
  have hd := ha.dropAll
  rwa [← Option.toList_map, Option.map_map] at hd

omit [DecidableEq κ] in
theorem sweep (ha : Account s.permits (s.entries.leases + L) O s.connections) :
    Account s.sweep.permits (s.sweep.entries.leases + L) O s.connections := by
  rw [Cache.leases_retain s.entries s.isAlive, Multiset.add_assoc] at ha
  have hd := ha.dropAll
  rwa [List.map_map] at hd

theorem evict (victim : Option κ) (hi : Inv s) (h : s.gets[i]? = some ⟨k, .evict⟩) :
    Inv (s.evictTo i k victim) := by
  refine hi.of_set h rfl rfl trivial fun L O ha => ?_
  have hw := sweep ha
  cases victim with
  | none => exact hw
  | some v =>
      rw [Cache.leases_erase s.sweep.entries v, hold_eq, add_assoc, add_left_comm,
        add_left_comm _ (s.borrowed : Multiset Lease), ← hold_eq] at hw
      exact hw

theorem touch_dropSlot {n : ℕ} (hi : Inv s) (h : s.gets[i]? = some ⟨k, pc⟩)
    (hs : pc.slot? = some n) (he : pc.evicted? = none) (hc : s.cached k = some c) :
    Inv ((s.touch i k c).dropSlot n) := by
  refine hi.of_set h rfl rfl trivial fun L O ha => ?_
  rw [hs, he] at ha
  have ht : Account (s.touch i k c).permits _ (n ::ₘ O) s.connections := touch hc ha
  exact ht.release

omit [DecidableEq κ] in
theorem fail {n : ℕ} {e : DnsProxyError} (hi : Inv s) (h : s.gets[i]? = some ⟨k, pc⟩)
    (hs : pc.slot? = some n) (he : pc.evicted? = none) : Inv (s.fail i k n e) := by
  refine hi.of_set h rfl rfl trivial fun L O ha => ?_
  rw [hs, he] at ha
  exact ha.release

theorem publish {n d : ℕ} (hi : Inv s) (h : s.gets[i]? = some ⟨k, .insert n d⟩) :
    Inv (s.publish i k ⟨d, n⟩) := by
  have hd : s.connections[d]? = some (k, n) := hi.gets _ (List.mem_of_getElem? h)
  refine hi.of_set h rfl rfl trivial fun L O ha => ?_
  have hp : Account s.permits (⟨d, n⟩ ::ₘ (s.entries.leases + (s.borrowed + L))) O s.connections :=
    Account.publish ha hd
  have hcl := hp.clone (Multiset.mem_cons_self _ _)
  rw [Cache.leases_erase s.entries k, hold_eq, add_assoc, ← Multiset.add_cons,
    ← Multiset.add_cons, ← Multiset.cons_add, ← Multiset.add_cons, ← Multiset.cons_add] at hcl
  have hdr := hcl.dropAll
  rwa [← Option.toList_map, Option.map_map] at hdr

omit [DecidableEq κ] in
theorem connect {n : ℕ} (hi : Inv s) (h : s.gets[i]? = some ⟨k, .connect n⟩)
    (hpc : pc' = .setup n s.connections.length ∨ pc' = .insert n s.connections.length) :
    Inv { s.setPc i k pc' with connections := s.connections ++ [(k, n)] } := by
  have hn : n ∉ s.connections.map Prod.snd := hi.gets _ (List.mem_of_getElem? h)
  have hslot : pc'.slot? = some n := by rcases hpc with rfl | rfl <;> rfl
  have hev : pc'.evicted? = none := by rcases hpc with rfl | rfl <;> rfl
  have ha := hi.account
  rw [Pool.leases, Pool.owners, handles_eq h, handles_eq h] at ha
  simp only [Pc.slot?, Pc.evicted?, hold] at ha
  refine ⟨?_, fun g hm => ?_⟩
  · rw [Pool.leases, Pool.owners]
    simp only [Pool.setPc]
    rw [handles_set h, handles_set h, hslot, hev]
    exact ha.connect k (Multiset.mem_cons_self _ _) hn
  · rcases (mem_set h).mp hm with rfl | hm
    · rcases hpc with rfl | rfl <;> simp [GetInv]
    · -- no other call owns the slot
      have hne : g.pc.slot? ≠ some n := by
        intro hg
        have hmem : n ∈ handles Pc.slot? (s.gets.eraseIdx i) :=
          Multiset.mem_coe.mpr (List.mem_filterMap.mpr ⟨g, hm, hg⟩)
        exact (Multiset.nodup_cons.mp ha.nodup).1 hmem
      have hgi := hi.gets g (List.mem_of_mem_eraseIdx hm)
      obtain ⟨j, pc⟩ := g
      cases pc with
      | recheck m | resolve m | connect m =>
          simp only [GetInv, Pc.slot?, ne_eq, Option.some.injEq] at hgi hne ⊢
          rw [List.map_append, List.mem_append, not_or]
          exact ⟨hgi, by simpa using hne⟩
      | setup m d | insert m d =>
          simp only [GetInv] at hgi ⊢
          rw [List.getElem?_append_left (List.getElem?_eq_some_iff.mp hgi).1, hgi]
      | _ => trivial

omit [DecidableEq κ] in
theorem acquire {n : ℕ} {p : Permits max} (hi : Inv s) (h : s.gets[i]? = some ⟨k, pc⟩)
    (hs : pc.slot? = none) (he : pc.evicted? = none) (hp : s.permits.tryAcquire = some (n, p)) :
    Inv { s.setPc i k (.recheck n) with permits := p } := by
  refine hi.of_set h rfl rfl (hi.account.tryAcquire hp).2 fun L O ha => ?_
  rw [hs, he] at ha
  exact (ha.tryAcquire hp).1

/-- **Step lemma.** -/
theorem step {kind : Kind κ} {a : Action κ} (hi : Inv s) (h : s.step kind a = some s') :
    Inv s' := by
  cases Pool.move_of_step h with
  | tick => exact ⟨hi.account, hi.gets⟩
  | get =>
      refine ⟨?_, fun g hm => ?_⟩
      · have ha := hi.account
        rw [Pool.leases, Pool.owners] at ha ⊢
        simpa only [handles, List.filterMap_append, List.filterMap_cons, Pc.slot?, Pc.evicted?,
          List.filterMap_nil, List.append_nil] using ha
      · rcases List.mem_append.mp hm with hm | hm
        · exact hi.gets g hm
        · obtain rfl := List.mem_singleton.mp hm
          trivial
  | advance hg ha =>
      cases ha with
      | evict | refuse | retry => exact hi.setPc hg (fun _ => trivial) rfl rfl
      | resolve | connect | insert => exact hi.setPc hg id rfl rfl
  | found hg hc => exact hi.of_set hg rfl rfl trivial fun L O ha => touch hc ha
  | missed hg => exact hi.of_set hg rfl rfl trivial fun L O ha => remove ha
  | acquired hg hpc hp => rcases hpc with rfl | rfl <;> exact hi.acquire hg rfl rfl hp
  | evicted hg => exact evict _ hi hg
  | dropped hg =>
      refine hi.of_set hg rfl rfl trivial fun L O ha => ?_
      rw [Pc.evicted?, hold, Multiset.add_cons, Multiset.add_cons] at ha
      exact ha.drop
  | foundLate hg hpc hc =>
      rcases hpc with ⟨-, rfl⟩ | ⟨d, -, rfl⟩ <;> exact hi.touch_dropSlot hg rfl rfl hc
  | connected hg =>
      refine hi.connect hg ?_
      split
      · exact .inl rfl
      · exact .inr rfl
  | failed hg hs he => exact hi.fail hg hs he
  | published hg => exact hi.publish hg
  | @cancelled i k pc hg haw =>
      refine hi.of_set hg rfl rfl trivial fun L O ha => ?_
      have he : pc.evicted? = none := by cases pc <;> first | rfl | cases haw
      rw [he] at ha
      cases hs : pc.slot? with
      | none => rw [hs] at ha; exact ha
      | some n => rw [hs] at ha; exact ha.release
  | @cloned l hl =>
      have hm : l ∈ s.leases := by simp [Pool.leases, hl]
      have hcl := hi.account.clone hm
      rw [Pool.leases, ← Multiset.add_cons, ← Multiset.cons_add] at hcl
      exact ⟨hcl, hi.gets⟩
  | returned hl =>
      have ha := hi.account
      rw [Pool.leases, Multiset.coe_eq_coe.mpr (List.perm_cons_erase hl), ← Multiset.cons_coe,
        Multiset.cons_add, Multiset.add_cons] at ha
      exact ⟨ha.drop, hi.gets⟩
  | died => exact ⟨hi.account, hi.gets⟩
  | invalidated => exact ⟨remove hi.account, hi.gets⟩

/-- **Run lemma.** -/
theorem of_reachable {kind : Kind κ} (h : Transition.Reachable (system kind max) s) : Inv s := by
  refine h.invariant ?_ ?_
  · rintro s rfl
    exact .new
  · intro s a s' hi _ hs
    exact hi.step hs

end steps

theorem owner_unique (hi : Inv s) {j n : ℕ} {g g' : Get κ} (h : s.gets[i]? = some g)
    (h' : s.gets[j]? = some g') (hg : g.pc.slot? = some n) (hg' : g'.pc.slot? = some n) :
    i = j := by
  by_contra hij
  have hn := hi.account.nodup
  rw [Pool.owners, handles_eq h, hg, hold] at hn
  refine (Multiset.nodup_cons.mp hn).1 (Multiset.mem_coe.mpr ?_)
  exact List.mem_filterMap.mpr ⟨g', List.mem_eraseIdx_iff_getElem?.mpr ⟨j, Ne.symm hij, h'⟩, hg'⟩

end Inv

/-- The slot that call `i` holds. -/
def Pool.slotOf (s : Pool max κ) (i : ℕ) : Option ℕ := s.gets[i]?.bind (·.pc.slot?)

theorem Pool.mem_owners {s : Pool max κ} {n : ℕ} :
    n ∈ s.owners ↔ ∃ i, s.slotOf i = some n := by
  rw [Pool.owners, handles, Multiset.mem_coe, List.mem_filterMap]
  constructor
  · rintro ⟨g, hm, hg⟩
    obtain ⟨i, hi⟩ := List.mem_iff_getElem?.mp hm
    exact ⟨i, by rw [Pool.slotOf, hi, Option.bind_some, hg]⟩
  · rintro ⟨i, hi⟩
    obtain ⟨g, hg, hs⟩ := Option.bind_eq_some_iff.mp hi
    exact ⟨g, List.mem_of_getElem? hg, hs⟩

/-- What a pool promises about its capacity. -/
structure Exact (s : Pool max κ) : Prop where
  /-- every permit is free or in a live slot -/
  capacity : s.permits.free + s.permits.live.card = max
  /-- a live slot belongs to one call in progress, or to one connection with a lease -/
  owned : ∀ n ∈ s.permits.live,
    ((∃! i, s.slotOf i = some n) ∧ ∀ l ∈ s.leases, l.slot ≠ n) ∨
      ((∃! c, ⟨c, n⟩ ∈ s.leases) ∧ ∀ i, s.slotOf i ≠ some n)
  /-- connections kept open by a lease, and connections in progress -/
  bounded : (s.leases.map Lease.connection).toFinset.card + s.owners.card ≤ max
  /-- nothing is lost: when no call and no lease is left, every permit is free -/
  returned : s.leases = 0 → s.owners = 0 → s.permits.free = max

theorem Inv.exact {s : Pool max κ} (hi : Inv s) : Exact s := by
  have ha := hi.account
  refine ⟨s.permits.free_add_card_live, fun n hn => ?_, ha.card_le, fun hl ho => ?_⟩
  · rw [ha.held.live_iff, Multiset.mem_add] at hn
    rcases hn with hn | hn
    · obtain ⟨⟨c, n⟩, hl, rfl⟩ := Multiset.mem_map.mp hn
      refine .inr ⟨⟨c, hl, fun c' hl' => ha.connection_unique hl' hl⟩, fun i hs => ?_⟩
      exact ha.apart n (Pool.mem_owners.mpr ⟨i, hs⟩) _ hl rfl
    · refine .inl ⟨?_, ha.apart n hn⟩
      obtain ⟨i, hs⟩ := Pool.mem_owners.mp hn
      refine ⟨i, hs, fun j hs' => ?_⟩
      obtain ⟨g, hg, hgs⟩ := Option.bind_eq_some_iff.mp hs
      obtain ⟨g', hg', hgs'⟩ := Option.bind_eq_some_iff.mp hs'
      exact hi.owner_unique hg' hg hgs' hgs
  · have hlive : s.permits.live = ∅ := by
      rw [Finset.eq_empty_iff_forall_notMem]
      intro n hn
      rw [ha.held.live_iff, hl, ho] at hn
      simp at hn
    have := s.permits.free_add_card_live
    rwa [hlive, Finset.card_empty, add_zero] at this

/-- **The capacity of a pool is exact**, in every reachable state. -/
theorem exact_of_reachable [DecidableEq κ] {kind : Kind κ} {s : Pool max κ}
    (h : Transition.Reachable (system kind max) s) : Exact s :=
  (Inv.of_reachable h).exact

/-- Two calls for one host take both slots of an HTTP/3 pool; one is cancelled, the other is
invalidated while its lease is borrowed. -/
def cancelledRun : List (Action (Bytes × UInt16)) :=
  let k := (utf8 "a.example", 443)
  [.get k, .get k, .lookup 0, .lookup 1, .tryAcquire 0, .tryAcquire 1, .recheck 0, .recheck 1,
    .resolve 0 none, .resolve 1 none, .connect 0 none, .connect 1 none, .setup 0 none, .insert 0,
    .cancel 1, .invalidate k]

theorem exact_of_reachable_cancelledRun :
    ∃ s, Transition.run (system http3ConnectionPool 2) (.new 2 _) cancelledRun = some s ∧
      s.borrowed.length = 1 ∧ s.permits.free = 1 ∧ Exact s := by
  refine ⟨_, rfl, rfl, rfl, ?_⟩
  have h0 : (system http3ConnectionPool 2).init (.new 2 _) := rfl
  exact exact_of_reachable (.of_run cancelledRun h0 rfl)

end DnsIngress.QuicPool
