import DnsIngress.QuicPoolCapacity

/-! # The sessions of the connection pools

What a step can do to the entry of a key is said once, in `Change`: leave it, touch it, remove it
because its connection is dead or because it is idle, put a new lease in the place of a dead one,
or remove it on demand.  From this follows whose connection a call of `get` returns, and that the
calls for one key share a session as long as it is alive, borrowed and not invalidated. -/

namespace DnsIngress.QuicPool

variable {max : ℕ} {κ : Type} [DecidableEq κ]

/-! ### The entry of a key -/

theorem Cache.lookup_retain (c : Cache κ) (p : CachedLease → Bool) (k : κ) :
    AList.lookup k (c.retain p) = (c.lookup k).filter p := by
  ext v
  rw [Option.filter_eq_some_iff]
  refine AList.mem_lookup_iff.trans ?_
  simp only [retain, List.mem_filter, ← AList.mem_lookup_iff, Option.mem_def]

namespace Pool

variable {kind : Kind κ} {s s' : Pool max κ} {a : Action κ} {k : κ} {c : CachedLease}

theorem cached_eq_some :
    s.cached k = some c ↔ s.entries.lookup k = some c ∧ s.closed c.lease.connection = false := by
  simp [cached, Option.filter_eq_some_iff, isAlive]

/-- What a step does to the entry of `k`. -/
inductive Change (s s' : Pool max κ) (a : Action κ) (k : κ) : Prop
  | same : s'.entries.lookup k = s.entries.lookup k → Change s s' a k
  | touched (c : CachedLease) : s.cached k = some c →
      s'.entries.lookup k = some { c with lastUsed := s.now } → Change s s' a k
  /-- the connection of the entry is dead -/
  | dead : s.cached k = none → s'.entries.lookup k = none → Change s s' a k
  /-- the entry is idle -/
  | evicted (c : CachedLease) : s.cached k = some c → s.sweep.isIdle c = true →
      s'.entries.lookup k = none → Change s s' a k
  /-- call `i` has connected, and there is no live entry -/
  | published (i n d : ℕ) : s.cached k = none → s.gets[i]? = some ⟨k, .insert n d⟩ →
      s'.entries.lookup k = some ⟨⟨d, n⟩, s.now⟩ → ⟨d, n⟩ ∈ s'.borrowed → a = .insert i →
      Change s s' a k
  | invalidated : a = .invalidate k → s'.entries.lookup k = none → Change s s' a k

theorem change_touch {i : ℕ} {k' : κ} {c : CachedLease} (hc : s.cached k' = some c)
    (he : s'.entries = (s.touch i k' c).entries) : Change s s' a k := by
  by_cases hk : k = k'
  · subst hk
    exact .touched c hc (by rw [he]; exact AList.lookup_insert _)
  · exact .same (by rw [he]; exact AList.lookup_insert_ne hk)

theorem lookup_sweep : s.sweep.entries.lookup k = s.cached k := Cache.lookup_retain _ _ _

theorem mem_dead {n : ℕ} :
    n ∈ (s.entries.entries.filter fun e => !s.isAlive e.2).map (·.2.lease.slot) ↔
      ∃ k c, s.entries.lookup k = some c ∧ s.isAlive c = false ∧ c.lease.slot = n := by
  rw [List.mem_map]
  constructor
  · rintro ⟨⟨k, c⟩, he, rfl⟩
    obtain ⟨he, hdead⟩ := List.mem_filter.mp he
    exact ⟨k, c, AList.mem_lookup_iff.mpr he, by simpa using hdead, rfl⟩
  · rintro ⟨k, c, hc, hdead, rfl⟩
    exact ⟨⟨k, c⟩, List.mem_filter.mpr ⟨AList.mem_lookup_iff.mp hc, by simpa using hdead⟩, rfl⟩

theorem change_sweep (h : s'.entries.lookup k = s.cached k) : Change s s' a k := by
  cases hc : s.cached k with
  | none => exact .dead hc (h.trans hc)
  | some c => exact .same (h.trans (hc.trans (cached_eq_some.mp hc).1.symm))

theorem change_evict {i : ℕ} {k' : κ} {victim : Option κ}
    (hv : s.sweep.IsVictim victim) : Change s (s.evictTo i k' victim) a k := by
  cases victim with
  | none => exact change_sweep lookup_sweep
  | some v =>
      by_cases hk : k = v
      · subst hk
        obtain ⟨⟨_, c⟩, hm, rfl, -⟩ := hv
        obtain ⟨hm, hidle⟩ := List.mem_filter.mp hm
        have hc : s.cached _ = some c := lookup_sweep.symm.trans (AList.mem_lookup_iff.mpr hm)
        exact .evicted c hc hidle (AList.lookup_erase _ _)
      · exact change_sweep ((AList.lookup_erase_ne hk).trans lookup_sweep)

theorem change_of_move (h : Move kind s a s') (k : κ) : Change s s' a k := by
  cases h with
  | found hg hc => exact change_touch hc rfl
  | @foundLate _ i _ _ n c hg hpc hc => exact change_touch (i := i) hc rfl
  | @missed i k' hg hc =>
      by_cases hk : k = k'
      · subst hk
        exact .dead hc (AList.lookup_erase _ _)
      · exact .same (AList.lookup_erase_ne hk)
  | evicted hg hs => exact change_evict hs
  | @published i k' n d hg hc =>
      by_cases hk : k = k'
      · subst hk
        exact .published i n d hc hg (AList.lookup_insert _) List.mem_cons_self rfl
      · exact .same (AList.lookup_insert_ne hk)
  | @invalidated k' =>
      by_cases hk : k = k'
      · subst hk
        exact .invalidated rfl (AList.lookup_erase _ _)
      · exact .same (AList.lookup_erase_ne hk)
  | _ => exact .same rfl

theorem mem_leases (h : s.entries.lookup k = some c) : c.lease ∈ s.entries.leases := by
  rw [Cache.leases_erase s.entries k, h, Option.map_some, hold]
  exact Multiset.mem_cons_self _ _

theorem not_idle (hi : Inv s) {l : Lease} (hc : s.cached k = some c) (hl : l ∈ s.borrowed)
    (hs : l.slot = c.lease.slot) : s.sweep.isIdle c = false := by
  have ha : Account s.sweep.permits
      (s.sweep.entries.leases + (s.borrowed + handles Pc.evicted? s.gets)) s.owners
      s.connections := Inv.sweep hi.account
  have hb : l ∈ s.borrowed + handles Pc.evicted? s.gets :=
    Multiset.mem_add.mpr (.inl (Multiset.mem_coe.mpr hl))
  have htwo := ha.two_le (mem_leases (lookup_sweep.trans hc)) hb hs
  rw [isIdle, beq_eq_false_iff_ne]
  omega

theorem connection_of_move (h : Move kind s a s') {d : ℕ} {x : κ × ℕ}
    (hx : s.connections[d]? = some x) : s'.connections[d]? = some x := by
  cases h with
  | connected => rwa [List.getElem?_append_left (List.getElem?_eq_some_iff.mp hx).1]
  | _ => exact hx

end Pool

/-! ### Whose connection a lease is of -/

/-- The entry of a key is of a connection for that key. -/
def Keyed (s : Pool max κ) : Prop :=
  ∀ k c, s.entries.lookup k = some c → s.connections[c.lease.connection]? = some (k, c.lease.slot)

namespace Keyed

variable {kind : Kind κ} {s s' : Pool max κ} {a : Action κ}

theorem step (hk : Keyed s) (hi : Inv s) (h : s.step kind a = some s') : Keyed s' := by
  have hm := Pool.move_of_step h
  intro k c' hc'
  cases Pool.change_of_move hm k with
  | same he => exact Pool.connection_of_move hm (hk k c' (he ▸ hc'))
  | touched c hc he =>
      cases he.symm.trans hc'
      exact Pool.connection_of_move hm (hk k c (Pool.cached_eq_some.mp hc).1)
  | published i n d _ hg he _ =>
      cases he.symm.trans hc'
      exact Pool.connection_of_move hm (hi.gets _ (List.mem_of_getElem? hg))
  | dead _ he | evicted _ _ _ he | invalidated _ he => cases he.symm.trans hc'

theorem of_reachable (h : Transition.Reachable (system kind max) s) : Keyed s := by
  refine h.invariant (I := fun s => Inv s ∧ Keyed s) ?_ ?_ |>.2
  · rintro s rfl
    exact ⟨.new, fun k c h => by cases h⟩
  · intro s a s' hi _ hs
    exact ⟨hi.1.step hs, hi.2.step hi.1 hs⟩

end Keyed

section slots
variable {s : Pool max κ} {k k' : κ} {c c' : CachedLease}

theorem mem_leases_of_lookup (h : s.entries.lookup k = some c) : c.lease ∈ s.leases :=
  Multiset.mem_add.mpr (.inl (Pool.mem_leases h))

theorem Keyed.slot_inj (hk : Keyed s) (hi : Inv s) (hc : s.entries.lookup k = some c)
    (hc' : s.entries.lookup k' = some c') (hs : c.lease.slot = c'.lease.slot) : k = k' := by
  have hconn : c.lease.connection = c'.lease.connection := by
    refine hi.account.connection_unique (n := c.lease.slot) (mem_leases_of_lookup hc) ?_
    rw [hs]
    exact mem_leases_of_lookup hc'
  have h := hk k c hc
  rw [hconn, hk k' c' hc'] at h
  exact (Prod.mk.inj (Option.some.inj h)).1.symm

end slots

/-- The step from `s` to `s'` ends call `i` of `get(k)` with the lease `l`. -/
structure Returns (s s' : Pool max κ) (i : ℕ) (k : κ) (l : Lease) : Prop where
  before : s.gets[i]? ≠ some ⟨k, .returned l⟩
  after : s'.gets[i]? = some ⟨k, .returned l⟩

namespace Returns

variable {kind : Kind κ} {s s' : Pool max κ} {a : Action κ} {i j : ℕ} {k k' : κ} {l : Lease}
  {pc : Pc}

omit [DecidableEq κ] in
theorem not_same (hr : Returns s s' i k l) : s'.gets ≠ s.gets := fun h =>
  hr.before (h ▸ hr.after)

omit [DecidableEq κ] in
theorem of_set (hr : Returns s s' i k l) (h : s'.gets = s.gets.set j ⟨k', pc⟩) :
    i = j ∧ k' = k ∧ pc = .returned l := by
  have ha := hr.after
  rw [h] at ha
  rcases getElem?_set_cases ha with ⟨hij, he⟩ | ⟨-, ha⟩
  · cases he
    exact ⟨hij, rfl, rfl⟩
  · exact absurd ha hr.before

/-- A call returns the live entry of its key, or its own connection when there is none. -/
theorem cases (hr : Returns s s' i k l) (h : Pool.Move kind s a s') :
    (∃ c, s.cached k = some c ∧ c.lease = l ∧ s'.entries = (s.touch i k c).entries) ∨
      s.cached k = none ∧ s.gets[i]? = some ⟨k, .insert l.slot l.connection⟩ ∧
        s'.entries = (s.publish i k l).entries := by
  cases h with
  | found hg hc | foundLate hg _ hc =>
      obtain ⟨rfl, rfl, he⟩ := hr.of_set rfl
      cases he
      exact .inl ⟨_, hc, rfl, rfl⟩
  | published hg hc =>
      obtain ⟨rfl, rfl, he⟩ := hr.of_set rfl
      cases he
      exact .inr ⟨hc, hg, rfl⟩
  | get =>
      rcases getElem?_append_cases hr.after with he | ha
      · cases he
      · exact absurd ha hr.before
  | advance hg ha =>
      obtain ⟨-, -, he⟩ := hr.of_set rfl
      cases ha <;> cases he
  | connected =>
      have he := (hr.of_set rfl).2.2
      split_ifs at he
  | missed | acquired | evicted | dropped | failed | cancelled => cases (hr.of_set rfl).2.2
  | _ => exact absurd rfl hr.not_same

end Returns

/-! ### Who established a connection -/

/-- A pool and the call that established each of its connections. -/
structure Founded (max : ℕ) (κ : Type) extends Pool max κ where
  founders : List ℕ

/-- The call that establishes a connection in the step. -/
def founder : Action κ → List ℕ
  | .connect i none => [i]
  | _ => []

/-- A pool that remembers who established its connections. -/
def foundedSystem (kind : Kind κ) (max : ℕ) : Transition.System (Founded max κ) (Action κ) where
  init s := s = ⟨.new max κ, []⟩
  step s a := (s.step kind a).map fun p => ⟨p, s.founders ++ founder a⟩

/-- The connection in the locals of a call. -/
def Pc.connection? : Pc → Option ℕ
  | setup _ c | insert _ c => some c
  | lookup | acquire | evict | dropEvicted _ | retry | recheck _ | resolve _ | connect _
  | returned _ | failed _ | cancelled => none

namespace Founded

variable {kind : Kind κ} {s s' : Founded max κ} {a : Action κ}

theorem refines (h : Transition.Reachable (foundedSystem kind max) s) :
    Transition.Reachable (system kind max) s.toPool := by
  refine h.simulation (T := system kind max) Founded.toPool ?_ fun s a s' _ hs => .inr ⟨a, ?_⟩
  · rintro s rfl
    rfl
  · obtain ⟨p, hp, rfl⟩ := Option.map_eq_some_iff.mp hs
    exact hp

/-- A call that has a connection has established it. -/
structure Own (s : Founded max κ) : Prop where
  length : s.founders.length = s.connections.length
  call : ∀ (i : ℕ) (g : Get κ) (d : ℕ), s.gets[i]? = some g → g.pc.connection? = some d →
    s.founders[d]? = some i

namespace Own

variable {i : ℕ} {k : κ} {pc pc' : Pc} {p : Pool max κ}

omit [DecidableEq κ] in
theorem of_set (ho : Own s) (hg : s.gets[i]? = some ⟨k, pc⟩) (hc : p.connections = s.connections)
    (hs : p.gets = s.gets.set i ⟨k, pc'⟩)
    (hpc : pc'.connection? = none ∨ pc'.connection? = pc.connection?) : Own ⟨p, s.founders⟩ := by
  refine ⟨by rw [ho.length, hc], fun j g d hj hd => ?_⟩
  rw [hs] at hj
  rcases getElem?_set_cases hj with ⟨rfl, rfl⟩ | ⟨-, hj⟩
  · rcases hpc with hpc | hpc
    · cases hpc.symm.trans hd
    · exact ho.call _ _ d hg (hpc.symm.trans hd)
  · exact ho.call j g d hj hd

omit [DecidableEq κ] in
theorem same (ho : Own s) (hc : p.connections = s.connections) (hg : p.gets = s.gets) :
    Own ⟨p, s.founders⟩ :=
  ⟨by rw [ho.length, hc], fun j g d hj hd => ho.call j g d (hg ▸ hj) hd⟩

theorem step (ho : Own s) (h : (foundedSystem kind max).step s a = some s') : Own s' := by
  obtain ⟨p, hp, rfl⟩ := Option.map_eq_some_iff.mp h
  by_cases hf : founder a = []
  · rw [hf, List.append_nil]
    cases Pool.move_of_step hp with
    | get =>
        refine ⟨ho.length, fun j g d hj hd => ?_⟩
        rcases getElem?_append_cases hj with rfl | hj
        · cases hd
        · exact ho.call j g d hj hd
    | advance hg ha => exact ho.of_set hg rfl rfl (by cases ha <;> exact .inr rfl)
    | found hg | missed hg | acquired hg | evicted hg | dropped hg | foundLate hg | failed hg
      | published hg | cancelled hg => exact ho.of_set hg rfl rfl (.inl rfl)
    | connected => cases hf
    | _ => exact ho.same rfl rfl
  · cases Pool.move_of_step hp with
    | @connected i k n hg =>
        refine ⟨by simp [founder, ho.length], fun j g d hj hd => ?_⟩
        rcases getElem?_set_cases hj with ⟨rfl, rfl⟩ | ⟨-, hj⟩
        · have hd' : s.connections.length = d := by
            cases hk : kind.setup <;> simpa [hk, Pc.connection?] using hd
          simp [founder, ← hd', ← ho.length]
        · have hlt := (List.getElem?_eq_some_iff.mp (ho.call j g d hj hd)).1
          rw [List.getElem?_append_left hlt]
          exact ho.call j g d hj hd
    | advance _ ha => cases ha <;> exact absurd rfl hf
    | foundLate _ ha => rcases ha with ⟨rfl, -⟩ | ⟨d, rfl, -⟩ <;> exact absurd rfl hf
    | failed _ _ _ ha _ => rcases ha with rfl | rfl | rfl <;> exact absurd rfl hf
    | _ => exact absurd rfl hf

theorem of_reachable (h : Transition.Reachable (foundedSystem kind max) s) : Own s := by
  refine h.invariant ?_ fun s a s' ho _ hs => ho.step hs
  rintro s rfl
  exact ⟨rfl, fun j g d hj => by cases hj⟩

end Own
end Founded

/-! ### Sessions in use -/

/-- The cache holds the lease `l` for `k`. -/
def Pool.Session (s : Pool max κ) (k : κ) (l : Lease) : Prop :=
  (s.entries.lookup k).map (·.lease) = some l

/-- The connection of `l` is alive and somebody has borrowed a lease of it, and the step does not
invalidate `k`. -/
def InUse (k : κ) (l : Lease) (s : Pool max κ) (a : Action κ) : Prop :=
  s.closed l.connection = false ∧ (∃ b ∈ s.borrowed, b.connection = l.connection) ∧
    a ≠ .invalidate k

namespace Pool

variable {kind : Kind κ} {s s' : Pool max κ} {a : Action κ} {i : ℕ} {k : κ} {l l' : Lease}

theorem Session.cached (hs : s.Session k l) (hu : InUse k l s a) :
    ∃ c, s.cached k = some c ∧ c.lease = l := by
  obtain ⟨c, hc, rfl⟩ := Option.map_eq_some_iff.mp hs
  exact ⟨c, cached_eq_some.mpr ⟨hc, hu.1⟩, rfl⟩

omit [DecidableEq κ] in
theorem slot_eq (hi : Inv s) (hl : l ∈ s.leases) (hl' : l' ∈ s.leases)
    (h : l.connection = l'.connection) : l.slot = l'.slot := by
  obtain ⟨k, hk⟩ := hi.account.recorded l hl
  obtain ⟨k', hk'⟩ := hi.account.recorded l' hl'
  rw [h, hk'] at hk
  exact (Prod.mk.inj (Option.some.inj hk)).2.symm

/-- **Step lemma.** A session in use stays. -/
theorem Session.step (hs : s.Session k l) (hi : Inv s) (hu : InUse k l s a)
    (h : s.step kind a = some s') : s'.Session k l := by
  obtain ⟨c, hc, rfl⟩ := hs.cached hu
  obtain ⟨-, ⟨b, hb, hbc⟩, ha⟩ := hu
  cases change_of_move (move_of_step h) k with
  | same he =>
      rw [Session, he]
      exact hs
  | touched c' hc' he =>
      cases hc'.symm.trans hc
      rw [Session, he]
      rfl
  | evicted c' hc' hidle =>
      cases hc'.symm.trans hc
      have hcl : c.lease ∈ s.leases :=
        Multiset.mem_add.mpr (.inl (mem_leases (cached_eq_some.mp hc).1))
      have hbl : b ∈ s.leases :=
        Multiset.mem_add.mpr (.inr (Multiset.mem_add.mpr (.inl (Multiset.mem_coe.mpr hb))))
      rw [not_idle hi hc hb (slot_eq hi hbl hcl hbc)] at hidle
      cases hidle
  | dead hn | published _ _ _ hn => cases hn.symm.trans hc
  | invalidated he => exact absurd he ha

/-- After a call has returned, the cache holds its session. -/
theorem Session.of_returns (hr : Returns s s' i k l) (h : Move kind s a s') : s'.Session k l := by
  rcases hr.cases h with ⟨c, -, rfl, he⟩ | ⟨-, -, he⟩
  · simp [Session, he, touch]
  · simp [Session, he, publish]

/-- Every call for the key of a session in use returns it. -/
theorem Session.returns (hs : s.Session k l) (hu : InUse k l s a) (h : s.step kind a = some s')
    (hr : Returns s s' i k l') : l' = l := by
  obtain ⟨c, hc, rfl⟩ := hs.cached hu
  rcases hr.cases (move_of_step h) with ⟨c', hc', rfl, -⟩ | ⟨hn, -⟩
  · cases hc'.symm.trans hc
    rfl
  · cases hn.symm.trans hc

end Pool

/-- What a pool promises about the sessions it returns. -/
structure Sessions (kind : Kind κ) (s : Founded max κ) : Prop where
  /-- a returned lease is of a connection for its key, which the call has established itself or
  has found open in the cache -/
  own : ∀ a s' i k l, (foundedSystem kind max).step s a = some s' →
    Returns s.toPool s'.toPool i k l → s'.connections[l.connection]? = some (k, l.slot) ∧
      (s'.founders[l.connection]? = some i ∨ s.Session k l ∧ s.closed l.connection = false)
  kept : ∀ a s' k l, (foundedSystem kind max).step s a = some s' → s.Session k l →
    InUse k l s.toPool a → s'.Session k l
  /-- in every run from `s` in which `l` stays in use -/
  shared : ∀ k l t, s.Session k l →
    Transition.ReachWhile { foundedSystem kind max with init := (· = s) }
      (fun t a => InUse k l t.toPool a) t →
    t.Session k l ∧ ∀ a t' i l', InUse k l t.toPool a →
      (foundedSystem kind max).step t a = some t' → Returns t.toPool t'.toPool i k l' → l' = l

/-- **Sessions in use are kept and never mixed up.** -/
theorem sessions_of_reachable {kind : Kind κ} {s : Founded max κ}
    (h : Transition.Reachable (foundedSystem kind max) s) : Sessions kind s := by
  have hi := Inv.of_reachable (Founded.refines h)
  constructor
  · intro a s' i k l hs hr
    have hk := Keyed.of_reachable (Founded.refines h)
    obtain ⟨p, hp, rfl⟩ := Option.map_eq_some_iff.mp hs
    have hm := Pool.move_of_step hp
    rcases hr.cases hm with ⟨c, hc, rfl, -⟩ | ⟨-, hg, -⟩
    · obtain ⟨hl, ha⟩ := Pool.cached_eq_some.mp hc
      exact ⟨Pool.connection_of_move hm (hk k c hl), .inr ⟨by rw [Pool.Session, hl]; rfl, ha⟩⟩
    · have hown := (Founded.Own.of_reachable h).call i _ _ hg rfl
      refine ⟨Pool.connection_of_move hm (hi.gets _ (List.mem_of_getElem? hg)), .inl ?_⟩
      rw [List.getElem?_append_left (List.getElem?_eq_some_iff.mp hown).1, hown]
  · intro a s' k l hs hl hu
    obtain ⟨p, hp, rfl⟩ := Option.map_eq_some_iff.mp hs
    exact hl.step hi hu hp
  · intro k l t hl ht
    have hinv : t.Session k l ∧ Inv t.toPool := by
      refine ht.invariant (I := fun t => t.Session k l ∧ Inv t.toPool) ?_ ?_
      · rintro t rfl
        exact ⟨hl, hi⟩
      · rintro t a t' ⟨htl, hti⟩ hu hs
        obtain ⟨p, hp, rfl⟩ := Option.map_eq_some_iff.mp hs
        exact ⟨htl.step hti hu hp, hti.step hp⟩
    refine ⟨hinv.1, fun a t' i l' hu hs hr => ?_⟩
    obtain ⟨p, hp, rfl⟩ := Option.map_eq_some_iff.mp hs
    exact hinv.1.returns hu hp hr

/-- Two calls for one name connect in parallel; the second one is late and returns the session of
the first. -/
def raceRun : List (Action (Bytes × UInt16)) :=
  let k := (utf8 "a.example", 443)
  [.get k, .get k, .lookup 0, .lookup 1, .tryAcquire 0, .tryAcquire 1, .recheck 0, .recheck 1,
    .resolve 0 none, .resolve 1 none, .connect 0 none, .connect 1 none, .setup 0 none,
    .setup 1 none, .insert 0, .insert 1]

theorem sessions_of_reachable_raceRun :
    ∃ s, Transition.run (foundedSystem http3ConnectionPool 2) ⟨.new 2 _, []⟩ raceRun = some s ∧
      s.borrowed = [⟨0, 0⟩, ⟨0, 0⟩] ∧ Sessions http3ConnectionPool s :=
  ⟨_, rfl, rfl, sessions_of_reachable (.of_run raceRun rfl rfl)⟩

end DnsIngress.QuicPool
