import DnsIngress.QuicPoolSessions
import Mathlib.Data.List.MinMax

/-! # What `acquire_slot` evicts

`Pool.acquireSlot` is a call of `acquire_slot` that nothing interferes with; `run_acquireSlot` says
that it is the steps of one call of `get` taken one after the other.

`acquireSlot_exact` compares it with what eviction is for: a live session is given up only when no
permit can be had otherwise.  The sweep may free a permit by itself, and the code evicts without
looking. -/

namespace DnsIngress.QuicPool

variable {max : ℕ} {κ : Type} [DecidableEq κ]

namespace Pool

/-- `entries.remove(&key)` for the key of the victim, and what it returns. -/
def removeVictim (s : Pool max κ) (victim : Option κ) : Pool max κ :=
  { s with entries := victim.elim s.entries s.entries.erase }

def victimLease (s : Pool max κ) (victim : Option κ) : Option Lease :=
  (victim.bind s.entries.lookup).map (·.lease)

/-- `drop(evicted)`. -/
def dropLease (s : Pool max κ) (evicted : Option Lease) : Pool max κ :=
  { s with permits := s.permits.dropAll (evicted.map (·.slot)).toList }

/-- The section of `acquire_slot` under the entries lock, and `drop(evicted)` after it. -/
def sweepAndEvict (s : Pool max κ) (victim : Option κ) : Pool max κ :=
  (s.sweep.removeVictim victim).dropLease (s.sweep.victimLease victim)

/-- The second `try_acquire_owned`. -/
def retry (kind : Kind κ) (s : Pool max κ) (k : κ) : Except DnsProxyError ℕ × Pool max κ :=
  match s.permits.tryAcquire with
  | some (slot, p) => (.ok slot, { s with permits := p })
  | none => (.error (overloaded (kind.hostname k) (kind.port k) kind.protocol), s)

/-- `acquire_slot`; `none` if this is not a victim that `min_by_key` may choose. -/
def acquireSlot (kind : Kind κ) (s : Pool max κ) (k : κ) (victim : Option κ) :
    Option (Except DnsProxyError ℕ × Pool max κ) :=
  match s.permits.tryAcquire with
  | some (slot, p) => some (.ok slot, { s with permits := p })
  | none =>
      if s.sweep.IsVictim victim then some ((s.sweepAndEvict victim).retry kind k) else none

/-- Every cached lease is a handle, of a slot of its own. -/
structure Sound (s : Pool max κ) : Prop where
  held : ∀ k c, s.entries.lookup k = some c → 0 < s.permits.strong c.lease.slot
  apart : ∀ k c k' c', s.entries.lookup k = some c → s.entries.lookup k' = some c' →
    c.lease.slot = c'.lease.slot → k = k'

/-- The entry of this key is dead, and nobody has borrowed it. -/
def DeadIdle (s : Pool max κ) (k : κ) : Prop :=
  ∃ c, s.entries.lookup k = some c ∧ s.isAlive c = false ∧ s.isIdle c = true

/-- The entry of this key is live, and nobody has borrowed it. -/
def LiveIdle (s : Pool max κ) (k : κ) : Prop :=
  ∃ c, s.cached k = some c ∧ s.isIdle c = true

/-- A permit is free, or the sweep of the dead entries frees one. -/
def HasRoom (s : Pool max κ) : Prop := 0 < s.permits.free ∨ ∃ k, s.DeadIdle k

/-- The live entry of this key, if there is one, is still cached. -/
def Keeps (s s' : Pool max κ) (k : κ) : Prop :=
  ∀ c, s.cached k = some c → s'.entries.lookup k = some c

/-- What a call of `acquire_slot` is to do: it gives up a live session only when it must, and then
the least recently used of those that nobody has borrowed. -/
structure EvictsWhenItMust (s s' : Pool max κ) (r : Except DnsProxyError ℕ) : Prop where
  ok_iff : (∃ slot, r = .ok slot) ↔ s.HasRoom ∨ ∃ k, s.LiveIdle k
  spared : s.HasRoom → ∀ k, s.Keeps s' k
  evicted : ¬ s.HasRoom → (∃ slot, r = .ok slot) →
    ∃ k c, s.cached k = some c ∧ s.isIdle c = true ∧ s'.entries.lookup k = none ∧
      (∀ k' c', s.entries.lookup k' = some c' → s.isIdle c' = true → c.lastUsed ≤ c'.lastUsed) ∧
      ∀ k', k' ≠ k → s.Keeps s' k'
  refused : (∀ slot, r ≠ .ok slot) → ∀ k, s.Keeps s' k

end Pool

variable {kind : Kind κ} {s s' : Pool max κ} {k : κ} {c : CachedLease} {victim : Option κ}
  {r : Except DnsProxyError ℕ}

/-- The pools keep their cached leases so. -/
theorem Keyed.sound (hk : Keyed s) (hi : Inv s) : s.Sound where
  held _ _ hc := s.permits.mem_live.mp (hi.account.held.live_iff.mpr
    (Multiset.mem_add.mpr (.inl (Multiset.mem_map_of_mem Lease.slot (mem_leases_of_lookup hc)))))
  apart _ _ _ _ hc hc' hs := hk.slot_inj hi hc hc' hs

theorem sound_of_reachable (h : Transition.Reachable (system kind max) s) : s.Sound :=
  (Keyed.of_reachable h).sound (Inv.of_reachable h)

/-! ### The sweep -/

namespace Pool.Sound

theorem nodup_dead (hs : s.Sound) :
    ((s.entries.entries.filter fun e => !s.isAlive e.2).map (·.2.lease.slot)).Nodup := by
  refine List.Nodup.map_on ?_ (s.entries.nodupKeys.nodup.filter _)
  rintro ⟨k, c⟩ he ⟨k', c'⟩ he' hslot
  have hc := AList.mem_lookup_iff.mpr (List.mem_filter.mp he).1
  have hc' := AList.mem_lookup_iff.mpr (List.mem_filter.mp he').1
  obtain rfl := hs.apart k c k' c' hc hc' hslot
  cases hc.symm.trans hc'
  rfl

theorem free_sweep (hs : s.Sound) : 0 < s.sweep.permits.free ↔ s.HasRoom := by
  refine (Permits.free_dropAll_pos hs.nodup_dead ?_).trans (or_congr_right ?_)
  · intro n hn
    obtain ⟨k, c, hc, -, rfl⟩ := mem_dead.mp hn
    exact hs.held k c hc
  · constructor
    · rintro ⟨n, hn, hone⟩
      obtain ⟨k, c, hc, hdead, rfl⟩ := mem_dead.mp hn
      exact ⟨k, c, hc, hdead, beq_iff_eq.mpr hone⟩
    · rintro ⟨k, c, hc, hdead, hidle⟩
      exact ⟨c.lease.slot, mem_dead.mpr ⟨k, c, hc, hdead, rfl⟩, beq_iff_eq.mp hidle⟩

theorem strong_sweep (hs : s.Sound) (hc : s.cached k = some c) :
    s.sweep.permits.strong c.lease.slot = s.permits.strong c.lease.slot := by
  refine Permits.strong_dropAll_of_notMem fun hm => ?_
  obtain ⟨k', c', hc', hdead, hslot⟩ := mem_dead.mp hm
  obtain ⟨hl, hopen⟩ := Pool.cached_eq_some.mp hc
  obtain rfl := hs.apart k' c' k c hc' hl hslot
  cases hl.symm.trans hc'
  simp [Pool.isAlive, hopen] at hdead

theorem isIdle_sweep (hs : s.Sound) (hc : s.cached k = some c) :
    s.sweep.isIdle c = s.isIdle c := by
  rw [Pool.isIdle, hs.strong_sweep hc, Pool.isIdle]

end Pool.Sound

/-! ### The result of a call -/

theorem tryAcquire_isSome {p : Permits max} : (∃ x, p.tryAcquire = some x) ↔ 0 < p.free := by
  rw [← Option.isSome_iff_exists, Option.isSome_iff_ne_none, Nat.pos_iff_ne_zero, ne_eq, ne_eq,
    Permits.tryAcquire_eq_none]

theorem mem_idle_sweep (hs : s.Sound) {e : Sigma fun _ : κ => CachedLease} :
    e ∈ s.sweep.entries.entries.filter (fun e => s.sweep.isIdle e.2) ↔
      s.cached e.1 = some e.2 ∧ s.isIdle e.2 = true := by
  rw [List.mem_filter, ← AList.mem_lookup_iff, Option.mem_def, Pool.lookup_sweep]
  exact and_congr_right fun hc => by rw [hs.isIdle_sweep hc]

theorem isVictim_none (hs : s.Sound) : s.sweep.IsVictim none ↔ ∀ k, ¬ s.LiveIdle k := by
  show s.sweep.entries.entries.filter (fun e => s.sweep.isIdle e.2) = [] ↔ _
  rw [List.eq_nil_iff_forall_not_mem]
  constructor
  · rintro h k ⟨c, hc, hidle⟩
    exact h ⟨k, c⟩ ((mem_idle_sweep hs).mpr ⟨hc, hidle⟩)
  · intro h e he
    obtain ⟨hc, hidle⟩ := (mem_idle_sweep hs).mp he
    exact h e.1 ⟨e.2, hc, hidle⟩

theorem isVictim_some (hs : s.Sound) {v : κ} :
    s.sweep.IsVictim (some v) ↔ ∃ c, s.cached v = some c ∧ s.isIdle c = true ∧
      ∀ k' c', s.cached k' = some c' → s.isIdle c' = true → c.lastUsed ≤ c'.lastUsed := by
  constructor
  · rintro ⟨⟨_, c⟩, he, rfl, hmin⟩
    obtain ⟨hc, hidle⟩ := (mem_idle_sweep hs).mp he
    exact ⟨c, hc, hidle, fun k' c' hc' hidle' =>
      hmin ⟨k', c'⟩ ((mem_idle_sweep hs).mpr ⟨hc', hidle'⟩)⟩
  · rintro ⟨c, hc, hidle, hmin⟩
    refine ⟨⟨v, c⟩, (mem_idle_sweep hs).mpr ⟨hc, hidle⟩, rfl, ?_⟩
    intro e he
    obtain ⟨hc', hidle'⟩ := (mem_idle_sweep hs).mp he
    exact hmin e.1 e.2 hc' hidle'

omit [DecidableEq κ] in
theorem retry_ok {k : κ} :
    (∃ slot, (s.retry kind k).1 = .ok slot) ↔ 0 < s.permits.free := by
  rw [← tryAcquire_isSome]
  unfold Pool.retry
  cases s.permits.tryAcquire with
  | some x => exact iff_of_true ⟨_, rfl⟩ ⟨x, rfl⟩
  | none => exact iff_of_false (by rintro ⟨_, ⟨⟩⟩) (by rintro ⟨_, ⟨⟩⟩)

omit [DecidableEq κ] in
theorem entries_retry {k : κ} : (s.retry kind k).2.entries = s.entries := by
  unfold Pool.retry
  cases s.permits.tryAcquire <;> rfl

/-- The lease of an idle entry is the last handle of its slot. -/
theorem free_sweepAndEvict {v : κ} (hs : s.Sound) (hc : s.cached v = some c)
    (hidle : s.isIdle c = true) : 0 < (s.sweepAndEvict (some v)).permits.free := by
  have hlookup : s.sweep.entries.lookup v = some c := Pool.lookup_sweep.trans hc
  have hone : s.sweep.permits.strong c.lease.slot = 1 := by
    rw [hs.strong_sweep hc]
    exact beq_iff_eq.mp hidle
  have hpermits : (s.sweepAndEvict (some v)).permits = s.sweep.permits.drop c.lease.slot := by
    simp only [Pool.sweepAndEvict, Pool.victimLease, Pool.dropLease, Option.bind_some, hlookup,
      Option.map_some, Option.toList_some]
    rfl
  rw [hpermits, Permits.free_drop (by omega), if_pos hone]
  omega

/-- **What a call does**: it takes a free permit; or else it sweeps, and has a permit then iff the
sweep frees one, or evicts, and has one. -/
theorem acquireSlot_cases (hs : s.Sound) (h : s.acquireSlot kind k victim = some (r, s')) :
    (0 < s.permits.free ∧ (∃ slot, r = .ok slot) ∧ s'.entries = s.entries) ∨
    (s.permits.free = 0 ∧ (∀ k, ¬ s.LiveIdle k) ∧ ((∃ slot, r = .ok slot) ↔ s.HasRoom) ∧
      s'.entries = s.sweep.entries) ∨
    (s.permits.free = 0 ∧ (∃ slot, r = .ok slot) ∧ ∃ v c, s.cached v = some c ∧
      s.isIdle c = true ∧
      (∀ k' c', s.cached k' = some c' → s.isIdle c' = true → c.lastUsed ≤ c'.lastUsed) ∧
      s'.entries = s.sweep.entries.erase v) := by
  unfold Pool.acquireSlot at h
  cases hfirst : s.permits.tryAcquire with
  | some x =>
      simp only [hfirst, Option.some.injEq, Prod.mk.injEq] at h
      obtain ⟨rfl, rfl⟩ := h
      exact .inl ⟨tryAcquire_isSome.mp ⟨x, hfirst⟩, ⟨_, rfl⟩, rfl⟩
  | none =>
      have hfree := Permits.tryAcquire_eq_none.mp hfirst
      simp only [hfirst] at h
      split_ifs at h with hv
      have hretry : (s.sweepAndEvict victim).retry kind k = (r, s') := Option.some.inj h
      have hok : (∃ slot, r = .ok slot) ↔ 0 < (s.sweepAndEvict victim).permits.free := by
        have hok : (∃ slot, ((s.sweepAndEvict victim).retry kind k).1 = .ok slot) ↔ _ := retry_ok
        rwa [hretry] at hok
      have hentries : s'.entries = (s.sweepAndEvict victim).entries := by
        have hsame : ((s.sweepAndEvict victim).retry kind k).2.entries = _ := entries_retry
        rwa [hretry] at hsame
      cases victim with
      | none =>
          refine .inr (.inl ⟨hfree, (isVictim_none hs).mp hv, ?_, hentries⟩)
          rw [hok, ← hs.free_sweep]
          rfl
      | some v =>
          obtain ⟨c, hc, hidle, hmin⟩ := (isVictim_some hs).mp hv
          exact .inr (.inr ⟨hfree, hok.mpr (free_sweepAndEvict hs hc hidle), v, c, hc, hidle, hmin,
            hentries⟩)

theorem exists_acquireSlot (kind : Kind κ) (s : Pool max κ) (k : κ) :
    ∃ victim r s', s.acquireSlot kind k victim = some (r, s') := by
  obtain ⟨victim, hv⟩ : ∃ victim, s.sweep.IsVictim victim := by
    cases hmin : (s.sweep.entries.entries.filter fun e => s.sweep.isIdle e.2).argmin
        (fun e => e.2.lastUsed) with
    | none => exact ⟨none, List.argmin_eq_none.mp hmin⟩
    | some e =>
        refine ⟨some e.1, e, List.argmin_mem hmin, rfl, ?_⟩
        intro e' he'
        have hle := List.le_of_mem_argmin he' hmin
        exact hle
  refine ⟨victim, ?_⟩
  unfold Pool.acquireSlot
  cases s.permits.tryAcquire with
  | some x => exact ⟨_, _, rfl⟩
  | none => exact ⟨_, _, if_pos hv⟩

/-- **`acquire_slot` gives up a live session only when it must, iff** a permit is free, no dead
entry is without a borrower, or no live entry is. -/
theorem acquireSlot_exact (hs : s.Sound) (h : s.acquireSlot kind k victim = some (r, s')) :
    s.EvictsWhenItMust s' r ↔
      0 < s.permits.free ∨ (∀ k, ¬ s.DeadIdle k) ∨ ∀ k, ¬ s.LiveIdle k := by
  rcases acquireSlot_cases hs h with
    ⟨hfree, hok, hentries⟩ | ⟨hfree, hlive, hok, hentries⟩ |
      ⟨hfree, hok, v, c, hc, hidle, hmin, hentries⟩
  · refine iff_of_true ?_ (.inl hfree)
    have hkeeps (k : κ) : s.Keeps s' k := by
      intro c hc
      rw [hentries]
      exact (Pool.cached_eq_some.mp hc).1
    exact
      { ok_iff := iff_of_true hok (.inl (.inl hfree))
        spared := fun _ => hkeeps
        evicted := fun hroom => absurd (.inl hfree) hroom
        refused := fun hr => absurd hok.choose_spec (hr _) }
  · refine iff_of_true ?_ (.inr (.inr hlive))
    have hkeeps (k : κ) : s.Keeps s' k := by
      intro c hc
      rw [hentries, Pool.lookup_sweep]
      exact hc
    exact
      { ok_iff := hok.trans (or_iff_left fun ⟨k, hk⟩ => hlive k hk).symm
        spared := fun _ => hkeeps
        evicted := fun hroom hslot => absurd (hok.mp hslot) hroom
        refused := fun _ => hkeeps }
  · have hgone : s'.entries.lookup v = none := by
      rw [hentries]
      exact AList.lookup_erase v _
    have hlive : ∃ k, s.LiveIdle k := ⟨v, c, hc, hidle⟩
    constructor
    · intro hspec
      refine .inr (.inl fun k hdead => ?_)
      cases hgone.symm.trans (hspec.spared (.inr ⟨k, hdead⟩) v c hc)
    · intro hcond
      have hdead : ∀ k, ¬ s.DeadIdle k := by
        rcases hcond with hpos | hdead | hnone
        · omega
        · exact hdead
        · exact absurd ⟨c, hc, hidle⟩ (hnone v)
      have hroom : ¬ s.HasRoom := by
        rintro (hpos | ⟨k, hk⟩)
        · omega
        · exact hdead k hk
      refine
        { ok_iff := iff_of_true hok (.inr hlive)
          spared := fun hr => absurd hr hroom
          evicted := fun _ _ => ⟨v, c, hc, hidle, hgone, ?_, ?_⟩
          refused := fun hr => absurd hok.choose_spec (hr _) }
      · intro k' c' hc' hidle'
        cases halive : s.isAlive c' with
        | false => exact absurd ⟨c', hc', halive, hidle'⟩ (hdead k')
        | true =>
            refine hmin k' c' (Pool.cached_eq_some.mpr ⟨hc', ?_⟩) hidle'
            simpa [Pool.isAlive] using halive
      · intro k' hne c' hc'
        rw [hentries, AList.lookup_erase_ne hne, Pool.lookup_sweep]
        exact hc'

/-- A call of `get` that publishes a session, which is returned. -/
def sessionRun (i : ℕ) (k : Bytes × UInt16) : List (Action (Bytes × UInt16)) :=
  [.get k, .lookup i, .tryAcquire i, .recheck i, .resolve i none, .connect i none, .setup i none,
    .insert i, .dropLease ⟨i, i⟩, .tick]

/-- A call for a third host of an HTTP/3 pool that holds two sessions nobody has borrowed. -/
def crowdedRun : List (Action (Bytes × UInt16)) :=
  sessionRun 0 (utf8 "a.example", 443) ++ sessionRun 1 (utf8 "b.example", 443) ++
    [.get (utf8 "c.example", 443), .lookup 2]

/-- The pool after these steps. -/
def poolAfter (as : List (Action (Bytes × UInt16))) : Pool 2 (Bytes × UInt16) :=
  (Transition.run (system http3ConnectionPool 2) (.new 2 _) as).getD (.new 2 _)

theorem acquireSlot_exact_crowded :
    ∃ r s', (poolAfter crowdedRun).acquireSlot http3ConnectionPool (utf8 "c.example", 443)
        (some (utf8 "a.example", 443)) = some (r, s') ∧
      (poolAfter crowdedRun).EvictsWhenItMust s' r := by
  have h0 : (system http3ConnectionPool 2).init (.new 2 _) := rfl
  have hs : (poolAfter crowdedRun).Sound := sound_of_reachable (.of_run crowdedRun h0 rfl)
  obtain ⟨⟨r, s'⟩, h⟩ : ∃ x, (poolAfter crowdedRun).acquireSlot http3ConnectionPool
      (utf8 "c.example", 443) (some (utf8 "a.example", 443)) = some x :=
    Option.isSome_iff_exists.mp (by decide +kernel)
  refine ⟨r, s', h, (acquireSlot_exact hs h).mpr (.inr (.inl ?_))⟩
  rintro k ⟨c, -, hdead, -⟩
  exact Bool.noConfusion hdead

/-- The pool when one of the two sessions has died. -/
def deadAndIdle : Pool 2 (Bytes × UInt16) := poolAfter (crowdedRun ++ [.die 0])

/-- The sweep frees the permit of the dead session, and the call evicts the other all the same. -/
theorem acquireSlot_deadAndIdle :
    ∃ r s', deadAndIdle.acquireSlot http3ConnectionPool (utf8 "c.example", 443)
        (some (utf8 "b.example", 443)) = some (r, s') ∧
      deadAndIdle.HasRoom ∧ deadAndIdle.LiveIdle (utf8 "b.example", 443) ∧
      s'.entries.lookup (utf8 "b.example", 443) = none ∧
      ¬ deadAndIdle.EvictsWhenItMust s' r := by
  obtain ⟨⟨r, s'⟩, h⟩ : ∃ x, deadAndIdle.acquireSlot http3ConnectionPool
      (utf8 "c.example", 443) (some (utf8 "b.example", 443)) = some x :=
    Option.isSome_iff_exists.mp (by decide +kernel)
  have hdead : deadAndIdle.DeadIdle (utf8 "a.example", 443) :=
    ⟨⟨⟨0, 0⟩, 0⟩, by decide +kernel, by decide +kernel, by decide +kernel⟩
  have hlive : deadAndIdle.cached (utf8 "b.example", 443) = some ⟨⟨1, 1⟩, 1⟩ := by
    decide +kernel
  have hgone : s'.entries.lookup (utf8 "b.example", 443) = none := by
    have hmap : (deadAndIdle.acquireSlot http3ConnectionPool (utf8 "c.example", 443)
        (some (utf8 "b.example", 443))).map
          (fun x => x.2.entries.lookup (utf8 "b.example", 443)) = some none := by decide +kernel
    rw [h] at hmap
    exact Option.some.inj hmap
  refine ⟨r, s', h, .inr ⟨_, hdead⟩, ⟨_, hlive, by decide +kernel⟩, hgone, ?_⟩
  intro hspec
  cases hgone.symm.trans (hspec.spared (.inr ⟨_, hdead⟩) _ _ hlive)

/-! ### The steps of a call of `get` -/

/-- Where `acquire_slot` leaves the call of `get` that made it. -/
def acquired : Except DnsProxyError ℕ → Pc
  | .ok slot => .recheck slot
  | .error e => .failed e

section steps
variable {i : ℕ}

omit [DecidableEq κ] in
theorem getElem?_setPc (hi : i < s.gets.length) (pc : Pc) :
    (s.setPc i k pc).gets[i]? = some ⟨k, pc⟩ := List.getElem?_set_self hi

omit [DecidableEq κ] in
theorem setPc_setPc (pc pc' : Pc) : (s.setPc i k pc).setPc i k pc' = s.setPc i k pc' := by
  simp only [Pool.setPc, List.set_set]

theorem step_evict (kind : Kind κ) (hi : i < s.gets.length) (hv : s.sweep.IsVictim victim) :
    (s.setPc i k .evict).step kind (.evict i victim) =
      some ((s.sweep.removeVictim victim).setPc i k
        (.dropEvicted (s.sweep.victimLease victim))) := by
  have hsweep : (s.setPc i k .evict).sweep = s.sweep.setPc i k .evict := rfl
  have hv' : (s.sweep.setPc i k .evict).IsVictim victim := hv
  simp only [Pool.step, getElem?_setPc hi, Pool.evict, hsweep, hv', if_true, setPc_setPc]
  rfl

theorem step_dropEvicted (kind : Kind κ) (hi : i < s.gets.length) (evicted : Option Lease) :
    (s.setPc i k (.dropEvicted evicted)).step kind (.dropEvicted i) =
      some ((s.dropLease evicted).setPc i k .retry) := by
  cases evicted with
  | none =>
      simp only [Pool.step, getElem?_setPc hi, setPc_setPc]
      rfl
  | some l =>
      simp only [Pool.step, getElem?_setPc hi, setPc_setPc]
      rfl

theorem step_retry (kind : Kind κ) (hi : i < s.gets.length) :
    (s.setPc i k .retry).step kind (.tryAcquire i) =
      some ((s.retry kind k).2.setPc i k (acquired (s.retry kind k).1)) := by
  have hpermits : (s.setPc i k .retry).permits = s.permits := rfl
  simp only [Pool.step, getElem?_setPc hi, hpermits, setPc_setPc, Pool.retry]
  cases s.permits.tryAcquire <;> rfl

/-- **`acquire_slot` is the steps of one call, one after the other.** -/
theorem run_acquireSlot (hg : s.gets[i]? = some ⟨k, .acquire⟩)
    (h : s.acquireSlot kind k victim = some (r, s')) :
    ∃ as, (as = [.tryAcquire i] ∨
        as = [.tryAcquire i, .evict i victim, .dropEvicted i, .tryAcquire i]) ∧
      Transition.run (system kind max) s as = some (s'.setPc i k (acquired r)) := by
  have hi := (List.getElem?_eq_some_iff.mp hg).1
  unfold Pool.acquireSlot at h
  cases hfirst : s.permits.tryAcquire with
  | some x =>
      simp only [hfirst, Option.some.injEq, Prod.mk.injEq] at h
      obtain ⟨rfl, rfl⟩ := h
      refine ⟨[.tryAcquire i], .inl rfl, ?_⟩
      have hstep : (system kind max).step s (.tryAcquire i) =
          some { s.setPc i k (.recheck x.1) with permits := x.2 } := by
        simp only [system, Pool.step, hg, hfirst]
      exact Transition.run_cons hstep []
  | none =>
      simp only [hfirst] at h
      split_ifs at h with hv
      have hretry : (s.sweepAndEvict victim).retry kind k = (r, s') := Option.some.inj h
      refine ⟨[.tryAcquire i, .evict i victim, .dropEvicted i, .tryAcquire i], .inr rfl, ?_⟩
      have hfirst : (system kind max).step s (.tryAcquire i) = some (s.setPc i k .evict) := by
        simp only [system, Pool.step, hg, hfirst]
      have hevict : (system kind max).step (s.setPc i k .evict) (.evict i victim) = _ :=
        step_evict kind hi hv
      have hdrop : (system kind max).step _ (.dropEvicted i) = _ :=
        step_dropEvicted (s := s.sweep.removeVictim victim) (k := k) kind hi
          (s.sweep.victimLease victim)
      have hlast : (system kind max).step _ (.tryAcquire i) = _ :=
        step_retry (s := s.sweepAndEvict victim) (k := k) kind hi
      rw [Transition.run_cons hfirst, Transition.run_cons hevict, Transition.run_cons hdrop]
      rw [hretry] at hlast
      exact Transition.run_cons hlast []

end steps

end DnsIngress.QuicPool
