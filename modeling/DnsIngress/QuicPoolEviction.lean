import DnsIngress.QuicPoolOverload

/-! # What a refusal says about the idle entries

`Covered` is what makes a refusal mean that nothing can be evicted: as long as an idle entry is
cached, there are as many free permits as calls that are about to try again.  The pools do not
keep it, because the permit that an eviction frees is taken back in a step of its own: the first
try of another call may be faster, and a borrower may leave an entry idle after the sweep.  The
steps that meet `Yields` keep it. -/

namespace DnsIngress.QuicPool

variable {max : ℕ} {κ : Type}

/-- The call is about to try again, and has nothing left to drop. -/
def Pc.retries : Pc → Bool
  | dropEvicted none | retry => true
  | lookup | acquire | evict | dropEvicted (some _) | recheck _ | resolve _ | connect _ | setup _ _
  | insert _ _ | returned _ | failed _ | cancelled => false

namespace Pool

variable (s : Pool max κ)

def retrying : ℕ := s.gets.countP (·.pc.retries)

/-- An idle entry is cached. -/
def HasIdle : Prop := ∃ e ∈ s.entries.entries, s.isIdle e.2 = true

instance : Decidable s.HasIdle := by
  unfold HasIdle
  infer_instance

/-- As long as an idle entry is cached, every call about to try again has a permit to take. -/
def Covered : Prop := s.HasIdle → s.retrying ≤ s.permits.free

end Pool

theorem countP_set {p : Get κ → Bool} {gets : List (Get κ)} {i : ℕ} {g g' : Get κ}
    (h : gets[i]? = some g) :
    (gets.set i g').countP p + (p g).toNat = gets.countP p + (p g').toNat := by
  obtain ⟨hi, rfl⟩ := List.getElem?_eq_some_iff.mp h
  rw [(List.set_perm_cons_eraseIdx hi g').countP_eq,
    ← (List.getElem_cons_eraseIdx_perm hi).countP_eq, List.countP_cons, List.countP_cons,
    Bool.toNat, Bool.toNat, Bool.cond_eq_ite, Bool.cond_eq_ite]
  omega

/-! ### The slots of cached and of evicted leases -/

/-- An evicted lease is the only handle of its slot. -/
def Evicted (s : Pool max κ) : Prop :=
  ∀ l ∈ handles Pc.evicted? s.gets, s.permits.strong l.slot = 1

section slots
variable [DecidableEq κ] {kind : Kind κ} {s s' : Pool max κ} {a : Action κ} {k k' : κ}
  {c c' : CachedLease} {l : Lease} {n : ℕ}

omit [DecidableEq κ] in
theorem mem_evicted {i : ℕ} (h : s.gets[i]? = some ⟨k, .dropEvicted (some l)⟩) :
    l ∈ handles Pc.evicted? s.gets :=
  Multiset.mem_coe.mpr (List.mem_filterMap.mpr ⟨_, List.mem_of_getElem? h, rfl⟩)

omit [DecidableEq κ] in
theorem Evicted.alone (he : Evicted s) (hi : Inv s) (hl : l ∈ handles Pc.evicted? s.gets)
    {l' : Lease} (hl' : l' ∈ s.entries.leases + (s.borrowed : Multiset Lease)) :
    l'.slot ≠ l.slot := by
  intro hs
  have ha := hi.account
  rw [Pool.leases, ← add_assoc] at ha
  have := ha.two_le hl' hl hs.symm
  rw [hs, he l hl] at this
  omega

omit [DecidableEq κ] in
theorem Inv.slot_ne (hi : Inv s) {i : ℕ} {pc : Pc} (hg : s.gets[i]? = some ⟨k, pc⟩)
    (hs : pc.slot? = some n) (hl : l ∈ s.leases) : l.slot ≠ n :=
  hi.account.apart n
    (Multiset.mem_coe.mpr (List.mem_filterMap.mpr ⟨_, List.mem_of_getElem? hg, hs⟩)) l hl

theorem Keyed.notMem_lookup (hk : Keyed s) (hi : Inv s) (hc : s.entries.lookup k = some c)
    (hne : k ≠ k') : c.lease.slot ∉ ((s.entries.lookup k').map (·.lease.slot)).toList := by
  intro hm
  obtain ⟨c', hc', hs⟩ := Option.map_eq_some_iff.mp (Option.mem_toList.mp hm)
  exact hne (hk.slot_inj hi hc hc' hs.symm)

theorem Keyed.notMem_sweep (hk : Keyed s) (hi : Inv s) (hc : s.cached k = some c) :
    c.lease.slot ∉
      (s.entries.entries.filter fun e => !s.isAlive e.2).map (·.2.lease.slot) := by
  intro hm
  obtain ⟨k', c', hc', hdead, hs⟩ := Pool.mem_dead.mp hm
  obtain ⟨hl, hopen⟩ := Pool.cached_eq_some.mp hc
  obtain rfl := hk.slot_inj hi hl hc' hs.symm
  cases hl.symm.trans hc'
  simp [Pool.isAlive, hopen] at hdead

/-- No handle of the slot of a cached lease is dropped, but by a borrower. -/
theorem le_strong_of_move (hi : Inv s) (hk : Keyed s) (he : Evicted s) (h : Pool.Move kind s a s')
    (hc : s.entries.lookup k = some c) (hc' : s'.entries.lookup k = some c')
    (hl : c'.lease = c.lease) (ha : ∀ l, a = .dropLease l → l.slot ≠ c.lease.slot) :
    s.permits.strong c.lease.slot ≤ s'.permits.strong c.lease.slot := by
  have hmem := mem_leases_of_lookup hc
  cases h with
  | tick | get | advance | connected | died => exact le_rfl
  | found | cloned => exact Permits.le_strong_clone
  | @missed i k' _ _ =>
      have hne : k ≠ k' := by
        rintro rfl
        cases (AList.lookup_erase k s.entries).symm.trans hc'
      exact (Permits.strong_dropAll_of_notMem (hk.notMem_lookup hi hc hne)).ge
  | @invalidated k' =>
      have hne : k ≠ k' := by
        rintro rfl
        cases (AList.lookup_erase k s.entries).symm.trans hc'
      exact (Permits.strong_dropAll_of_notMem (hk.notMem_lookup hi hc hne)).ge
  | acquired _ _ hp =>
      obtain ⟨-, -, hs⟩ := Permits.tryAcquire_eq_some hp
      have hlt := hi.account.held.lt_next
        (Multiset.mem_add.mpr (.inl (Multiset.mem_map_of_mem Lease.slot hmem)))
      simp only [hs, Function.update_of_ne hlt.ne]
      exact le_rfl
  | @evicted i k' victim =>
      have hcached : s.cached k = some c' := by
        rw [← Pool.lookup_sweep]
        cases victim with
        | none => exact hc'
        | some v =>
            by_cases hv : k = v
            · subst hv
              cases (AList.lookup_erase k s.sweep.entries).symm.trans hc'
            · exact (AList.lookup_erase_ne hv).symm.trans hc'
      rw [← hl]
      exact (Permits.strong_dropAll_of_notMem (hk.notMem_sweep hi hcached)).ge
  | @dropped i k' l hg =>
      have hne : c.lease.slot ≠ l.slot := he.alone hi (mem_evicted hg)
        (Multiset.mem_add.mpr (.inl (Pool.mem_leases hc)))
      simp only [Pool.dropSlot, Pool.setPc, Permits.strong_drop, if_neg hne, Nat.sub_zero, le_refl]
  | @foundLate _ i k' pc n c₀ hg hpc _ =>
      have hne : c.lease.slot ≠ n := by
        rcases hpc with ⟨-, rfl⟩ | ⟨d, -, rfl⟩ <;> exact hi.slot_ne hg rfl hmem
      simp only [Pool.dropSlot, Permits.strong_drop, if_neg hne, Nat.sub_zero]
      exact Permits.le_strong_clone
  | failed hg hs =>
      have hne := hi.slot_ne hg hs hmem
      simp only [Pool.fail, Pool.dropSlot, Pool.setPc, Permits.strong_drop, if_neg hne,
        Nat.sub_zero, le_refl]
  | @published i k' n d hg _ =>
      have hne : k ≠ k' := by
        rintro rfl
        cases (AList.lookup_insert s.entries).symm.trans hc'
        exact hi.slot_ne hg rfl hmem (by rw [← hl])
      have hdrop := Permits.strong_dropAll_of_notMem (p := s.permits.clone n)
        (hk.notMem_lookup hi hc hne)
      exact Permits.le_strong_clone.trans hdrop.ge
  | @cancelled i k' pc hg _ =>
      refine (Permits.strong_dropAll_of_notMem fun hm => ?_).ge
      exact hi.slot_ne hg (Option.mem_toList.mp hm) hmem rfl
  | @returned l _ =>
      have hne := (ha l rfl).symm
      simp only [Permits.strong_drop, if_neg hne, Nat.sub_zero, le_refl]

/-- The slot of an evicted lease gets no new handle. -/
theorem strong_le_of_move (hi : Inv s) (he : Evicted s) (h : Pool.Move kind s a s')
    (hl : l ∈ handles Pc.evicted? s.gets) :
    s'.permits.strong l.slot ≤ s.permits.strong l.slot := by
  have hclone : ∀ n, l.slot ≠ n → (s.permits.clone n).strong l.slot ≤ s.permits.strong l.slot := by
    intro n hne
    by_cases hp : 0 < s.permits.strong n
    · rw [Permits.strong_clone hp, if_neg hne, Nat.add_zero]
    · rw [Permits.clone, dif_neg hp]
  have htouch : ∀ {k c}, s.cached k = some c → l.slot ≠ c.lease.slot := fun hc => by
    have hm := Pool.mem_leases (Pool.cached_eq_some.mp hc).1
    exact (he.alone hi hl (Multiset.mem_add.mpr (.inl hm))).symm
  have hmem : l ∈ s.leases := Multiset.mem_add.mpr (.inr (Multiset.mem_add.mpr (.inr hl)))
  cases h with
  | tick | get | advance | connected | died => exact le_rfl
  | found _ hc => exact hclone _ (htouch hc)
  | missed | evicted | invalidated | cancelled => exact Permits.strong_dropAll_le _
  | acquired _ _ hp =>
      obtain ⟨-, -, hs⟩ := Permits.tryAcquire_eq_some hp
      have hlt := hi.account.held.lt_next
        (Multiset.mem_add.mpr (.inl (Multiset.mem_map_of_mem Lease.slot hmem)))
      simp only [hs, Function.update_of_ne hlt.ne]
      exact le_rfl
  | dropped | failed | returned => exact Permits.strong_dropAll_le [_]
  | foundLate _ _ hc => exact (Permits.strong_dropAll_le [_]).trans (hclone _ (htouch hc))
  | published hg =>
      exact (Permits.strong_dropAll_le _).trans (hclone _ (hi.slot_ne hg rfl hmem))
  | cloned hb =>
      refine hclone _ (he.alone hi hl (Multiset.mem_add.mpr (.inr ?_))).symm
      exact Multiset.mem_coe.mpr hb

/-- An evicted lease was evicted before the step, or is the victim. -/
theorem evicted_of_move (h : Pool.Move kind s a s') (hl : l ∈ handles Pc.evicted? s'.gets) :
    l ∈ handles Pc.evicted? s.gets ∨ s'.permits.strong l.slot = 1 := by
  obtain ⟨g, hg, hgl⟩ := List.mem_filterMap.mp (Multiset.mem_coe.mp hl)
  have hold : g ∈ s.gets → l ∈ handles Pc.evicted? s.gets := fun hm =>
    Multiset.mem_coe.mpr (List.mem_filterMap.mpr ⟨g, hm, hgl⟩)
  have hset : ∀ {i : ℕ} {k : κ} {pc pc' : Pc}, s.gets[i]? = some ⟨k, pc⟩ →
      g ∈ s.gets.set i ⟨k, pc'⟩ → pc'.evicted? = none → l ∈ handles Pc.evicted? s.gets := by
    intro i k pc pc' hi hm hn
    rcases (mem_set hi).mp hm with rfl | hm
    · cases hn.symm.trans hgl
    · exact hold (List.mem_of_mem_eraseIdx hm)
  cases h with
  | get =>
      rcases List.mem_append.mp hg with hm | hm
      · exact .inl (hold hm)
      · rw [List.mem_singleton.mp hm] at hgl
        cases hgl
  | advance hi ha => exact .inl (hset hi hg (by cases ha <;> rfl))
  | connected hi => exact .inl (hset hi hg (by split_ifs <;> rfl))
  | found hi | missed hi | acquired hi | dropped hi | foundLate hi | failed hi | published hi
    | cancelled hi => exact .inl (hset hi hg rfl)
  | @evicted i k victim hi hv =>
      rcases (mem_set hi).mp hg with rfl | hm
      · obtain ⟨c, hc, rfl⟩ := Option.map_eq_some_iff.mp hgl
        obtain ⟨v, rfl, hc⟩ := Option.bind_eq_some_iff.mp hc
        obtain ⟨⟨_, c'⟩, he, rfl, -⟩ := hv
        obtain ⟨he, hidle⟩ := List.mem_filter.mp he
        cases hc.symm.trans (AList.mem_lookup_iff.mpr he)
        exact .inr (beq_iff_eq.mp hidle)
      · exact .inl (hold (List.mem_of_mem_eraseIdx hm))
  | _ => exact .inl (hold hg)

theorem Evicted.step (he : Evicted s) (hi : Inv s) (h : s.step kind a = some s') :
    Evicted s' := by
  intro l hl
  have hm := Pool.move_of_step h
  rcases evicted_of_move hm hl with hold | h1
  · refine le_antisymm ((strong_le_of_move hi he hm hold).trans_eq (he l hold)) ?_
    have hl' : l ∈ s'.leases := Multiset.mem_add.mpr (.inr (Multiset.mem_add.mpr (.inr hl)))
    have hlive := (hi.step h).account.held.live_iff.mpr
      (Multiset.mem_add.mpr (.inl (Multiset.mem_map_of_mem Lease.slot hl')))
    exact s'.permits.mem_live.mp hlive
  · exact h1

theorem Evicted.of_reachable (h : Transition.Reachable (system kind max) s) : Evicted s := by
  refine (h.invariant (I := fun s => Inv s ∧ Evicted s) ?_ ?_).2
  · rintro s rfl
    exact ⟨.new, fun l hl => absurd hl (Multiset.notMem_zero l)⟩
  · rintro s a s' ⟨hi, he⟩ _ hs
    exact ⟨hi.step hs, he.step hi hs⟩

end slots

/-! ### Refused with nothing to evict -/

section covered
variable [DecidableEq κ] {kind : Kind κ} {s s' : Pool max κ} {a : Action κ} {k : κ}

/-- The drop of `l` leaves a cached entry idle. -/
def Pool.LeavesIdle (s : Pool max κ) (l : Lease) : Prop :=
  s.permits.strong l.slot = 2 ∧ ∃ e ∈ s.entries.entries, e.2.lease.slot = l.slot

/-- While an idle entry is cached, the first try of a call takes a permit only if there are more
than the calls about to try again need; and a borrower leaves an entry idle only while there are
as many as they need. -/
def Yields (s : Pool max κ) : Action κ → Prop
  | .tryAcquire i =>
      match s.gets[i]? with
      | some ⟨_, .acquire⟩ => s.HasIdle → 0 < s.permits.free → s.retrying < s.permits.free
      | _ => True
  | .dropLease l => s.LeavesIdle l → s.retrying ≤ s.permits.free
  | _ => True

theorem Pool.hasIdle_iff :
    s.HasIdle ↔ ∃ k c, s.entries.lookup k = some c ∧ s.permits.strong c.lease.slot = 1 := by
  constructor
  · rintro ⟨⟨k, c⟩, he, hc⟩
    exact ⟨k, c, AList.mem_lookup_iff.mpr he, beq_iff_eq.mp hc⟩
  · rintro ⟨k, c, hc, h1⟩
    exact ⟨⟨k, c⟩, AList.mem_lookup_iff.mp hc, beq_iff_eq.mpr h1⟩

theorem Pool.step_dropLease {l : Lease} (h : s.step kind (.dropLease l) = some s') :
    s' = { s with permits := s.permits.drop l.slot, borrowed := s.borrowed.erase l } := by
  simp only [step] at h
  split_ifs at h
  exact (Option.some.inj h).symm

theorem hasIdle_of_step (hi : Inv s) (hk : Keyed s) (he : Evicted s)
    (h : s.step kind a = some s') (hidle : s'.HasIdle) :
    s.HasIdle ∨ ∃ l, a = .dropLease l ∧ s.LeavesIdle l := by
  have hm := Pool.move_of_step h
  obtain ⟨k, c', hc', h1⟩ := Pool.hasIdle_iff.mp hidle
  have hkept : ∀ c, s.entries.lookup k = some c → c'.lease = c.lease →
      s.HasIdle ∨ ∃ l, a = .dropLease l ∧ s.LeavesIdle l := by
    intro c hc hl
    rw [hl] at h1
    by_cases ha : ∃ l, a = .dropLease l ∧ l.slot = c.lease.slot
    · obtain ⟨l, rfl, hs⟩ := ha
      have hp : s'.permits = s.permits.drop l.slot := by rw [Pool.step_dropLease h]
      rw [hp, Permits.strong_drop, if_pos hs.symm, ← hs] at h1
      exact .inr ⟨l, rfl, by omega, _, AList.mem_lookup_iff.mp hc, hs.symm⟩
    · have hle := le_strong_of_move hi hk he hm hc hc' hl fun l hal hs => ha ⟨l, hal, hs⟩
      have hlive := s.permits.mem_live.mp (hi.account.held.live_iff.mpr
        (Multiset.mem_add.mpr (.inl (Multiset.mem_map_of_mem _ (mem_leases_of_lookup hc)))))
      exact .inl (Pool.hasIdle_iff.mpr ⟨k, c, hc, by omega⟩)
  cases Pool.change_of_move hm k with
  | same he => exact hkept c' (he ▸ hc') rfl
  | touched c hc he =>
      cases he.symm.trans hc'
      exact hkept c (Pool.cached_eq_some.mp hc).1 rfl
  | published i n d _ _ he hb =>
      cases he.symm.trans hc'
      have htwo := (hi.step h).account.two_le (Pool.mem_leases hc')
        (Multiset.mem_add.mpr (.inl (Multiset.mem_coe.mpr hb))) rfl
      omega
  | dead _ he | evicted _ _ _ he | invalidated _ he => cases he.symm.trans hc'

omit [DecidableEq κ] in
/-- A step of a call that needs no permit after it, unless it needed one before. -/
theorem Pool.retrying_set {i : ℕ} {pc pc' : Pc} (h : s.gets[i]? = some ⟨k, pc⟩)
    (hg : s'.gets = s.gets.set i ⟨k, pc'⟩) :
    s'.retrying + pc.retries.toNat = s.retrying + pc'.retries.toNat := by
  rw [retrying, hg]
  exact countP_set h

omit [DecidableEq κ] in
/-- A step of a call that takes no permit, and that needs none after it unless it did before. -/
theorem Pool.Covered.of_set {i : ℕ} {pc pc' : Pc} (hle : s.retrying ≤ s.permits.free)
    (h : s.gets[i]? = some ⟨k, pc⟩) (hg : s'.gets = s.gets.set i ⟨k, pc'⟩)
    (hpc : pc'.retries = false ∨ pc'.retries = pc.retries) (hf : s.permits.free ≤ s'.permits.free) :
    s'.retrying ≤ s'.permits.free := by
  have hr := retrying_set h hg
  have hle' : pc'.retries.toNat ≤ pc.retries.toNat := by
    rcases hpc with hpc | hpc <;> rw [hpc]
    · exact Nat.zero_le _
  omega

/-- **Step lemma.** -/
theorem Pool.Covered.step (hc : s.Covered) (hi : Inv s) (hk : Keyed s) (he : Evicted s)
    (hok : Yields s a) (h : s.step kind a = some s') : s'.Covered := by
  intro hidle
  rcases hasIdle_of_step hi hk he h hidle with hidle₀ | ⟨l, rfl, hl⟩
  · have hle := hc hidle₀
    cases move_of_step h with
    | tick | died => exact hle
    | get => simpa [retrying, Pc.retries] using hle
    | advance hg ha =>
        refine of_set hle hg rfl ?_ le_rfl
        cases ha <;> first | exact .inl rfl | exact .inr rfl
    | found hg => exact of_set hle hg rfl (.inl rfl) Permits.free_clone.ge
    | missed hg | cancelled hg => exact of_set hle hg rfl (.inl rfl) (Permits.free_le_dropAll _)
    | @acquired i k pc n p hg hpc hp =>
        have hfree := Permits.free_of_tryAcquire hp
        have hr : retrying { s.setPc i k (.recheck n) with permits := p } + pc.retries.toNat =
            s.retrying + (Pc.recheck n).retries.toNat := retrying_set hg rfl
        rcases hpc with rfl | rfl
        · simp only [Yields, hg] at hok
          have hlt := hok hidle₀ (by omega)
          simp only [Pc.retries, Bool.toNat_false] at hr ⊢
          omega
        · simp only [Pc.retries, Bool.toNat_false, Bool.toNat_true] at hr ⊢
          omega
    | @evicted i k victim hg hv =>
        cases victim with
        | none =>
            obtain ⟨e, hm, hidle⟩ := hidle
            cases hv ▸ List.mem_filter.mpr ⟨hm, hidle⟩
        | some v =>
            obtain ⟨⟨_, c⟩, hm, rfl, -⟩ := hv
            have hl := AList.mem_lookup_iff.mpr (List.mem_filter.mp hm).1
            refine of_set hle hg rfl ?_ (Permits.free_le_dropAll _)
            rw [Option.bind_some, hl]
            exact .inl rfl
    | @dropped i k l hg =>
        have hr : ((s.setPc i k .retry).dropSlot l.slot).retrying +
            (Pc.dropEvicted (some l)).retries.toNat = s.retrying + Pc.retry.retries.toNat :=
          retrying_set hg rfl
        have h1 := he l (mem_evicted hg)
        have hfree : (s.permits.drop l.slot).free = s.permits.free + 1 := by
          rw [Permits.free_drop (by omega), if_pos h1]
        simp only [Pc.retries, Bool.toNat_false, Bool.toNat_true] at hr
        simp only [dropSlot, setPc] at hr ⊢
        omega
    | foundLate hg =>
        exact of_set hle hg rfl (.inl rfl) (Permits.free_clone.ge.trans Permits.free_le_drop)
    | connected hg => exact of_set hle hg rfl (by split_ifs <;> exact .inl rfl) le_rfl
    | failed hg => exact of_set hle hg rfl (.inl rfl) Permits.free_le_drop
    | published hg =>
        exact of_set hle hg rfl (.inl rfl) (Permits.free_clone.ge.trans (Permits.free_le_dropAll _))
    | cloned => exact hle.trans Permits.free_clone.ge
    | returned => exact hle.trans Permits.free_le_drop
    | invalidated => exact hle.trans (Permits.free_le_dropAll _)
  · have hle : s.retrying ≤ s.permits.free := hok hl
    rw [step_dropLease h]
    exact hle.trans Permits.free_le_drop

/-- The runs from any reachable state in which no call is about to try again. -/
def quietSystem (kind : Kind κ) (max : ℕ) : Transition.System (Pool max κ) (Action κ) where
  init s := Transition.Reachable (system kind max) s ∧ s.retrying = 0
  step s a := s.step kind a

/-- **Run lemma.** -/
theorem Pool.Covered.of_reachWhile (h : Transition.ReachWhile (quietSystem kind max) Yields s) :
    s.Covered := by
  refine (h.invariant
    (I := fun s => Transition.Reachable (system kind max) s ∧ s.Covered) ?_ ?_).2
  · rintro s ⟨hr, h0⟩
    exact ⟨hr, fun _ => by omega⟩
  · rintro s a s' ⟨hr, hc⟩ hok hs
    exact ⟨.step hr trivial hs,
      hc.step (.of_reachable hr) (.of_reachable hr) (.of_reachable hr) hok hs⟩

/-- A call is refused only when no idle entry is cached. -/
def RefusedWithoutIdle (kind : Kind κ) (s : Pool max κ) : Prop :=
  ∀ a s' i k, s.step kind a = some s' → Refuses s s' i k → ¬ s.HasIdle

/-- **A call is refused only when nothing can be evicted**, in every run in which the first tries
and the borrowers leave the calls about to try again their permits. -/
theorem refusedWithoutIdle_of_yields
    (h : Transition.ReachWhile (quietSystem kind max) Yields s) : RefusedWithoutIdle kind s := by
  intro a s' i k hs hr hidle
  obtain ⟨hg, hp⟩ := hr.retry (Pool.move_of_step hs)
  have hle := Pool.Covered.of_reachWhile h hidle
  have hpos : 0 < s.retrying := List.countP_pos_iff.mpr ⟨_, List.mem_of_getElem? hg, rfl⟩
  rw [Permits.tryAcquire_eq_none.mp hp] at hle
  omega

instance (s : Pool max κ) (l : Lease) : Decidable (s.LeavesIdle l) := by
  unfold Pool.LeavesIdle
  infer_instance

omit [DecidableEq κ] in
theorem yields_tryAcquire {i : ℕ} :
    Yields s (.tryAcquire i) ↔ (s.gets[i]?.any (·.pc = .acquire) = true → s.HasIdle →
      0 < s.permits.free → s.retrying < s.permits.free) := by
  simp only [Yields]
  cases s.gets[i]? with
  | none => simp
  | some g =>
      obtain ⟨k, pc⟩ := g
      cases pc <;> simp

instance (s : Pool max κ) : (a : Action κ) → Decidable (Yields s a)
  | .tryAcquire _ => decidable_of_iff _ yields_tryAcquire.symm
  | .dropLease l => inferInstanceAs (Decidable (s.LeavesIdle l → s.retrying ≤ s.permits.free))
  | .tick | .get _ | .lookup _ | .evict _ _ | .dropEvicted _ | .recheck _ | .resolve _ _
  | .connect _ _ | .setup _ _ | .insert _ | .cancel _ | .cloneLease _ | .die _ | .invalidate _ =>
      .isTrue trivial

end covered

/-! ### Runs of a pool for two connections -/

def name (host : String) : QuicApplication × Bytes × UInt16 := (.doq, utf8 host, 853)

/-- Call `i` establishes a session. -/
def establish (i : ℕ) (host : String) : List (Action (QuicApplication × Bytes × UInt16)) :=
  [.get (name host), .lookup i, .tryAcquire i, .recheck i, .resolve i none, .connect i none,
    .insert i]

/-- Call `2` is about to try again while both sessions are borrowed. -/
def bothBorrowed : List (Action (QuicApplication × Bytes × UInt16)) :=
  establish 0 "a.example" ++ establish 1 "b.example" ++
    [.get (name "c.example"), .lookup 2, .tryAcquire 2, .evict 2 none, .dropEvicted 2]

theorem refusedWithoutIdle_of_yields_bothBorrowed :
    ∃ s, Transition.runWhile (quietSystem quicConnectionPool 2) (fun s a => decide (Yields s a))
      (.new 2 _) bothBorrowed = some s ∧ s.gets[2]? = some ⟨name "c.example", .retry⟩ ∧
      RefusedWithoutIdle quicConnectionPool s := by
  have hr : ∃ s, Transition.runWhile (quietSystem quicConnectionPool 2)
      (fun s a => decide (Yields s a)) (.new 2 _) bothBorrowed = some s ∧
      s.gets[2]? = some ⟨name "c.example", .retry⟩ := ⟨_, rfl, rfl⟩
  obtain ⟨s, hs, hg⟩ := hr
  exact ⟨s, hs, hg, refusedWithoutIdle_of_yields
    (.of_run _ (fun _ _ h => of_decide_eq_true h) bothBorrowed (.init ⟨.init rfl, rfl⟩) hs)⟩

/-- Both sessions are idle; call `2` evicts one of them, and the first try of call `3` takes the
permit. -/
def stolen : List (Action (QuicApplication × Bytes × UInt16)) :=
  establish 0 "a.example" ++ establish 1 "b.example" ++
    [.dropLease ⟨0, 0⟩, .dropLease ⟨1, 1⟩, .get (name "c.example"), .get (name "d.example"),
      .lookup 2, .lookup 3, .tryAcquire 2, .evict 2 (some (name "a.example")), .dropEvicted 2,
      .tryAcquire 3]

/-- A session becomes idle after the sweep of call `2`. -/
def idleLate : List (Action (QuicApplication × Bytes × UInt16)) :=
  bothBorrowed ++ [.dropLease ⟨0, 0⟩]

theorem not_refusedWithoutIdle :
    ¬ ∃ as ∈ [stolen, idleLate], ∀ s, Transition.run (system quicConnectionPool 2) (.new 2 _) as =
      some s → RefusedWithoutIdle quicConnectionPool s := by
  have hrefused : ∀ as ∈ [stolen, idleLate], ∃ s s',
      Transition.run (system quicConnectionPool 2) (.new 2 _) as = some s ∧
      s.step quicConnectionPool (.tryAcquire 2) = some s' ∧ s.HasIdle ∧
      s.gets[2]? = some ⟨name "c.example", .retry⟩ ∧ s'.gets[2]? = some ⟨name "c.example",
        .failed (overloaded (utf8 "c.example") 853 (utf8 "QUIC"))⟩ := by
    simp only [List.forall_mem_cons, List.not_mem_nil, false_implies, implies_true, and_true]
    exact ⟨⟨_, _, rfl, rfl, by decide, rfl, rfl⟩, ⟨_, _, rfl, rfl, by decide, rfl, rfl⟩⟩
  rintro ⟨as, has, h⟩
  obtain ⟨s, s', hs, hs', hidle, hg, hfail⟩ := hrefused as has
  refine h s hs _ s' 2 _ hs' ⟨fun error => ?_, _, _, hfail⟩ hidle
  rw [hg]
  simp

end DnsIngress.QuicPool
