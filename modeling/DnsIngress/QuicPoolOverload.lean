import DnsIngress.QuicPoolSessions

/-! # What a refusal says about the other authorities

A call that finds no free permit evicts an idle entry, drops it, and tries again; it returns
`DnsProxyError::Overloaded` when the second try finds none either.

`Distinct` is what makes a refusal mean that the pool is full of other authorities: no two slots
are held for one key, and none for the key of a call that is still without a slot.  The pools do
not keep it: a cold call takes a slot of its own before it can know that another call for its key
is connecting.  The steps that meet `Single` keep it. -/

namespace DnsIngress.QuicPool

variable {max : ℕ} {κ : Type}

/-! ### Slots and keys -/

/-- The call has missed its lookup and has no slot yet. -/
def Pc.waits : Pc → Bool
  | acquire | evict | dropEvicted _ | retry => true
  | lookup | recheck _ | resolve _ | connect _ | setup _ _ | insert _ _ | returned _ | failed _
  | cancelled => false

/-- The slot `n` is held for `k`: a call for `k` has it, or a connection for `k` was established
with it. -/
def Pool.HeldFor (s : Pool max κ) (k : κ) (n : ℕ) : Prop :=
  n ∈ s.permits.live ∧ ((∃ g ∈ s.gets, g.key = k ∧ g.pc.slot? = some n) ∨ (k, n) ∈ s.connections)

/-- As many keys as there are permits, other than `k`, have a slot. -/
def Pool.FullOfOthers (s : Pool max κ) (k : κ) : Prop :=
  ∃ keys : Finset κ, keys.card = max ∧ k ∉ keys ∧ ∀ k' ∈ keys, ∃ n, s.HeldFor k' n

/-- The step from `s` to `s'` refuses call `i` of `get(k)`. -/
structure Refuses (s s' : Pool max κ) (i : ℕ) (k : κ) : Prop where
  before : ∀ error, s.gets[i]? ≠ some ⟨k, .failed error⟩
  after : ∃ upstream protocol, s'.gets[i]? = some ⟨k, .failed (.overloaded upstream protocol)⟩

namespace Pool

variable {s s' : Pool max κ} {i : ℕ} {k k' : κ} {n : ℕ} {pc pc' : Pc}

theorem HeldFor.congr (hh : s'.HeldFor k n) (hg : s'.gets = s.gets)
    (hl : s'.permits.live ⊆ s.permits.live) (hc : s'.connections = s.connections) :
    s.HeldFor k n := by
  rw [HeldFor, hg, hc] at hh
  exact ⟨hl hh.1, hh.2⟩

theorem HeldFor.of_set (hh : s'.HeldFor k n) (h : s.gets[i]? = some ⟨k', pc⟩)
    (hg : s'.gets = s.gets.set i ⟨k', pc'⟩) (hpc : pc'.slot? = none ∨ pc'.slot? = pc.slot?)
    (hl : s'.permits.live ⊆ s.permits.live) (hc : s'.connections = s.connections) :
    s.HeldFor k n := by
  obtain ⟨hlive, hh⟩ := hh
  rw [hg, hc] at hh
  refine ⟨hl hlive, hh.imp_left ?_⟩
  rintro ⟨g, hm, hk, hs⟩
  rcases (mem_set h).mp hm with rfl | hm
  · rcases hpc with hpc | hpc
    · cases hpc.symm.trans hs
    · exact ⟨_, List.mem_of_getElem? h, hk, hpc.symm.trans hs⟩
  · exact ⟨g, List.mem_of_mem_eraseIdx hm, hk, hs⟩

section steps
variable [DecidableEq κ] {kind : Kind κ} {a : Action κ} {c : CachedLease}

theorem live_touch : (s.touch i k c).permits.live ⊆ s.permits.live := by
  rw [touch, Permits.live_clone]

/-- A step holds no slot for a key for which it was not held, unless a call takes a permit. -/
theorem HeldFor.of_move (hh : s'.HeldFor k n) (hi : Inv s) (h : Move kind s a s') :
    s.HeldFor k n ∨ ∃ i pc p, a = .tryAcquire i ∧ s.gets[i]? = some ⟨k, pc⟩ ∧ pc.waits = true ∧
      s.permits.tryAcquire = some (n, p) ∧
      s' = { s.setPc i k (.recheck n) with permits := p } := by
  cases h with
  | tick | died => exact .inl hh
  | get =>
      left
      refine ⟨hh.1, hh.2.imp_left ?_⟩
      rintro ⟨g, hm, hk, hs⟩
      rcases List.mem_append.mp hm with hm | hm
      · exact ⟨g, hm, hk, hs⟩
      · rw [List.mem_singleton.mp hm] at hs
        cases hs
  | advance hg ha =>
      refine .inl (hh.of_set hg rfl ?_ subset_rfl rfl)
      cases ha <;> exact .inr rfl
  | found hg => exact .inl (hh.of_set hg rfl (.inl rfl) live_touch rfl)
  | missed hg | evicted hg | cancelled hg =>
      exact .inl (hh.of_set hg rfl (.inl rfl) (Permits.live_dropAll_subset _) rfl)
  | dropped hg | failed hg => exact .inl (hh.of_set hg rfl (.inl rfl) Permits.live_drop_subset rfl)
  | foundLate hg =>
      exact .inl (hh.of_set hg rfl (.inl rfl) (Permits.live_drop_subset.trans live_touch) rfl)
  | published hg =>
      refine .inl (hh.of_set hg rfl (.inl rfl) ?_ rfl)
      exact (Permits.live_dropAll_subset _).trans_eq Permits.live_clone
  | cloned => exact .inl (hh.congr rfl Permits.live_clone.subset rfl)
  | returned => exact .inl (hh.congr rfl Permits.live_drop_subset rfl)
  | invalidated => exact .inl (hh.congr rfl (Permits.live_dropAll_subset _) rfl)
  | @connected i k' m hg =>
      left
      obtain ⟨hlive, hh⟩ := hh
      refine ⟨hlive, ?_⟩
      have hcall : ∀ k, k' = k → m = n → ∃ g ∈ s.gets, g.key = k ∧ g.pc.slot? = some n := by
        rintro k rfl rfl
        exact ⟨_, List.mem_of_getElem? hg, rfl, rfl⟩
      rcases hh with ⟨g, hm, rfl, hs⟩ | hm
      · rcases (mem_set hg).mp hm with rfl | hm
        · refine .inl (hcall _ rfl ?_)
          cases hk : kind.setup <;> simpa [hk, Pc.slot?] using hs
        · exact .inl ⟨g, List.mem_of_mem_eraseIdx hm, rfl, hs⟩
      · rcases List.mem_append.mp hm with hm | hm
        · exact .inr hm
        · cases List.mem_singleton.mp hm
          exact .inl (hcall _ rfl rfl)
  | @acquired i k' pc m p hg hpc hp =>
      obtain ⟨hlive, hh⟩ := hh
      obtain ⟨rfl, -, hs⟩ := Permits.tryAcquire_eq_some hp
      have hold : n ≠ s.permits.next → n ∈ s.permits.live := fun hne => by
        rw [Permits.mem_live, hs, Function.update_of_ne hne] at hlive
        exact s.permits.mem_live.mpr hlive
      rcases hh with ⟨g, hm, rfl, hs⟩ | hm
      · rcases (mem_set hg).mp hm with rfl | hm
        · cases hs
          exact .inr ⟨i, pc, p, rfl, hg, by rcases hpc with rfl | rfl <;> rfl, hp, rfl⟩
        · have hm := List.mem_of_mem_eraseIdx hm
          have ho : n ∈ s.owners := Multiset.mem_coe.mpr (List.mem_filterMap.mpr ⟨g, hm, hs⟩)
          have hl := hi.account.held.live_iff.mpr (Multiset.mem_add.mpr (.inr ho))
          exact .inl ⟨hl, .inl ⟨g, hm, rfl, hs⟩⟩
      · have hlt := hi.account.lt_next n (List.mem_map_of_mem hm)
        exact .inl ⟨hold hlt.ne, .inr hm⟩

end steps
end Pool

section steps
variable [DecidableEq κ] {kind : Kind κ} {s s' : Pool max κ} {a : Action κ} {i : ℕ} {k : κ} {n : ℕ}

theorem Refuses.retry (hr : Refuses s s' i k) (h : Pool.Move kind s a s') :
    s.gets[i]? = some ⟨k, .retry⟩ ∧ s.permits.tryAcquire = none := by
  obtain ⟨hb, u, protocol, ha⟩ := hr
  have hset : ∀ {j : ℕ} {k' : κ} {pc : Pc}, s'.gets = s.gets.set j ⟨k', pc⟩ →
      j = i ∧ k' = k ∧ pc = .failed (.overloaded u protocol) := by
    intro j k' pc hg
    rw [hg] at ha
    rcases getElem?_set_cases ha with ⟨hij, he⟩ | ⟨-, ha⟩
    · cases he
      exact ⟨hij.symm, rfl, rfl⟩
    · exact absurd ha (hb _)
  have hsame : s'.gets = s.gets → False := fun hg => hb _ (hg ▸ ha)
  cases h with
  | @advance _ j k' pc pc' hg hadv =>
      obtain ⟨rfl, rfl, rfl⟩ := hset rfl
      cases hadv with
      | refuse hp => exact ⟨hg, hp⟩
  | get =>
      rcases getElem?_append_cases ha with he | ha
      · cases he
      · exact absurd ha (hb _)
  | failed _ _ _ _ he => exact absurd (Pc.failed.inj (hset rfl).2.2) (he u protocol)
  | connected =>
      have he := (hset rfl).2.2
      split_ifs at he
  | found | missed | acquired | evicted | dropped | foundLate | published | cancelled =>
      cases (hset rfl).2.2
  | _ => exact (hsame rfl).elim

/-- A call without a slot was one before the step, or has just missed its lookup. -/
theorem Pool.waits_of_move {pc : Pc} (h : Move kind s a s') (hg : s'.gets[i]? = some ⟨k, pc⟩)
    (hw : pc.waits = true) :
    (∃ pc, s.gets[i]? = some ⟨k, pc⟩ ∧ pc.waits = true) ∨
      a = .lookup i ∧ s.gets[i]? = some ⟨k, .lookup⟩ ∧ s.cached k = none ∧
        s' = (s.remove k).setPc i k .acquire := by
  have hold : s.gets[i]? = some ⟨k, pc⟩ →
      ∃ pc, s.gets[i]? = some ⟨k, pc⟩ ∧ pc.waits = true := fun hg => ⟨pc, hg, hw⟩
  cases h with
  | get =>
      rcases getElem?_append_cases hg with he | hg
      · cases he
        cases hw
      · exact .inl (hold hg)
  | advance hj ha =>
      rcases getElem?_set_cases hg with ⟨rfl, he⟩ | ⟨-, hg⟩
      · cases he
        cases ha with
        | evict | retry => exact .inl ⟨_, hj, rfl⟩
        | _ => cases hw
      · exact .inl (hold hg)
  | missed hj hc =>
      rcases getElem?_set_cases hg with ⟨rfl, he⟩ | ⟨-, hg⟩
      · cases he
        exact .inr ⟨rfl, hj, hc, rfl⟩
      · exact .inl (hold hg)
  | evicted hj =>
      rcases getElem?_set_cases hg with ⟨rfl, he⟩ | ⟨-, hg⟩
      · cases he
        exact .inl ⟨_, hj, rfl⟩
      · exact .inl (hold hg)
  | dropped hj =>
      rcases getElem?_set_cases hg with ⟨rfl, he⟩ | ⟨-, hg⟩
      · cases he
        exact .inl ⟨_, hj, rfl⟩
      · exact .inl (hold hg)
  | connected =>
      rcases getElem?_set_cases hg with ⟨-, he⟩ | ⟨-, hg⟩
      · cases he
        split_ifs at hw <;> cases hw
      · exact .inl (hold hg)
  | found | foundLate | acquired | failed | published | cancelled =>
      rcases getElem?_set_cases hg with ⟨-, he⟩ | ⟨-, hg⟩
      · cases he
        cases hw
      · exact .inl (hold hg)
  | _ => exact .inl (hold hg)

end steps

/-! ### Refused for other authorities -/

section single
variable [DecidableEq κ]

/-- A call for `k` misses its lookup only while no slot is held for `k`, and takes its permit
only while no other call for `k` is between its lookup and its permit. -/
def Single (s : Pool max κ) : Action κ → Prop
  | .lookup i =>
      match s.gets[i]? with
      | some ⟨k, .lookup⟩ =>
          s.cached k = none → ∀ n ∈ (s.remove k).permits.live, ¬ (s.remove k).HeldFor k n
      | _ => True
  | .tryAcquire i =>
      match s.gets[i]? with
      | some ⟨k, _⟩ => 0 < s.permits.free → ∀ g ∈ s.gets.eraseIdx i, g.key = k → g.pc.waits = false
      | none => True
  | _ => True

structure Distinct (s : Pool max κ) : Prop where
  slot : ∀ k n n', s.HeldFor k n → s.HeldFor k n' → n = n'
  waiting : ∀ (i : ℕ) (k : κ) (pc : Pc), s.gets[i]? = some ⟨k, pc⟩ → pc.waits = true →
    ∀ n, ¬ s.HeldFor k n

namespace Distinct

variable {kind : Kind κ} {s s' : Pool max κ} {a : Action κ}

omit [DecidableEq κ] in
theorem new : Distinct (.new max κ) where
  slot k n n' h := by
    obtain ⟨-, ⟨g, hm, -⟩ | hm⟩ := h <;> cases hm
  waiting i k pc h := by cases h

/-- **Step lemma.** -/
theorem step (hd : Distinct s) (hi : Inv s) (hok : Single s a) (h : s.step kind a = some s') :
    Distinct s' := by
  have hm := Pool.move_of_step h
  constructor
  · intro k n n' hn hn'
    rcases hn.of_move hi hm with hn | ⟨i, pc, p, -, hg, hw, hp, -⟩
    · rcases hn'.of_move hi hm with hn' | ⟨i, pc, p, -, hg, hw, -⟩
      · exact hd.slot k n n' hn hn'
      · exact absurd hn (hd.waiting i k pc hg hw n)
    · rcases hn'.of_move hi hm with hn' | ⟨i', pc', p', -, -, -, hp', -⟩
      · exact absurd hn' (hd.waiting i k pc hg hw n')
      · exact (Permits.tryAcquire_eq_some hp).1.trans (Permits.tryAcquire_eq_some hp').1.symm
  · intro j k pc hg hw n hn
    rcases Pool.waits_of_move hm hg hw with ⟨pc₀, hg₀, hw₀⟩ | ⟨rfl, hg₀, hc, rfl⟩
    · rcases hn.of_move hi hm with hn | ⟨i, pc', p, rfl, hi', hw', hp, rfl⟩
      · exact hd.waiting j k pc₀ hg₀ hw₀ n hn
      · -- call `i` has taken a permit for the key of the waiting call `j`
        rcases getElem?_set_cases hg with ⟨-, he⟩ | ⟨hij, hg⟩
        · cases he
          cases hw
        · have hg' : ⟨k, pc⟩ ∈ s.gets.eraseIdx i :=
            List.mem_eraseIdx_iff_getElem?.mpr ⟨j, hij, hg⟩
          have hfree := Permits.free_of_tryAcquire hp
          simp only [Single, hi'] at hok
          rw [hok (by omega) _ hg' rfl] at hw
          cases hw
    · simp only [Single, hg₀] at hok
      exact hok hc n hn.1 (hn.of_set hg₀ rfl (.inl rfl) subset_rfl rfl)

/-- **Run lemma.** -/
theorem of_reachWhile (h : Transition.ReachWhile (system kind max) Single s) :
    Inv s ∧ Distinct s := by
  refine h.invariant (I := fun s => Inv s ∧ Distinct s) ?_ ?_
  · rintro s rfl
    exact ⟨.new, .new⟩
  · rintro s a s' ⟨hi, hd⟩ hok hs
    exact ⟨hi.step hs, hd.step hi hok hs⟩

omit [DecidableEq κ] in
theorem exists_heldFor (hi : Inv s) {n : ℕ} (hn : n ∈ s.permits.live) : ∃ k, s.HeldFor k n := by
  have hm := hi.account.held.live_iff.mp hn
  rcases Multiset.mem_add.mp hm with hm | hm
  · obtain ⟨l, hl, rfl⟩ := Multiset.mem_map.mp hm
    obtain ⟨k, hk⟩ := hi.account.recorded l hl
    exact ⟨k, hn, .inr (List.mem_of_getElem? hk)⟩
  · obtain ⟨g, hg, hs⟩ := List.mem_filterMap.mp (Multiset.mem_coe.mp hm)
    exact ⟨g.key, hn, .inl ⟨g, hg, rfl, hs⟩⟩

theorem fullOfOthers (hd : Distinct s) (hi : Inv s) {i : ℕ} {k : κ}
    (hg : s.gets[i]? = some ⟨k, .retry⟩) (hp : s.permits.tryAcquire = none) :
    s.FullOfOthers k := by
  choose key hkey using fun n : s.permits.live => exists_heldFor hi n.2
  have hinj : Function.Injective key := fun n n' he =>
    Subtype.ext (hd.slot (key n) n n' (hkey n) (he ▸ hkey n'))
  refine ⟨Finset.univ.image key, ?_, ?_, ?_⟩
  · have hfree := s.permits.free_add_card_live
    rw [Permits.tryAcquire_eq_none.mp hp, zero_add] at hfree
    rw [Finset.card_image_of_injective _ hinj, Finset.card_univ, Fintype.card_coe, hfree]
  · intro hk
    obtain ⟨n, -, rfl⟩ := Finset.mem_image.mp hk
    exact hd.waiting i _ _ hg rfl n (hkey n)
  · intro k' hk
    obtain ⟨n, -, rfl⟩ := Finset.mem_image.mp hk
    exact ⟨n, hkey n⟩

end Distinct

/-- A call is refused only by a pool full of other keys. -/
def RefusedByOthers (kind : Kind κ) (s : Pool max κ) : Prop :=
  ∀ a s' i k, s.step kind a = some s' → Refuses s s' i k → s.FullOfOthers k

/-- **Overloaded means that another authority cannot be accepted**, in every run in which there
is one cold call for a key at a time. -/
theorem refusedByOthers_of_single {kind : Kind κ} {s : Pool max κ}
    (h : Transition.ReachWhile (system kind max) Single s) : RefusedByOthers kind s := by
  obtain ⟨hi, hd⟩ := Distinct.of_reachWhile h
  intro a s' i k hs hr
  obtain ⟨hg, hp⟩ := hr.retry (Pool.move_of_step hs)
  exact hd.fullOfOthers hi hg hp

instance (s : Pool max κ) (k : κ) (n : ℕ) : Decidable (s.HeldFor k n) := by
  unfold Pool.HeldFor
  infer_instance

instance (s : Pool max κ) (a : Action κ) : Decidable (Single s a) := by
  cases a <;> unfold Single <;> first | infer_instance | (dsimp only; split <;> infer_instance)

end single

/-- The second try of call `1` fails while the only slot is held for another name. -/
def refusedRun : List (Action (Bytes × UInt16)) :=
  [.get (utf8 "a.example", 443), .get (utf8 "b.example", 443), .lookup 0, .tryAcquire 0, .lookup 1,
    .tryAcquire 1, .evict 1 none, .dropEvicted 1]

theorem refusedByOthers_of_single_refusedRun :
    ∃ s, Transition.runWhile (system http3ConnectionPool 1) (fun s a => decide (Single s a))
      (.new 1 _) refusedRun = some s ∧ s.permits.free = 0 ∧
      RefusedByOthers http3ConnectionPool s := by
  have hr : ∃ s, Transition.runWhile (system http3ConnectionPool 1)
      (fun s a => decide (Single s a)) (.new 1 _) refusedRun = some s ∧ s.permits.free = 0 :=
    ⟨_, rfl, rfl⟩
  obtain ⟨s, hs, hf⟩ := hr
  exact ⟨s, hs, hf, refusedByOthers_of_single
    (.of_run _ (fun _ _ h => of_decide_eq_true h) refusedRun (.init rfl) hs)⟩

/-- Both calls are for one name. -/
def twiceRun : List (Action (Bytes × UInt16)) :=
  let k := (utf8 "a.example", 443)
  [.get k, .get k, .lookup 0, .lookup 1, .tryAcquire 0, .tryAcquire 1, .evict 1 none,
    .dropEvicted 1]

theorem not_refusedByOthers :
    ¬ ∀ s, Transition.Reachable (system http3ConnectionPool 1) s →
      RefusedByOthers http3ConnectionPool s := by
  intro h
  have hr : ∃ s s', Transition.run (system http3ConnectionPool 1) (.new 1 _) twiceRun = some s ∧
      s.step http3ConnectionPool (.tryAcquire 1) = some s' ∧
      s.gets = [⟨(utf8 "a.example", 443), .recheck 0⟩, ⟨(utf8 "a.example", 443), .retry⟩] ∧
      s.connections = [] ∧ s'.gets[1]? = some ⟨(utf8 "a.example", 443),
        .failed (overloaded (utf8 "a.example") 443 (utf8 "HTTP/3"))⟩ :=
    ⟨_, _, rfl, rfl, rfl, rfl, rfl⟩
  obtain ⟨s, s', hs, hs', hgets, hconn, hfail⟩ := hr
  have hrefuses : Refuses s s' 1 (utf8 "a.example", 443) := by
    refine ⟨fun error => ?_, _, _, hfail⟩
    rw [hgets]
    simp
  obtain ⟨keys, hcard, hk, hall⟩ := h s (.of_run twiceRun rfl hs) _ s' 1 _ hs' hrefuses
  obtain ⟨k', rfl⟩ := Finset.card_eq_one.mp hcard
  obtain ⟨n, -, ⟨g, hg, rfl, -⟩ | hm⟩ := hall k' (Finset.mem_singleton_self _)
  · rw [hgets] at hg
    simp only [List.mem_cons, List.not_mem_nil, or_false] at hg
    rcases hg with rfl | rfl <;> simp at hk
  · rw [hconn] at hm
    cases hm

end DnsIngress.QuicPool
