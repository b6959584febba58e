import Mathlib.Data.Finset.Card
import Mathlib.Data.Finset.Range
import Mathlib.Data.Multiset.Count
import Mathlib.Logic.Function.Basic
import Mathlib.Tactic.SplitIfs

/-! # Reference-counted permits

A counting semaphore of `max` permits, whose permits are held by reference-counted slots: a
slot is created by taking a permit, its handles are cloned and dropped, and the permit is
returned when the last handle is dropped.

* `Permits` carries its own accounting: free permits and live slots always add up to `max`.
* `Permits.HeldBy` says that a multiset is exactly the handles in use; it is what a program
  that never forgets or invents a handle keeps invariant. -/

/-- The semaphore and the reference count of every slot created so far. -/
structure Permits (max : ℕ) where
  free : ℕ
  strong : ℕ → ℕ
  next : ℕ
  fresh : ∀ n, next ≤ n → strong n = 0
  exact : free + {n ∈ Finset.range next | 0 < strong n}.card = max

namespace Permits

open Function (update)

variable {max : ℕ} (p : Permits max) {n m : ℕ}

/-- The slots with a handle. -/
def live : Finset ℕ := {n ∈ Finset.range p.next | 0 < p.strong n}

theorem lt_next (h : 0 < p.strong n) : n < p.next := by
  by_contra hn
  have := p.fresh n (Nat.le_of_not_lt hn)
  omega

@[simp] theorem mem_live : n ∈ p.live ↔ 0 < p.strong n := by
  simp only [live, Finset.mem_filter, Finset.mem_range, and_iff_right_iff_imp]
  exact p.lt_next

theorem free_add_card_live : p.free + p.live.card = max := p.exact

/-- A semaphore with all its permits. -/
def new (max : ℕ) : Permits max where
  free := max
  strong := fun _ => 0
  next := 0
  fresh _ _ := rfl
  exact := by simp

/-- Take a permit into a new slot, without waiting. -/
def tryAcquire : Option (ℕ × Permits max) :=
  if h : 0 < p.free then
    some (p.next,
      { free := p.free - 1
        strong := update p.strong p.next 1
        next := p.next + 1
        fresh := fun n hn => by
          rw [Function.update_of_ne (by omega)]
          exact p.fresh n (by omega)
        exact := by
          have hl : {n ∈ Finset.range (p.next + 1) | 0 < update p.strong p.next 1 n} =
              insert p.next p.live := by
            ext n
            simp only [Finset.mem_filter, Finset.mem_range, Finset.mem_insert, mem_live,
              Function.update_apply]
            have := p.lt_next (n := n)
            split_ifs <;> omega
          have hn : p.next ∉ p.live := by simp [p.fresh p.next le_rfl]
          rw [hl, Finset.card_insert_of_notMem hn]
          have := p.free_add_card_live
          omega })
  else none

/-- Clone a handle of slot `n`. -/
def clone (n : ℕ) : Permits max :=
  if h : 0 < p.strong n then
    { p with
      strong := update p.strong n (p.strong n + 1)
      fresh := fun m hm => by
        have := p.lt_next h
        rw [Function.update_of_ne (by omega)]
        exact p.fresh m hm
      exact := by
        have hl :
            {m ∈ Finset.range p.next | 0 < update p.strong n (p.strong n + 1) m} = p.live := by
          ext m
          simp only [live, Finset.mem_filter, Finset.mem_range, Function.update_apply]
          split_ifs with he
          · subst he; omega
          · rfl
        rw [hl, p.free_add_card_live] }
  else p

/-- Drop a handle of slot `n`; the last one returns the permit. -/
def drop (n : ℕ) : Permits max :=
  if h : 0 < p.strong n then
    { p with
      free := if p.strong n = 1 then p.free + 1 else p.free
      strong := update p.strong n (p.strong n - 1)
      fresh := fun m hm => by
        have := p.lt_next h
        rw [Function.update_of_ne (by omega)]
        exact p.fresh m hm
      exact := by
        have hx := p.free_add_card_live
        split_ifs with h1
        · have hl : {m ∈ Finset.range p.next | 0 < update p.strong n (p.strong n - 1) m} =
              p.live.erase n := by
            ext m
            simp only [live, Finset.mem_filter, Finset.mem_range, Finset.mem_erase,
              Function.update_apply]
            split_ifs with he
            · subst he; omega
            · simp [he]
          have hn : n ∈ p.live := p.mem_live.mpr h
          have := Finset.card_pos.mpr ⟨n, hn⟩
          rw [hl, Finset.card_erase_of_mem hn]
          omega
        · have hl : {m ∈ Finset.range p.next | 0 < update p.strong n (p.strong n - 1) m} =
              p.live := by
            ext m
            simp only [live, Finset.mem_filter, Finset.mem_range, Function.update_apply]
            split_ifs with he
            · subst he; omega
            · rfl
          rw [hl, hx] }
  else p

/-- Drop one handle for every element of a list. -/
def dropAll (l : List ℕ) : Permits max := l.foldl drop p

variable {p}

theorem tryAcquire_eq_some {q : Permits max} (h : p.tryAcquire = some (n, q)) :
    n = p.next ∧ q.next = p.next + 1 ∧ q.strong = update p.strong p.next 1 := by
  unfold tryAcquire at h
  split_ifs at h
  cases h
  exact ⟨rfl, rfl, rfl⟩

theorem free_of_tryAcquire {q : Permits max} (h : p.tryAcquire = some (n, q)) :
    q.free + 1 = p.free := by
  unfold tryAcquire at h
  split_ifs at h with hf
  cases h
  exact Nat.sub_add_cancel hf

theorem tryAcquire_eq_none : p.tryAcquire = none ↔ p.free = 0 := by
  unfold tryAcquire
  split_ifs with hf
  · simp [hf.ne']
  · simpa using hf

@[simp] theorem next_clone : (p.clone n).next = p.next := by
  unfold clone; split_ifs <;> rfl

@[simp] theorem next_drop : (p.drop n).next = p.next := by
  unfold drop; split_ifs <;> rfl

theorem strong_clone (h : 0 < p.strong n) :
    (p.clone n).strong m = p.strong m + if m = n then 1 else 0 := by
  unfold clone
  rw [dif_pos h]
  simp only [Function.update_apply]
  split_ifs with he <;> simp [he]

theorem strong_drop : (p.drop n).strong m = p.strong m - if m = n then 1 else 0 := by
  unfold drop
  by_cases h : 0 < p.strong n
  · rw [dif_pos h]
    simp only [Function.update_apply]
    split_ifs with he <;> simp [he]
  · rw [dif_neg h]
    split_ifs with he
    · subst he; omega
    · rfl

theorem le_strong_clone : p.strong m ≤ (p.clone n).strong m := by
  by_cases h : 0 < p.strong n
  · rw [strong_clone h]
    omega
  · rw [clone, dif_neg h]

theorem strong_dropAll_le (l : List ℕ) : (p.dropAll l).strong m ≤ p.strong m := by
  induction l generalizing p with
  | nil => exact le_rfl
  | cons n l ih => exact (ih (p := p.drop n)).trans (by rw [strong_drop]; omega)

theorem strong_dropAll_of_notMem {l : List ℕ} (h : m ∉ l) :
    (p.dropAll l).strong m = p.strong m := by
  induction l generalizing p with
  | nil => rfl
  | cons n l ih =>
      rw [List.mem_cons, not_or] at h
      refine (ih (p := p.drop n) h.2).trans ?_
      rw [strong_drop, if_neg h.1, Nat.sub_zero]

theorem free_clone : (p.clone n).free = p.free := by
  unfold clone; split_ifs <;> rfl

theorem free_drop (h : 0 < p.strong n) :
    (p.drop n).free = if p.strong n = 1 then p.free + 1 else p.free := by
  rw [drop, dif_pos h]

theorem free_le_drop : p.free ≤ (p.drop n).free := by
  unfold drop
  split_ifs <;> simp

theorem free_le_dropAll (l : List ℕ) : p.free ≤ (p.dropAll l).free := by
  induction l generalizing p with
  | nil => exact le_rfl
  | cons n l ih => exact free_le_drop.trans (ih (p := p.drop n))

/-- Dropping one handle of each of some slots frees a permit iff one of them is the last. -/
theorem free_dropAll_pos {l : List ℕ} (hnodup : l.Nodup) (hpos : ∀ n ∈ l, 0 < p.strong n) :
    0 < (p.dropAll l).free ↔ 0 < p.free ∨ ∃ n ∈ l, p.strong n = 1 := by
  induction l generalizing p with
  | nil => simp [dropAll]
  | cons n l ih =>
      obtain ⟨hn, hl⟩ := List.nodup_cons.mp hnodup
      have hsame : ∀ m ∈ l, (p.drop n).strong m = p.strong m := by
        intro m hm
        rw [strong_drop, if_neg, Nat.sub_zero]
        rintro rfl
        exact hn hm
      have hrest : (∃ m ∈ l, (p.drop n).strong m = 1) ↔ ∃ m ∈ l, p.strong m = 1 :=
        exists_congr fun m => and_congr_right fun hm => by rw [hsame m hm]
      show 0 < ((p.drop n).dropAll l).free ↔ _
      rw [ih hl fun m hm => by rw [hsame m hm]; exact hpos m (List.mem_cons_of_mem _ hm), hrest,
        free_drop (hpos n List.mem_cons_self)]
      simp only [List.mem_cons, exists_eq_or_imp]
      by_cases h : p.strong n = 1
      · simp [h]
      · simp [h]

theorem live_clone : (p.clone n).live = p.live := by
  ext m
  by_cases h : 0 < p.strong n
  · rw [mem_live, mem_live, strong_clone h]
    split_ifs with he
    · subst he; omega
    · rfl
  · rw [clone, dif_neg h]

theorem live_drop_subset : (p.drop n).live ⊆ p.live := by
  intro m
  rw [mem_live, mem_live, strong_drop]
  omega

theorem live_dropAll_subset (l : List ℕ) : (p.dropAll l).live ⊆ p.live := by
  induction l generalizing p with
  | nil => exact subset_rfl
  | cons n l ih => exact (ih (p := p.drop n)).trans live_drop_subset

/-! ### Handles in use -/

/-- `hs` are the handles in use, one element for each. -/
def HeldBy (p : Permits max) (hs : Multiset ℕ) : Prop := ∀ n, p.strong n = hs.count n

theorem HeldBy.new : (Permits.new max).HeldBy 0 := fun _ => by simp [Permits.new]

theorem HeldBy.live_iff {hs : Multiset ℕ} (h : p.HeldBy hs) : n ∈ p.live ↔ n ∈ hs := by
  rw [mem_live, h n, Multiset.count_pos]

theorem HeldBy.lt_next {hs : Multiset ℕ} (h : p.HeldBy hs) (hn : n ∈ hs) : n < p.next :=
  p.lt_next (p.mem_live.mp (h.live_iff.mpr hn))

theorem HeldBy.tryAcquire {hs : Multiset ℕ} {q : Permits max} (h : p.HeldBy hs)
    (hq : p.tryAcquire = some (n, q)) : q.HeldBy (n ::ₘ hs) ∧ n ∉ hs ∧ q.next = n + 1 := by
  obtain ⟨rfl, hnext, hs'⟩ := tryAcquire_eq_some hq
  have hn : p.next ∉ hs := fun hm => absurd (h.lt_next hm) (by omega)
  refine ⟨fun m => ?_, hn, hnext⟩
  rw [hs', Function.update_apply, Multiset.count_cons, h m]
  split_ifs with he
  · rw [he, Multiset.count_eq_zero_of_notMem hn]
  · rfl

theorem HeldBy.clone {hs : Multiset ℕ} (h : p.HeldBy hs) (hn : n ∈ hs) :
    (p.clone n).HeldBy (n ::ₘ hs) := by
  intro m
  rw [strong_clone (by rw [h n]; exact Multiset.count_pos.mpr hn), Multiset.count_cons, h m]

theorem HeldBy.drop {hs : Multiset ℕ} (h : p.HeldBy (n ::ₘ hs)) : (p.drop n).HeldBy hs := by
  intro m
  rw [strong_drop, h m, Multiset.count_cons]
  omega

theorem HeldBy.dropAll {l : List ℕ} {hs : Multiset ℕ} (h : p.HeldBy (l + hs)) :
    (p.dropAll l).HeldBy hs := by
  induction l generalizing p with
  | nil =>
      rw [Multiset.coe_nil, Multiset.zero_add] at h
      exact h
  | cons n l ih =>
      refine ih (p := p.drop n) (HeldBy.drop ?_)
      rwa [← Multiset.cons_coe, Multiset.cons_add] at h

@[simp] theorem next_dropAll (l : List ℕ) : (p.dropAll l).next = p.next := by
  induction l generalizing p with
  | nil => rfl
  | cons n l ih => exact (ih (p := p.drop n)).trans next_drop

end Permits
