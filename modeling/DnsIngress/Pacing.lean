import Mathlib.Algebra.BigOperators.Intervals
import Mathlib.Algebra.Order.BigOperators.Group.Finset
import Mathlib.Algebra.Order.Ring.Nat
import Mathlib.Data.List.NodupEquivFin
import Mathlib.Tactic.Common

/-! # Events with delays between them

`Paced delay times`: the `i`-th of the events is followed by a pause of `delay i` at least.  If any
`k` pauses in a row take `d`, no window of length `d` has more than `k` events
(`Paced.length_window_le`). -/

variable {delay : ℕ → ℕ} {times : List ℕ}

def Paced (delay : ℕ → ℕ) (times : List ℕ) : Prop :=
  ∀ i t t', times[i]? = some t → times[i + 1]? = some t' → t + delay i ≤ t'

namespace Paced

theorem nil : Paced delay [] := by
  intro i t t' ht
  simp at ht

theorem concat {now : ℕ} (h : Paced delay times)
    (hlast : ∀ t, times.getLast? = some t → t + delay (times.length - 1) ≤ now) :
    Paced delay (times ++ [now]) := by
  intro i t t' ht ht'
  have hi : i + 1 < (times ++ [now]).length := (List.getElem?_eq_some_iff.mp ht').1
  rw [List.length_append, List.length_singleton] at hi
  rw [List.getElem?_append_left (by omega)] at ht
  by_cases hnext : i + 1 < times.length
  · rw [List.getElem?_append_left hnext] at ht'
    exact h i t t' ht ht'
  · have hlen : times.length = i + 1 := by omega
    have hnow : t' = now := by simpa [← hlen] using ht'.symm
    rw [hnow]
    have hi' : i = times.length - 1 := by omega
    rw [hi'] at ht ⊢
    exact hlast t (by rw [List.getLast?_eq_getElem?, ht])

theorem add_sum_le (h : Paced delay times) {i n t t' : ℕ} (ht : times[i]? = some t)
    (ht' : times[i + n]? = some t') : t + ∑ j ∈ Finset.range n, delay (i + j) ≤ t' := by
  induction n generalizing t' with
  | zero =>
      rw [Nat.add_zero, ht] at ht'
      cases ht'
      simp
  | succ n ih =>
      have hlt : i + n < times.length := by
        have := (List.getElem?_eq_some_iff.mp ht').1
        omega
      have hmid := List.getElem?_eq_getElem hlt
      have hsum := ih hmid
      have hstep := h (i + n) _ t' hmid ht'
      rw [Finset.sum_range_succ]
      omega

/-- **The rate of paced events.** -/
theorem length_window_le (h : Paced delay times) {k d : ℕ}
    (hsum : ∀ i, d ≤ ∑ j ∈ Finset.range k, delay (i + j)) (start : ℕ) :
    (times.filter fun t => start ≤ t ∧ t < start + d).length ≤ k := by
  by_contra hlt
  obtain ⟨f, hf⟩ := List.sublist_iff_exists_orderEmbedding_getElem?_eq.mp
    (List.filter_sublist (l := times) (p := fun t => start ≤ t ∧ t < start + d))
  have h0 := List.getElem?_eq_getElem (Nat.lt_of_le_of_lt (Nat.zero_le k) (Nat.lt_of_not_le hlt))
  have hk := List.getElem?_eq_getElem (Nat.lt_of_not_le hlt)
  have hmem0 := List.of_mem_filter (List.mem_of_getElem? h0)
  have hmemk := List.of_mem_filter (List.mem_of_getElem? hk)
  rw [hf] at h0 hk
  have hgap : f 0 + k ≤ f k := by
    rw [Nat.add_comm]
    exact f.strictMono.add_le_nat k 0
  obtain ⟨m, hm⟩ := Nat.exists_eq_add_of_le hgap
  have hle := h.add_sum_le h0 (n := k + m) (by rw [← Nat.add_assoc, ← hm]; exact hk)
  have hmono : ∑ j ∈ Finset.range k, delay (f 0 + j) ≤
      ∑ j ∈ Finset.range (k + m), delay (f 0 + j) :=
    Finset.sum_le_sum_of_subset (Finset.range_subset_range.mpr (Nat.le_add_right k m))
  have hd := hsum (f 0)
  simp only [decide_eq_true_eq] at hmem0 hmemk
  omega

end Paced
