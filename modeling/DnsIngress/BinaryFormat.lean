import Mathlib.Algebra.Order.Ring.Nat
import Mathlib.Data.Nat.Log
import Mathlib.Tactic.Ring

/-! # Binary floating point

The finite numbers of a binary format that are not negative, as multiples of the least of them.
`ofRatio` rounds a ratio to the bits of a significand, and `decimals` rounds a number to a number of
decimal places; of two nearest the even one is taken.

`decimals_ofRatio`: a decimal number comes back from the nearest number of the format, as long as
its places and the bits before its point fit into the significand together. -/

/-- A format, by the bits of its significands and its least number, 2 to the minus `scale`. -/
structure BinaryFormat where
  precision : ℕ
  scale : ℕ
  precision_pos : 0 < precision

namespace BinaryFormat

/-- The integer nearest to `n / d`. -/
def roundEven (n d : ℕ) : ℕ :=
  if 2 * (n % d) < d ∨ 2 * (n % d) = d ∧ n / d % 2 = 0 then n / d else n / d + 1

section
variable (F : BinaryFormat)

/-- The number one. -/
def one : ℕ := 2 ^ F.scale

/-- The bits of a number that a significand has no room for. -/
def excess (x : ℕ) : ℕ := x.log2 + 1 - F.precision

/-- The number nearest to `n / d`; of two numbers, the quotient. -/
def ofRatio (n d : ℕ) : ℕ :=
  roundEven (n * F.one) (d * 2 ^ F.excess (n * F.one / d)) * 2 ^ F.excess (n * F.one / d)

/-- The number nearest to an integer. -/
def ofNat (n : ℕ) : ℕ := F.ofRatio n 1

/-- The digits of a number with this many decimal places. -/
def decimals (places x : ℕ) : ℕ := roundEven (x * 10 ^ places) F.one

end

variable {F : BinaryFormat} {n d m x places bits k : ℕ}

theorem one_pos : 0 < F.one := Nat.two_pow_pos F.scale

/-! ### Rounding -/

theorem roundEven_bounds (hd : 0 < d) :
    2 * n ≤ 2 * (roundEven n d * d) + d ∧ 2 * (roundEven n d * d) ≤ 2 * n + d := by
  have hsplit : n = n / d * d + n % d := (Nat.div_add_mod' n d).symm
  have hlt : n % d < d := Nat.mod_lt n hd
  unfold roundEven
  split_ifs
  · omega
  · rw [Nat.add_mul, Nat.one_mul]
    omega

theorem roundEven_eq (hd : 0 < d) (hle : 2 * n < 2 * (m * d) + d)
    (hge : 2 * (m * d) < 2 * n + d) : roundEven n d = m := by
  obtain ⟨hupper, hlower⟩ := roundEven_bounds (n := n) hd
  rcases Nat.lt_trichotomy (roundEven n d) m with h | h | h
  · have hmul := Nat.mul_le_mul_right d (Nat.succ_le_of_lt h)
    rw [Nat.succ_mul] at hmul
    omega
  · exact h
  · have hmul := Nat.mul_le_mul_right d (Nat.succ_le_of_lt h)
    rw [Nat.succ_mul] at hmul
    omega

theorem roundEven_mul (hd : 0 < d) : roundEven (m * d) d = m :=
  roundEven_eq hd (by omega) (by omega)

/-! ### The nearest number -/

theorem excess_le (h : x < 2 ^ (k + F.precision)) : F.excess x ≤ k := by
  unfold excess
  by_cases hx : x = 0
  · have := F.precision_pos
    rw [hx, Nat.log2_zero]
    omega
  · have := (Nat.log2_lt hx).mpr h
    omega

/-- The error is at most half a unit in the last place. -/
theorem ofRatio_bounds (hd : 0 < d) (h : n * F.one / d < 2 ^ (k + F.precision)) :
    2 * (n * F.one) ≤ 2 * (F.ofRatio n d * d) + d * 2 ^ k ∧
      2 * (F.ofRatio n d * d) ≤ 2 * (n * F.one) + d * 2 ^ k := by
  have hpow : d * 2 ^ F.excess (n * F.one / d) ≤ d * 2 ^ k :=
    Nat.mul_le_mul_left d (Nat.pow_le_pow_right (by decide) (excess_le h))
  obtain ⟨hupper, hlower⟩ := roundEven_bounds (n := n * F.one)
    (Nat.mul_pos hd (Nat.two_pow_pos (F.excess (n * F.one / d))))
  have hassoc : F.ofRatio n d * d =
      roundEven (n * F.one) (d * 2 ^ F.excess (n * F.one / d)) *
        (d * 2 ^ F.excess (n * F.one / d)) := by
    rw [ofRatio]
    ring
  rw [hassoc]
  omega

/-- An integer that fits into a significand is a number. -/
theorem ofNat_eq (h : n < 2 ^ F.precision) : F.ofNat n = n * F.one := by
  have hexcess : F.excess (n * F.one) ≤ F.scale := by
    refine excess_le ?_
    rw [Nat.add_comm, Nat.pow_add]
    exact Nat.mul_lt_mul_of_pos_right h one_pos
  obtain ⟨k, hk⟩ := Nat.exists_eq_add_of_le hexcess
  have hone : n * F.one = n * 2 ^ k * 2 ^ F.excess (n * F.one) := by
    calc n * F.one = n * 2 ^ (F.excess (n * F.one) + k) := by rw [← hk, one]
      _ = n * 2 ^ k * 2 ^ F.excess (n * F.one) := by
        rw [Nat.pow_add]
        ring
  have hround : roundEven (n * F.one) (2 ^ F.excess (n * F.one)) = n * 2 ^ k :=
    calc roundEven (n * F.one) (2 ^ F.excess (n * F.one)) =
          roundEven (n * 2 ^ k * 2 ^ F.excess (n * F.one)) (2 ^ F.excess (n * F.one)) :=
        congrArg (roundEven · _) hone
      _ = n * 2 ^ k := roundEven_mul (Nat.two_pow_pos _)
  rw [ofNat, ofRatio, Nat.one_mul, Nat.div_one, hround, ← hone]

/-- **Decimal numbers come back.** -/
theorem decimals_ofRatio (hbits : 10 ^ places * 2 ^ bits < 2 ^ F.precision)
    (hscale : F.precision ≤ bits + F.scale) (h : n < 2 ^ bits * 10 ^ places) :
    F.decimals places (F.ofRatio (n * F.one) (10 ^ places * F.one)) = n := by
  obtain ⟨k, hk⟩ := Nat.exists_eq_add_of_le' hscale
  have hpos : 0 < 10 ^ places := Nat.pow_pos (by decide)
  have hsize : n * F.one * F.one / (10 ^ places * F.one) < 2 ^ (k + F.precision) := by
    rw [Nat.mul_div_mul_right _ _ one_pos, Nat.div_lt_iff_lt_mul hpos]
    calc n * F.one < 2 ^ bits * 10 ^ places * F.one := Nat.mul_lt_mul_of_pos_right h one_pos
      _ = 2 ^ (k + F.precision) * 10 ^ places := by
        rw [← hk, Nat.pow_add, one]
        ring
  obtain ⟨hupper, hlower⟩ := ofRatio_bounds (Nat.mul_pos hpos one_pos) hsize
  have hulp : 10 ^ places * 2 ^ k < F.one := by
    refine Nat.lt_of_mul_lt_mul_right (a := 2 ^ F.precision) ?_
    calc 10 ^ places * 2 ^ k * 2 ^ F.precision = 10 ^ places * 2 ^ bits * 2 ^ F.scale := by
          rw [Nat.mul_assoc, ← Nat.pow_add, ← hk, Nat.pow_add, Nat.mul_assoc]
      _ < 2 ^ F.precision * 2 ^ F.scale :=
          Nat.mul_lt_mul_of_pos_right hbits (Nat.two_pow_pos _)
      _ = F.one * 2 ^ F.precision := Nat.mul_comm _ _
  have hunit (a : ℕ) : a * (10 ^ places * F.one) = a * 10 ^ places * F.one := by ring
  have hhalf : 10 ^ places * F.one * 2 ^ k < F.one * F.one := by
    calc 10 ^ places * F.one * 2 ^ k = 10 ^ places * 2 ^ k * F.one := by ring
      _ < F.one * F.one := Nat.mul_lt_mul_of_pos_right hulp one_pos
  rw [hunit] at hupper hlower
  refine roundEven_eq one_pos ?_ ?_
  · refine Nat.lt_of_mul_lt_mul_right (a := F.one) ?_
    rw [Nat.add_mul, Nat.mul_assoc 2, Nat.mul_assoc 2]
    omega
  · refine Nat.lt_of_mul_lt_mul_right (a := F.one) ?_
    rw [Nat.add_mul, Nat.mul_assoc 2, Nat.mul_assoc 2]
    omega

end BinaryFormat
