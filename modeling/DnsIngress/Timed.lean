import Mathlib.Data.Nat.Notation
import Mathlib.Tactic.Common

/-! # Operations that take time

A timed operation says how long it takes and what it yields, or that it never completes.
`timeout limit` waits for it for `limit` ticks; it polls the operation before the clock, so an
operation that completes at the limit is in time. -/

/-- An operation that yields `ρ` after some time, or never completes. -/
abbrev Timed (ρ : Type) := Option (ℕ × ρ)

namespace Timed

variable {ρ σ : Type} {limit t : ℕ} {o : Timed ρ} {r : ρ}

/-- The operation is still pending after `limit`. -/
def Slow (limit : ℕ) (o : Timed ρ) : Prop := ∀ t r, o = some (t, r) → limit < t

/-- The time of the wait, and the result if it is in time. -/
def timeout (limit : ℕ) : Timed ρ → ℕ × Option ρ
  | some (t, r) => if t ≤ limit then (t, some r) else (limit, none)
  | none => (limit, none)

def map (f : ρ → σ) (o : Timed ρ) : Timed σ := Option.map (fun x => (x.1, f x.2)) o

theorem timeout_eq_some : timeout limit o = (t, some r) ↔ o = some (t, r) ∧ t ≤ limit := by
  cases o with
  | none => simp [timeout]
  | some x =>
      obtain ⟨t', r'⟩ := x
      simp only [timeout, Option.some.injEq, Prod.mk.injEq]
      split_ifs with h
      · simp only [Prod.mk.injEq, Option.some.injEq]
        constructor
        · rintro ⟨rfl, rfl⟩; exact ⟨⟨rfl, rfl⟩, h⟩
        · exact fun h => h.1
      · simp only [Prod.mk.injEq, reduceCtorEq, and_false, false_iff]
        rintro ⟨⟨rfl, -⟩, hle⟩
        exact h hle

theorem timeout_eq_none : timeout limit o = (t, none) ↔ Slow limit o ∧ t = limit := by
  cases o with
  | none => simp [timeout, Slow, eq_comm]
  | some x =>
      obtain ⟨t', r'⟩ := x
      simp only [timeout, Slow, Option.some.injEq, Prod.mk.injEq]
      split_ifs with h
      · simp only [Prod.mk.injEq, reduceCtorEq, and_false, false_iff, not_and]
        intro hs
        exact absurd (hs t' r' ⟨rfl, rfl⟩) (Nat.not_lt.mpr h)
      · simp only [Prod.mk.injEq, and_true, eq_comm, iff_and_self]
        rintro - t r ⟨rfl, -⟩
        omega

end Timed
