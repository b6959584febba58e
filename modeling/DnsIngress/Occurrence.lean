import Mathlib.Data.List.Infix

/-! # Occurrences of a pattern in a text that is put together

`w <:+: s` says that the pattern `w` occurs in `s`.  Where known parts of a text stand before,
between and after unknown ones, two conditions on the known parts are enough to look for the pattern
in the unknown parts only:

* `NotFrom w s`: no occurrence of `w` begins in `s`, whatever follows.
* `NotInto w s`: no occurrence of `w` that begins before `s` reaches into it, whatever follows. -/

namespace Occurrence

variable {α : Type} {w s t u : List α}

def NotFrom (w s : List α) : Prop := ∀ t ∈ s.tails, t ≠ [] → ¬ t <+: w ∧ ¬ w <+: t

def NotInto (w s : List α) : Prop := ∀ t ∈ w.tails, t ≠ [] → ¬ t <+: s ∧ ¬ s <+: t

instance [DecidableEq α] (w s : List α) : Decidable (NotFrom w s) :=
  inferInstanceAs (Decidable (∀ t ∈ s.tails, t ≠ [] → ¬ t <+: w ∧ ¬ w <+: t))

instance [DecidableEq α] (w s : List α) : Decidable (NotInto w s) :=
  inferInstanceAs (Decidable (∀ t ∈ w.tails, t ≠ [] → ¬ t <+: s ∧ ¬ s <+: t))

/-- A part in which no occurrence begins can be left out at the beginning. -/
theorem infix_append_of_notFrom (h : NotFrom w s) : w <:+: s ++ t ↔ w <:+: t := by
  rw [List.infix_append_iff_ne_nil]
  constructor
  · rintro (hs | ht | ⟨l₁, l₂, hne, -, rfl, hl₁, -⟩)
    · obtain ⟨tail, hw, htail⟩ := List.infix_iff_prefix_suffix.mp hs
      by_cases hne : tail = []
      · rw [hne, List.prefix_nil] at hw
        rw [hw]
        exact List.nil_infix
      · exact absurd hw (h tail ((List.mem_tails _ _).mpr htail) hne).2
    · exact ht
    · exact absurd (List.prefix_append l₁ l₂) (h l₁ ((List.mem_tails _ _).mpr hl₁) hne).1
  · exact fun ht => .inr (.inl ht)

/-- A part that no occurrence reaches into divides the text. -/
theorem infix_append_of_notInto (h : NotInto w s) :
    w <:+: t ++ (s ++ u) ↔ w <:+: t ∨ w <:+: s ++ u := by
  rw [List.infix_append_iff_ne_nil]
  constructor
  · rintro (ht | hs | ⟨l₁, l₂, -, hne, rfl, -, hl₂⟩)
    · exact .inl ht
    · exact .inr hs
    · have hl := h l₂ ((List.mem_tails _ _).mpr (List.suffix_append l₁ l₂)) hne
      rcases List.prefix_or_prefix_of_prefix hl₂ (List.prefix_append s u) with hp | hp
      · exact absurd hp hl.1
      · exact absurd hp hl.2
  · rintro (ht | hs)
    · exact .inl ht
    · exact .inr (.inl hs)

end Occurrence
