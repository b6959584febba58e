import Mathlib.Logic.Function.Basic
import Mathlib.Data.List.Basic

/-! # Labelled transition systems with executable steps

A `System` is a predicate on initial states and a guarded step function: `step s a` is the
state after the atomic action `a`, or `none` when `a` is disabled in `s`.  A run is any
sequence of enabled actions, so `Reachable` ranges over every interleaving.

`ReachWhile ok` restricts the runs to those whose every action meets the condition `ok` in
the state it is taken from; it is the form in which a result that holds only under a
condition on the steps is stated (`Reachable` is the case of no condition).

* `ReachWhile.invariant` is the induction principle: what holds initially and is kept by
  every step that meets the condition holds in every state reached.
* `Reachable.simulation` is the refinement rule: a function that takes every step of one system
to a step of another, or to none, takes reachable states to reachable states.
* `runWhile` executes a list of actions; `ReachWhile.of_run` turns a successful execution
  into reachability, so a concrete run is checked by evaluation. -/

namespace Transition

universe u v

/-- A transition system: its initial states and its guarded atomic steps. -/
structure System (σ : Type u) (α : Type v) where
  init : σ → Prop
  step : σ → α → Option σ

variable {σ : Type u} {α : Type v} (S : System σ α)

/-- States reached by runs all of whose steps meet `ok`. -/
inductive ReachWhile (ok : σ → α → Prop) : σ → Prop
  | init {s : σ} : S.init s → ReachWhile ok s
  | step {s s' : σ} {a : α} :
      ReachWhile ok s → ok s a → S.step s a = some s' → ReachWhile ok s'

/-- States reached by any run. -/
abbrev Reachable : σ → Prop := ReachWhile S (fun _ _ => True)

variable {S} {ok : σ → α → Prop}

/-- **The invariant rule.** -/
theorem ReachWhile.invariant {I : σ → Prop} (hinit : ∀ s, S.init s → I s)
    (hstep : ∀ s a s', I s → ok s a → S.step s a = some s' → I s') {s : σ}
    (h : ReachWhile S ok s) : I s := by
  induction h with
  | init hi => exact hinit _ hi
  | step _ hok hs ih => exact hstep _ _ _ ih hok hs

/-- **The refinement rule.** -/
theorem Reachable.simulation {τ : Type*} {β : Type*} {T : System τ β} (f : σ → τ)
    (hinit : ∀ s, S.init s → T.init (f s))
    (hstep : ∀ s a s', Reachable S s → S.step s a = some s' →
      f s' = f s ∨ ∃ b, T.step (f s) b = some (f s')) {s : σ} (h : Reachable S s) :
    Reachable T (f s) := by
  induction h with
  | init hi => exact .init (hinit _ hi)
  | step hr _ hs ih =>
      rcases hstep _ _ _ hr hs with he | ⟨b, hb⟩
      · rw [he]
        exact ih
      · exact .step ih trivial hb

/-! ### Executing a list of actions -/

variable (S) in
/-- Execute actions one after the other, as long as each is enabled and meets `ok`. -/
def runWhile (ok : σ → α → Bool) (s : σ) : List α → Option σ
  | [] => some s
  | a :: as => if ok s a then (S.step s a).bind fun s' => runWhile ok s' as else none

variable (S) in
/-- Execute actions one after the other, as long as each is enabled. -/
abbrev run (s : σ) (as : List α) : Option σ := runWhile S (fun _ _ => true) s as

theorem run_cons {a : α} {s s' : σ} (h : S.step s a = some s') (as : List α) :
    run S s (a :: as) = run S s' as := by
  simp only [run, runWhile, h, if_true, Option.bind_some]

theorem ReachWhile.of_run (okb : σ → α → Bool) (hok : ∀ s a, okb s a = true → ok s a)
    (as : List α) {s s' : σ} (hs : ReachWhile S ok s) (h : runWhile S okb s as = some s') :
    ReachWhile S ok s' := by
  induction as generalizing s with
  | nil =>
      simp only [runWhile, Option.some.injEq] at h
      exact h ▸ hs
  | cons a as ih =>
      simp only [runWhile] at h
      split_ifs at h with hb
      obtain ⟨t, ht, hr⟩ := Option.bind_eq_some_iff.mp h
      exact ih (.step hs (hok _ _ hb) ht) hr

/-- The end of an execution from an initial state is reachable. -/
theorem Reachable.of_run (as : List α) {s s' : σ} (hs : S.init s) (h : run S s as = some s') :
    Reachable S s' :=
  ReachWhile.of_run (fun _ _ => true) (fun _ _ _ => trivial) as (.init hs) h

end Transition
