import DnsIngress.Transition
import Mathlib.Algebra.BigOperators.Group.List.Basic
import Mathlib.Data.List.Perm.Basic
import Mathlib.Tactic.Common

/-! # Counters shared by concurrent tasks

The counters are atomic variables that are only ever added to.  A task makes a list of calls, one
after the other, and a call makes a list of additions.  Atomicity is that of one addition: the
additions of different calls interleave, and those of one call may take effect in any order, as
they may on relaxed atomics.

The values are of any commutative monoid, so the results hold of machine integers that wrap
around as well.  A task is of a kind `τ`, and `calls` says which calls a task of a kind makes.

* `value_add_left`: nothing is lost and nothing is counted twice, at any time.
* `value_of_quiet`: when nothing is in progress, a counter has the sum of what all tasks add. -/

namespace Counters

open Transition

variable {ι M : Type*} [DecidableEq ι] [AddCommMonoid M]

/-- What these additions give to a counter. -/
def amount (c : ι) (adds : List (ι × M)) : M :=
  (adds.map fun a => if a.1 = c then a.2 else 0).sum

/-- What these calls give to a counter. -/
def total (c : ι) (calls : List (List (ι × M))) : M := (calls.map (amount c)).sum

structure Task (τ ι M : Type*) where
  kind : τ
  /-- the calls not begun -/
  todo : List (List (ι × M))
  /-- the additions left of the call in progress -/
  left : List (ι × M)

/-- The task has made all its calls. -/
def Task.Done {τ : Type*} (t : Task τ ι M) : Prop := t.todo = [] ∧ t.left = []

structure State (τ ι M : Type*) where
  value : ι → M
  tasks : List (Task τ ι M)

inductive Action (τ : Type*)
  | spawn (kind : τ)
  /-- the next call of a task begins -/
  | call (i : ℕ)
  /-- an addition of the call in progress takes effect -/
  | add (i j : ℕ)

variable {τ : Type*} (calls : τ → List (List (ι × M)))

namespace State

variable (s : State τ ι M)

def step : Action τ → Option (State τ ι M)
  | .spawn kind => some { s with tasks := s.tasks ++ [⟨kind, calls kind, []⟩] }
  | .call i =>
      match s.tasks[i]? with
      | some ⟨kind, adds :: todo, []⟩ =>
          some { s with tasks := s.tasks.set i ⟨kind, todo, adds⟩ }
      | _ => none
  | .add i j =>
      match s.tasks[i]? with
      | none => none
      | some t =>
          match t.left[j]? with
          | none => none
          | some (c, m) =>
              some
                { value := Function.update s.value c (s.value c + m)
                  tasks := s.tasks.set i { t with left := t.left.eraseIdx j } }

/-- No call is in progress, and none is left to make. -/
def Quiet : Prop := ∀ t ∈ s.tasks, t.Done

end State

/-- The counters, all zero at first, and any number of tasks. -/
def system : System (State τ ι M) (Action τ) where
  init s := s = ⟨fun _ => 0, []⟩
  step := State.step calls

/-! ### What is added -/

variable {calls} {c : ι} {s s' : State τ ι M}

@[simp] theorem amount_nil : amount c ([] : List (ι × M)) = 0 := rfl

@[simp] theorem amount_cons (a : ι × M) (adds : List (ι × M)) :
    amount c (a :: adds) = (if a.1 = c then a.2 else 0) + amount c adds :=
  List.sum_cons

theorem amount_perm {adds adds' : List (ι × M)} (h : adds.Perm adds') :
    amount c adds = amount c adds' :=
  (h.map _).sum_eq

@[simp] theorem total_nil : total c ([] : List (List (ι × M))) = 0 := rfl

@[simp] theorem total_cons (adds : List (ι × M)) (calls : List (List (ι × M))) :
    total c (adds :: calls) = amount c adds + total c calls :=
  List.sum_cons

/-- What a task has still to add. -/
def Task.pending (c : ι) (t : Task τ ι M) : M := amount c t.left + total c t.todo

omit [DecidableEq ι] in
theorem sum_tasks {tasks : List (Task τ ι M)} {i : ℕ} {t : Task τ ι M} (h : tasks[i]? = some t)
    (f : Task τ ι M → M) : (tasks.map f).sum = f t + ((tasks.eraseIdx i).map f).sum := by
  obtain ⟨hi, rfl⟩ := List.getElem?_eq_some_iff.mp h
  rw [← ((List.getElem_cons_eraseIdx_perm hi).map f).sum_eq, List.map_cons, List.sum_cons]

omit [DecidableEq ι] in
theorem sum_tasks_set {tasks : List (Task τ ι M)} {i : ℕ} {t : Task τ ι M} (h : tasks[i]? = some t)
    (t' : Task τ ι M) (f : Task τ ι M → M) :
    ((tasks.set i t').map f).sum = f t' + ((tasks.eraseIdx i).map f).sum := by
  obtain ⟨hi, rfl⟩ := List.getElem?_eq_some_iff.mp h
  rw [((List.set_perm_cons_eraseIdx hi t').map f).sum_eq, List.map_cons, List.sum_cons]

/-- Every addition is in a counter or is still to be made. -/
def Balanced (calls : τ → List (List (ι × M))) (s : State τ ι M) : Prop :=
  ∀ c, s.value c + (s.tasks.map (Task.pending c)).sum =
    (s.tasks.map fun t => total c (calls t.kind)).sum

theorem Balanced.step {a : Action τ} (hb : Balanced calls s) (h : s.step calls a = some s') :
    Balanced calls s' := by
  intro c
  have hc := hb c
  cases a with
  | spawn kind =>
      cases h
      simp only [List.map_append, List.sum_append, List.map_cons, List.map_nil, List.sum_cons,
        List.sum_nil, Task.pending, amount_nil, zero_add, add_zero]
      rw [← add_assoc]
      exact congrArg (· + total c (calls kind)) hc
  | call i =>
      simp only [State.step] at h
      split at h
      · next kind adds todo ht =>
        cases h
        dsimp only
        rw [sum_tasks ht, sum_tasks ht] at hc
        rw [sum_tasks_set ht, sum_tasks_set ht]
        simpa only [Task.pending, amount_nil, zero_add, total_cons] using hc
      · cases h
  | add i j =>
      simp only [State.step] at h
      split at h
      · cases h
      · next t ht =>
        split at h
        · cases h
        · next c' m hm =>
          cases h
          obtain ⟨hj, hget⟩ := List.getElem?_eq_some_iff.mp hm
          have hleft : amount c t.left =
              (if c' = c then m else 0) + amount c (t.left.eraseIdx j) := by
            rw [← amount_perm (List.getElem_cons_eraseIdx_perm hj), hget, amount_cons]
          dsimp only
          rw [sum_tasks ht, sum_tasks ht] at hc
          rw [sum_tasks_set ht, sum_tasks_set ht]
          simp only [Task.pending, hleft] at hc ⊢
          by_cases hcc : c' = c
          · subst hcc
            rw [if_pos rfl] at hc
            rw [Function.update_self, ← hc]
            simp only [add_assoc]
          · rw [if_neg hcc, zero_add] at hc
            rw [Function.update_of_ne (Ne.symm hcc), hc]

/-- **No addition is lost**: what a counter has and what the tasks have still to add to it is what
they add in all. -/
theorem value_add_left (h : Reachable (system calls) s) : Balanced calls s := by
  refine h.invariant ?_ fun s a s' hb _ hs => hb.step hs
  rintro s rfl c
  exact add_zero 0

/-- **When nothing is in progress** a counter has the sum of what the tasks add. -/
theorem value_of_quiet (h : Reachable (system calls) s) (hq : s.Quiet) (c : ι) :
    s.value c = (s.tasks.map fun t => total c (calls t.kind)).sum := by
  have hb := value_add_left h c
  have hzero : (s.tasks.map (Task.pending c)).sum = 0 := by
    apply List.sum_eq_zero
    intro m hm
    obtain ⟨t, ht, rfl⟩ := List.mem_map.mp hm
    rw [Task.pending, (hq t ht).1, (hq t ht).2, amount_nil, total_nil, zero_add]
  rwa [hzero, add_zero] at hb

end Counters
