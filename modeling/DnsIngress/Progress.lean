import DnsIngress.Transition
import Mathlib.Algebra.GroupWithZero.Nat
import Mathlib.Tactic.Common

/-! # Cost and progress of a transition system

`Spends S cost n s` is reachability with a meter: a run from an initial state to `s` whose steps
cost `n` together.  `Spends.le_of_potential` bounds the meter by a potential: what a step costs
and what it leaves to do are paid by what it adds to the budget.

An `Execution` is an infinite run that may stand still.  It says nothing of liveness by itself;
`Execution.eventually` is the rule for "the goal is reached": a measure that no step raises, and
that goes down again and again as long as the goal is not reached. -/

namespace Transition

universe u v

variable {σ : Type u} {α : Type v} {S : System σ α}

/-! ### Metered runs -/

/-- States reached by runs, with what the steps of the run cost. -/
inductive Spends (S : System σ α) (cost : α → ℕ) : ℕ → σ → Prop
  | init {s : σ} : S.init s → Spends S cost 0 s
  | step {n : ℕ} {s s' : σ} {a : α} :
      Spends S cost n s → S.step s a = some s' → Spends S cost (n + cost a) s'

variable {cost : α → ℕ} {n : ℕ} {s : σ}

theorem Spends.reachable (h : Spends S cost n s) : Reachable S s := by
  induction h with
  | init hi => exact .init hi
  | step _ hs ih => exact .step ih trivial hs

/-- **The rule of the potential.** -/
theorem Spends.le_of_potential (work budget : σ → ℕ)
    (hinit : ∀ s, S.init s → work s ≤ budget s)
    (hstep : ∀ s a s', Reachable S s → S.step s a = some s' →
      cost a + work s' + budget s ≤ work s + budget s')
    (h : Spends S cost n s) : n + work s ≤ budget s := by
  induction h with
  | init hi =>
      have h0 := hinit _ hi
      omega
  | step hn hs ih =>
      have h1 := hstep _ _ _ hn.reachable hs
      omega

/-! ### Infinite runs -/

/-- A run that never ends; nothing may happen for any number of instants. -/
structure Execution (S : System σ α) where
  state : ℕ → σ
  init : S.init (state 0)
  next : ∀ n, state (n + 1) = state n ∨ ∃ a, S.step (state n) a = some (state (n + 1))

namespace Execution

variable (e : Execution S)

theorem reachable : ∀ n, Reachable S (e.state n)
  | 0 => .init e.init
  | n + 1 => by
      have ih := reachable n
      rcases e.next n with hs | ⟨a, ha⟩
      · rw [hs]
        exact ih
      · exact .step ih trivial ha

/-- What every step after an instant keeps holds ever after. -/
theorem always {I : σ → Prop} {n₀ : ℕ} (h0 : I (e.state n₀))
    (hstep : ∀ n, n₀ ≤ n → ∀ a, I (e.state n) → S.step (e.state n) a = some (e.state (n + 1)) →
      I (e.state (n + 1))) : ∀ n, n₀ ≤ n → I (e.state n) := by
  intro n hn
  induction hn with
  | refl => exact h0
  | @step n hn ih =>
      rcases e.next n with hs | ⟨a, ha⟩
      · rw [hs]
        exact ih
      · exact hstep n hn a ih ha

/-- **The rule of progress.** -/
theorem eventually {G : σ → Prop} (μ : σ → ℕ) {n₀ : ℕ}
    (hmono : ∀ n, n₀ ≤ n → μ (e.state (n + 1)) ≤ μ (e.state n))
    (hdown : ∀ n, n₀ ≤ n → ¬ G (e.state n) →
      ∃ m, n ≤ m ∧ μ (e.state (m + 1)) < μ (e.state m)) :
    ∃ n, n₀ ≤ n ∧ G (e.state n) := by
  have hle : ∀ n, n₀ ≤ n → ∀ m, n ≤ m → μ (e.state m) ≤ μ (e.state n) := by
    intro n hn m hm
    induction hm with
    | refl => exact Nat.le_refl _
    | @step m hm ih => exact Nat.le_trans (hmono m (Nat.le_trans hn hm)) ih
  have key : ∀ k n, n₀ ≤ n → μ (e.state n) ≤ k → ∃ n, n₀ ≤ n ∧ G (e.state n) := by
    intro k
    induction k with
    | zero =>
        intro n hn hk
        by_contra hno
        obtain ⟨m, hm, hlt⟩ := hdown n hn fun hg => hno ⟨n, hn, hg⟩
        have := hle n hn m hm
        omega
    | succ k ih =>
        intro n hn hk
        by_cases hg : G (e.state n)
        · exact ⟨n, hn, hg⟩
        · obtain ⟨m, hm, hlt⟩ := hdown n hn hg
          have := hle n hn m hm
          exact ih (m + 1) (by omega) (by omega)
  exact key _ n₀ (Nat.le_refl _) (Nat.le_refl _)

/-- What comes to hold of each of finitely many things for good comes to hold of all of them. -/
theorem eventually_forall_mem {ι : Type*} {P : ι → ℕ → Prop} {n₀ : ℕ} (l : List ι)
    (h : ∀ i ∈ l, ∃ n, n₀ ≤ n ∧ ∀ m, n ≤ m → P i m) :
    ∃ n, n₀ ≤ n ∧ ∀ m, n ≤ m → ∀ i ∈ l, P i m := by
  induction l with
  | nil => exact ⟨n₀, Nat.le_refl n₀, by simp⟩
  | cons i l ih =>
      obtain ⟨n, hn, hi⟩ := h i List.mem_cons_self
      obtain ⟨n', -, hl⟩ := ih fun j hj => h j (List.mem_cons_of_mem i hj)
      refine ⟨max n n', Nat.le_trans hn (Nat.le_max_left n n'), fun m hm j hj => ?_⟩
      rcases List.mem_cons.mp hj with rfl | hj
      · exact hi m (Nat.le_trans (Nat.le_max_left n n') hm)
      · exact hl m (Nat.le_trans (Nat.le_max_right n n') hm) j hj

/-! ### Fair actions -/

def Enabled (a : α) (n : ℕ) : Prop := ∃ s, S.step (e.state n) a = some s

def Takes (a : α) (n : ℕ) : Prop := S.step (e.state n) a = some (e.state (n + 1))

/-- If the action stays enabled, it is taken. -/
def WeaklyFair (a : α) : Prop :=
  ∀ n, (∀ m, n ≤ m → e.Enabled a m) → ∃ m, n ≤ m ∧ e.Takes a m

/-- If the action is enabled again and again, it is taken. -/
def StronglyFair (a : α) : Prop :=
  ∀ n, (∀ m, n ≤ m → ∃ l, m ≤ l ∧ e.Enabled a l) → ∃ m, n ≤ m ∧ e.Takes a m

variable {e}

/-- An action that is disabled for good is owed nothing. -/
theorem StronglyFair.of_disabled {a : α} {N : ℕ} (h : ∀ m, N ≤ m → ¬ e.Enabled a m) :
    e.StronglyFair a := by
  intro n hen
  obtain ⟨l, hl, hal⟩ := hen (max n N) (Nat.le_max_left n N)
  exact absurd hal (h l (Nat.le_trans (Nat.le_max_right n N) hl))

theorem StronglyFair.weaklyFair {a : α} (h : e.StronglyFair a) : e.WeaklyFair a :=
  fun n hen => h n fun m hm => ⟨m, Nat.le_refl m, hen m hm⟩

variable (e)

/-- A view of the state whose measure every change lowers changes for the last time. -/
theorem settles {β : Type*} (view : σ → β) (μ : β → ℕ) {n₀ : ℕ}
    (hstep : ∀ n, n₀ ≤ n → view (e.state (n + 1)) = view (e.state n) ∨
      μ (view (e.state (n + 1))) < μ (view (e.state n))) :
    ∃ n, n₀ ≤ n ∧ ∀ m, n ≤ m → view (e.state m) = view (e.state n) := by
  obtain ⟨-, -, hlast⟩ := e.eventually
    (G := fun _ => ∃ n, n₀ ≤ n ∧ ∀ m, n ≤ m → view (e.state m) = view (e.state n))
    (fun s => μ (view s))
    (fun n (hn : n₀ ≤ n) => by
      rcases hstep n hn with hv | hlt
      · exact Nat.le_of_eq (congrArg μ hv)
      · exact Nat.le_of_lt hlt)
    (fun n hn hno => by
      by_contra hdown
      refine hno ⟨n, hn, fun m hm => ?_⟩
      induction hm with
      | refl => rfl
      | @step m hm ih =>
          rcases hstep m (Nat.le_trans hn hm) with hv | hlt
          · exact hv.trans ih
          · exact absurd ⟨m, hm, hlt⟩ hdown)
  exact hlast

/-- **The rule of the helpful action.**  If, as long as the goal is not reached, some fair action
would change such a view and is enabled from some instant on for as long as the view stays, the
goal is reached. -/
theorem eventually_of_fair {G : σ → Prop} {β : Type*} (view : σ → β) (μ : β → ℕ) {n₀ : ℕ}
    (hstep : ∀ n, n₀ ≤ n → view (e.state (n + 1)) = view (e.state n) ∨
      μ (view (e.state (n + 1))) < μ (view (e.state n)))
    (hhelp : ∀ n, n₀ ≤ n → ¬ G (e.state n) → ∃ a n', n ≤ n' ∧ e.WeaklyFair a ∧
      ∀ m, n' ≤ m → view (e.state m) = view (e.state n) →
        e.Enabled a m ∧ (e.Takes a m → view (e.state (m + 1)) ≠ view (e.state m))) :
    ∃ n, n₀ ≤ n ∧ G (e.state n) := by
  obtain ⟨n, hn, hsame⟩ := e.settles view μ hstep
  refine ⟨n, hn, ?_⟩
  by_contra hg
  obtain ⟨a, n', hn', hfair, hact⟩ := hhelp n hn hg
  have hstay : ∀ m, n' ≤ m → view (e.state m) = view (e.state n) := fun m hm =>
    hsame m (Nat.le_trans hn' hm)
  obtain ⟨m, hm, ht⟩ := hfair n' fun m hm => (hact m hm (hstay m hm)).1
  apply (hact m hm (hstay m hm)).2 ht
  rw [hstay m hm, hstay (m + 1) (Nat.le_succ_of_le hm)]

end Execution

/-! ### Executing a list of actions, and then nothing -/

theorem run_cons_none {a : α} {s : σ} (h : S.step s a = none) (as : List α) :
    run S s (a :: as) = none := by
  rw [run, runWhile, if_pos rfl, h]
  rfl

/-- An action that is disabled stops the trace. -/
def trace (S : System σ α) : σ → List α → ℕ → σ
  | s, _, 0 => s
  | s, [], _ + 1 => s
  | s, a :: as, n + 1 =>
      match S.step s a with
      | some s' => trace S s' as n
      | none => s

theorem trace_zero (s : σ) (as : List α) : trace S s as 0 = s := by
  cases as <;> rfl

theorem trace_next (s : σ) (as : List α) (n : ℕ) :
    trace S s as (n + 1) = trace S s as n ∨
      ∃ a, S.step (trace S s as n) a = some (trace S s as (n + 1)) := by
  induction as generalizing s n with
  | nil =>
      left
      cases n <;> rfl
  | cons a as ih =>
      cases ha : S.step s a with
      | none =>
          left
          cases n <;> simp only [trace, ha]
      | some s' =>
          cases n with
          | zero =>
              right
              refine ⟨a, ?_⟩
              simp only [trace, ha, trace_zero]
          | succ n =>
              simp only [trace, ha]
              exact ih s' n

theorem trace_of_run {as : List α} {s s' : σ} (h : run S s as = some s') {n : ℕ}
    (hn : as.length ≤ n) : trace S s as n = s' := by
  induction as generalizing s n with
  | nil =>
      cases h
      cases n <;> rfl
  | cons a as ih =>
      obtain ⟨n, rfl⟩ : ∃ m, n = m + 1 := ⟨n - 1, by simp at hn; omega⟩
      cases ha : S.step s a with
      | none =>
          rw [run_cons_none ha] at h
          cases h
      | some t =>
          rw [run_cons ha] at h
          simp only [trace, ha]
          exact ih h (by simpa using hn)

theorem step_trace_of_run {as : List α} {s s' : σ} (h : run S s as = some s') {n : ℕ}
    (hn : n < as.length) : S.step (trace S s as n) as[n] = some (trace S s as (n + 1)) := by
  induction as generalizing s n with
  | nil => cases hn
  | cons a as ih =>
      cases ha : S.step s a with
      | none =>
          rw [run_cons_none ha] at h
          cases h
      | some t =>
          rw [run_cons ha] at h
          cases n with
          | zero => simp only [trace, ha, trace_zero, List.getElem_cons_zero]
          | succ n =>
              simp only [trace, ha, List.getElem_cons_succ]
              exact ih h (by simpa using hn)

/-- A list of actions as an execution. -/
def Execution.ofActions {s : σ} (hs : S.init s) (as : List α) : Execution S where
  state := trace S s as
  init := by
    rw [trace_zero]
    exact hs
  next := trace_next s as

theorem Spends.of_run {as : List α} {n : ℕ} {s s' : σ} (hs : Spends S cost n s)
    (h : run S s as = some s') : Spends S cost (n + (as.map cost).sum) s' := by
  induction as generalizing n s with
  | nil =>
      cases h
      exact hs
  | cons a as ih =>
      cases ha : S.step s a with
      | none =>
          rw [run_cons_none ha] at h
          cases h
      | some t =>
          rw [run_cons ha] at h
          rw [List.map_cons, List.sum_cons, ← Nat.add_assoc]
          exact ih (.step hs ha) h

/-! ### Executing a list of actions, and then one for ever -/

variable (S) in
/-- An action that is disabled is left out. -/
def follow (s : σ) (acts : ℕ → α) : ℕ → σ
  | 0 => s
  | n + 1 => (S.step (follow s acts n) (acts n)).getD (follow s acts n)

theorem follow_next (s : σ) (acts : ℕ → α) (n : ℕ) :
    follow S s acts (n + 1) = follow S s acts n ∨
      ∃ a, S.step (follow S s acts n) a = some (follow S s acts (n + 1)) := by
  cases hs : S.step (follow S s acts n) (acts n) with
  | none => exact .inl (by rw [follow, hs, Option.getD_none])
  | some s' => exact .inr ⟨acts n, by rw [follow, hs, Option.getD_some]⟩

theorem follow_succ (s : σ) (acts : ℕ → α) (n : ℕ) :
    follow S s acts (n + 1) =
      follow S ((S.step s (acts 0)).getD s) (fun n => acts (n + 1)) n := by
  induction n with
  | zero => rfl
  | succ n ih => rw [follow, ih, follow]

theorem follow_of_run {as : List α} {a : α} {s s' : σ} (h : run S s as = some s') (n : ℕ) :
    follow S s (as.getD · a) (n + as.length) = follow S s' (fun _ => a) n := by
  induction as generalizing s with
  | nil =>
      cases h
      rfl
  | cons b as ih =>
      cases hb : S.step s b with
      | none =>
          rw [run_cons_none hb] at h
          cases h
      | some t =>
          rw [run_cons hb] at h
          rw [List.length_cons, ← Nat.add_assoc, follow_succ]
          simpa [hb] using ih h

def Execution.followActions {s : σ} (hs : S.init s) (acts : ℕ → α) : Execution S where
  state := follow S s acts
  init := hs
  next := follow_next s acts

end Transition
