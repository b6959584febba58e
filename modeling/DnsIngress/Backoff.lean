import Mathlib.Data.Fintype.Card
import Mathlib.Algebra.Group.Nat.Defs
import Mathlib.Tactic.SplitIfs
import Mathlib.Data.List.Basic
import DnsIngress.Transition

/-! # Exponential backoff (`utils/backoff.rs`)

* `exponentialBackoff` computes with saturating `u64` operations; `toNat_exponentialBackoff` is the
  same delay over the unbounded integers.
* `BackoffCounter.nextDelay` is a call that nothing interferes with.
* `system` has every caller take its `fetch_add` and its `store` as two atomic steps, in any order
  with those of the others.  `Callers.runAlone` says that the two steps taken together are
  `nextDelay`.

A `Duration` is the number of milliseconds it is made from. -/

namespace DnsIngress.Backoff

/-- A natural number as a `u64`, the greatest one if it does not fit. -/
def saturate (n : ℕ) : UInt64 := UInt64.ofNat (min n (2 ^ 64 - 1))

/-- `u64::saturating_mul`. -/
def saturatingMul (a b : UInt64) : UInt64 := saturate (a.toNat * b.toNat)

/-- `u64::saturating_pow`. -/
def saturatingPow (a : UInt64) (exp : UInt32) : UInt64 := saturate (a.toNat ^ exp.toNat)

/-- `exponential_backoff`. -/
def exponentialBackoff (attempt : UInt32) (baseDelayMs maxDelayMs : UInt64) : UInt64 :=
  min (saturatingMul baseDelayMs (saturatingPow 2 (min attempt 10))) maxDelayMs

structure BackoffCounter where
  counter : UInt32
deriving DecidableEq

namespace BackoffCounter

/-- `BackoffCounter::new`. -/
def new : BackoffCounter := ⟨0⟩

/-- `counter.fetch_add(1, ..)`, which wraps around. -/
def fetchAdd (c : BackoffCounter) : UInt32 × BackoffCounter := (c.counter, ⟨c.counter + 1⟩)

/-- `BackoffCounter::next_delay`. -/
def nextDelay (c : BackoffCounter) (baseDelayMs maxDelayMs : UInt64) : UInt64 × BackoffCounter :=
  let (attempt, c) := c.fetchAdd
  let delay := exponentialBackoff attempt baseDelayMs maxDelayMs
  if 10 ≤ attempt then (delay, ⟨0⟩) else (delay, c)

/-- The delays of calls made one after another, each with its base and its maximum. -/
def nextDelays (c : BackoffCounter) : List (UInt64 × UInt64) → List UInt64
  | [] => []
  | (baseDelayMs, maxDelayMs) :: calls =>
      let (delay, c) := c.nextDelay baseDelayMs maxDelayMs
      delay :: c.nextDelays calls

end BackoffCounter

/-! ### The delay of an attempt -/

@[simp] theorem toNat_saturate (n : ℕ) : (saturate n).toNat = min n (2 ^ 64 - 1) := by
  rw [saturate, UInt64.toNat_ofNat']
  exact Nat.mod_eq_of_lt (by omega)

theorem toNat_min (a b : UInt64) : (min a b).toNat = min a.toNat b.toNat := by
  rw [UInt64.min_def, Nat.min_def]
  simp only [UInt64.le_iff_toNat_le]
  split_ifs <;> rfl

theorem toNat_min_ten (attempt : UInt32) : (min attempt 10).toNat = min attempt.toNat 10 := by
  have hten : (10 : UInt32).toNat = 10 := rfl
  rw [UInt32.min_def, Nat.min_def, ← hten]
  simp only [UInt32.le_iff_toNat_le]
  split_ifs <;> rfl

/-- **The saturating operations lose nothing**: at most `2 ^ 10` is multiplied with, and a product
that does not fit is above every maximum. -/
theorem toNat_exponentialBackoff (attempt : UInt32) (baseDelayMs maxDelayMs : UInt64) :
    (exponentialBackoff attempt baseDelayMs maxDelayMs).toNat =
      min (baseDelayMs.toNat * 2 ^ min attempt.toNat 10) maxDelayMs.toNat := by
  have hpow : 2 ^ min attempt.toNat 10 ≤ 2 ^ 64 - 1 :=
    (Nat.pow_le_pow_right (by decide) (Nat.min_le_right _ _)).trans (by decide)
  have hmax : maxDelayMs.toNat ≤ 2 ^ 64 - 1 := Nat.le_pred_of_lt maxDelayMs.toNat_lt
  have htwo : (2 : UInt64).toNat = 2 := rfl
  rw [exponentialBackoff, saturatingMul, saturatingPow, toNat_min, toNat_saturate, toNat_saturate,
    toNat_min_ten, htwo, Nat.min_eq_left hpow, Nat.min_assoc, Nat.min_eq_right hmax]

theorem exponentialBackoff_le (attempt : UInt32) (baseDelayMs maxDelayMs : UInt64) :
    exponentialBackoff attempt baseDelayMs maxDelayMs ≤ maxDelayMs := by
  rw [UInt64.le_iff_toNat_le, toNat_exponentialBackoff]
  exact Nat.min_le_right _ _

theorem le_exponentialBackoff (attempt : UInt32) (baseDelayMs maxDelayMs : UInt64) :
    min baseDelayMs maxDelayMs ≤ exponentialBackoff attempt baseDelayMs maxDelayMs := by
  rw [UInt64.le_iff_toNat_le, toNat_exponentialBackoff, toNat_min]
  have hone : baseDelayMs.toNat ≤ baseDelayMs.toNat * 2 ^ min attempt.toNat 10 :=
    Nat.le_mul_of_pos_right _ (Nat.two_pow_pos _)
  omega

/-! ### Calls one after another -/

/-- The counter after `n` calls. -/
def scheduled (n : ℕ) : BackoffCounter := ⟨UInt32.ofNat (n % 11)⟩

theorem toNat_scheduled (n : ℕ) : (scheduled n).counter.toNat = n % 11 := by
  rw [scheduled, UInt32.toNat_ofNat']
  exact Nat.mod_eq_of_lt (by omega)

/-- **One call**: the delay of the attempt the counter stands at, and the counter moves on, from ten
back to zero. -/
theorem nextDelay_scheduled (n : ℕ) (baseDelayMs maxDelayMs : UInt64) :
    (scheduled n).nextDelay baseDelayMs maxDelayMs =
      (exponentialBackoff (scheduled n).counter baseDelayMs maxDelayMs, scheduled (n + 1)) := by
  have hlt : n % 11 < 11 := Nat.mod_lt _ (by decide)
  have hten : (10 : UInt32) ≤ (scheduled n).counter ↔ 10 ≤ n % 11 := by
    rw [UInt32.le_iff_toNat_le, toNat_scheduled]
    rfl
  unfold BackoffCounter.nextDelay BackoffCounter.fetchAdd
  simp only [hten]
  split_ifs with h
  · have hnext : (n + 1) % 11 = 0 := by omega
    rw [scheduled, scheduled, hnext]
    rfl
  · have hnext : (n + 1) % 11 = n % 11 + 1 := by omega
    rw [scheduled, scheduled, hnext, UInt32.ofNat_add]
    rfl

theorem nextDelays_scheduled (calls : List (UInt64 × UInt64)) (n : ℕ) :
    ((scheduled n).nextDelays calls).map UInt64.toNat =
      calls.mapIdx fun i call => min (call.1.toNat * 2 ^ ((n + i) % 11)) call.2.toNat := by
  induction calls generalizing n with
  | nil => rfl
  | cons call calls ih =>
      have hlt : n % 11 ≤ 10 := Nat.le_of_lt_succ (Nat.mod_lt _ (by decide))
      simp only [BackoffCounter.nextDelays, nextDelay_scheduled, List.map_cons, List.mapIdx_cons,
        toNat_exponentialBackoff, toNat_scheduled, Nat.min_eq_left hlt, ih, Nat.add_zero,
        Nat.add_assoc, Nat.add_comm 1]

/-! ### The calls of several callers -/

/-- What a call returns, and what it was asked for. -/
structure Return where
  baseDelayMs : UInt64
  maxDelayMs : UInt64
  delay : UInt64
deriving DecidableEq

/-- A caller is between two calls, or it has read an attempt from which on the counter is reset, and
has not reset it yet. -/
inductive Caller
  | idle
  | resetting (r : Return)
deriving DecidableEq

structure Callers (ι : Type) where
  counter : BackoffCounter
  callers : ι → Caller
  returned : List Return

/-- The two atomic steps of `next_delay`. -/
inductive Action (ι : Type)
  | fetchAdd (i : ι) (baseDelayMs maxDelayMs : UInt64)
  | store (i : ι)

variable {ι : Type} [DecidableEq ι]

def Callers.step (s : Callers ι) : Action ι → Option (Callers ι)
  | .fetchAdd i baseDelayMs maxDelayMs =>
      match s.callers i with
      | .resetting _ => none
      | .idle =>
          let (attempt, counter) := s.counter.fetchAdd
          let delay := exponentialBackoff attempt baseDelayMs maxDelayMs
          let r : Return := ⟨baseDelayMs, maxDelayMs, delay⟩
          if 10 ≤ attempt then
            some { s with counter, callers := Function.update s.callers i (.resetting r) }
          else
            some { s with counter, returned := r :: s.returned }
  | .store i =>
      match s.callers i with
      | .idle => none
      | .resetting r =>
          some ⟨⟨0⟩, Function.update s.callers i .idle, r :: s.returned⟩

/-- Callers of one counter, which starts at `BackoffCounter::new`. -/
def system (ι : Type) [DecidableEq ι] : Transition.System (Callers ι) (Action ι) where
  init s := s = ⟨.new, fun _ => .idle, []⟩
  step := Callers.step

/-- **A call that nothing interferes with is `next_delay`.** -/
theorem Callers.runAlone (s : Callers ι) {i : ι} (hi : s.callers i = .idle)
    (baseDelayMs maxDelayMs : UInt64) :
    ∃ as, Transition.run (system ι) s as =
      some { s with
        counter := (s.counter.nextDelay baseDelayMs maxDelayMs).2
        returned := ⟨baseDelayMs, maxDelayMs,
          (s.counter.nextDelay baseDelayMs maxDelayMs).1⟩ :: s.returned } := by
  by_cases hten : 10 ≤ s.counter.counter
  · refine ⟨[.fetchAdd i baseDelayMs maxDelayMs, .store i], ?_⟩
    have hidle : Function.update s.callers i .idle = s.callers := by
      rw [← hi, Function.update_eq_self]
    simp [Transition.runWhile, system, Callers.step, hi, BackoffCounter.fetchAdd, hten, hidle,
      BackoffCounter.nextDelay]
  · refine ⟨[.fetchAdd i baseDelayMs maxDelayMs], ?_⟩
    simp [Transition.runWhile, system, Callers.step, hi, BackoffCounter.fetchAdd, hten,
      BackoffCounter.nextDelay]

/-- What an enabled step does. -/
inductive Move (s : Callers ι) : Action ι → Callers ι → Prop
  /-- an attempt below ten is returned with its delay -/
  | delay {i : ι} {b m : UInt64} (hi : s.callers i = .idle) (h : s.counter.counter.toNat < 10) :
      Move s (.fetchAdd i b m) { s with
        counter := ⟨s.counter.counter + 1⟩
        returned := ⟨b, m, exponentialBackoff s.counter.counter b m⟩ :: s.returned }
  /-- any other has the counter reset first -/
  | tenth {i : ι} {b m : UInt64} (hi : s.callers i = .idle) (h : 10 ≤ s.counter.counter.toNat) :
      Move s (.fetchAdd i b m) { s with
        counter := ⟨s.counter.counter + 1⟩
        callers := Function.update s.callers i
          (.resetting ⟨b, m, exponentialBackoff s.counter.counter b m⟩) }
  | reset {i : ι} {r : Return} (hi : s.callers i = .resetting r) :
      Move s (.store i) ⟨⟨0⟩, Function.update s.callers i .idle, r :: s.returned⟩

theorem Callers.move {s s' : Callers ι} {a : Action ι} (h : s.step a = some s') : Move s a s' := by
  cases a with
  | fetchAdd i b m =>
      simp only [Callers.step, BackoffCounter.fetchAdd] at h
      cases hi : s.callers i with
      | resetting r => simp only [hi, reduceCtorEq] at h
      | idle =>
          by_cases hten : 10 ≤ s.counter.counter
          · simp only [hi, hten, if_true, Option.some.injEq] at h
            exact h ▸ .tenth hi (UInt32.le_iff_toNat_le.mp hten)
          · simp only [hi, hten, if_false, Option.some.injEq] at h
            exact h ▸ .delay hi (Nat.not_le.mp fun hle => hten (UInt32.le_iff_toNat_le.mpr hle))
  | store i =>
      simp only [Callers.step] at h
      cases hi : s.callers i with
      | idle => simp only [hi, reduceCtorEq] at h
      | resetting r =>
          simp only [hi, Option.some.injEq] at h
          exact h ▸ .reset hi

/-- The delay is between the base, or the maximum if that is smaller, and the maximum. -/
def Return.Within (r : Return) : Prop :=
  min r.baseDelayMs r.maxDelayMs ≤ r.delay ∧ r.delay ≤ r.maxDelayMs

theorem within_exponentialBackoff (attempt : UInt32) (b m : UInt64) :
    Return.Within ⟨b, m, exponentialBackoff attempt b m⟩ :=
  ⟨le_exponentialBackoff attempt b m, exponentialBackoff_le attempt b m⟩

variable [Fintype ι]

/-- The callers that have not reset the counter yet. -/
def Callers.resetting (s : Callers ι) : Finset ι := {i | s.callers i ≠ .idle}

/-- **What holds at any time**: a counter above ten has been taken there by callers that are still
to reset it. -/
structure Inv (s : Callers ι) : Prop where
  counter_le : s.counter.counter.toNat ≤ 10 + s.resetting.card
  resetting : ∀ i r, s.callers i = .resetting r → r.Within
  returned : ∀ r ∈ s.returned, r.Within

omit [Fintype ι] in
theorem toNat_succ_le (c : UInt32) : (c + 1).toNat ≤ c.toNat + 1 := by
  rw [UInt32.toNat_add]
  exact Nat.mod_le _ _

theorem card_resetting_update {s : Callers ι} {i : ι} (hi : s.callers i = .idle) (r : Return)
    (counter : BackoffCounter) :
    (Callers.mk counter (Function.update s.callers i (.resetting r)) s.returned).resetting.card =
      s.resetting.card + 1 := by
  have hinsert : (Callers.mk counter (Function.update s.callers i (.resetting r))
      s.returned).resetting = insert i s.resetting := by
    ext j
    by_cases hj : j = i
    · subst hj
      simp [Callers.resetting]
    · simp [Callers.resetting, hj]
  rw [hinsert, Finset.card_insert_of_notMem]
  simp [Callers.resetting, hi]

theorem inv_move {s s' : Callers ι} {a : Action ι} (hm : Move s a s') (hs : Inv s) : Inv s' := by
  cases hm with
  | delay hi h =>
      refine ⟨?_, hs.resetting, ?_⟩
      · have hsucc := toNat_succ_le s.counter.counter
        show (s.counter.counter + 1).toNat ≤ _
        omega
      · intro r hr
        rcases List.mem_cons.mp hr with rfl | hr
        · exact within_exponentialBackoff _ _ _
        · exact hs.returned r hr
  | @tenth i b m hi h =>
      refine ⟨?_, ?_, hs.returned⟩
      · have hsucc := toNat_succ_le s.counter.counter
        have hcounter := hs.counter_le
        rw [card_resetting_update hi]
        show (s.counter.counter + 1).toNat ≤ _
        omega
      · intro j r hr
        by_cases hj : j = i
        · subst hj
          simp only [Function.update_self, Caller.resetting.injEq] at hr
          exact hr ▸ within_exponentialBackoff _ _ _
        · simp only [Function.update_of_ne hj] at hr
          exact hs.resetting j r hr
  | @reset i r hi =>
      refine ⟨Nat.zero_le _, ?_, ?_⟩
      · intro j r' hr
        by_cases hj : j = i
        · subst hj
          simp only [Function.update_self, reduceCtorEq] at hr
        · simp only [Function.update_of_ne hj] at hr
          exact hs.resetting j r' hr
      · intro r' hr
        rcases List.mem_cons.mp hr with rfl | hr
        · exact hs.resetting i _ hi
        · exact hs.returned r' hr

theorem inv_of_reachable {s : Callers ι} (h : Transition.Reachable (system ι) s) : Inv s := by
  refine h.invariant ?_ ?_
  · rintro s rfl
    exact ⟨Nat.zero_le _, fun _ _ h => Caller.noConfusion h, fun _ h => absurd h List.not_mem_nil⟩
  · intro s a s' hs _ hstep
    have hmove : Move s a s' := Callers.move hstep
    exact inv_move hmove hs

/-- **The schedule of the delays**, of calls made one after another, and of any number of concurrent
callers. -/
theorem nextDelay_schedule :
    (∀ calls, (BackoffCounter.new.nextDelays calls).map UInt64.toNat =
      calls.mapIdx fun n call => min (call.1.toNat * 2 ^ (n % 11)) call.2.toNat) ∧
    ∀ (ι : Type) [DecidableEq ι] [Fintype ι], ∀ s, Transition.Reachable (system ι) s →
      s.counter.counter.toNat ≤ 10 + Fintype.card ι ∧
      ∀ r ∈ s.returned, min r.baseDelayMs r.maxDelayMs ≤ r.delay ∧ r.delay ≤ r.maxDelayMs := by
  constructor
  · intro calls
    have h := nextDelays_scheduled calls 0
    simp only [Nat.zero_add] at h
    exact h
  · intro ι _ _ s hs
    have hinv := inv_of_reachable hs
    have hcard : s.resetting.card ≤ Fintype.card ι := Finset.card_le_univ _
    exact ⟨hinv.counter_le.trans (Nat.add_le_add_left hcard 10), hinv.returned⟩

/-- Eleven calls of one caller, and then twelve of two, both of which are still to reset the
counter. -/
def interleaved : List (Action (Fin 2)) :=
  List.replicate 11 (.fetchAdd 0 100 10000) ++ .store 0 ::
    List.replicate 11 (.fetchAdd 0 100 10000) ++ [.fetchAdd 1 50 30000]

theorem run_interleaved :
    (Transition.run (system (Fin 2)) ⟨.new, fun _ => .idle, []⟩ interleaved).map
      (fun s => (s.counter.counter, s.returned.length)) = some (12, 21) := by
  decide +kernel

theorem nextDelay_schedule_interleaved :
    ∃ s, Transition.run (system (Fin 2)) ⟨.new, fun _ => .idle, []⟩ interleaved = some s ∧
      s.counter.counter = 12 ∧ s.returned.length = 21 ∧
      s.counter.counter.toNat ≤ 10 + Fintype.card (Fin 2) ∧
      ∀ r ∈ s.returned, min r.baseDelayMs r.maxDelayMs ≤ r.delay ∧ r.delay ≤ r.maxDelayMs := by
  obtain ⟨s, hrun, hs⟩ := Option.map_eq_some_iff.mp run_interleaved
  obtain ⟨hcounter, hreturned⟩ := Prod.mk.inj hs
  have hr : Transition.Reachable (system (Fin 2)) s := .of_run interleaved rfl hrun
  exact ⟨s, hrun, hcounter, hreturned, nextDelay_schedule.2 (Fin 2) s hr⟩

end DnsIngress.Backoff
