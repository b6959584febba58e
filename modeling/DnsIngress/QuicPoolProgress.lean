import DnsIngress.Progress
import DnsIngress.QuicPoolAcquire

/-! # A call of `get` comes to its end

`acquire_slot` tries twice and evicts once, so a call of `get` never loops: each of its steps
lowers the `rank` of its program counter, and no step of anything else changes it.  The entries
lock is not held across an await point and there is always a victim to choose, so no call waits
for another: `exists_own_step`.

`get_finishes` puts the two together for infinite executions, and `ownSteps_le` counts. -/

namespace DnsIngress.QuicPool

open Transition

variable {max : ℕ} {κ : Type} {kind : Kind κ} {s s' : Pool max κ} {a : Action κ} {i n : ℕ} {k : κ}
  {pc : Pc}

/-- The steps that a call has left, at most. -/
@[simp] def Pc.rank : Pc → ℕ
  | .lookup => 10
  | .acquire => 9
  | .evict => 8
  | .dropEvicted _ => 7
  | .retry => 6
  | .recheck _ => 5
  | .resolve _ => 4
  | .connect _ => 3
  | .setup _ _ => 2
  | .insert _ _ => 1
  | .returned _ | .failed _ | .cancelled => 0

def Pc.finished : Pc → Bool
  | .returned _ | .failed _ | .cancelled => true
  | .lookup | .acquire | .evict | .dropEvicted _ | .retry | .recheck _ | .resolve _ | .connect _
  | .setup _ _ | .insert _ _ => false

/-- The call that takes the step. -/
def Action.call? : Action κ → Option ℕ
  | .lookup i | .tryAcquire i | .evict i _ | .dropEvicted i | .recheck i | .resolve i _
  | .connect i _ | .setup i _ | .insert i | .cancel i => some i
  | .tick | .get _ | .cloneLease _ | .dropLease _ | .die _ | .invalidate _ => none

/-- The rank of a call; one that is not made yet has all its steps before it. -/
def Pool.rank (s : Pool max κ) (i : ℕ) : ℕ := (s.gets[i]?).elim 10 (·.pc.rank)

theorem Pool.rank_of_get (h : s.gets[i]? = some ⟨k, pc⟩) : s.rank i = pc.rank := by
  rw [rank, h]
  rfl

theorem Pool.rank_set {g : Get κ} (h : s.gets[i]? = some g) (hs : s'.gets = s.gets.set i ⟨k, pc⟩) :
    s'.rank i = pc.rank := by
  apply Pool.rank_of_get
  rw [hs, List.getElem?_set_self (List.getElem?_eq_some_iff.mp h).1]

/-- What a step costs the call `i` that takes it, and what it leaves.  A call that is made stays
made. -/
structure Pool.Lowers (s : Pool max κ) (a : Action κ) (i : ℕ) (s' : Pool max κ) : Prop where
  rank : (if a.call? = some i then 1 else 0) + s'.rank i ≤ s.rank i
  made : s.gets.length ≤ s'.gets.length

theorem Pool.Lowers.own {j : ℕ} {k' : κ} {pc' : Pc} (hj : s.gets[j]? = some ⟨k, pc⟩)
    (hc : a.call? = some j) (hset : s'.gets = s.gets.set j ⟨k', pc'⟩) (hlt : pc'.rank < pc.rank)
    (i : ℕ) : s.Lowers a i s' where
  rank := by
    by_cases hij : j = i
    · subst hij
      rw [if_pos hc, Pool.rank_set hj hset, Pool.rank_of_get hj]
      omega
    · have hne : a.call? ≠ some i := by
        rw [hc]
        exact fun h => hij (Option.some.inj h)
      rw [if_neg hne, Nat.zero_add, Pool.rank, hset, List.getElem?_set_ne hij]
      exact Nat.le_refl _
  made := by
    rw [hset, List.length_set]

theorem Pool.Lowers.other (hc : a.call? = none) (hg : s'.gets = s.gets) :
    s.Lowers a i s' where
  rank := by
    rw [hc, if_neg nofun, Nat.zero_add, Pool.rank, hg]
    exact Nat.le_refl _
  made := by rw [hg]

section
variable [DecidableEq κ]

/-- **What a step does to the rank of a call.** -/
theorem lowers_of_step (h : s.step kind a = some s') (i : ℕ) : s.Lowers a i s' := by
  cases a with
  | tick =>
      cases h
      exact .other rfl rfl
  | get k =>
      cases h
      refine ⟨?_, by simp⟩
      rw [show Action.call? (.get k) = none from rfl, if_neg nofun, Nat.zero_add, Pool.rank,
        Pool.rank, List.getElem?_append]
      split
      · exact Nat.le_refl _
      · next hge =>
        rw [List.getElem?_eq_none (Nat.le_of_not_lt hge)]
        cases i - s.gets.length <;> simp
  | lookup j =>
      simp only [Pool.step] at h
      split at h
      · next k hj =>
          split at h <;> cases h
          · exact .own hj rfl rfl (by simp) i
          · exact .own hj rfl rfl (by simp) i
      · cases h
  | tryAcquire j =>
      simp only [Pool.step] at h
      split at h
      · next k hj =>
          split at h <;> cases h
          · exact .own hj rfl rfl (by simp) i
          · exact .own hj rfl rfl (by simp) i
      · next k hj =>
          split at h <;> cases h
          · exact .own hj rfl rfl (by simp) i
          · exact .own hj rfl rfl (by simp) i
      · cases h
  | evict j victim =>
      simp only [Pool.step] at h
      split at h
      · next k hj =>
          simp only [Pool.evict] at h
          split_ifs at h
          cases h
          exact .own hj rfl rfl (by simp) i
      · cases h
  | dropEvicted j =>
      simp only [Pool.step] at h
      split at h <;> cases h
      · next k hj => exact .own hj rfl rfl (by simp) i
      · next k l hj => exact .own hj rfl rfl (by simp) i
  | recheck j =>
      simp only [Pool.step] at h
      split at h
      · next k n hj =>
          split at h <;> cases h
          · exact .own hj rfl rfl (by simp) i
          · exact .own hj rfl rfl (by simp) i
      · cases h
  | resolve j failure =>
      simp only [Pool.step] at h
      split at h
      · next k n hj =>
          split at h <;> cases h
          · exact .own hj rfl rfl (by simp) i
          · exact .own hj rfl rfl (by simp) i
      · cases h
  | connect j failure =>
      simp only [Pool.step] at h
      split at h
      · next k n hj =>
          split at h <;> cases h
          · refine .own hj rfl rfl ?_ i
            split <;> simp
          · exact .own hj rfl rfl (by simp) i
      · cases h
  | setup j failure =>
      simp only [Pool.step] at h
      split at h
      · next k n d hj =>
          split at h <;> cases h
          · exact .own hj rfl rfl (by simp) i
          · exact .own hj rfl rfl (by simp) i
      · cases h
  | insert j =>
      simp only [Pool.step] at h
      split at h
      · next k n d hj =>
          cases h
          unfold Pool.insert
          split
          · exact .own hj rfl rfl (by simp) i
          · exact .own hj rfl rfl (by simp) i
      · cases h
  | cancel j =>
      simp only [Pool.step] at h
      split at h
      · next k pc hj =>
          split_ifs at h with haw
          cases h
          refine .own hj rfl rfl ?_ i
          cases pc <;> simp_all [Pc.awaits]
      · cases h
  | cloneLease l =>
      simp only [Pool.step] at h
      split_ifs at h
      cases h
      exact .other rfl rfl
  | dropLease l =>
      simp only [Pool.step] at h
      split_ifs at h
      cases h
      exact .other rfl rfl
  | die c =>
      simp only [Pool.step] at h
      split_ifs at h
      cases h
      exact .other rfl rfl
  | invalidate k =>
      cases h
      exact .other rfl rfl

/-- **A call of `get` takes at most ten steps**, in any run and whatever the other calls do. -/
theorem ownSteps_le
    (h : Spends (system kind max) (fun a => if a.call? = some i then 1 else 0) n s) :
    n ≤ 10 := by
  have hle := h.le_of_potential (fun s => s.rank i) (fun _ => 10) ?_ ?_
  · omega
  · rintro s rfl
    exact Nat.le_refl 10
  · intro s a s' _ hs
    have hrank := (lowers_of_step hs i).rank
    omega

omit [DecidableEq κ] in
theorem exists_victim (s : Pool max κ) : ∃ victim, s.IsVictim victim := by
  cases hmin : (s.entries.entries.filter fun e => s.isIdle e.2).argmin
      (fun e => e.2.lastUsed) with
  | none => exact ⟨none, List.argmin_eq_none.mp hmin⟩
  | some e =>
      refine ⟨some e.1, e, List.argmin_mem hmin, rfl, ?_⟩
      intro e' he'
      have hle := List.le_of_mem_argmin he' hmin
      exact hle

/-- The call can take a step, and is not cancelled by it. -/
def Pool.CanStep (kind : Kind κ) (s : Pool max κ) (i : ℕ) : Prop :=
  ∃ a s', a ≠ .cancel i ∧ a.call? = some i ∧ s.step kind a = some s'

/-- **No call waits for another.** -/
theorem busy_of_rank (h : s.gets[i]? = some ⟨k, pc⟩) (hr : 0 < pc.rank) : s.CanStep kind i := by
  have busy : ∀ a, a ≠ .cancel i → a.call? = some i → (s.step kind a).isSome = true →
      s.CanStep kind i := by
    intro a hne hc hs
    obtain ⟨s', hs⟩ := Option.isSome_iff_exists.mp hs
    exact ⟨a, s', hne, hc, hs⟩
  cases pc with
  | lookup =>
      apply busy (.lookup i) (by simp) rfl
      simp only [Pool.step, h]
      split <;> rfl
  | acquire | retry =>
      apply busy (.tryAcquire i) (by simp) rfl
      simp only [Pool.step, h]
      split <;> rfl
  | evict =>
      obtain ⟨victim, hv⟩ := exists_victim s.sweep
      apply busy (.evict i victim) (by simp) rfl
      simp only [Pool.step, h, Pool.evict, if_pos hv]
      rfl
  | dropEvicted evicted =>
      apply busy (.dropEvicted i) (by simp) rfl
      cases evicted <;> simp only [Pool.step, h] <;> rfl
  | recheck n =>
      apply busy (.recheck i) (by simp) rfl
      simp only [Pool.step, h]
      split <;> rfl
  | resolve n =>
      apply busy (.resolve i none) (by simp) rfl
      simp only [Pool.step, h]
      rfl
  | connect n =>
      apply busy (.connect i none) (by simp) rfl
      simp only [Pool.step, h]
      rfl
  | setup n c =>
      apply busy (.setup i none) (by simp) rfl
      simp only [Pool.step, h]
      rfl
  | insert n c =>
      apply busy (.insert i) (by simp) rfl
      simp only [Pool.step, h]
      rfl
  | returned | failed | cancelled => exact absurd hr (Nat.lt_irrefl 0)

/-- **A call of `get` finishes**, unless a step that it can take waits for ever. -/
theorem get_finishes (e : Execution (system kind max)) {n₀ : ℕ}
    (hi : i < (e.state n₀).gets.length)
    (hfair : ∀ n, n₀ ≤ n → (e.state n).CanStep kind i →
      ∃ m a, n ≤ m ∧ a.call? = some i ∧ (e.state m).step kind a = some (e.state (m + 1))) :
    ∃ n, n₀ ≤ n ∧ ∃ g, (e.state n).gets[i]? = some g ∧ g.pc.finished = true := by
  have hlen := e.always (I := fun s => i < s.gets.length) hi
    fun n _ a hl hs => Nat.lt_of_lt_of_le hl (lowers_of_step hs i).made
  have hmono : ∀ n, n₀ ≤ n → (e.state (n + 1)).rank i ≤ (e.state n).rank i := by
    intro n _
    rcases e.next n with heq | ⟨a, ha⟩
    · rw [heq]
    · exact Nat.le_trans (Nat.le_add_left _ _) (lowers_of_step ha i).rank
  obtain ⟨n, hn, hr⟩ := e.eventually (G := fun s => s.rank i = 0) (fun s => s.rank i) hmono
    fun n hn hr => by
      obtain ⟨⟨k, pc⟩, hg⟩ : ∃ g, (e.state n).gets[i]? = some g :=
        ⟨_, List.getElem?_eq_getElem (hlen n hn)⟩
      rw [Pool.rank_of_get hg] at hr
      have hbusy : (e.state n).CanStep kind i := busy_of_rank hg (Nat.pos_of_ne_zero hr)
      obtain ⟨m, a, hm, hc, hs⟩ := hfair n hn hbusy
      have hlow := (lowers_of_step hs i).rank
      rw [if_pos hc] at hlow
      exact ⟨m, hm, by omega⟩
  obtain ⟨⟨k, pc⟩, hg⟩ : ∃ g, (e.state n).gets[i]? = some g :=
    ⟨_, List.getElem?_eq_getElem (hlen n hn)⟩
  rw [Pool.rank_of_get hg] at hr
  refine ⟨n, hn, ⟨k, pc⟩, hg, ?_⟩
  cases pc with
  | returned | failed | cancelled => rfl
  | _ => simp at hr

theorem rank_pos_of_canStep (h : s.CanStep kind i) : 0 < s.rank i := by
  obtain ⟨a, s', -, hc, hs⟩ := h
  have hlow := (lowers_of_step hs i).rank
  rw [if_pos hc] at hlow
  omega

end

/-- One call, up to its connection. -/
def getRun : List (Action (QuicApplication × Bytes × UInt16)) :=
  [.get (.doq, utf8 "a.example", 853), .lookup 0, .tryAcquire 0, .recheck 0, .resolve 0 none,
    .connect 0 none, .insert 0]

theorem get_finishes_getRun :
    ∃ n, 1 ≤ n ∧ ∃ g, (trace (system quicConnectionPool 1) (.new 1 _) getRun n).gets[0]? = some g ∧
      g.pc.finished = true := by
  have hinit : (system quicConnectionPool 1).init (.new 1 _) := rfl
  obtain ⟨s, hrun, hend⟩ : ∃ s, run (system quicConnectionPool 1) (.new 1 _) getRun = some s ∧
      s.rank 0 = 0 := ⟨_, rfl, rfl⟩
  refine get_finishes (.ofActions hinit getRun) (Nat.le_refl 1) fun n hn hcan => ?_
  by_cases hlt : n < getRun.length
  · have hown : ∀ j : Fin getRun.length, 1 ≤ j.val → (getRun.get j).call? = some 0 := by decide
    exact ⟨n, getRun[n], Nat.le_refl n, hown ⟨n, hlt⟩ hn, step_trace_of_run hrun hlt⟩
  · have hstate : (Execution.ofActions hinit getRun).state n = s :=
      trace_of_run hrun (Nat.le_of_not_lt hlt)
    have hpos := rank_pos_of_canStep hcan
    rw [hstate, hend] at hpos
    exact absurd hpos (Nat.lt_irrefl 0)

end DnsIngress.QuicPool
