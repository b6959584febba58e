import DnsIngress.QuicPoolSessions

/-! # Which session a failed transaction invalidates

The callers of a pool are `forward_quic_stream` and `forward_http3_request`: a transaction runs on
the lease that its call of `get` has returned, and if it fails it may invalidate the key of the
session before it drops the lease.  `invalidate` removes whatever entry the key has by then.

`Current` is what would make that the session of the transaction: no key has an entry of another
session than the one in use.  The pools keep it as long as no call publishes a session for a key
whose older session is still in use (`Settled`); a session that dies under two transactions is
enough to break it. -/

namespace DnsIngress.QuicPool

variable {max : ℕ} {κ : Type} [DecidableEq κ]

/-- What has become of the transaction of a call of `get`, once the call has returned a lease. -/
inductive Phase
  | inProgress
  /-- it has failed and invalidated the key -/
  | invalidated
  /-- its lease is dropped -/
  | ended
deriving DecidableEq

/-- A pool and the transactions of its calls of `get`. -/
structure Transactions (max : ℕ) (κ : Type) extends Pool max κ where
  phase : ℕ → Phase

inductive TransactionAction (κ : Type)
  /-- a step of the pool that is not the end of a transaction -/
  | pool (a : Action κ)
  /-- the section of `invalidate`, called by the transaction of call `i` -/
  | invalidate (i : ℕ)
  /-- the transaction of call `i` returns, or its future is dropped -/
  | finish (i : ℕ)

/-- The steps that only the callers of `get` take. -/
def Action.ofCaller : Action κ → Bool
  | invalidate _ | cloneLease _ | dropLease _ => true
  | tick | get _ | lookup _ | tryAcquire _ | evict _ _ | dropEvicted _ | recheck _ | resolve _ _
  | connect _ _ | setup _ _ | insert _ | cancel _ | die _ => false

/-- The lease that a call has returned. -/
def Pc.returned? : Pc → Option Lease
  | returned l => some l
  | lookup | acquire | evict | dropEvicted _ | retry | recheck _ | resolve _ | connect _
  | setup _ _ | insert _ _ | failed _ | cancelled => none

namespace Transactions

variable (kind : Kind κ) (s : Transactions max κ)

def step : TransactionAction κ → Option (Transactions max κ)
  | .pool a =>
      if a.ofCaller then none
      else (s.toPool.step kind a).map fun p => { s with toPool := p }
  | .invalidate i =>
      match s.gets[i]?, s.phase i with
      | some ⟨k, .returned _⟩, .inProgress =>
          (s.toPool.step kind (.invalidate k)).map fun p =>
            ⟨p, Function.update s.phase i .invalidated⟩
      | _, _ => none
  | .finish i =>
      match s.gets[i]? with
      | some ⟨_, .returned l⟩ =>
          if s.phase i = .ended then none
          else (s.toPool.step kind (.dropLease l)).map fun p =>
            ⟨p, Function.update s.phase i .ended⟩
      | _ => none

/-- Call `i` has returned the lease `l` of `k`, and its transaction is in progress. -/
def Uses (i : ℕ) (k : κ) (l : Lease) : Prop :=
  s.gets[i]? = some ⟨k, .returned l⟩ ∧ s.phase i = .inProgress

/-- A transaction is in progress on a session of `k`. -/
def Busy (k : κ) : Prop := ∃ i : Fin s.gets.length,
  s.phase i = .inProgress ∧ s.gets[i].key = k ∧ s.gets[i].pc.returned?.isSome

instance (k : κ) : Decidable (s.Busy k) := by
  unfold Busy
  infer_instance

/-- What a step can do. -/
inductive Move : TransactionAction κ → Transactions max κ → Prop
  | pool {a p} : a.ofCaller = false → Pool.Move kind s.toPool a p →
      Move (.pool a) { s with toPool := p }
  | invalidate {i k l} : s.Uses i k l →
      Move (.invalidate i) ⟨s.toPool.remove k, Function.update s.phase i .invalidated⟩
  | finish {i k l} : s.gets[i]? = some ⟨k, .returned l⟩ → s.phase i ≠ .ended → l ∈ s.borrowed →
      Move (.finish i)
        ⟨{ s.toPool with permits := s.permits.drop l.slot, borrowed := s.borrowed.erase l },
          Function.update s.phase i .ended⟩

variable {kind s} {s' : Transactions max κ} {i : ℕ} {k : κ} {l : Lease}

omit [DecidableEq κ] in
theorem Uses.busy (h : s.Uses i k l) : s.Busy k := by
  obtain ⟨hi, hg⟩ := List.getElem?_eq_some_iff.mp h.1
  exact ⟨⟨i, hi⟩, h.2, by simp [hg], by simp [hg, Pc.returned?]⟩

theorem move_of_step {a : TransactionAction κ} (h : s.step kind a = some s') :
    Move kind s a s' := by
  cases a with
  | pool a =>
      simp only [step] at h
      split_ifs at h with ha
      obtain ⟨p, hp, rfl⟩ := Option.map_eq_some_iff.mp h
      exact .pool (Bool.eq_false_iff.mpr ha) (Pool.move_of_step hp)
  | invalidate i =>
      simp only [step] at h
      split at h
      · next k l hg hp =>
          cases h
          exact .invalidate ⟨hg, hp⟩
      · cases h
  | finish i =>
      simp only [step] at h
      split at h
      · next k l hg =>
          split_ifs at h with hp
          obtain ⟨p, hp', rfl⟩ := Option.map_eq_some_iff.mp h
          simp only [Pool.step] at hp'
          split_ifs at hp' with hb
          cases hp'
          exact .finish hg hp hb
      · cases h

end Transactions

/-- One pool with its callers. -/
def transactionSystem (kind : Kind κ) (max : ℕ) :
    Transition.System (Transactions max κ) (TransactionAction κ) where
  init s := s = ⟨.new max κ, fun _ => .inProgress⟩
  step s a := s.step kind a

/-- A call publishes a session only for a key on whose sessions no transaction is in progress. -/
def Settled (s : Transactions max κ) : TransactionAction κ → Prop
  | .pool (.insert i) =>
      match s.gets[i]? with
      | some ⟨k, .insert _ _⟩ => s.cached k = none → ¬ s.Busy k
      | _ => True
  | _ => True

instance (s : Transactions max κ) (a : TransactionAction κ) : Decidable (Settled s a) := by
  unfold Settled
  split
  · split <;> infer_instance
  · infer_instance

namespace Transactions

variable {kind : Kind κ} {s s' : Transactions max κ} {a : TransactionAction κ} {i : ℕ} {k : κ}
  {l : Lease}

theorem refines (h : Transition.Reachable (transactionSystem kind max) s) :
    Transition.Reachable (system kind max) s.toPool := by
  refine h.simulation (T := system kind max) Transactions.toPool ?_ fun s a s' _ hs => .inr ?_
  · rintro s rfl
    rfl
  · cases a with
    | pool a =>
        simp only [transactionSystem, step] at hs
        split_ifs at hs
        obtain ⟨p, hp, rfl⟩ := Option.map_eq_some_iff.mp hs
        exact ⟨a, hp⟩
    | invalidate i =>
        simp only [transactionSystem, step] at hs
        split at hs
        · next k l _ _ =>
            cases hs
            exact ⟨.invalidate k, rfl⟩
        · cases hs
    | finish i =>
        simp only [transactionSystem, step] at hs
        split at hs
        · next k l _ =>
            split_ifs at hs
            obtain ⟨p, hp, rfl⟩ := Option.map_eq_some_iff.mp hs
            exact ⟨.dropLease l, hp⟩
        · cases hs

/-- The cache holds no other session of a key than the one in use. -/
def Current (s : Transactions max κ) : Prop :=
  ∀ i k l, s.Uses i k l → ∀ c, s.entries.lookup k = some c → c.lease = l

/-- **Step lemma.** -/
theorem Current.step (hc : s.Current) (hok : Settled s a) (h : s.step kind a = some s') :
    s'.Current := by
  intro i k l hu c hl
  cases move_of_step h with
  | @pool a p ha hm =>
      by_cases hg : s.gets[i]? = some ⟨k, .returned l⟩
      · have hu₀ : s.Uses i k l := ⟨hg, hu.2⟩
        cases Pool.change_of_move hm k with
        | same he => exact hc i k l hu₀ c (he ▸ hl)
        | touched c' hc' he =>
            cases he.symm.trans hl
            exact hc i k l hu₀ c' (Pool.cached_eq_some.mp hc').1
        | published j n d hn hj he _ ha =>
            subst ha
            simp only [Settled, hj] at hok
            exact absurd hu₀.busy (hok hn)
        | dead _ he | evicted _ _ _ he | invalidated _ he => cases he.symm.trans hl
      · -- the call returns in this step, and its session is the entry of `k`
        have hs := Pool.Session.of_returns ⟨hg, hu.1⟩ hm
        rw [Pool.Session, hl] at hs
        exact Option.some.inj hs
  | @invalidate j k' l' hu' =>
      have hij : i ≠ j := by
        rintro rfl
        simpa using hu.2
      have hu₀ : s.Uses i k l := ⟨hu.1, by simpa [Function.update_of_ne hij] using hu.2⟩
      by_cases hk : k = k'
      · subst hk
        cases (AList.lookup_erase _ _).symm.trans hl
      · exact hc i k l hu₀ c ((AList.lookup_erase_ne hk).symm.trans hl)
  | @finish j k' l' hg hp hb =>
      have hij : i ≠ j := by
        rintro rfl
        simpa using hu.2
      exact hc i k l ⟨hu.1, by simpa [Function.update_of_ne hij] using hu.2⟩ c hl

theorem Current.of_reachWhile
    (h : Transition.ReachWhile (transactionSystem kind max) Settled s) : s.Current := by
  refine h.invariant ?_ fun s a s' hc hok hs => hc.step hok hs
  rintro s rfl i k l hu
  cases hu.1

end Transactions

/-- A transaction that invalidates the key of its lease `l` removes no entry of another lease. -/
def InvalidatesOwn (kind : Kind κ) (s : Transactions max κ) : Prop :=
  ∀ i k l s', s.gets[i]? = some ⟨k, .returned l⟩ → s.step kind (.invalidate i) = some s' →
    ∀ k' c, s.entries.lookup k' = some c → c.lease ≠ l → s'.entries.lookup k' = some c

/-- **A failed transaction only invalidates its own session**, in every run in which no session is
published while an older one of its key is in use. -/
theorem invalidatesOwn_of_settled {kind : Kind κ} {s : Transactions max κ}
    (h : Transition.ReachWhile (transactionSystem kind max) Settled s) :
    InvalidatesOwn kind s := by
  intro i k l s' hg hs k' c hl hne
  cases Transactions.move_of_step hs with
  | @invalidate _ k₀ l₀ hu =>
      cases hg.symm.trans hu.1
      by_cases hk : k' = k
      · subst hk
        exact absurd (Transactions.Current.of_reachWhile h i _ l hu c hl) hne
      · exact (AList.lookup_erase_ne hk).trans hl

/-! ### A session that dies while it is in use -/

/-- Call `i` establishes a session with one name. -/
def connectAs (i : ℕ) : List (TransactionAction (Bytes × UInt16)) :=
  [.get (utf8 "a.example", 443), .lookup i, .tryAcquire i, .recheck i, .resolve i none,
    .connect i none, .setup i none, .insert i].map .pool

/-- The transaction of call `0` fails after its session has died, and call `1` connects anew. -/
def failsFirst : List (TransactionAction (Bytes × UInt16)) :=
  connectAs 0 ++ [.pool (.die 0), .invalidate 0] ++ connectAs 1

theorem invalidatesOwn_of_settled_failsFirst :
    ∃ s, Transition.runWhile (transactionSystem http3ConnectionPool 2)
      (fun s a => decide (Settled s a)) ⟨.new 2 _, fun _ => .inProgress⟩ failsFirst = some s ∧
      s.Uses 1 (utf8 "a.example", 443) ⟨1, 1⟩ ∧ InvalidatesOwn http3ConnectionPool s := by
  have hr : ∃ s, Transition.runWhile (transactionSystem http3ConnectionPool 2)
      (fun s a => decide (Settled s a)) ⟨.new 2 _, fun _ => .inProgress⟩ failsFirst = some s ∧
      s.Uses 1 (utf8 "a.example", 443) ⟨1, 1⟩ := ⟨_, rfl, rfl, rfl⟩
  obtain ⟨s, hs, hu⟩ := hr
  exact ⟨s, hs, hu, invalidatesOwn_of_settled
    (.of_run _ (fun _ _ h => of_decide_eq_true h) failsFirst (.init rfl) hs)⟩

/-- Call `1` connects anew before the transaction of call `0` has failed. -/
def failsLate : List (TransactionAction (Bytes × UInt16)) :=
  connectAs 0 ++ [.pool (.die 0)] ++ connectAs 1

theorem not_invalidatesOwn :
    ¬ ∀ s, Transition.Reachable (transactionSystem http3ConnectionPool 2) s →
      InvalidatesOwn http3ConnectionPool s := by
  intro h
  have hr : ∃ s s', Transition.run (transactionSystem http3ConnectionPool 2)
      ⟨.new 2 _, fun _ => .inProgress⟩ failsLate = some s ∧
      s.step http3ConnectionPool (.invalidate 0) = some s' ∧
      s.gets[0]? = some ⟨(utf8 "a.example", 443), .returned ⟨0, 0⟩⟩ ∧
      s.closed 1 = false ∧ (s.entries.lookup (utf8 "a.example", 443)) = some ⟨⟨1, 1⟩, 0⟩ ∧
      s'.entries.lookup (utf8 "a.example", 443) = none := ⟨_, _, rfl, rfl, rfl, rfl, rfl, rfl⟩
  obtain ⟨s, s', hs, hs', hg, -, hl, hn⟩ := hr
  have hkept := h s (.of_run failsLate rfl hs) 0 _ _ s' hg hs' _ _ hl (by decide)
  cases hn.symm.trans hkept

end DnsIngress.QuicPool
