import DnsIngress.Progress
import DnsIngress.TaskGroupSafety
import Mathlib.Algebra.BigOperators.Group.List.Basic
import Mathlib.Algebra.Order.BigOperators.Group.List
import Mathlib.Algebra.Order.Ring.Nat
import Mathlib.Tactic.Common

/-! # Closing a task group ends

A call of `close_and_wait_until` returns, whatever the children do: the supervisor empties its
channel, waits for the children until the deadline, and aborts the ones that are left.  Other calls
may come and go for ever; they can keep the lock busy, but they cannot bring a child into a group
that is closed.

`Fair` is what the runtime is trusted with.  A child has no duty but to be dropped once it is
aborted, which is to say that it reaches an await point. -/

namespace DnsIngress

open Transition (Execution)
open Function (update)

/-- How many steps a call has before it at most. -/
def Call.rank : Call → ℕ
  | .idle => 5
  | .spawnLock | .closeLock _ => 4
  | .spawnHeld | .closeHeld _ => 3
  | .spawnSent | .closeSend _ => 2
  | .closeWait => 1
  | .spawnReturned | .spawnRejected | .closeReturned | .dropped | .abandoned => 0

def Supervisor.rank {κ : Type} : Supervisor κ → ℕ
  | .absent => 4
  | .selecting => 3
  | .draining _ _ => 2
  | .aborting _ => 1
  | .finished => 0

def Status.rank : Status → ℕ
  | .unstarted | .running => 2
  | .completed | .aborted => 1

/-- All that the supervisor depends on but the clock. -/
structure Backlog (κ : Type) where
  supervisor : Supervisor κ
  queue : List (Command κ)
  tasks : List κ
  status : κ → Status

def Backlog.size {κ : Type} (b : Backlog κ) : ℕ :=
  b.supervisor.rank + 4 * b.queue.length + (b.tasks.map fun t => (b.status t).rank).sum

namespace TaskGroup

/-- The steps of the supervisor, and of the children that it has aborted. -/
def Action.supervises {κ : Type} : Action κ → Bool
  | .recv | .joinNext _ | .elapse | .complete | .abort _ => true
  | .spawn _ _ | .close _ _ | .acquire _ | .advance _ | .cancel _ | .exit _ => false

/-- The steps that are taken if they can be taken. -/
def Action.owed {κ : Type} (a : Action κ) : Bool :=
  match a with
  | .advance _ => true
  | a => a.supervises

variable {κ : Type} [DecidableEq κ] {g g' : TaskGroup κ} {now : ℕ} {a : Action κ} {c k : κ}

/-- A fair execution of a group and its clock. -/
structure Fair (e : Execution (system κ)) : Prop where
  clock : ∀ t, ∃ n, t ≤ (e.state n).1
  owed : ∀ a : Action κ, a.owed = true → e.WeaklyFair (.act a)
  /-- the mutex serves those who wait in turn -/
  lock : ∀ c, e.StronglyFair (.act (.acquire c))

/-! ### Calls -/

omit [DecidableEq κ] in
theorem CallStep.lowers {closed : Bool} {pc pc' : Call} (h : CallStep closed c a pc pc') :
    pc' = pc ∨ pc'.rank < pc.rank := by
  cases h with
  | closeReturn hc => cases pc <;> simp_all [Call.isClose, Call.rank]
  | _ => right; simp [Call.rank]

theorem Move.call_lowers (h : g.Move now a g') (c : κ) :
    g'.call c = g.call c ∨ (g'.call c).rank < (g.call c).rank := by
  rcases h.call c with he | hs
  · exact .inl he
  · exact hs.lowers

theorem Move.call_ne_idle (h : g.Move now a g') (hc : g.call c ≠ .idle) : g'.call c ≠ .idle := by
  rcases h.call c with he | hs
  · rwa [he]
  · generalize g.call c = pc, g'.call c = pc' at hs
    cases hs <;> nofun

theorem Move.acquire_ne (h : g.Move now (.acquire c) g') : g'.call c ≠ g.call c := by
  cases h with
  | acquireSpawn _ hc | acquireClose _ hc => simp [hc]

theorem Move.advance_ne (h : g.Move now (.advance c) g') :
    g'.call c ≠ g.call c ∨ g'.commands ≠ g.commands := by
  cases h with
  | start _ _ hcm => exact .inr (by simp [startSupervisor, hcm])
  | reject h | sendSpawn h | loseSpawn h | unlock h | closeAgain h | sendShutdown h
  | loseShutdown h | awaited h => simp [h]
  | closeFirst h =>
      left
      simp only [call_setCall, if_true, h]
      split <;> simp

/-! ### The state lock -/

theorem Move.lock_or (h : g.Move now a g') :
    g'.lock = g.lock ∨ g.lock = none ∨ g'.lock = none := by
  cases h with
  | acquireSpawn hl | acquireClose hl => exact .inr (.inl hl)
  | reject | unlock | closeAgain | closeFirst => exact .inr (.inr rfl)
  | _ => exact .inl rfl

theorem Move.commands_or (h : g.Move now a g') :
    g'.commands = g.commands ∨ g.commands = false ∧ g'.commands = true := by
  cases h with
  | start _ _ hcm => exact .inr ⟨hcm, rfl⟩
  | _ => exact .inl rfl

/-! ### What the supervisor has before it -/

def backlog (g : TaskGroup κ) : Backlog κ := ⟨g.supervisor, g.queue, g.tasks, g.status⟩

theorem sum_rank_update {l : List κ} {f : κ → Status} {t : κ} {st : Status} (ht : t ∈ l)
    (hrun : f t = .running) (hst : st.exited = true) :
    (l.map fun u => (update f t st u).rank).sum < (l.map fun u => (f u).rank).sum := by
  have hlt : st.rank < (f t).rank := by
    rw [hrun]
    cases st <;> simp_all [Status.exited, Status.rank]
  apply List.sum_lt_sum
  · intro u _
    rw [Function.update_apply]
    split
    · next hu => exact hu ▸ Nat.le_of_lt hlt
    · exact Nat.le_refl _
  · exact ⟨t, ht, by rwa [Function.update_self]⟩

/-- The group is closed, and its supervisor has been told so if there is one. -/
structure Told (g : TaskGroup κ) : Prop where
  closed : g.closed = true
  sent : ∀ c d, g.call c ≠ .closeSend d

omit [DecidableEq κ] in
theorem Inv.told (hi : Inv g) (hk : g.closer = some k) (hc : ∀ d, g.call k ≠ .closeSend d) :
    Told g := by
  constructor
  · cases hi.life <;> simp_all
  · intro c d hsend
    have hcloser := hi.closer.only c (by rw [hsend]; rfl)
    rw [hk] at hcloser
    obtain rfl := Option.some.inj hcloser
    exact hc d hsend

theorem Move.closed (h : g.Move now a g') (hcl : g.closed = true) : g'.closed = true := by
  cases h with
  | closeFirst => rfl
  | _ => exact hcl

theorem Move.closer (h : g.Move now a g') (hcl : g.closed = true) : g'.closer = g.closer := by
  cases h with
  | closeFirst _ hop =>
      rw [hcl] at hop
      cases hop
  | _ => rfl

theorem Told.move (ht : Told g) (h : g.Move now a g') : Told g' := by
  refine ⟨h.closed ht.closed, fun c d hc => ?_⟩
  rcases h.call c with he | hs
  · exact ht.sent c d (he ▸ hc)
  · rw [hc] at hs
    generalize g.call c = pc at hs
    cases hs with
    | closeFirst hopen =>
        rw [ht.closed] at hopen
        cases hopen

theorem Told.backlog_shrinks (ht : Told g) (hi : Inv g) (h : g.Move now a g') :
    g'.backlog = g.backlog ∨ g'.backlog.size < g.backlog.size := by
  cases h with
  | start _ hop | sendSpawn _ hop | loseSpawn _ hop | closeFirst _ hop =>
      rw [ht.closed] at hop
      cases hop
  | sendShutdown hc => exact absurd hc (ht.sent _ _)
  | @recvSpawn t rest _ hq =>
      right
      have hnew : t ∉ g.tasks := fun hm =>
        (List.nodup_append.mp hi.future.nodup).2.2 t (hi.task.handed t hm) t
          (by simp [queued, hq, Command.task?]) rfl
      have hsame : (g.tasks.map fun u => (update g.status t .running u).rank) =
          g.tasks.map fun u => (g.status u).rank := by
        apply List.map_congr_left
        intro u hu
        have hne : u ≠ t := fun he => hnew (he ▸ hu)
        rw [Function.update_of_ne hne]
      have hrun : Status.running.rank = 2 := rfl
      simp only [Backlog.size, backlog, hq, List.length_cons, List.map_append, List.map_cons,
        List.map_nil, List.sum_append, List.sum_singleton, hsame, Function.update_self, hrun]
      omega
  | @recvShutdown d c rest hs hq =>
      right
      simp [Backlog.size, backlog, hq, hs, Supervisor.rank]
      omega
  | @join t ht he =>
      right
      have hsum := List.sum_map_erase (fun u => (g.status u).rank) ht
      have hpos : 0 < (g.status t).rank := by cases g.status t <;> decide
      simp only [Backlog.size, backlog]
      omega
  | elapse hs =>
      right
      simp [Backlog.size, backlog, hs, Supervisor.rank]
  | complete hs =>
      right
      rcases hs with ⟨d, hs⟩ | hs <;> simp [Backlog.size, backlog, hs, Supervisor.rank]
  | exit ht hr | abort ht hr =>
      right
      exact Nat.add_lt_add_left (sum_rank_update ht hr rfl) _
  | _ => exact .inl rfl

theorem Move.backlog_ne (h : g.Move now a g') (ha : a.supervises = true) :
    g'.backlog ≠ g.backlog := by
  intro hb
  obtain ⟨hsup, hqueue, htasks, hstatus⟩ := Backlog.mk.inj hb
  cases h with
  | recvSpawn _ hq | recvShutdown _ hq =>
      have hlen := congrArg List.length (hqueue.trans hq)
      simp at hlen
  | join ht =>
      have hlen := List.length_erase_add_one ht
      have hsame := congrArg List.length htasks
      simp only at hsame
      omega
  | elapse hs =>
      rw [hs] at hsup
      cases hsup
  | complete hs => rcases hs with ⟨d, hs⟩ | hs <;> rw [hs] at hsup <;> cases hsup
  | @abort t _ hr =>
      have hst := congrFun hstatus t
      rw [hr] at hst
      simp at hst
  | _ => cases ha

/-- The supervisor of a closed group is done, if there has been one. -/
def Done (g : TaskGroup κ) : Prop := g.supervisor = .finished ∨ g.supervisor = .absent

omit [DecidableEq κ] in
theorem Done.settled (hd : Done g) (hi : Inv g) (hcl : g.closed = true) : Settled g := by
  cases hi.life with
  | fresh hop | serving hop =>
      rw [hcl] at hop
      cases hop
  | emptied _ _ _ _ hq _ ht | finished _ _ _ hq ht => exact ⟨hcl, by simp [queued, hq], ht⟩
  | closing _ _ hs | requested _ _ hs => rcases hd with h | h <;> rw [hs] at h <;> cases h
  | draining _ _ hs =>
      rcases hs with ⟨d, hs⟩ | hs <;> rcases hd with h | h <;> rw [hs] at h <;> cases h

/-- A supervisor that has been told has something to do, now or at the deadline. -/
theorem Told.supervisor_acts (ht : Told g) (hi : Inv g) (hbusy : ¬ Done g) :
    ∃ (a : Action κ) (deadline : ℕ), a.supervises = true ∧
      ∀ (now : ℕ) (g' : TaskGroup κ), deadline ≤ now → g'.backlog = g.backlog →
        (g'.step now a).isSome = true := by
  cases hi.life with
  | fresh hop | serving hop =>
      rw [ht.closed] at hop
      cases hop
  | emptied _ _ _ hs => exact absurd (.inr hs) hbusy
  | closing _ _ _ _ hc => exact absurd hc (ht.sent _ _)
  | finished _ _ hs => exact absurd (.inl hs) hbusy
  | @requested k' d l _ _ hs hq =>
      refine ⟨.recv, 0, rfl, fun now g' _ hb => ?_⟩
      obtain ⟨hsup, hqueue, -, -⟩ := Backlog.mk.inj hb
      rw [hs] at hsup
      rw [hq] at hqueue
      simp only [TaskGroup.step, recv, hsup, hqueue]
      cases l with
      | nil => rfl
      | cons cmd l => cases cmd <;> rfl
  | draining _ _ hs =>
      by_cases ht : g.tasks = []
      · refine ⟨.complete, 0, rfl, fun now g' _ hb => ?_⟩
        obtain ⟨hsup, -, htasks, -⟩ := Backlog.mk.inj hb
        rcases hs with ⟨d, hs⟩ | hs <;> rw [hs] at hsup <;>
          simp [TaskGroup.step, complete, hsup, htasks, ht]
      · rcases hs with ⟨d, hs⟩ | hs
        · refine ⟨.elapse, d, rfl, fun now g' hd hb => ?_⟩
          obtain ⟨hsup, -, htasks, -⟩ := Backlog.mk.inj hb
          rw [hs] at hsup
          simp [TaskGroup.step, elapse, hsup, htasks, ht, hd]
        · obtain ⟨t, ht⟩ := List.exists_mem_of_ne_nil g.tasks ht
          have hstarted : g.status t ≠ .unstarted := fun hun =>
            (hi.task.unstarted t).mp hun (hi.task.handed t ht)
          cases hst : g.status t with
          | unstarted => exact absurd hst hstarted
          | running =>
              refine ⟨.abort t, 0, rfl, fun now g' _ hb => ?_⟩
              obtain ⟨hsup, -, htasks, hstatus⟩ := Backlog.mk.inj hb
              rw [hs] at hsup
              simp [TaskGroup.step, abort, hsup, htasks, ht, hstatus, hst]
          | completed | aborted =>
              refine ⟨.joinNext t, 0, rfl, fun now g' _ hb => ?_⟩
              obtain ⟨hsup, -, htasks, hstatus⟩ := Backlog.mk.inj hb
              rw [hs] at hsup
              simp [TaskGroup.step, joinNext, hsup, htasks, ht, hstatus, hst, Supervisor.joins,
                Status.exited]

/-- A supervisor that is done has told the closing call. -/
def Reported (g : TaskGroup κ) : Prop :=
  g.supervisor = .finished → ∀ k, g.closer = some k → g.completed k = true

omit [DecidableEq κ] in
/-- The supervisor reports to the closing call. -/
theorem Lifecycle.told (hp : Lifecycle g) (hk : g.closer = some k)
    (hs : (∃ d, g.supervisor = .draining d c) ∨ g.supervisor = .aborting c) : c = k := by
  cases hp with
  | draining _ hk' hs' =>
      obtain rfl := Option.some.inj (hk'.symm.trans hk)
      rcases hs with ⟨d, hs⟩ | hs <;> rcases hs' with ⟨d', hs'⟩ | hs' <;>
        rw [hs] at hs' <;> cases hs' <;> rfl
  | _ => simp_all

theorem Reported.move (hi : Inv g) (hr : Reported g) (h : g.Move now a g') : Reported g' := by
  cases h with
  | start => nofun
  | closeFirst _ hop =>
      intro hs
      have hs : g.supervisor = .finished := hs
      cases hi.life <;> simp_all
  | recvShutdown | elapse => nofun
  | @complete c hs =>
      intro _ k hk
      have hk : g.closer = some k := hk
      obtain rfl := hi.life.told hk hs
      exact Function.update_self c true g.completed
  | _ => exact hr

theorem Move.finished (h : g.Move now a g') (hcl : g.closed = true)
    (hs : g.supervisor = .finished) : g'.supervisor = .finished := by
  cases h with
  | start _ hop =>
      rw [hcl] at hop
      cases hop
  | recvShutdown hsel | elapse hsel =>
      rw [hs] at hsel
      cases hsel
  | complete => rfl
  | _ => exact hs

theorem Reported.of_reachable {s : ℕ × TaskGroup κ} (h : Transition.Reachable (system κ) s) :
    Reported s.2 := by
  induction h with
  | init hs =>
      have hnew : _ = TaskGroup.new κ := hs
      rw [hnew]
      nofun
  | @step s s' ev hr _ hs ih =>
      cases ev with
      | tick =>
          obtain rfl := Option.some.inj hs
          exact ih
      | act a =>
          obtain ⟨g', hg, rfl⟩ := Option.map_eq_some_iff.mp hs
          exact ih.move (.of_reachable hr) (step_move hg)

/-! ### Fair executions -/

section execution
variable {e : Execution (system κ)} {n m : ℕ}

theorem inv_at (e : Execution (system κ)) (n : ℕ) : Inv (e.state n).2 :=
  .of_reachable (e.reachable n)

theorem move_of_step {s s' : ℕ × TaskGroup κ} {ev : Event κ}
    (hs : (system κ).step s ev = some s') : s'.2 = s.2 ∨ ∃ now a, s.2.Move now a s'.2 := by
  cases ev with
  | tick => exact .inl (congrArg Prod.snd (Option.some.inj hs)).symm
  | act a =>
      obtain ⟨g', hg, rfl⟩ := Option.map_eq_some_iff.mp hs
      exact .inr ⟨_, a, step_move hg⟩

theorem next_or (e : Execution (system κ)) (n : ℕ) :
    (e.state (n + 1)).2 = (e.state n).2 ∨
      ∃ now a, (e.state n).2.Move now a (e.state (n + 1)).2 := by
  rcases e.next n with hs | ⟨ev, hs⟩
  · exact .inl (congrArg Prod.snd hs)
  · exact move_of_step hs

theorem move_of_takes (h : e.Takes (.act a) n) :
    (e.state n).2.Move (e.state n).1 a (e.state (n + 1)).2 := by
  obtain ⟨g', hg, hs⟩ := Option.map_eq_some_iff.mp h
  exact hs ▸ step_move hg

theorem enabled_of_isSome (h : ((e.state n).2.step (e.state n).1 a).isSome = true) :
    e.Enabled (.act a) n := by
  obtain ⟨g', hg⟩ := Option.isSome_iff_exists.mp h
  refine ⟨((e.state n).1, g'), ?_⟩
  simp [system, hg]

theorem clock_le (e : Execution (system κ)) (h : n ≤ m) : (e.state n).1 ≤ (e.state m).1 := by
  induction h with
  | refl => exact Nat.le_refl _
  | @step m _ ih =>
      apply Nat.le_trans ih
      rcases e.next m with hs | ⟨ev, hs⟩
      · rw [hs]
      · cases ev with
        | tick => exact Option.some.inj hs ▸ Nat.le_succ _
        | act a =>
            obtain ⟨g', -, hs⟩ := Option.map_eq_some_iff.mp hs
            rw [← hs]

theorem call_settles (e : Execution (system κ)) (k : κ) (n : ℕ) :
    ∃ m, n ≤ m ∧ ∀ l, m ≤ l → (e.state l).2.call k = (e.state m).2.call k := by
  apply e.settles (fun s => s.2.call k) Call.rank
  intro m _
  rcases next_or e m with hs | ⟨now, a, hs⟩
  · rw [hs]
    exact .inl rfl
  · exact hs.call_lowers k

theorem call_of_ended (e : Execution (system κ)) (h : ((e.state n).2.call k).ended = true)
    (hm : n ≤ m) : (e.state m).2.call k = (e.state n).2.call k := by
  induction hm with
  | refl => rfl
  | @step m _ ih =>
      rcases next_or e m with hs | ⟨now, a, hs⟩
      · rw [hs, ih]
      · rw [hs.call_ended (by rw [ih]; exact h), ih]

/-- A call whose next step is always there does not stand still. -/
theorem Fair.not_stuck (hf : Fair e)
    (hw : ∀ m, n ≤ m → (e.state m).2.call k = (e.state n).2.call k)
    (hstep : ∀ m, n ≤ m → ((e.state m).2.advance k).isSome = true) : False := by
  obtain ⟨-, -, hfalse⟩ := e.eventually_of_fair (G := fun _ => False)
    (fun s => (s.2.call k, s.2.commands)) (fun v => if v.2 then 0 else 1)
    (fun m (hm : n ≤ m) => by
      rw [hw m hm, hw (m + 1) (Nat.le_succ_of_le hm)]
      rcases next_or e m with hs | ⟨now, a, hs⟩
      · rw [hs]
        exact .inl rfl
      · rcases hs.commands_or with hcm | ⟨hcm, hcm'⟩
        · exact .inl (by rw [hcm])
        · exact .inr (by simp [hcm, hcm']))
    (fun m hm _ => by
      refine ⟨.act (.advance k), m, Nat.le_refl m, hf.owed _ rfl, fun l hl _ => ?_⟩
      refine ⟨enabled_of_isSome (hstep l (Nat.le_trans hm hl)), fun ht hv => ?_⟩
      rcases (move_of_takes ht).advance_ne with hc | hcm
      · exact hc (congrArg Prod.fst hv)
      · exact hcm (congrArg Prod.snd hv))
  exact hfalse

theorem Fair.unlocks (hf : Fair e) (n : ℕ) : ∃ m, n ≤ m ∧ (e.state m).2.lock = none := by
  by_contra hno
  obtain ⟨b, hb⟩ : ∃ b, (e.state n).2.lock = some b :=
    Option.ne_none_iff_exists'.mp fun hl => hno ⟨n, Nat.le_refl n, hl⟩
  have hheld : ∀ m, n ≤ m → (e.state m).2.lock = some b := by
    intro m hm
    induction hm with
    | refl => exact hb
    | @step m hm ih =>
        have hlater : n ≤ m + 1 := Nat.le_succ_of_le hm
        rcases next_or e m with hs | ⟨now, a, hs⟩
        · rw [hs, ih]
        · rcases hs.lock_or with hl | hl | hl
          · rw [hl, ih]
          · rw [ih] at hl
            cases hl
          · exact absurd ⟨m + 1, hlater, hl⟩ hno
  obtain ⟨m, hm, hsame⟩ := call_settles e b n
  refine hf.not_stuck (k := b) hsame fun l hl => ?_
  have hstep : ((e.state l).2.step 0 (.advance b)).isSome = true :=
    (inv_at e l).holder_advances (hheld l (Nat.le_trans hm hl))
  exact hstep

theorem Fair.not_waiting_for_lock (hf : Fair e) (hl : ((e.state n).2.call k).awaitsLock = true)
    (hw : ∀ m, n ≤ m → (e.state m).2.call k = (e.state n).2.call k) : False := by
  obtain ⟨m, hm, ht⟩ := hf.lock k n fun m hm => by
    obtain ⟨l, hml, hfree⟩ := hf.unlocks m
    have hwl := hw l (Nat.le_trans hm hml)
    refine ⟨l, hml, enabled_of_isSome ?_⟩
    cases hpc : (e.state n).2.call k <;> rw [hpc] at hl hwl <;> cases hl <;>
      simp [step, acquire, hfree, hwl]
  exact (move_of_takes ht).acquire_ne (by rw [hw m hm, hw (m + 1) (Nat.le_succ_of_le hm)])

theorem told_at (e : Execution (system κ)) (ht : Told (e.state n).2) (hm : n ≤ m) :
    Told (e.state m).2 := by
  refine e.always (I := fun s => Told s.2) ht (fun m _ ev ht hs => ?_) m hm
  rcases move_of_step hs with hs | ⟨now, a, hs⟩
  · rwa [hs]
  · exact ht.move hs

theorem Fair.gets_done (hf : Fair e) (ht : Told (e.state n).2) :
    ∃ m, n ≤ m ∧ Done (e.state m).2 := by
  apply e.eventually_of_fair (G := fun s => Done s.2) (fun s => s.2.backlog) Backlog.size
  · intro m hm
    rcases next_or e m with hs | ⟨now, a, hs⟩
    · rw [hs]
      exact .inl rfl
    · exact (told_at e ht hm).backlog_shrinks (inv_at e m) hs
  · intro m hm hbusy
    obtain ⟨a, deadline, ha, hen⟩ := (told_at e ht hm).supervisor_acts (inv_at e m) hbusy
    obtain ⟨late, hlate⟩ := hf.clock deadline
    refine ⟨.act a, max m late, Nat.le_max_left m late, hf.owed a ?_, fun l hl hv => ?_⟩
    · cases a <;> first | exact ha | rfl
    · have hnow := clock_le e (Nat.le_trans (Nat.le_max_right m late) hl)
      exact ⟨enabled_of_isSome (hen _ _ (Nat.le_trans hlate hnow) hv),
        fun ht => (move_of_takes ht).backlog_ne ha⟩

theorem Fair.not_waiting (hf : Fair e)
    (hw : ∀ m, n ≤ m → (e.state m).2.call k = .closeWait) : False := by
  have hcloser : ∀ m, n ≤ m → (e.state m).2.closer = some k := fun m hm =>
    (inv_at e m).closer.only k (by rw [hw m hm]; rfl)
  have htold : ∀ m, n ≤ m → Told (e.state m).2 := fun m hm =>
    (inv_at e m).told (hcloser m hm) (by simp [hw m hm])
  obtain ⟨m, hm, hdone⟩ := hf.gets_done (htold n (Nat.le_refl n))
  have hfinished : (e.state m).2.supervisor = .finished := by
    have hk := hcloser m hm
    have hc := hw m hm
    rcases hdone with hs | hs
    · exact hs
    · cases (inv_at e m).life <;> simp_all
  have hstays : ∀ l, m ≤ l → (e.state l).2.supervisor = .finished := by
    intro l hl
    induction hl with
    | refl => exact hfinished
    | @step l hl ih =>
        rcases next_or e l with hs | ⟨now, a, hs⟩
        · rw [hs, ih]
        · exact hs.finished (htold l (Nat.le_trans hm hl)).closed ih
  apply hf.not_stuck (k := k) (n := m)
  · intro l hl
    rw [hw l (Nat.le_trans hm hl), hw m hm]
  · intro l hl
    have hnl := Nat.le_trans hm hl
    have hreported := Reported.of_reachable (e.reachable l) (hstays l hl) k (hcloser l hnl)
    simp [advance, hw l hnl, hreported]

theorem Fair.call_ends (hf : Fair e) (hk : (e.state n).2.call k ≠ .idle) :
    ∃ m, n ≤ m ∧ ((e.state m).2.call k).ended = true := by
  obtain ⟨m, hm, hsame⟩ := call_settles e k n
  refine ⟨m, hm, ?_⟩
  have hbegun := e.always (I := fun s => s.2.call k ≠ .idle) hk
    (fun n _ ev hc hs => by
      rcases move_of_step hs with hs | ⟨now, a, hs⟩
      · rwa [hs]
      · exact hs.call_ne_idle hc) m hm
  cases hpc : (e.state m).2.call k with
  | idle => exact absurd hpc hbegun
  | spawnLock | closeLock d => exact (hf.not_waiting_for_lock (by rw [hpc]; rfl) hsame).elim
  | spawnHeld | spawnSent | closeHeld d | closeSend d =>
      refine (hf.not_stuck hsame fun l hl => ?_).elim
      simp [advance, hsame l hl, hpc]
  | closeWait => exact (hf.not_waiting fun l hl => (hsame l hl).trans hpc).elim
  | spawnReturned | spawnRejected | closeReturned | dropped | abandoned => rfl

/-- A group that is closed settles, even if the closing call has been dropped. -/
theorem Fair.settles (hf : Fair e) (hcl : (e.state n).2.closed = true) :
    ∃ m, n ≤ m ∧ Settled (e.state m).2 := by
  obtain ⟨k, hk⟩ : ∃ k, (e.state n).2.closer = some k := by
    cases (inv_at e n).life <;> simp_all
  have hbegun : (e.state n).2.call k ≠ .idle := by
    intro hc
    rcases (inv_at e n).life.closer_call hk with h | h <;> rw [hc] at h <;> cases h
  obtain ⟨m, hm, hend⟩ := hf.call_ends hbegun
  obtain ⟨-, hkm⟩ := e.always (I := fun s => s.2.closed = true ∧ s.2.closer = some k) ⟨hcl, hk⟩
    (fun n _ ev hi hs => by
      rcases move_of_step hs with hs | ⟨now, a, hs⟩
      · rwa [hs]
      · exact ⟨hs.closed hi.1, (hs.closer hi.1).trans hi.2⟩) m hm
  have htold : Told (e.state m).2 := (inv_at e m).told hkm fun d hc => by
    rw [hc] at hend
    cases hend
  obtain ⟨l, hl, hdone⟩ := hf.gets_done htold
  exact ⟨l, Nat.le_trans hm hl, hdone.settled (inv_at e l) (told_at e htold hl).closed⟩

/-- **A task group comes to its end.**  In every fair execution every call of `spawn` and
`close_and_wait_until` returns or is dropped; and a group that is closed has joined, in the end,
every future that it has accepted, whether or not a caller still waits for it. -/
theorem group_ends (e : Execution (system κ)) (hf : Fair e) (n : ℕ) :
    (∀ k, (e.state n).2.call k ≠ .idle →
      ∃ m, n ≤ m ∧ ((e.state m).2.call k).ended = true) ∧
    ((e.state n).2.closed = true → ∃ m, n ≤ m ∧ ∀ f, ((e.state m).2.call f).accepted = true →
      f ∈ (e.state m).2.handed ∧ f ∉ (e.state m).2.tasks ∧
        ((e.state m).2.status f).exited = true) := by
  refine ⟨fun k hk => hf.call_ends hk, fun hcl => ?_⟩
  obtain ⟨m, hm, hs⟩ := hf.settles hcl
  exact ⟨m, hm, fun f hacc => hs.joined (inv_at e m) hacc⟩

end execution

/-! ### A fair execution -/

/-- Nothing is going on. -/
structure Quiet (g : TaskGroup κ) : Prop where
  supervisor : g.supervisor = .finished
  call : ∀ c, g.call c = .idle ∨ (g.call c).ended = true

theorem Quiet.step_eq_none (hq : Quiet g) (ha : a.owed = true ∨ ∃ c, a = .acquire c) :
    g.step now a = none := by
  have hadvance : ∀ c, g.advance c = none := by
    intro c
    rcases hq.call c with hc | hc <;> unfold advance <;> split <;> simp_all [Call.ended]
  have hacquire : ∀ c, g.acquire c = none := by
    intro c
    unfold acquire
    split
    · rfl
    · rcases hq.call c with hc | hc <;> split <;> simp_all [Call.ended]
  cases a with
  | advance c => exact hadvance c
  | acquire c => exact hacquire c
  | recv | joinNext | elapse | complete | abort =>
      simp [TaskGroup.step, recv, joinNext, elapse, complete, abort, hq.supervisor,
        Supervisor.joins]
  | spawn | close | cancel | exit => simp [Action.owed, Action.supervises] at ha

/-- An execution that comes to rest while the clock goes on is fair. -/
theorem Fair.of_quiet {e : Execution (system κ)} {N : ℕ}
    (hclock : ∀ t, ∃ n, t ≤ (e.state n).1) (hq : ∀ n, N ≤ n → Quiet (e.state n).2) : Fair e := by
  have hfair : ∀ a : Action κ, (a.owed = true ∨ ∃ c, a = .acquire c) →
      e.StronglyFair (.act a) := by
    intro a ha
    refine .of_disabled (N := N) fun m hm => ?_
    rintro ⟨s, hs⟩
    simp [system, (hq m hm).step_eq_none ha] at hs
  exact ⟨hclock, fun a ha => (hfair a (.inl ha)).weaklyFair, fun c => hfair _ (.inr ⟨c, rfl⟩)⟩

theorem follow_tick (s : ℕ × TaskGroup κ) (n : ℕ) :
    Transition.follow (system κ) s (fun _ => .tick) n = (s.1 + n, s.2) := by
  induction n with
  | zero => rfl
  | succ n ih =>
      rw [Transition.follow, ih]
      rfl

/-- A child never exits, and its group is closed; then only the clock goes on. -/
def abortedExecution : Execution (system ℕ) :=
  .followActions (s := (0, new ℕ)) rfl (abortedRun.getD · .tick)

theorem fair_abortedExecution : Fair abortedExecution := by
  obtain ⟨s, hrun, hquiet⟩ : ∃ s, Transition.run (system ℕ) (0, new ℕ) abortedRun = some s ∧
      Quiet s.2 := by
    refine ⟨_, rfl, rfl, fun c => ?_⟩
    rcases c with _ | _ | c
    · exact .inr rfl
    · exact .inr rfl
    · exact .inl rfl
  have hlate : ∀ n, abortedExecution.state (n + abortedRun.length) = (s.1 + n, s.2) := fun n =>
    (Transition.follow_of_run hrun n).trans (follow_tick s n)
  apply Fair.of_quiet (N := abortedRun.length)
  · intro t
    refine ⟨t + abortedRun.length, ?_⟩
    rw [hlate]
    exact Nat.le_add_left t s.1
  · intro n hn
    obtain ⟨m, rfl⟩ := Nat.exists_eq_add_of_le' hn
    rw [hlate]
    exact hquiet

theorem group_ends_abortedExecution :
    (∃ m, 6 ≤ m ∧ ((abortedExecution.state m).2.call 1).ended = true) ∧
    ∃ m, 9 ≤ m ∧ ∀ f, ((abortedExecution.state m).2.call f).accepted = true →
      f ∈ (abortedExecution.state m).2.handed ∧ f ∉ (abortedExecution.state m).2.tasks ∧
        ((abortedExecution.state m).2.status f).exited = true :=
  ⟨(group_ends abortedExecution fair_abortedExecution 6).1 1 (by decide),
    (group_ends abortedExecution fair_abortedExecution 9).2 (by decide)⟩

end TaskGroup

end DnsIngress
