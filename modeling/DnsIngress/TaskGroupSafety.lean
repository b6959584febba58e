import DnsIngress.TaskGroup
import Mathlib.Data.List.Basic
import Mathlib.Tactic.Common

/-! # Safety of the task supervisor

Invariants of a `TaskGroup`, each kept by every step (`TaskGroup.Move`):

* `LockInv`: the state lock is held by exactly the call whose program counter is inside a
  critical section, and `taken` lists the acquisitions in order;
* `Lifecycle`: the seven phases a group goes through, from `fresh` (no supervisor) to
  `finished` (receiver closed, `JoinSet` empty), with what the channel holds in each;
* `FutureInv`: the futures handed to the `JoinSet`, followed by those still in the channel,
  are exactly the accepted ones, without repetition;
* `TaskInv`: a handed future that has left the `JoinSet` has exited;
* `OrderInv`: a spawn that took the lock before the closing call was accepted, one that took
  it after was rejected. -/

namespace DnsIngress.TaskGroup

open Function (update)

variable {κ : Type} [DecidableEq κ] {g g' : TaskGroup κ} {now : ℕ} {a : Action κ} {c : κ}
  {pc : Call}

theorem class_setCall {β : Type} (f : Call → β) (h : f pc = f (g.call c)) (c' : κ) :
    f ((g.setCall c pc).call c') = f (g.call c') := by
  rw [call_setCall]
  split_ifs with he
  · rw [he, h]
  · rfl

/-! ### The state lock -/

/-- Who holds the lock, and what the log of its acquisitions says. -/
structure LockInv (g : TaskGroup κ) : Prop where
  holds_iff : ∀ c, (g.call c).holds = true ↔ g.lock = some c
  mem_spawn : ∀ c, .spawn c ∈ g.taken ↔ (g.call c).spawnTook = true
  mem_close : ∀ c, .close c ∈ g.taken ↔ (g.call c).closeTook = true
  nodup : g.taken.Nodup
  last : ∀ c, g.lock = some c → ∃ l, g.taken = l ++ [.spawn c] ∨ g.taken = l ++ [.close c]

namespace LockInv

omit [DecidableEq κ] in
theorem new : LockInv (new κ) := by
  constructor <;> simp [TaskGroup.new, Call.holds, Call.spawnTook, Call.closeTook]

omit [DecidableEq κ] in
theorem congr (hi : LockInv g) (hc : g'.call = g.call) (hl : g'.lock = g.lock)
    (ht : g'.taken = g.taken) : LockInv g' := by
  refine ⟨?_, ?_, ?_, ht ▸ hi.nodup, ?_⟩
  · simpa only [hc, hl] using hi.holds_iff
  · simpa only [hc, ht] using hi.mem_spawn
  · simpa only [hc, ht] using hi.mem_close
  · simpa only [hl, ht] using hi.last

theorem setCall (hi : LockInv g) (hh : pc.holds = (g.call c).holds)
    (hs : pc.spawnTook = (g.call c).spawnTook) (hc : pc.closeTook = (g.call c).closeTook) :
    LockInv (g.setCall c pc) := by
  refine ⟨fun c' => ?_, fun c' => ?_, fun c' => ?_, hi.nodup, hi.last⟩
  · rw [class_setCall Call.holds hh]; exact hi.holds_iff c'
  · rw [class_setCall Call.spawnTook hs]; exact hi.mem_spawn c'
  · rw [class_setCall Call.closeTook hc]; exact hi.mem_close c'

theorem release (hi : LockInv g) (hold : (g.call c).holds = true) (hh : pc.holds = false)
    (hs : pc.spawnTook = (g.call c).spawnTook) (hc : pc.closeTook = (g.call c).closeTook) :
    LockInv { g.setCall c pc with lock := none } := by
  have hl := (hi.holds_iff c).mp hold
  refine ⟨fun c' => ?_, fun c' => ?_, fun c' => ?_, hi.nodup, fun c' h => by cases h⟩
  · -- the released call was the only holder
    have hne : c' ≠ c → (g.call c').holds = false := fun hne => by
      rw [Bool.eq_false_iff, ne_eq, hi.holds_iff, hl]
      exact fun h => hne (Option.some.inj h).symm
    by_cases he : c' = c
    · simp [he, hh]
    · simp [he, hne he]
  · change _ ↔ ((g.setCall c pc).call c').spawnTook = true
    rw [class_setCall Call.spawnTook hs]; exact hi.mem_spawn c'
  · change _ ↔ ((g.setCall c pc).call c').closeTook = true
    rw [class_setCall Call.closeTook hc]; exact hi.mem_close c'

theorem acquire {x : Taken κ} (hi : LockInv g) (hl : g.lock = none) (hold : pc.holds = true)
    (hx : x = .spawn c ∨ x = .close c) (hnew : x ∉ g.taken)
    (hs : .spawn c ∈ g.taken ++ [x] ↔ pc.spawnTook = true)
    (hc : .close c ∈ g.taken ++ [x] ↔ pc.closeTook = true) :
    LockInv { g.setCall c pc with lock := some c, taken := g.taken ++ [x] } := by
  have hfree : ∀ c', (g.call c').holds = false := fun c' => by
    rw [Bool.eq_false_iff, ne_eq, hi.holds_iff, hl]; nofun
  refine ⟨fun c' => ?_, fun c' => ?_, fun c' => ?_, ?_, ?_⟩
  · by_cases he : c' = c
    · simp [he, hold]
    · simp [he, hfree, Ne.symm he]
  · by_cases he : c' = c
    · simpa [he] using hs
    · rcases hx with rfl | rfl <;> simp [he, hi.mem_spawn]
  · by_cases he : c' = c
    · simpa [he] using hc
    · rcases hx with rfl | rfl <;> simp [he, hi.mem_close]
  · exact hi.nodup.append (List.nodup_singleton x) (List.disjoint_singleton.mpr hnew)
  · rintro c' h
    obtain rfl := Option.some.inj h
    exact ⟨g.taken, hx.imp (fun h => by rw [h]) fun h => by rw [h]⟩

theorem acquireSpawn (hi : LockInv g) (hl : g.lock = none) (hc : g.call c = .spawnLock) :
    LockInv { g.setCall c .spawnHeld with lock := some c, taken := g.taken ++ [.spawn c] } := by
  refine hi.acquire hl rfl (.inl rfl) ?_ ?_ ?_
  · rw [hi.mem_spawn, hc]
    decide
  · simp [Call.spawnTook]
  · simp [Call.closeTook, hi.mem_close, hc]

theorem acquireClose {d : ℕ} (hi : LockInv g) (hl : g.lock = none)
    (hc : g.call c = .closeLock d) :
    LockInv { g.setCall c (.closeHeld d) with lock := some c, taken := g.taken ++ [.close c] } := by
  refine hi.acquire hl rfl (.inr rfl) ?_ ?_ ?_
  · rw [hi.mem_close, hc]
    simp [Call.closeTook]
  · simp [Call.spawnTook, hi.mem_spawn, hc]
  · simp [Call.closeTook]

theorem move (hi : LockInv g) (h : g.Move now a g') : LockInv g' := by
  cases h with
  | acquireSpawn hl hc => exact hi.acquireSpawn hl hc
  | acquireClose hl hc => exact hi.acquireClose hl hc
  | reject hc | unlock hc | closeAgain hc =>
      exact hi.release (by rw [hc]; rfl) rfl (by rw [hc]; rfl) (by rw [hc]; rfl)
  | @closeFirst c d hc hcl =>
      have hr : LockInv { g.setCall c (if g.commands then .closeSend d else .closeReturned) with
          lock := none } :=
        hi.release (by rw [hc]; rfl) (by split <;> rfl) (by rw [hc]; split <;> rfl)
          (by rw [hc]; split <;> rfl)
      exact hr.congr rfl rfl rfl
  | sendSpawn hc | sendShutdown hc =>
      exact (hi.setCall (by rw [hc]; rfl) (by rw [hc]; rfl) (by rw [hc]; rfl)).congr rfl rfl rfl
  | spawn hc | close hc | loseSpawn hc | loseShutdown hc | awaited hc | cancelSpawn hc
  | cancelClose hc | cancelWait hc =>
      exact hi.setCall (by rw [hc]; rfl) (by rw [hc]; rfl) (by rw [hc]; rfl)
  | start | recvSpawn | recvShutdown | join | elapse | complete | exit | abort =>
      exact hi.congr rfl rfl rfl

end LockInv

/-! ### The life cycle of a group -/

/-- Futures accepted but still in the command channel, oldest first. -/
def queued (g : TaskGroup κ) : List κ := g.queue.filterMap Command.task?

/-- No `Shutdown` command is in the channel. -/
def NoShutdown (q : List (Command κ)) : Prop := ∀ d c, .shutdown d c ∉ q

/-- The phases of a group.  `k` is the call that performed the open-to-closed transition. -/
inductive Lifecycle (g : TaskGroup κ) : Prop
  | fresh : g.closed = false → g.closer = none → g.commands = false → g.supervisor = .absent →
      g.queue = [] → g.handed = [] → g.tasks = [] → Lifecycle g
  | serving : g.closed = false → g.closer = none → g.commands = true →
      g.supervisor = .selecting → NoShutdown g.queue → Lifecycle g
  /-- closed before any future was accepted: there is no supervisor to wait for -/
  | emptied {k} : g.closed = true → g.closer = some k → g.commands = false →
      g.supervisor = .absent → g.queue = [] → g.handed = [] → g.tasks = [] →
      g.call k = .closeReturned → Lifecycle g
  | closing {k d} : g.closed = true → g.closer = some k → g.supervisor = .selecting →
      NoShutdown g.queue → g.call k = .closeSend d → Lifecycle g
  | requested {k d l} : g.closed = true → g.closer = some k → g.supervisor = .selecting →
      g.queue = l ++ [.shutdown d k] → NoShutdown l →
      g.call k = .closeWait ∨ g.call k = .abandoned → Lifecycle g
  | draining {k} : g.closed = true → g.closer = some k →
      (∃ d, g.supervisor = .draining d k) ∨ g.supervisor = .aborting k → g.queue = [] →
      g.call k = .closeWait ∨ g.call k = .abandoned → Lifecycle g
  | finished {k} : g.closed = true → g.closer = some k → g.supervisor = .finished →
      g.queue = [] → g.tasks = [] →
      g.call k = .closeWait ∨ g.call k = .abandoned ∨ g.call k = .closeReturned → Lifecycle g

/-- Only the closing call depends on the supervisor, and it is told when the supervisor is
done. -/
structure CloserInv (g : TaskGroup κ) : Prop where
  only : ∀ c, (g.call c).closing = true → g.closer = some c
  returned : ∀ c, g.call c = .closeReturned → g.closed = true
  completed : ∀ c, g.completed c = true → g.supervisor = .finished

namespace Lifecycle

omit [DecidableEq κ] in
theorem congr (hp : Lifecycle g) (h1 : g'.closed = g.closed) (h2 : g'.closer = g.closer)
    (h3 : g'.commands = g.commands) (h4 : g'.supervisor = g.supervisor) (h5 : g'.queue = g.queue)
    (h6 : g'.handed = g.handed) (h7 : g'.tasks = g.tasks)
    (h8 : ∀ k, g.closer = some k → g'.call k = g.call k) : Lifecycle g' := by
  cases hp with
  | fresh a b c d e f g =>
      exact .fresh (h1 ▸ a) (h2 ▸ b) (h3 ▸ c) (h4 ▸ d) (h5 ▸ e) (h6 ▸ f) (h7 ▸ g)
  | serving a b c d e => exact .serving (h1 ▸ a) (h2 ▸ b) (h3 ▸ c) (h4 ▸ d) (h5 ▸ e)
  | emptied a b c d e f g h =>
      exact .emptied (h1 ▸ a) (h2 ▸ b) (h3 ▸ c) (h4 ▸ d) (h5 ▸ e) (h6 ▸ f) (h7 ▸ g) (h8 _ b ▸ h)
  | closing a b c d e => exact .closing (h1 ▸ a) (h2 ▸ b) (h4 ▸ c) (h5 ▸ d) (h8 _ b ▸ e)
  | requested a b c d e f => exact .requested (h1 ▸ a) (h2 ▸ b) (h4 ▸ c) (h5 ▸ d) e (h8 _ b ▸ f)
  | draining a b c d e => exact .draining (h1 ▸ a) (h2 ▸ b) (h4 ▸ c) (h5 ▸ d) (h8 _ b ▸ e)
  | finished a b c d e f =>
      exact .finished (h1 ▸ a) (h2 ▸ b) (h4 ▸ c) (h5 ▸ d) (h7 ▸ e) (h8 _ b ▸ f)

omit [DecidableEq κ] in
theorem closer_call (hp : Lifecycle g) {k : κ} (hk : g.closer = some k) :
    (g.call k).closing = true ∨ g.call k = .closeReturned := by
  cases hp with
  | fresh _ hc | serving _ hc => rw [hc] at hk; cases hk
  | emptied _ hc _ _ _ _ _ h =>
      obtain rfl := Option.some.inj (hc.symm.trans hk)
      exact .inr h
  | closing _ hc _ _ h =>
      obtain rfl := Option.some.inj (hc.symm.trans hk)
      exact .inl (by rw [h]; rfl)
  | requested _ hc _ _ _ h | draining _ hc _ _ h =>
      obtain rfl := Option.some.inj (hc.symm.trans hk)
      exact .inl (by rcases h with h | h <;> rw [h] <;> rfl)
  | finished _ hc _ _ _ h =>
      obtain rfl := Option.some.inj (hc.symm.trans hk)
      rcases h with h | h | h
      · exact .inl (by rw [h]; rfl)
      · exact .inl (by rw [h]; rfl)
      · exact .inr h

theorem setCall (hp : Lifecycle g) (hc : (g.call c).closing = false)
    (hr : g.call c ≠ .closeReturned) : Lifecycle (g.setCall c pc) := by
  refine hp.congr rfl rfl rfl rfl rfl rfl rfl fun k hk => ?_
  have hne : k ≠ c := by
    rintro rfl
    rcases hp.closer_call hk with h | h
    · rw [hc] at h; cases h
    · exact hr h
  simp [hne]

omit [DecidableEq κ] in
theorem startSupervisor (hp : Lifecycle g) (hcl : g.closed = false) (hcm : g.commands = false) :
    Lifecycle g.startSupervisor := by
  cases hp with
  | fresh _ hk => exact .serving hcl hk rfl rfl (by simp [TaskGroup.startSupervisor, NoShutdown])
  | _ => simp_all

theorem sendSpawn (hp : Lifecycle g) (hcl : g.closed = false) (hcm : g.commands = true) :
    Lifecycle { g.setCall c pc with queue := g.queue ++ [.spawn c] } := by
  cases hp with
  | serving _ hk _ hs hq =>
      exact .serving hcl hk hcm hs (by simpa [NoShutdown] using hq)
  | _ => simp_all

omit [DecidableEq κ] in
theorem selecting_of_open (hp : Lifecycle g) (hcl : g.closed = false) (hcm : g.commands = true) :
    g.supervisor = .selecting := by
  cases hp <;> simp_all

theorem closeFirst {d : ℕ} (hp : Lifecycle g) (hcl : g.closed = false) :
    Lifecycle { g.setCall c (if g.commands then .closeSend d else .closeReturned) with
      closed := true, lock := none, closer := some c } := by
  cases hp with
  | fresh _ _ hcm hs hq hh ht => exact .emptied rfl rfl hcm hs hq hh ht (by simp [hcm])
  | serving _ _ hcm hs hq => exact .closing (d := d) rfl rfl hs hq (by simp [hcm])
  | _ => simp_all

omit [DecidableEq κ] in
theorem closeSend_phase {d : ℕ} (hp : Lifecycle g) (hi : CloserInv g)
    (hc : g.call c = .closeSend d) :
    g.closed = true ∧ g.closer = some c ∧ g.supervisor = .selecting ∧ NoShutdown g.queue := by
  have hk : g.closer = some c := hi.only c (by rw [hc]; rfl)
  cases hp with
  | closing hcl _ hs hq => exact ⟨hcl, hk, hs, hq⟩
  | _ => simp_all

theorem move (hp : Lifecycle g) (hi : CloserInv g) (h : g.Move now a g') : Lifecycle g' := by
  cases h with
  | spawn hc | close hc | cancelSpawn hc | cancelClose hc =>
      exact hp.setCall (by rw [hc]; rfl) (by rw [hc]; nofun)
  | acquireSpawn _ hc | acquireClose _ hc | reject hc | unlock hc | closeAgain hc =>
      exact (hp.setCall (by rw [hc]; rfl) (by rw [hc]; nofun)).congr rfl rfl rfl rfl rfl rfl rfl
        fun _ _ => rfl
  | start _ hcl hcm => exact hp.startSupervisor hcl hcm
  | sendSpawn _ hcl hcm => exact hp.sendSpawn hcl hcm
  | loseSpawn _ hcl hcm hs => exact absurd (hp.selecting_of_open hcl hcm) hs
  | closeFirst _ hcl => exact hp.closeFirst hcl
  | sendShutdown hc =>
      obtain ⟨hcl, hk, hs, hq⟩ := hp.closeSend_phase hi hc
      exact .requested hcl hk hs rfl hq (by simp)
  | loseShutdown hc hs => exact absurd (hp.closeSend_phase hi hc).2.2.1 hs
  | @awaited c hc hd =>
      have hk : g.closer = some c := hi.only c (by rw [hc]; rfl)
      have hf := hi.completed c hd
      cases hp with
      | finished hcl _ hs hq ht => exact .finished hcl hk hs hq ht (by simp)
      | draining _ _ hs => rcases hs with ⟨_, hs⟩ | hs <;> simp_all
      | _ => simp_all
  | @cancelWait c hc =>
      have hk : g.closer = some c := hi.only c (by rw [hc]; rfl)
      cases hp with
      | requested hcl hk' hs hq hl =>
          obtain rfl := Option.some.inj (hk'.symm.trans hk)
          exact .requested hcl hk hs hq hl (by simp)
      | draining hcl hk' hs hq =>
          obtain rfl := Option.some.inj (hk'.symm.trans hk)
          exact .draining hcl hk hs hq (by simp)
      | finished hcl hk' hs hq ht => exact .finished hcl hk hs hq ht (by simp)
      | _ => simp_all
  | @recvSpawn t rest hs hq =>
      cases hp with
      | serving hcl hk hcm _ hn =>
          exact .serving hcl hk hcm hs fun d c hm => hn d c (hq ▸ List.mem_cons_of_mem _ hm)
      | closing hcl hk _ hn hc =>
          exact .closing hcl hk hs (fun d c hm => hn d c (hq ▸ List.mem_cons_of_mem _ hm)) hc
      | @requested k d l hcl hk _ hl hn hc =>
          rw [hq] at hl
          cases l with
          | nil => cases hl
          | cons x l =>
              rw [List.cons_append, List.cons.injEq] at hl
              exact .requested hcl hk hs hl.2 (fun d c hm => hn d c (List.mem_cons_of_mem _ hm)) hc
      | _ => simp_all
  | @recvShutdown d c rest hs hq =>
      have hm : .shutdown d c ∈ g.queue := by rw [hq]; exact List.mem_cons_self
      cases hp with
      | serving _ _ _ _ hn => exact absurd hm (hn d c)
      | closing _ _ _ hn => exact absurd hm (hn d c)
      | @requested k d' l hcl hk _ hl hn hc =>
          rw [hq] at hl
          cases l with
          | nil =>
              rw [List.nil_append, List.cons.injEq, Command.shutdown.injEq] at hl
              obtain ⟨⟨rfl, rfl⟩, rfl⟩ := hl
              exact .draining hcl hk (.inl ⟨d, rfl⟩) rfl hc
          | cons x l =>
              rw [List.cons_append, List.cons.injEq] at hl
              exact absurd (hl.1 ▸ List.mem_cons_self) (hn d c)
      | _ => simp_all
  | @join t ht =>
      cases hp with
      | fresh _ _ _ _ _ _ h | emptied _ _ _ _ _ _ h | finished _ _ _ _ h => rw [h] at ht; cases ht
      | serving hcl hk hcm hs hq => exact .serving hcl hk hcm hs hq
      | closing hcl hk hs hq hc => exact .closing hcl hk hs hq hc
      | requested hcl hk hs hq hl hc => exact .requested hcl hk hs hq hl hc
      | draining hcl hk hs hq hc => exact .draining hcl hk hs hq hc
  | @elapse d c hs =>
      cases hp with
      | @draining k hcl hk hs' hq hc =>
          have : k = c := by rcases hs' with ⟨d', hs'⟩ | hs' <;> simp_all
          exact .draining hcl hk (.inr (this ▸ rfl)) hq hc
      | _ => simp_all
  | @complete c hs ht =>
      cases hp with
      | draining hcl hk _ hq hc => exact .finished hcl hk rfl hq ht (hc.imp_right .inl)
      | _ => rcases hs with ⟨_, hs⟩ | hs <;> simp_all
  | exit | abort => exact hp.congr rfl rfl rfl rfl rfl rfl rfl fun _ _ => rfl

end Lifecycle

namespace CloserInv

theorem setCall (hi : CloserInv g) (hc : pc.closing = true → (g.call c).closing = true)
    (hr : pc = .closeReturned → g.closed = true) : CloserInv (g.setCall c pc) := by
  refine ⟨fun c' h => ?_, fun c' h => ?_, hi.completed⟩
  · rw [call_setCall] at h
    split_ifs at h with he
    · exact he ▸ hi.only c (hc h)
    · exact hi.only c' h
  · rw [call_setCall] at h
    split_ifs at h
    · exact hr h
    · exact hi.returned c' h

omit [DecidableEq κ] in
theorem congr (hi : CloserInv g) (hc : g'.call = g.call) (hk : g'.closer = g.closer)
    (hcl : g'.closed = g.closed) (hd : g'.completed = g.completed)
    (hs : g.supervisor = .finished → g'.supervisor = .finished) : CloserInv g' := by
  refine ⟨fun c h => ?_, fun c h => ?_, fun c h => hs (hi.completed c (by rwa [hd] at h))⟩
  · rw [hc] at h
    exact hk ▸ hi.only c h
  · rw [hc] at h
    exact hcl ▸ hi.returned c h

theorem move (hp : Lifecycle g) (hi : CloserInv g) (h : g.Move now a g') : CloserInv g' := by
  cases h with
  | spawn hc | close hc | cancelSpawn hc | cancelClose hc | loseSpawn hc | cancelWait hc =>
      exact hi.setCall (by rw [hc]; simp [Call.closing]) (by nofun)
  | acquireSpawn _ hc | acquireClose _ hc | reject hc | unlock hc | sendSpawn hc
  | sendShutdown hc =>
      exact (hi.setCall (by rw [hc]; simp [Call.closing]) (by nofun)).congr rfl rfl rfl rfl id
  | closeAgain hc hcl =>
      exact (hi.setCall (by rw [hc]; simp [Call.closing]) fun _ => hcl).congr rfl rfl rfl rfl id
  | loseShutdown hc | awaited hc =>
      have hk := hi.only _ (by rw [hc]; rfl)
      exact hi.setCall (by simp [Call.closing]) fun _ => by cases hp <;> simp_all
  | start _ _ hcm =>
      refine hi.congr rfl rfl rfl rfl fun hs => ?_
      cases hp <;> simp_all
  | @closeFirst c d hc hcl =>
      have hk : g.closer = none := by cases hp <;> simp_all
      refine ⟨fun c' h => ?_, fun _ _ => rfl, hi.completed⟩
      by_cases he : c' = c
      · rw [he]
      · have := hi.only c' (by simpa [he] using h)
        rw [hk] at this
        cases this
  | recvShutdown hs => exact hi.congr rfl rfl rfl rfl fun h => by rw [hs] at h; cases h
  | elapse hs => exact hi.congr rfl rfl rfl rfl fun h => by rw [hs] at h; cases h
  | complete => exact ⟨hi.only, hi.returned, fun _ _ => rfl⟩
  | recvSpawn | join | exit | abort => exact hi.congr rfl rfl rfl rfl id

end CloserInv

/-! ### Accepted futures -/

/-- The futures handed over, then those in the channel, are the accepted ones in the order
in which they were sent. -/
structure FutureInv (g : TaskGroup κ) : Prop where
  nodup : (g.handed ++ g.queued).Nodup
  mem : ∀ c, c ∈ g.handed ++ g.queued ↔ (g.call c).accepted = true

namespace FutureInv

omit [DecidableEq κ] in
theorem congr (hi : FutureInv g) (hq : g'.handed ++ g'.queued = g.handed ++ g.queued)
    (hc : ∀ c, (g'.call c).accepted = (g.call c).accepted) : FutureInv g' :=
  ⟨hq ▸ hi.nodup, fun c => by rw [hq, hc]; exact hi.mem c⟩

theorem setCall (hi : FutureInv g) (hc : pc.accepted = (g.call c).accepted) :
    FutureInv (g.setCall c pc) :=
  hi.congr rfl (class_setCall Call.accepted hc)

theorem sendSpawn (hi : FutureInv g) (hc : g.call c = .spawnHeld) :
    FutureInv { g.setCall c .spawnSent with queue := g.queue ++ [.spawn c] } := by
  have hnew : c ∉ g.handed ++ g.queued := by rw [hi.mem, hc]; decide
  have hq : queued { g.setCall c .spawnSent with queue := g.queue ++ [.spawn c] } =
      g.queued ++ [c] := by simp [queued, Command.task?]
  refine ⟨?_, fun c' => ?_⟩
  · rw [hq, ← List.append_assoc]
    exact hi.nodup.append (List.nodup_singleton c) (List.disjoint_singleton.mpr hnew)
  · rw [hq, ← List.append_assoc, List.mem_append, List.mem_singleton]
    change _ ∨ _ ↔ ((g.setCall c .spawnSent).call c').accepted = true
    by_cases he : c' = c
    · simp [he, Call.accepted]
    · have := hi.mem c'
      rw [call_setCall, if_neg he, ← this]
      exact or_iff_left he

theorem move (hp : Lifecycle g) (hi : FutureInv g) (h : g.Move now a g') : FutureInv g' := by
  cases h with
  | spawn hc | close hc | cancelSpawn hc | cancelClose hc | loseShutdown hc | awaited hc
  | cancelWait hc => exact hi.setCall (by rw [hc]; rfl)
  | acquireSpawn _ hc | acquireClose _ hc | reject hc | unlock hc | closeAgain hc =>
      exact (hi.setCall (by rw [hc]; rfl)).congr rfl fun _ => rfl
  | closeFirst hc => exact (hi.setCall (by rw [hc]; split <;> rfl)).congr rfl fun _ => rfl
  | start _ hcl hcm =>
      have hq : g.queue = [] := by cases hp <;> simp_all
      exact hi.congr (by simp [queued, startSupervisor, hq]) fun _ => rfl
  | sendSpawn hc => exact hi.sendSpawn hc
  | loseSpawn _ hcl hcm hs => exact absurd (hp.selecting_of_open hcl hcm) hs
  | sendShutdown hc =>
      exact (hi.setCall (by rw [hc]; rfl)).congr (by simp [queued, Command.task?]) fun _ => rfl
  | recvSpawn _ hq => exact hi.congr (by simp [queued, hq, Command.task?]) fun _ => rfl
  | recvShutdown _ hq =>
      exact hi.congr (by simp [queued, hq, List.filterMap_cons, Command.task?]) fun _ => rfl
  | join | elapse | complete | exit | abort => exact hi.congr rfl fun _ => rfl

end FutureInv

/-! ### Children -/

/-- The `JoinSet` holds handed futures, and the ones it no longer holds have exited. -/
structure TaskInv (g : TaskGroup κ) : Prop where
  nodup : g.tasks.Nodup
  handed : ∀ t ∈ g.tasks, t ∈ g.handed
  unstarted : ∀ t, g.status t = .unstarted ↔ t ∉ g.handed
  joined : ∀ t ∈ g.handed, t ∉ g.tasks → (g.status t).exited = true

namespace TaskInv

omit [DecidableEq κ] in
theorem congr (hi : TaskInv g) (ht : g'.tasks = g.tasks) (hh : g'.handed = g.handed)
    (hs : g'.status = g.status) : TaskInv g' := by
  refine ⟨ht ▸ hi.nodup, ?_, ?_, ?_⟩
  · simpa only [ht, hh] using hi.handed
  · simpa only [hs, hh] using hi.unstarted
  · simpa only [ht, hs, hh] using hi.joined

theorem recvSpawn {t : κ} {rest : List (Command κ)} (hf : FutureInv g) (hi : TaskInv g)
    (hq : g.queue = .spawn t :: rest) :
    TaskInv { g with queue := rest, tasks := g.tasks ++ [t], status := update g.status t .running,
                     handed := g.handed ++ [t] } := by
  have hnew : t ∉ g.handed := fun hm =>
    (List.nodup_append.mp hf.nodup).2.2 t hm t (by simp [queued, hq, Command.task?]) rfl
  refine ⟨?_, fun t' ht' => ?_, fun t' => ?_, fun t' ht' hn => ?_⟩
  · exact hi.nodup.append (List.nodup_singleton t)
      (List.disjoint_singleton.mpr fun hm => hnew (hi.handed t hm))
  · rcases List.mem_append.mp ht' with h | h
    · exact List.mem_append_left _ (hi.handed _ h)
    · exact List.mem_append_right _ h
  · by_cases he : t' = t
    · simp [he]
    · simp [he, hi.unstarted]
  · have hne : t' ≠ t := fun he => hn (List.mem_append_right _ (List.mem_singleton.mpr he))
    simp only [List.mem_append, List.mem_singleton, hne, or_false] at ht' hn
    simpa [hne] using hi.joined t' ht' hn

theorem exits {t : κ} {st : Status} (hi : TaskInv g) (ht : t ∈ g.tasks) (he : st.exited = true) :
    TaskInv { g with status := update g.status t st } := by
  refine ⟨hi.nodup, hi.handed, fun t' => ?_, fun t' ht' hn => ?_⟩
  · by_cases h : t' = t
    · subst h
      have hst : st ≠ .unstarted := by rintro rfl; cases he
      simp [hst, hi.handed _ ht]
    · simp [h, hi.unstarted]
  · have hne : t' ≠ t := fun h => hn (h ▸ ht)
    simpa [hne] using hi.joined t' ht' hn

theorem join {t : κ} (hi : TaskInv g) (he : (g.status t).exited = true) :
    TaskInv { g with tasks := g.tasks.erase t } := by
  refine ⟨hi.nodup.erase t, fun t' ht' => hi.handed _ (List.mem_of_mem_erase ht'), hi.unstarted,
    fun t' ht' hn => ?_⟩
  by_cases h : t' = t
  · exact h ▸ he
  · exact hi.joined t' ht' fun hm => hn ((List.mem_erase_of_ne h).mpr hm)

theorem move (hf : FutureInv g) (hi : TaskInv g) (h : g.Move now a g') : TaskInv g' := by
  cases h with
  | recvSpawn _ hq => exact hi.recvSpawn hf hq
  | join _ he => exact hi.join he
  | exit ht | abort ht => exact hi.exits ht rfl
  | _ => exact hi.congr rfl rfl rfl

end TaskInv

/-! ### The closing call in the order of lock acquisitions -/

/-- The closing call splits the log: accepted spawns before it, rejected ones after it. -/
structure OrderInv (g : TaskGroup κ) : Prop where
  opened : g.closed = false → ∀ c, g.call c ≠ .spawnRejected
  closed : ∀ k, g.closer = some k → ∃ pre post, g.taken = pre ++ .close k :: post ∧
    (∀ c, .spawn c ∈ pre → g.call c = .spawnReturned) ∧
    (∀ c, .spawn c ∈ post → g.call c = .spawnHeld ∨ g.call c = .spawnRejected)

namespace OrderInv

omit [DecidableEq κ] in
theorem congr (hi : OrderInv g) (hcl : g'.closed = g.closed) (hc : g'.call = g.call)
    (hk : g'.closer = g.closer) (ht : g'.taken = g.taken) : OrderInv g' := by
  refine ⟨?_, ?_⟩
  · simpa only [hcl, hc] using hi.opened
  · simpa only [hk, ht, hc] using hi.closed

theorem setCall (hl : LockInv g) (hi : OrderInv g) (hc : (g.call c).spawnTook = false)
    (hpc : pc ≠ .spawnRejected) : OrderInv (g.setCall c pc) := by
  have hnew : .spawn c ∉ g.taken := by rw [hl.mem_spawn, hc]; decide
  refine ⟨fun hcl c' => ?_, fun k hk => ?_⟩
  · rw [call_setCall]
    split_ifs
    · exact hpc
    · exact hi.opened hcl c'
  · obtain ⟨pre, post, ht, hpre, hpost⟩ := hi.closed k hk
    have hne : ∀ c', .spawn c' ∈ pre ∨ .spawn c' ∈ post → c' ≠ c := by
      rintro c' hm rfl
      exact hnew (by rw [ht]; rcases hm with h | h <;> simp [h])
    refine ⟨pre, post, ht, fun c' hm => ?_, fun c' hm => ?_⟩
    · rw [call_setCall, if_neg (hne c' (.inl hm))]; exact hpre c' hm
    · rw [call_setCall, if_neg (hne c' (.inr hm))]; exact hpost c' hm

theorem acquire {x : Taken κ} (hl : LockInv g) (hi : OrderInv g)
    (hc : (g.call c).spawnTook = false) (hpc : pc ≠ .spawnRejected)
    (hx : x = .spawn c ∧ pc = .spawnHeld ∨ x = .close c) :
    OrderInv { g.setCall c pc with lock := some c, taken := g.taken ++ [x] } := by
  have hs : OrderInv (g.setCall c pc) := setCall hl hi hc hpc
  refine ⟨hs.opened, fun k hk => ?_⟩
  obtain ⟨pre, post, ht, hpre, hpost⟩ := hs.closed k hk
  refine ⟨pre, post ++ [x], ?_, hpre, fun c' hm => ?_⟩
  · rw [← List.cons_append, ← List.append_assoc, ← ht]; rfl
  · rcases List.mem_append.mp hm with h | h
    · exact hpost c' h
    · rcases hx with ⟨rfl, rfl⟩ | rfl
      · simp only [List.mem_singleton, Taken.spawn.injEq] at h
        simp [h]
      · simp at h

theorem reject (hi : OrderInv g) (hc : g.call c = .spawnHeld) (hcl : g.closed = true) :
    OrderInv { g.setCall c .spawnRejected with lock := none } := by
  refine ⟨fun h => absurd hcl (by simp [show g.closed = false from h]), fun k hk => ?_⟩
  obtain ⟨pre, post, ht, hpre, hpost⟩ := hi.closed k hk
  refine ⟨pre, post, ht, fun c' hm => ?_, fun c' hm => ?_⟩
  · have hne : c' ≠ c := by
      rintro rfl
      rw [hpre _ hm] at hc; cases hc
    simpa [hne] using hpre c' hm
  · by_cases he : c' = c
    · simp [he]
    · simpa [he] using hpost c' hm

theorem setCall_open (hi : OrderInv g) (hcl : g.closed = false) (hk : g.closer = none)
    (hpc : pc ≠ .spawnRejected) : OrderInv (g.setCall c pc) := by
  refine ⟨fun _ c' => ?_, fun k h => by rw [closer_setCall, hk] at h; cases h⟩
  rw [call_setCall]
  split_ifs
  · exact hpc
  · exact hi.opened hcl c'

theorem closeFirst {d : ℕ} (hl : LockInv g) (hi : OrderInv g) (hc : g.call c = .closeHeld d)
    (hcl : g.closed = false) :
    OrderInv { g.setCall c pc with closed := true, lock := none, closer := some c } := by
  refine ⟨nofun, fun k hk => ?_⟩
  obtain rfl := Option.some.inj hk
  have hlock : g.lock = some c := (hl.holds_iff c).mp (by rw [hc]; rfl)
  obtain ⟨l, ht | ht⟩ := hl.last c hlock
  · have hm : .spawn c ∈ g.taken := by rw [ht]; simp
    rw [hl.mem_spawn, hc] at hm
    cases hm
  · refine ⟨l, [], ht, fun c' hm => ?_, fun c' hm => by cases hm⟩
    have htook := (hl.mem_spawn c').mp (by rw [ht]; exact List.mem_append_left _ hm)
    have hne : c' ≠ c := by
      rintro rfl
      rw [hc] at htook; cases htook
    have hfree : (g.call c').holds = false := by
      rw [Bool.eq_false_iff, ne_eq, hl.holds_iff, hlock]
      exact fun h => hne (Option.some.inj h).symm
    have hrej := hi.opened hcl c'
    have : g.call c' = .spawnReturned := by
      cases hp : g.call c' <;> rw [hp] at htook hfree hrej <;>
        simp_all [Call.spawnTook, Call.holds]
    simpa [hne] using this

theorem move (hl : LockInv g) (hp : Lifecycle g) (hi : OrderInv g) (h : g.Move now a g') :
    OrderInv g' := by
  cases h with
  | spawn hc | close hc | cancelSpawn hc | cancelClose hc | loseShutdown hc | awaited hc
  | cancelWait hc => exact setCall hl hi (by rw [hc]; rfl) (by nofun)
  | acquireSpawn _ hc => exact acquire hl hi (by rw [hc]; rfl) nofun (.inl ⟨rfl, rfl⟩)
  | acquireClose _ hc => exact acquire hl hi (by rw [hc]; rfl) nofun (.inr rfl)
  | reject hc hcl => exact hi.reject hc hcl
  | sendSpawn _ hcl | loseSpawn _ hcl =>
      have hk : g.closer = none := by cases hp <;> simp_all
      exact (hi.setCall_open hcl hk (by nofun)).congr rfl rfl rfl rfl
  | @unlock c hc =>
      cases hcl : g.closed with
      | false =>
          have hk : g.closer = none := by cases hp <;> simp_all
          exact (hi.setCall_open hcl hk (by nofun)).congr rfl rfl rfl rfl
      | true =>
          obtain ⟨k, hk⟩ : ∃ k, g.closer = some k := by cases hp <;> simp_all
          obtain ⟨pre, post, ht, hpre, hpost⟩ := hi.closed k hk
          have hm : .spawn c ∈ g.taken := (hl.mem_spawn c).mpr (by rw [hc]; rfl)
          rw [ht, List.mem_append, List.mem_cons] at hm
          rcases hm with h | h | h
          · rw [hpre c h] at hc; cases hc
          · cases h
          · rcases hpost c h with h | h <;> rw [h] at hc <;> cases hc
  | closeAgain hc | sendShutdown hc =>
      exact (setCall hl hi (by rw [hc]; rfl) (by nofun)).congr rfl rfl rfl rfl
  | closeFirst hc hcl => exact closeFirst hl hi hc hcl
  | start | recvSpawn | recvShutdown | join | elapse | complete | exit | abort =>
      exact hi.congr rfl rfl rfl rfl

end OrderInv

/-! ### Runs -/

/-- Everything above at once. -/
structure Inv (g : TaskGroup κ) : Prop where
  lock : LockInv g
  life : Lifecycle g
  closer : CloserInv g
  future : FutureInv g
  task : TaskInv g
  order : OrderInv g

omit [DecidableEq κ] in
theorem Inv.new : Inv (new κ) where
  lock := .new
  life := .fresh rfl rfl rfl rfl rfl rfl rfl
  closer := ⟨nofun, nofun, nofun⟩
  future := ⟨by simp [TaskGroup.new, queued], by simp [TaskGroup.new, queued, Call.accepted]⟩
  task := ⟨by simp [TaskGroup.new], by simp [TaskGroup.new], by simp [TaskGroup.new],
    by simp [TaskGroup.new]⟩
  order := ⟨by simp [TaskGroup.new], nofun⟩

/-- **Step lemma.** -/
theorem Inv.step (hi : Inv g) (h : g.step now a = some g') : Inv g' :=
  have hm := step_move h
  { lock := hi.lock.move hm
    life := hi.life.move hi.closer hm
    closer := CloserInv.move hi.life hi.closer hm
    future := FutureInv.move hi.life hi.future hm
    task := TaskInv.move hi.future hi.task hm
    order := OrderInv.move hi.lock hi.life hi.order hm }

/-- An action of the group, or the passing of time. -/
inductive Event (κ : Type)
  | tick
  | act (a : Action κ)

/-- One group and its clock: any number of calls, in any interleaving. -/
def system (κ : Type) [DecidableEq κ] : Transition.System (ℕ × TaskGroup κ) (Event κ) where
  init s := s.2 = new κ
  step s
    | .tick => some (s.1 + 1, s.2)
    | .act a => (s.2.step s.1 a).map fun g => (s.1, g)

/-- **Run lemma.** -/
theorem Inv.of_reachable {s : ℕ × TaskGroup κ} (h : Transition.Reachable (system κ) s) :
    Inv s.2 := by
  refine h.invariant (I := fun s => Inv s.2) ?_ ?_
  · intro s hs
    rw [show s.2 = TaskGroup.new κ from hs]
    exact .new
  · rintro ⟨now, g⟩ e s' hi - hs
    cases e with
    | tick =>
        obtain rfl := Option.some.inj hs
        exact hi
    | act a =>
        obtain ⟨g', hg, rfl⟩ := Option.map_eq_some_iff.mp hs
        exact hi.step hg

/-- `x` took the lock before `y`. -/
def Before (l : List (Taken κ)) (x y : Taken κ) : Prop := ∃ pre post, l = pre ++ y :: post ∧ x ∈ pre

/-- `x` took the lock after `y`. -/
def After (l : List (Taken κ)) (x y : Taken κ) : Prop := ∃ pre post, l = pre ++ y :: post ∧ x ∈ post

theorem split_unique {α : Type} {l pre post pre' post' : List α} {y : α} (hn : l.Nodup)
    (h : l = pre ++ y :: post) (h' : l = pre' ++ y :: post') : pre = pre' ∧ post = post' := by
  have hy : y ∉ pre := fun hm => by
    rw [h] at hn
    exact (List.nodup_append.mp hn).2.2 y hm y List.mem_cons_self rfl
  have hy' : y ∉ pre' := fun hm => by
    rw [h'] at hn
    exact (List.nodup_append.mp hn).2.2 y hm y List.mem_cons_self rfl
  have he := h.symm.trans h'
  rcases List.append_eq_append_iff.mp he with ⟨as, hpre, hq⟩ | ⟨bs, hpre, hq⟩
  · cases as with
    | nil => simp_all
    | cons z as =>
        rw [List.cons_append, List.cons.injEq] at hq
        exact absurd (by rw [hpre, hq.1]; simp) hy'
  · cases bs with
    | nil => simp_all
    | cons z bs =>
        rw [List.cons_append, List.cons.injEq] at hq
        exact absurd (by rw [hpre, hq.1]; simp) hy

omit [DecidableEq κ] in
theorem Inv.accepted_of_before (hi : Inv g) {k f : κ} (hk : g.closer = some k)
    (hb : Before g.taken (.spawn f) (.close k)) : g.call f = .spawnReturned := by
  obtain ⟨pre, post, ht, hm⟩ := hb
  obtain ⟨pre', post', ht', hpre, -⟩ := hi.order.closed k hk
  obtain ⟨rfl, rfl⟩ := split_unique hi.lock.nodup ht ht'
  exact hpre f hm

omit [DecidableEq κ] in
theorem Inv.rejected_of_after (hi : Inv g) {k f : κ} (hk : g.closer = some k)
    (ha : After g.taken (.spawn f) (.close k)) :
    g.call f = .spawnHeld ∨ g.call f = .spawnRejected := by
  obtain ⟨pre, post, ht, hm⟩ := ha
  obtain ⟨pre', post', ht', -, hpost⟩ := hi.order.closed k hk
  obtain ⟨rfl, rfl⟩ := split_unique hi.lock.nodup ht ht'
  exact hpost f hm

/-- The group is closed, its channel carries no future and its `JoinSet` is empty. -/
structure Settled (g : TaskGroup κ) : Prop where
  closed : g.closed = true
  queued : g.queued = []
  tasks : g.tasks = []

omit [DecidableEq κ] in
theorem Settled.joined (hs : Settled g) (hi : Inv g) {f : κ} (hf : (g.call f).accepted = true) :
    f ∈ g.handed ∧ f ∉ g.tasks ∧ (g.status f).exited = true := by
  have hm : f ∈ g.handed := by
    have := (hi.future.mem f).mpr hf
    rwa [hs.queued, List.append_nil] at this
  have hn : f ∉ g.tasks := by rw [hs.tasks]; exact List.not_mem_nil
  exact ⟨hm, hn, hi.task.joined f hm hn⟩

theorem Settled.move (hs : Settled g) (h : g.Move now a g') : Settled g' := by
  obtain ⟨hcl, hq, ht⟩ := hs
  cases h with
  | start _ h | sendSpawn _ h | loseSpawn _ h | closeFirst _ h => rw [hcl] at h; cases h
  | sendShutdown => exact ⟨hcl, by simpa [TaskGroup.queued, Command.task?] using hq, ht⟩
  | recvSpawn _ h => simp [TaskGroup.queued, h, Command.task?] at hq
  | recvShutdown _ h =>
      exact ⟨hcl, by simpa [TaskGroup.queued, h, List.filterMap_cons, Command.task?] using hq, ht⟩
  | join => exact ⟨hcl, hq, by simp [ht]⟩
  | _ => exact ⟨hcl, hq, ht⟩

omit [DecidableEq κ] in
/-- When the closing call has returned, the group is settled. -/
theorem Inv.settled (hi : Inv g) {k : κ} (hk : g.closer = some k)
    (hr : g.call k = .closeReturned) : Settled g := by
  have hcl := hi.closer.returned k hr
  cases hi.life with
  | fresh _ h | serving _ h => rw [h] at hk; cases hk
  | emptied _ _ _ _ hq _ ht => exact ⟨hcl, by simp [queued, hq], ht⟩
  | closing _ h _ _ hc | requested _ h _ _ _ hc | draining _ h _ _ hc =>
      obtain rfl := Option.some.inj (h.symm.trans hk)
      simp_all
  | finished _ _ _ hq ht => exact ⟨hcl, by simp [queued, hq], ht⟩

/-- The holder of the state lock never waits: its next step is enabled. -/
theorem Inv.holder_advances (hi : Inv g) {b : κ} (hb : g.lock = some b) :
    (g.step now (.advance b)).isSome = true := by
  have hh := (hi.lock.holds_iff b).mpr hb
  cases hc : g.call b <;> rw [hc] at hh <;> simp_all [Call.holds, TaskGroup.step, advance]

/-- What the group promises its callers. -/
structure Safe (now : ℕ) (g : TaskGroup κ) : Prop where
  /-- no future is handed to the `JoinSet` twice -/
  handed_once : ∀ f, g.handed.count f ≤ 1
  /-- a spawn that took the lock before the closing call is handed over by the time the
  closing call returns -/
  handed_by_return : ∀ k, g.closer = some k → g.call k = .closeReturned →
    ∀ f, Before g.taken (.spawn f) (.close k) → g.handed.count f = 1
  /-- a spawn that took the lock after the closing call is rejected and never started -/
  rejected : ∀ k, g.closer = some k → ∀ f, After g.taken (.spawn f) (.close k) →
    (g.call f = .spawnHeld ∨ g.call f = .spawnRejected) ∧ f ∉ g.queued ∧ f ∉ g.handed ∧
      f ∉ g.tasks ∧ g.status f = .unstarted
  /-- when the closing call has returned every accepted task has exited and been joined -/
  joined : ∀ k, g.closer = some k → g.call k = .closeReturned →
    ∀ f, (g.call f).accepted = true → f ∈ g.handed ∧ f ∉ g.tasks ∧ (g.status f).exited = true
  /-- nobody waits for a lock held by a call that waits for the supervisor -/
  lock_progress : ∀ w b, (g.call w).awaitsLock = true → g.lock = some b →
    g.call b ≠ .closeWait ∧ (g.step now (.advance b)).isSome = true

/-- **`TaskGroup` neither loses, duplicates nor leaks work**, in every reachable state. -/
theorem safe_of_reachable {s : ℕ × TaskGroup κ} (h : Transition.Reachable (system κ) s) :
    Safe s.1 s.2 := by
  have hi := Inv.of_reachable h
  have hnd := (List.nodup_append.mp hi.future.nodup).1
  refine ⟨fun f => List.nodup_iff_count_le_one.mp hnd f, ?_, ?_, ?_, ?_⟩
  · intro k hk hr f hb
    have hret := hi.accepted_of_before hk hb
    have hm := ((hi.settled hk hr).joined hi (by rw [hret]; rfl)).1
    exact List.count_eq_one_of_mem hnd hm
  · intro k hk f ha
    have hc := hi.rejected_of_after hk ha
    have hnot : f ∉ s.2.handed ++ s.2.queued := by
      rw [hi.future.mem]; rcases hc with h | h <;> rw [h] <;> decide
    have hh : f ∉ s.2.handed := fun hm => hnot (List.mem_append_left _ hm)
    exact ⟨hc, fun hm => hnot (List.mem_append_right _ hm), hh,
      fun hm => hh (hi.task.handed f hm), (hi.task.unstarted f).mpr hh⟩
  · exact fun k hk hr f hf => (hi.settled hk hr).joined hi hf
  · intro w b _ hb
    refine ⟨fun hw => ?_, hi.holder_advances hb⟩
    have hh := (hi.lock.holds_iff b).mpr hb
    rw [hw] at hh
    cases hh

/-- Call `0` spawns a future that never exits, call `1` closes the group with a deadline that
has already passed: the future is aborted and joined before call `1` returns. -/
def abortedRun : List (Event ℕ) :=
  [.act (.spawn 0 none), .act (.acquire 0), .act (.advance 0), .act (.advance 0),
    .act (.advance 0), .act (.close 1 0), .act (.acquire 1), .act (.advance 1),
    .act (.advance 1), .act .recv, .act .recv, .act .elapse, .act (.abort 0),
    .act (.joinNext 0), .act .complete, .act (.advance 1)]

theorem safe_of_reachable_abortedRun :
    ∃ s, Transition.run (system ℕ) (0, new ℕ) abortedRun = some s ∧
      s.2.closer = some 1 ∧ s.2.call 1 = .closeReturned ∧ Safe s.1 s.2 := by
  refine ⟨_, rfl, by decide, by decide, safe_of_reachable ?_⟩
  exact .of_run abortedRun (s := (0, new ℕ)) rfl rfl

end DnsIngress.TaskGroup
