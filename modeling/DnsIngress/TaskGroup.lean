import DnsIngress.Transition
import Mathlib.Data.List.Nodup
import Mathlib.Tactic.SplitIfs
import Mathlib.Tactic.Common

/-! # The listener-local task supervisor (`tasks.rs`)

A `TaskGroup` is shared by any number of concurrent `spawn` and `close_and_wait_until`
calls, made from outside or from inside running children, and by one supervisor task, the
sole owner of the `JoinSet`.  The model is a transition system whose atomic steps are the
steps between two await points (or between two shared effects) of the source:

* **Calls.**  Every call has an identity and a program counter (`Call`).  A call waits for
  the state lock, runs its critical section, and releases the lock; no await point lies
  inside a critical section.  A spawned future is named by the call that spawns it.
* **Supervisor.**  It is created by the first accepted spawn, receives the commands in FIFO
  order or joins an exited child (`tokio::select!`), and on `Shutdown` drains the `JoinSet`
  until its deadline, then aborts and joins what is left.
* **Children.**  A child of the `JoinSet` exits by itself at any time (or never), or is
  dropped at an await point once `abort_all` was called.
* **Cancellation.**  A call may be dropped at each of its await points.

`taken`, `handed` and `closer` are history: the order in which calls took the state lock,
the futures handed to the `JoinSet`, and the call that performed the open-to-closed
transition.  No step reads them. -/

namespace DnsIngress

open Function (update)

/-- `enum Command`: a future to run, or the final request of a closing call.  The oneshot
sender `completed` is named by the call that holds its receiver. -/
inductive Command (κ : Type)
  | spawn (task : κ)
  | shutdown (deadline : ℕ) (completed : κ)
deriving DecidableEq

/-- The future a command carries. -/
def Command.task? {κ : Type} : Command κ → Option κ
  | spawn task => some task
  | shutdown _ _ => none

/-- Program counter of a `spawn` or `close_and_wait_until` call. -/
inductive Call
  | idle
  /-- awaiting `self.state.lock()` in `spawn_command` -/
  | spawnLock
  /-- lock taken, `state.closed` not yet read -/
  | spawnHeld
  /-- `Command::Spawn` sent, guard not yet dropped -/
  | spawnSent
  | spawnReturned
  /-- returned because the group was closed; the future was dropped -/
  | spawnRejected
  /-- awaiting `self.state.lock()` in `close_and_wait_until` -/
  | closeLock (deadline : ℕ)
  | closeHeld (deadline : ℕ)
  /-- guard dropped with a clone of the sender, `Command::Shutdown` not yet sent -/
  | closeSend (deadline : ℕ)
  /-- awaiting the oneshot receiver -/
  | closeWait
  | closeReturned
  /-- dropped while it awaited the lock -/
  | dropped
  /-- dropped while it awaited the oneshot receiver -/
  | abandoned
deriving DecidableEq

namespace Call

/-- The call owns the state lock. -/
def holds : Call → Bool
  | spawnHeld | spawnSent | closeHeld _ => true
  | idle | spawnLock | spawnReturned | spawnRejected | closeLock _ | closeSend _ | closeWait
  | closeReturned | dropped | abandoned => false

/-- The call is queued for the state lock. -/
def awaitsLock : Call → Bool
  | spawnLock | closeLock _ => true
  | idle | spawnHeld | spawnSent | spawnReturned | spawnRejected | closeHeld _ | closeSend _
  | closeWait | closeReturned | dropped | abandoned => false

/-- The call has taken the state lock in `spawn_command`. -/
def spawnTook : Call → Bool
  | spawnHeld | spawnSent | spawnReturned | spawnRejected => true
  | idle | spawnLock | closeLock _ | closeHeld _ | closeSend _ | closeWait | closeReturned
  | dropped | abandoned => false

/-- The call has taken the state lock in `close_and_wait_until`. -/
def closeTook : Call → Bool
  | closeHeld _ | closeSend _ | closeWait | closeReturned | abandoned => true
  | idle | spawnLock | spawnHeld | spawnSent | spawnReturned | spawnRejected | closeLock _
  | dropped => false

/-- The call has sent its `Command::Spawn`. -/
def accepted : Call → Bool
  | spawnSent | spawnReturned => true
  | idle | spawnLock | spawnHeld | spawnRejected | closeLock _ | closeHeld _ | closeSend _
  | closeWait | closeReturned | dropped | abandoned => false

/-- The call performed the open-to-closed transition and has not returned. -/
def closing : Call → Bool
  | closeSend _ | closeWait | abandoned => true
  | idle | spawnLock | spawnHeld | spawnSent | spawnReturned | spawnRejected | closeLock _
  | closeHeld _ | closeReturned | dropped => false

/-- A `close_and_wait_until` call in progress or returned. -/
def isClose : Call → Bool
  | closeLock _ | closeHeld _ | closeSend _ | closeWait | closeReturned => true
  | idle | spawnLock | spawnHeld | spawnSent | spawnReturned | spawnRejected | dropped
  | abandoned => false

/-- The call takes no further step. -/
def ended : Call → Bool
  | spawnReturned | spawnRejected | closeReturned | dropped | abandoned => true
  | idle | spawnLock | spawnHeld | spawnSent | closeLock _ | closeHeld _ | closeSend _
  | closeWait => false

end Call

/-- Life of a future inside the `JoinSet`. -/
inductive Status
  | unstarted | running | completed | aborted
deriving DecidableEq

/-- A child that `join_next` can yield. -/
def Status.exited : Status → Bool
  | completed | aborted => true
  | unstarted | running => false

/-- Program counter of the supervisor task. -/
inductive Supervisor (κ : Type)
  /-- `state.commands` is `None`: no channel, no supervisor -/
  | absent
  /-- in `tokio::select!` over `recv` and `join_next` -/
  | selecting
  /-- receiver closed, awaiting `timeout_at(deadline, join_next)` -/
  | draining (deadline : ℕ) (completed : κ)
  /-- after `abort_all`, awaiting `join_next` -/
  | aborting (completed : κ)
  | finished
deriving DecidableEq

/-- The supervisor polls `tasks.join_next()`. -/
def Supervisor.joins {κ : Type} : Supervisor κ → Bool
  | selecting | draining _ _ | aborting _ => true
  | absent | finished => false

/-- An acquisition of the state lock. -/
inductive Taken (κ : Type)
  | spawn (call : κ)
  | close (call : κ)
deriving DecidableEq

/-- The shared state of one group: `TaskGroupState` with its lock, the command channel, the
supervisor with its `JoinSet`, and every call in progress. -/
structure TaskGroup (κ : Type) where
  closed : Bool
  commands : Bool
  lock : Option κ
  call : κ → Call
  queue : List (Command κ)
  supervisor : Supervisor κ
  tasks : List κ
  status : κ → Status
  /-- oneshot channels on which `completed.send(())` was executed -/
  completed : κ → Bool
  taken : List (Taken κ)
  handed : List κ
  closer : Option κ

namespace TaskGroup

variable {κ : Type} [DecidableEq κ]

/-- `TaskGroup::default()`. -/
def new (κ : Type) : TaskGroup κ where
  closed := false
  commands := false
  lock := none
  call := fun _ => .idle
  queue := []
  supervisor := .absent
  tasks := []
  status := fun _ => .unstarted
  completed := fun _ => false
  taken := []
  handed := []
  closer := none

/-- Atomic actions. -/
inductive Action (κ : Type)
  /-- a caller polls `spawn` for the first time; `parent` is the child it runs in, if any -/
  | spawn (call : κ) (parent : Option κ)
  | close (call : κ) (deadline : ℕ)
  | acquire (call : κ)
  /-- the next step of a call that is not waiting for the lock -/
  | advance (call : κ)
  /-- the call's future is dropped at an await point -/
  | cancel (call : κ)
  | recv
  | joinNext (task : κ)
  | elapse
  | complete
  | exit (task : κ)
  | abort (task : κ)

variable (g : TaskGroup κ)

def setCall (c : κ) (pc : Call) : TaskGroup κ := { g with call := update g.call c pc }

/-- `commands.send(..)`: fails once the receiver is closed or dropped. -/
def send (cmd : Command κ) : Option (TaskGroup κ) :=
  match g.supervisor with
  | .selecting => some { g with queue := g.queue ++ [cmd] }
  | _ => none

/-- `start_supervisor(receiver)` and `state.commands = Some(sender)`. -/
def startSupervisor : TaskGroup κ :=
  { g with commands := true, queue := [], supervisor := .selecting }

/-- The critical section of `spawn_command`, up to the send. -/
def spawnCommand (c : κ) : TaskGroup κ :=
  if g.closed then { g.setCall c .spawnRejected with lock := none }
  else if !g.commands then g.startSupervisor
  -- `let _ = commands.send(..)`: a future that cannot be sent is dropped
  else ((g.send (.spawn c)).getD g).setCall c .spawnSent

/-- The critical section of `close_and_wait_until`. -/
def closeSection (c : κ) (deadline : ℕ) : TaskGroup κ :=
  if g.closed then { g.setCall c .closeReturned with lock := none }
  else
    { g.setCall c (if g.commands then .closeSend deadline else .closeReturned) with
      closed := true
      lock := none
      closer := some c }

/-- `commands.send(Command::Shutdown { .. }).is_ok()`. -/
def sendShutdown (c : κ) (deadline : ℕ) : TaskGroup κ :=
  match g.send (.shutdown deadline c) with
  | some g' => g'.setCall c .closeWait
  | none => g.setCall c .closeReturned

/-- The next step of call `c`, none of whose steps here waits for the lock. -/
def advance (c : κ) : Option (TaskGroup κ) :=
  match g.call c with
  | .spawnHeld => some (g.spawnCommand c)
  | .spawnSent => some { g.setCall c .spawnReturned with lock := none }
  | .closeHeld d => some (g.closeSection c d)
  | .closeSend d => some (g.sendShutdown c d)
  | .closeWait => if g.completed c then some (g.setCall c .closeReturned) else none
  | _ => none

/-- Taking the free state lock. -/
def acquire (c : κ) : Option (TaskGroup κ) :=
  if g.lock.isSome then none
  else match g.call c with
    | .spawnLock =>
        some { g.setCall c .spawnHeld with lock := some c, taken := g.taken ++ [.spawn c] }
    | .closeLock d =>
        some { g.setCall c (.closeHeld d) with lock := some c, taken := g.taken ++ [.close c] }
    | _ => none

/-- Dropping the future of call `c` at an await point. -/
def cancel (c : κ) : Option (TaskGroup κ) :=
  match g.call c with
  | .spawnLock | .closeLock _ => some (g.setCall c .dropped)
  | .closeWait => some (g.setCall c .abandoned)
  | _ => none

/-- The `recv` branch of the supervisor's `select!`, and the command's handler. -/
def recv : Option (TaskGroup κ) :=
  match g.supervisor, g.queue with
  | .selecting, .spawn t :: rest =>
      some { g with
        queue := rest
        tasks := g.tasks ++ [t]
        status := update g.status t .running
        handed := g.handed ++ [t] }
  | .selecting, .shutdown d c :: rest =>
      some { g with queue := rest, supervisor := .draining d c }
  | _, _ => none

/-- `tasks.join_next()` yields the exited child `t`. -/
def joinNext (t : κ) : Option (TaskGroup κ) :=
  if g.supervisor.joins ∧ t ∈ g.tasks ∧ (g.status t).exited then
    some { g with tasks := g.tasks.erase t }
  else none

/-- `timeout_at(deadline, ..)` elapses: `tasks.abort_all()`. -/
def elapse (now : ℕ) : Option (TaskGroup κ) :=
  match g.supervisor with
  | .draining d c =>
      if g.tasks ≠ [] ∧ d ≤ now then some { g with supervisor := .aborting c } else none
  | _ => none

/-- The `JoinSet` is empty: `completed.send(())` and `break`. -/
def complete : Option (TaskGroup κ) :=
  match g.supervisor with
  | .draining _ c | .aborting c =>
      if g.tasks = [] then
        some { g with supervisor := .finished, completed := update g.completed c true }
      else none
  | _ => none

/-- A running child returns or panics. -/
def exit (t : κ) : Option (TaskGroup κ) :=
  if t ∈ g.tasks ∧ g.status t = .running then
    some { g with status := update g.status t .completed }
  else none

/-- A child that `abort_all` marked is dropped at its next await point. -/
def abort (t : κ) : Option (TaskGroup κ) :=
  match g.supervisor with
  | .aborting _ =>
      if t ∈ g.tasks ∧ g.status t = .running then
        some { g with status := update g.status t .aborted }
      else none
  | _ => none

/-- One atomic step at time `now`. -/
def step (now : ℕ) : Action κ → Option (TaskGroup κ)
  | .spawn c parent =>
      if g.call c = .idle ∧ parent.all (fun p => decide (p ∈ g.tasks ∧ g.status p = .running)) then
        some (g.setCall c .spawnLock)
      else none
  | .close c d => if g.call c = .idle then some (g.setCall c (.closeLock d)) else none
  | .acquire c => g.acquire c
  | .advance c => g.advance c
  | .cancel c => g.cancel c
  | .recv => g.recv
  | .joinNext t => g.joinNext t
  | .elapse => g.elapse now
  | .complete => g.complete
  | .exit t => g.exit t
  | .abort t => g.abort t

/-! ### What a step can do -/

section setCall
variable {g} {c c' : κ} {pc : Call}

@[simp] theorem call_setCall :
    (g.setCall c pc).call c' = if c' = c then pc else g.call c' := by
  simp [setCall, Function.update_apply]

@[simp] theorem closed_setCall : (g.setCall c pc).closed = g.closed := rfl
@[simp] theorem commands_setCall : (g.setCall c pc).commands = g.commands := rfl
@[simp] theorem lock_setCall : (g.setCall c pc).lock = g.lock := rfl
@[simp] theorem queue_setCall : (g.setCall c pc).queue = g.queue := rfl
@[simp] theorem supervisor_setCall : (g.setCall c pc).supervisor = g.supervisor := rfl
@[simp] theorem tasks_setCall : (g.setCall c pc).tasks = g.tasks := rfl
@[simp] theorem status_setCall : (g.setCall c pc).status = g.status := rfl
@[simp] theorem completed_setCall : (g.setCall c pc).completed = g.completed := rfl
@[simp] theorem taken_setCall : (g.setCall c pc).taken = g.taken := rfl
@[simp] theorem handed_setCall : (g.setCall c pc).handed = g.handed := rfl
@[simp] theorem closer_setCall : (g.setCall c pc).closer = g.closer := rfl

end setCall

/-- The branches of `step`, one constructor each. -/
inductive Move (now : ℕ) : Action κ → TaskGroup κ → Prop
  | spawn {c p} : g.call c = .idle → Move now (.spawn c p) (g.setCall c .spawnLock)
  | close {c d} : g.call c = .idle → Move now (.close c d) (g.setCall c (.closeLock d))
  | acquireSpawn {c} : g.lock = none → g.call c = .spawnLock → Move now (.acquire c)
      { g.setCall c .spawnHeld with lock := some c, taken := g.taken ++ [.spawn c] }
  | acquireClose {c d} : g.lock = none → g.call c = .closeLock d → Move now (.acquire c)
      { g.setCall c (.closeHeld d) with lock := some c, taken := g.taken ++ [.close c] }
  | reject {c} : g.call c = .spawnHeld → g.closed = true → Move now (.advance c)
      { g.setCall c .spawnRejected with lock := none }
  | start {c} : g.call c = .spawnHeld → g.closed = false → g.commands = false →
      Move now (.advance c) g.startSupervisor
  | sendSpawn {c} : g.call c = .spawnHeld → g.closed = false → g.commands = true →
      g.supervisor = .selecting → Move now (.advance c)
      { g.setCall c .spawnSent with queue := g.queue ++ [.spawn c] }
  | loseSpawn {c} : g.call c = .spawnHeld → g.closed = false → g.commands = true →
      g.supervisor ≠ .selecting → Move now (.advance c) (g.setCall c .spawnSent)
  | unlock {c} : g.call c = .spawnSent → Move now (.advance c)
      { g.setCall c .spawnReturned with lock := none }
  | closeAgain {c d} : g.call c = .closeHeld d → g.closed = true → Move now (.advance c)
      { g.setCall c .closeReturned with lock := none }
  | closeFirst {c d} : g.call c = .closeHeld d → g.closed = false → Move now (.advance c)
      { g.setCall c (if g.commands then .closeSend d else .closeReturned) with
        closed := true, lock := none, closer := some c }
  | sendShutdown {c d} : g.call c = .closeSend d → g.supervisor = .selecting →
      Move now (.advance c)
      { g.setCall c .closeWait with queue := g.queue ++ [.shutdown d c] }
  | loseShutdown {c d} : g.call c = .closeSend d → g.supervisor ≠ .selecting →
      Move now (.advance c) (g.setCall c .closeReturned)
  | awaited {c} : g.call c = .closeWait → g.completed c = true →
      Move now (.advance c) (g.setCall c .closeReturned)
  | cancelSpawn {c} : g.call c = .spawnLock → Move now (.cancel c) (g.setCall c .dropped)
  | cancelClose {c d} : g.call c = .closeLock d → Move now (.cancel c) (g.setCall c .dropped)
  | cancelWait {c} : g.call c = .closeWait → Move now (.cancel c) (g.setCall c .abandoned)
  | recvSpawn {t rest} : g.supervisor = .selecting → g.queue = .spawn t :: rest →
      Move now .recv
      { g with queue := rest, tasks := g.tasks ++ [t], status := update g.status t .running,
               handed := g.handed ++ [t] }
  | recvShutdown {d c rest} : g.supervisor = .selecting → g.queue = .shutdown d c :: rest →
      Move now .recv { g with queue := rest, supervisor := .draining d c }
  | join {t} : t ∈ g.tasks → (g.status t).exited = true → Move now (.joinNext t)
      { g with tasks := g.tasks.erase t }
  | elapse {d c} : g.supervisor = .draining d c → d ≤ now → Move now .elapse
      { g with supervisor := .aborting c }
  | complete {c} : (∃ d, g.supervisor = .draining d c) ∨ g.supervisor = .aborting c →
      g.tasks = [] → Move now .complete
      { g with supervisor := .finished, completed := update g.completed c true }
  | exit {t} : t ∈ g.tasks → g.status t = .running → Move now (.exit t)
      { g with status := update g.status t .completed }
  | abort {t} : t ∈ g.tasks → g.status t = .running → Move now (.abort t)
      { g with status := update g.status t .aborted }

variable {g}

omit [DecidableEq κ] in
theorem send_selecting {cmd : Command κ} (h : g.supervisor = .selecting) :
    g.send cmd = some { g with queue := g.queue ++ [cmd] } := by
  simp [send, h]

omit [DecidableEq κ] in
theorem send_not_selecting {cmd : Command κ} (h : g.supervisor ≠ .selecting) :
    g.send cmd = none := by
  unfold send
  split
  · exact absurd (by assumption) h
  · rfl

theorem move_spawnCommand {now : ℕ} {c : κ} (hc : g.call c = .spawnHeld) :
    g.Move now (.advance c) (g.spawnCommand c) := by
  unfold spawnCommand
  split_ifs with hcl hcm
  · exact .reject hc hcl
  · exact .start hc (by simpa using hcl) (by simpa using hcm)
  · have hcl : g.closed = false := by simpa using hcl
    have hcm : g.commands = true := by simpa using hcm
    by_cases hs : g.supervisor = .selecting
    · rw [send_selecting hs]
      exact .sendSpawn hc hcl hcm hs
    · rw [send_not_selecting hs]
      exact .loseSpawn hc hcl hcm hs

theorem move_closeSection {now : ℕ} {c : κ} {d : ℕ} (hc : g.call c = .closeHeld d) :
    g.Move now (.advance c) (g.closeSection c d) := by
  unfold closeSection
  split_ifs with hcl hcm
  · exact .closeAgain hc hcl
  all_goals
    have hm : g.Move now (.advance c) _ := .closeFirst hc (by simpa using hcl)
    simpa [hcm] using hm

theorem move_sendShutdown {now : ℕ} {c : κ} {d : ℕ} (hc : g.call c = .closeSend d) :
    g.Move now (.advance c) (g.sendShutdown c d) := by
  unfold sendShutdown
  by_cases hs : g.supervisor = .selecting
  · rw [send_selecting hs]
    exact .sendShutdown hc hs
  · rw [send_not_selecting hs]
    exact .loseShutdown hc hs

/-- **Inversion of a step.** -/
theorem step_move {now : ℕ} {a : Action κ} {g' : TaskGroup κ} (h : g.step now a = some g') :
    g.Move now a g' := by
  cases a with
  | spawn c p =>
      simp only [step] at h
      split_ifs at h with hc
      cases h
      exact .spawn hc.1
  | close c d =>
      simp only [step] at h
      split_ifs at h with hc
      cases h
      exact .close hc
  | acquire c =>
      simp only [step, acquire] at h
      split_ifs at h with hl
      have hl : g.lock = none := by simpa using hl
      split at h <;> cases h
      · exact .acquireSpawn hl (by assumption)
      · exact .acquireClose hl (by assumption)
  | advance c =>
      simp only [step, advance] at h
      split at h
      · cases h; exact move_spawnCommand (by assumption)
      · cases h; exact .unlock (by assumption)
      · cases h; exact move_closeSection (by assumption)
      · cases h; exact move_sendShutdown (by assumption)
      · split_ifs at h with hd
        cases h
        exact .awaited (by assumption) hd
      · cases h
  | cancel c =>
      simp only [step, cancel] at h
      split at h <;> cases h
      · exact .cancelSpawn (by assumption)
      · exact .cancelClose (by assumption)
      · exact .cancelWait (by assumption)
  | recv =>
      simp only [step, recv] at h
      split at h <;> cases h
      · exact .recvSpawn (by assumption) (by assumption)
      · exact .recvShutdown (by assumption) (by assumption)
  | joinNext t =>
      simp only [step, joinNext] at h
      split_ifs at h with ht
      cases h
      exact .join ht.2.1 ht.2.2
  | elapse =>
      simp only [step, elapse] at h
      split at h
      · split_ifs at h with ht
        cases h
        exact .elapse (by assumption) ht.2
      · cases h
  | complete =>
      simp only [step, complete] at h
      split at h
      · split_ifs at h with ht
        cases h
        exact .complete (.inl ⟨_, by assumption⟩) ht
      · split_ifs at h with ht
        cases h
        exact .complete (.inr (by assumption)) ht
      · cases h
  | exit t =>
      simp only [step, exit] at h
      split_ifs at h with ht
      cases h
      exact .exit ht.1 ht.2
  | abort t =>
      simp only [step, abort] at h
      split at h
      · split_ifs at h with ht
        cases h
        exact .abort ht.1 ht.2
      · cases h

/-! ### What a step does to one call -/

/-- The transitions of call `c` under action `a`; `closed` is the group's flag before it. -/
inductive CallStep (closed : Bool) (c : κ) : Action κ → Call → Call → Prop
  | spawn {p} : CallStep closed c (.spawn c p) .idle .spawnLock
  | close {d} : CallStep closed c (.close c d) .idle (.closeLock d)
  | acquireSpawn : CallStep closed c (.acquire c) .spawnLock .spawnHeld
  | acquireClose {d} : CallStep closed c (.acquire c) (.closeLock d) (.closeHeld d)
  | reject : CallStep closed c (.advance c) .spawnHeld .spawnRejected
  | send : CallStep closed c (.advance c) .spawnHeld .spawnSent
  | unlock : CallStep closed c (.advance c) .spawnSent .spawnReturned
  | closeReturn {pc} : pc.isClose = true → CallStep closed c (.advance c) pc .closeReturned
  | closeFirst {d} : closed = false → CallStep closed c (.advance c) (.closeHeld d) (.closeSend d)
  | sendShutdown {d} : CallStep closed c (.advance c) (.closeSend d) .closeWait
  | cancelSpawn : CallStep closed c (.cancel c) .spawnLock .dropped
  | cancelClose {d} : CallStep closed c (.cancel c) (.closeLock d) .dropped
  | cancelWait : CallStep closed c (.cancel c) .closeWait .abandoned

section frame
variable {now : ℕ} {a : Action κ} {g' : TaskGroup κ}

theorem call_setCall_or {b : Action κ} {c c' : κ} {pc : Call}
    (h : CallStep g.closed c b (g.call c) pc) :
    (g.setCall c pc).call c' = g.call c' ∨
      CallStep g.closed c' b (g.call c') ((g.setCall c pc).call c') := by
  rw [call_setCall]
  split_ifs with he
  · exact .inr (he ▸ h)
  · exact .inl rfl

theorem Move.call (h : g.Move now a g') (c : κ) :
    g'.call c = g.call c ∨ CallStep g.closed c a (g.call c) (g'.call c) := by
  cases h with
  | spawn hc => exact call_setCall_or (hc ▸ .spawn)
  | close hc => exact call_setCall_or (hc ▸ .close)
  | acquireSpawn _ hc => exact call_setCall_or (hc ▸ .acquireSpawn)
  | acquireClose _ hc => exact call_setCall_or (hc ▸ .acquireClose)
  | reject hc => exact call_setCall_or (hc ▸ .reject)
  | sendSpawn hc | loseSpawn hc => exact call_setCall_or (hc ▸ .send)
  | unlock hc => exact call_setCall_or (hc ▸ .unlock)
  | closeAgain hc | loseShutdown hc | awaited hc =>
      exact call_setCall_or (.closeReturn (by rw [hc]; rfl))
  | @closeFirst k d hc hcl =>
      refine call_setCall_or ?_
      split
      · exact hc ▸ .closeFirst hcl
      · exact .closeReturn (by rw [hc]; rfl)
  | sendShutdown hc => exact call_setCall_or (hc ▸ .sendShutdown)
  | cancelSpawn hc => exact call_setCall_or (hc ▸ .cancelSpawn)
  | cancelClose hc => exact call_setCall_or (hc ▸ .cancelClose)
  | cancelWait hc => exact call_setCall_or (hc ▸ .cancelWait)
  | start | recvSpawn | recvShutdown | join | elapse | complete | exit | abort => exact .inl rfl

theorem Move.isClose {c : κ} (h : g.Move now a g') (hd : ∀ d, a ≠ .close c d)
    (hx : a ≠ .cancel c) : (g'.call c).isClose = (g.call c).isClose := by
  rcases h.call c with he | hs
  · rw [he]
  · generalize g.call c = pc, g'.call c = pc' at hs
    cases hs with
    | close => exact absurd rfl (hd _)
    | closeReturn hc => rw [hc]; rfl
    | cancelSpawn | cancelClose | cancelWait => exact absurd rfl hx
    | _ => rfl

theorem Move.call_ended {c : κ} (h : g.Move now a g') (hc : (g.call c).ended = true) :
    g'.call c = g.call c := by
  rcases h.call c with he | hs
  · exact he
  · generalize g.call c = pc, g'.call c = pc' at hs hc
    cases hs with
    | closeReturn hcl => cases pc <;> simp_all [Call.isClose, Call.ended]
    | _ => cases hc

theorem Move.call_idle {c : κ} (h : g.Move now a g') (hc : g.call c = .idle)
    (hs : ∀ p, a ≠ .spawn c p) (hd : ∀ d, a ≠ .close c d) : g'.call c = .idle := by
  rcases h.call c with he | hm
  · rw [he, hc]
  · rw [hc] at hm
    generalize g'.call c = pc at hm
    cases hm with
    | spawn => exact absurd rfl (hs _)
    | close => exact absurd rfl (hd _)
    | closeReturn h => cases h

theorem Move.abandoned {c : κ} (h : g.Move now a g') (hc : g'.call c = .abandoned)
    (hx : a ≠ .cancel c) : g.call c = .abandoned := by
  rcases h.call c with he | hs
  · rw [← he, hc]
  · rw [hc] at hs
    generalize g.call c = pc at hs
    cases hs
    exact absurd rfl hx

theorem Move.closing {c : κ} (h : g.Move now a g') (hcl : g.closed = true)
    (hc : (g'.call c).closing = true) : (g.call c).closing = true := by
  rcases h.call c with he | hs
  · rwa [← he]
  · generalize g.call c = pc, g'.call c = pc' at hs hc
    cases hs with
    | closeFirst hopen => rw [hcl] at hopen; cases hopen
    | sendShutdown | cancelWait => rfl
    | _ => cases hc

end frame

end TaskGroup

end DnsIngress
