import DnsIngress.TaskGroupSafety

/-! # `App::shutdown` and the listeners' own shutdown

`App::shutdown` cancels the token, computes one deadline, calls `close_and_wait_until` on the
group of every listener, and then waits for every listener's handle until that deadline; a
handle that is late is aborted and joined.  A listener whose accept loop has ended calls
`close_and_wait_until` on the same group with a deadline of its own.  Whichever call takes the
group's lock first closes the group and waits for its supervisor; the other one returns at
once.

The model is one state machine over any list of listeners: each has its `TaskGroup` (all of
whose steps are steps of the server), the program counter of its `run`, and `App::shutdown`
has one of its own.  `grace` is the ten seconds of `SHUTDOWN_GRACE` and of the listeners, in
ticks of the clock; both deadlines are computed from the clock when their owner gets there. -/

namespace DnsIngress.Shutdown

open Function (update)

/-- The calls made on a listener's group. -/
inductive Caller
  /-- `close_and_wait_until` at the end of the listener's `run` -/
  | run
  /-- `close_and_wait_until` in `App::shutdown` -/
  | app
  /-- `spawn` of the `n`-th child -/
  | task (n : ℕ)
deriving DecidableEq

/-- Program counter of a listener's `run`, inside the task that `spawn_server` made. -/
inductive Run
  | serving
  /-- awaiting `close_and_wait_until` -/
  | closing
  /-- the task has ended: `run` returned, panicked or was dropped -/
  | finished
deriving DecidableEq

/-- Program counter of `App::shutdown`. -/
inductive Stop (ι : Type)
  | idle
  /-- the token is cancelled, the deadline not yet computed -/
  | cancelled
  /-- awaiting `join_all` of the closing calls -/
  | closing (deadline : ℕ)
  /-- awaiting `timeout_at(deadline, &mut handle)` of the first handle in `todo` -/
  | joining (deadline : ℕ) (todo : List ι)
  /-- after `handle.abort()`, awaiting `handle` -/
  | aborting (deadline : ℕ) (handle : ι) (todo : List ι)
  | returned
deriving DecidableEq

structure Server (ι : Type) where
  now : ℕ
  /-- the cancellation token shared with every listener -/
  cancelled : Bool
  group : ι → TaskGroup Caller
  run : ι → Run
  stop : Stop ι

inductive Action (ι : Type)
  | tick
  /-- a step of the supervisor, of a child or of a call on the group of `i` -/
  | group (i : ι) (a : TaskGroup.Action Caller)
  /-- the accept loop of `i` ends: the token is cancelled, or `endpoint.accept()` is `None` -/
  | breakLoop (i : ι) (endpointClosed : Bool)
  /-- `run` of `i` ends without reaching its `close_and_wait_until` -/
  | exitEarly (i : ι)
  | runReturns (i : ι)
  | cancel
  | closeGroups
  | groupsClosed
  /-- the awaited handle is finished -/
  | joined
  /-- the deadline elapses on the awaited handle: `handle.abort()` -/
  | expire
  /-- the aborted task is dropped at its await point -/
  | dropRun
  | ret

/-- The actions a group takes by itself.  Beginning or dropping one of the two closing calls
is a step of its owner. -/
def internal : TaskGroup.Action Caller → Bool
  | .spawn (.task _) _ | .cancel (.task _) => true
  | .spawn _ _ | .close _ _ | .cancel _ => false
  | .acquire _ | .advance _ | .recv | .joinNext _ | .elapse | .complete | .exit _ | .abort _ => true

namespace Server

variable {ι : Type} [DecidableEq ι] (s : Server ι)

/-- Server start: nothing spawned, nothing closed. -/
def start (ι : Type) : Server ι where
  now := 0
  cancelled := false
  group := fun _ => .new Caller
  run := fun _ => .serving
  stop := .idle

def setGroup (i : ι) (g : TaskGroup Caller) : Server ι := { s with group := update s.group i g }

def setRun (i : ι) (r : Run) : Server ι := { s with run := update s.run i r }

/-- The end of `DoTServer::run`, `DoHServer::run`, `DoQServer::run`, `DoH3Server::run` and
`HealthcheckServer::run`. -/
def breakLoop (grace : ℕ) (i : ι) (endpointClosed : Bool) : Option (Server ι) :=
  if s.run i = .serving ∧ (s.cancelled || endpointClosed) then
    ((s.group i).step s.now (.close .run (s.now + grace))).map fun g =>
      (s.setGroup i g).setRun i .closing
  else none

/-- `join_all(groups.iter().map(|group| group.close_and_wait_until(deadline)))`. -/
def closeGroups (grace : ℕ) (listeners : List ι) : Option (Server ι) :=
  match s.stop with
  | .cancelled =>
      some { s with
        group := fun i =>
          if i ∈ listeners then
            ((s.group i).step s.now (.close .app (s.now + grace))).getD (s.group i)
          else s.group i
        stop := .closing (s.now + grace) }
  | _ => none

def groupsClosed (listeners : List ι) : Option (Server ι) :=
  match s.stop with
  | .closing d =>
      if ∀ i ∈ listeners, (s.group i).call .app = .closeReturned then
        some { s with stop := .joining d listeners }
      else none
  | _ => none

def joined : Option (Server ι) :=
  match s.stop with
  | .joining d (i :: todo) =>
      if s.run i = .finished then some { s with stop := .joining d todo } else none
  | .aborting d i todo =>
      if s.run i = .finished then some { s with stop := .joining d todo } else none
  | _ => none

def expire : Option (Server ι) :=
  match s.stop with
  | .joining d (i :: todo) =>
      if s.run i ≠ .finished ∧ d ≤ s.now then some { s with stop := .aborting d i todo } else none
  | _ => none

/-- Dropping `run` also drops the closing call it awaits. -/
def dropRun : Option (Server ι) :=
  match s.stop with
  | .aborting _ i _ =>
      match s.run i with
      | .serving => some (s.setRun i .finished)
      | .closing =>
          ((s.group i).step s.now (.cancel .run)).map fun g => (s.setGroup i g).setRun i .finished
      | .finished => none
  | _ => none

def step (grace : ℕ) (listeners : List ι) : Action ι → Option (Server ι)
  | .tick => some { s with now := s.now + 1 }
  | .group i a =>
      if internal a then ((s.group i).step s.now a).map (s.setGroup i) else none
  | .breakLoop i endpointClosed => s.breakLoop grace i endpointClosed
  | .exitEarly i => if s.run i = .serving then some (s.setRun i .finished) else none
  | .runReturns i =>
      if s.run i = .closing ∧ (s.group i).call .run = .closeReturned then
        some (s.setRun i .finished)
      else none
  | .cancel =>
      if s.stop = .idle then some { s with cancelled := true, stop := .cancelled } else none
  | .closeGroups => s.closeGroups grace listeners
  | .groupsClosed => s.groupsClosed listeners
  | .joined => s.joined
  | .expire => s.expire
  | .dropRun => s.dropRun
  | .ret =>
      match s.stop with
      | .joining _ [] => some { s with stop := .returned }
      | _ => none

end Server

variable {ι : Type} [DecidableEq ι]

/-- Every listener of `listeners`, and one call of `App::shutdown`. -/
def system (grace : ℕ) (listeners : List ι) : Transition.System (Server ι) (Action ι) where
  init s := s = .start ι
  step s a := s.step grace listeners a


/-! ### One listener -/

open TaskGroup (Settled Inv)

/-- What `run` has asked of its group. -/
def RunCall : Run → Call → Prop
  | .serving, pc => pc = .idle
  | .closing, pc => pc.isClose = true
  | .finished, pc => pc = .idle ∨ pc.ended = true

/-- The invariant of one listener, for any program counter of `App::shutdown`. -/
structure ListenerInv (r : Run) (g : TaskGroup Caller) : Prop where
  group : Inv g
  child : ∀ n, (g.call (.task n)).closeTook = false ∧ (g.call (.task n)).isClose = false
  run : RunCall r (g.call .run)
  /-- a closing call of `run` is only dropped on a group that is settled already -/
  abandoned : g.call .run = .abandoned → Settled g

section listener
variable {r : Run} {g g' : TaskGroup Caller} {now : ℕ} {a : TaskGroup.Action Caller}

theorem child_move {c : Caller} (h : g.Move now a g') (hd : ∀ d, a ≠ .close c d)
    (hc : (g.call c).closeTook = false ∧ (g.call c).isClose = false) :
    (g'.call c).closeTook = false ∧ (g'.call c).isClose = false := by
  rcases h.call c with he | hs
  · rwa [he]
  · generalize g.call c = pc, g'.call c = pc' at hs hc
    cases hs with
    | close => exact absurd rfl (hd _)
    | closeReturn h => rw [h] at hc; cases hc.2
    | spawn | acquireSpawn | reject | send | unlock | cancelSpawn | cancelClose => exact ⟨rfl, rfl⟩
    | acquireClose | closeFirst | sendShutdown | cancelWait => cases hc.2

theorem RunCall.move (hr : RunCall r (g.call .run)) (h : g.Move now a g')
    (hs : ∀ p, a ≠ .spawn .run p) (hd : ∀ d, a ≠ .close .run d) (hx : a ≠ .cancel .run) :
    RunCall r (g'.call .run) := by
  cases r with
  | serving => exact h.call_idle hr hs hd
  | closing => exact (h.isClose hd hx).trans hr
  | finished =>
      rcases hr with hr | hr
      · exact .inl (h.call_idle hr hs hd)
      · exact .inr (by rw [h.call_ended hr]; exact hr)

theorem ListenerInv.step (hi : ListenerInv r g) (h : g.step now a = some g')
    (hs : ∀ p, a ≠ .spawn .run p) (hd : ∀ d, a ≠ .close .run d) (hx : a ≠ .cancel .run)
    (hn : ∀ n d, a ≠ .close (.task n) d) : ListenerInv r g' := by
  have hm := TaskGroup.step_move h
  refine ⟨hi.group.step h, fun n => child_move hm (hn n) (hi.child n), hi.run.move hm hs hd hx, ?_⟩
  intro hc
  exact (hi.abandoned (hm.abandoned hc hx)).move hm

theorem ListenerInv.internal (hi : ListenerInv r g) (ha : internal a = true)
    (h : g.step now a = some g') : ListenerInv r g' := by
  refine hi.step h ?_ ?_ ?_ ?_
  · rintro p rfl; cases ha
  · rintro d rfl; cases ha
  · rintro rfl; cases ha
  · rintro n d rfl; cases ha

theorem ListenerInv.breakLoop {d : ℕ} (hi : ListenerInv r g)
    (h : g.step now (.close .run d) = some g') : ListenerInv .closing g' := by
  have hm := TaskGroup.step_move h
  refine ⟨hi.group.step h, fun n => child_move hm (by simp) (hi.child n), ?_, fun hc => ?_⟩
  · cases hm with
    | close => simp [RunCall, Call.isClose]
  · exact (hi.abandoned (hm.abandoned hc (by simp))).move hm

/-- `run` is dropped while it closes its group, which is settled if it was the closing call. -/
theorem ListenerInv.dropRun (hi : ListenerInv .closing g)
    (hc : (g.call .run).closing = true → Settled g)
    (h : g.step now (.cancel .run) = some g') : ListenerInv .finished g' := by
  have hm := TaskGroup.step_move h
  refine ⟨hi.group.step h, fun n => child_move hm (by nofun) (hi.child n), ?_, fun hab => ?_⟩
  · cases hm <;> simp [RunCall, Call.ended]
  · have hw : (g.call .run).closing = true := by
      cases hm with
      | cancelWait hw => rw [hw]; rfl
      | cancelSpawn | cancelClose => simp at hab
    exact (hc hw).move hm

/-- **A listener that has ended and whose group `App` has closed is settled.** -/
theorem ListenerInv.settled (hi : ListenerInv .finished g) (happ : g.call .app = .closeReturned) :
    Settled g := by
  have hcl := hi.group.closer.returned .app happ
  obtain ⟨k, hk⟩ : ∃ k, g.closer = some k := by cases hi.group.life <;> simp_all
  rcases hi.group.life.closer_call hk with hc | hc
  · cases k with
    | app => rw [happ] at hc; cases hc
    | task n =>
        have := (hi.child n).1
        cases hp : g.call (.task n) <;> rw [hp] at hc this <;>
          simp_all [Call.closing, Call.closeTook]
    | run =>
        have hr := hi.run
        refine hi.abandoned ?_
        cases hp : g.call .run <;> rw [hp] at hc hr <;>
          simp_all [Call.closing, Call.ended, RunCall]
  · exact hi.group.settled hk hc

end listener

/-! ### The whole server -/

/-- The handles `App::shutdown` still has to join, once every closing call has returned. -/
def Stop.pending {ι : Type} : Stop ι → Option (List ι)
  | .idle | .cancelled | .closing _ => none
  | .joining _ todo => some todo
  | .aborting _ i todo => some (i :: todo)
  | .returned => some []

/-- The closing call of `i` has returned, and its group is settled if its handle was joined. -/
def Waited (todo : List ι) (i : ι) (g : TaskGroup Caller) : Prop :=
  g.call .app = .closeReturned ∧ (i ∉ todo → Settled g)

structure ServerInv (listeners : List ι) (s : Server ι) : Prop where
  listener : ∀ i, ListenerInv (s.run i) (s.group i)
  subset : ∀ todo, s.stop.pending = some todo → todo ⊆ listeners
  waited : ∀ todo, s.stop.pending = some todo → ∀ i ∈ listeners, Waited todo i (s.group i)
  /-- an aborted listener is the closing call of its group only if the group is settled -/
  aborting : ∀ d i todo, s.stop = .aborting d i todo →
    ((s.group i).call .run).closing = true → Settled (s.group i)

/-- The deadline of `App::shutdown` does not expire on a listener that is itself waiting, as the
closing call of its group, for a child that is not joined. -/
def Spares (s : Server ι) : Action ι → Prop
  | .expire => ∀ d i todo, s.stop = .joining d (i :: todo) →
      ((s.group i).call .run).closing = true → (s.group i).queued = [] ∧ (s.group i).tasks = []
  | _ => True

section server
variable {listeners : List ι} {s s' : Server ι} {grace : ℕ}

omit [DecidableEq ι] in
theorem Waited.move {todo : List ι} {i : ι} {g g' : TaskGroup Caller} {now : ℕ}
    {a : TaskGroup.Action Caller} (hw : Waited todo i g) (h : g.Move now a g') :
    Waited todo i g' :=
  ⟨(h.call_ended (by rw [hw.1]; rfl)).trans hw.1, fun hn => (hw.2 hn).move h⟩

omit [DecidableEq ι] in
theorem Waited.tail {todo : List ι} {i j : ι} {g : TaskGroup Caller}
    (hw : Waited (i :: todo) j g) (hj : j = i → Settled g) : Waited todo j g := by
  refine ⟨hw.1, fun hn => ?_⟩
  by_cases he : j = i
  · exact hj he
  · exact hw.2 (by simp [he, hn])

/-- A step that changes one group, by a step of it, and the program counter of its `run`. -/
theorem ServerInv.setGroup {i : ι} {r : Run} {g : TaskGroup Caller} {a : TaskGroup.Action Caller}
    (hi : ServerInv listeners s) (hm : (s.group i).Move s.now a g) (hl : ListenerInv r g) :
    ServerInv listeners ((s.setGroup i g).setRun i r) := by
  refine ⟨fun j => ?_, hi.subset, fun todo ht j hj => ?_, fun d j todo ht hc => ?_⟩
  all_goals simp only [Server.setGroup, Server.setRun, Function.update_apply] at *
  · split_ifs
    · exact hl
    · exact hi.listener j
  · split_ifs with he
    · subst he; exact (hi.waited todo ht _ hj).move hm
    · exact hi.waited todo ht j hj
  · split_ifs at hc ⊢ with he
    · subst he
      have hp : s.stop.pending = some (j :: todo) := by rw [ht]; rfl
      have happ := (hi.waited _ hp j (hi.subset _ hp List.mem_cons_self)).1
      have hcl := (hi.listener j).group.closer.returned _ happ
      exact (hi.aborting d j todo ht (hm.closing hcl hc)).move hm
    · exact hi.aborting d j todo ht hc

theorem ServerInv.setRun {i : ι} {r : Run} (hi : ServerInv listeners s)
    (hr : RunCall r ((s.group i).call .run)) : ServerInv listeners (s.setRun i r) := by
  refine ⟨fun j => ?_, hi.subset, hi.waited, hi.aborting⟩
  have hj := hi.listener j
  simp only [Server.setRun, Function.update_apply]
  split_ifs with he
  · subst he; exact ⟨hj.group, hj.child, hr, hj.abandoned⟩
  · exact hj

theorem ServerInv.breakLoop {i : ι} {b : Bool} (hi : ServerInv listeners s)
    (h : s.breakLoop grace i b = some s') : ServerInv listeners s' := by
  unfold Server.breakLoop at h
  split_ifs at h with hr
  obtain ⟨g, hg, rfl⟩ := Option.map_eq_some_iff.mp h
  exact hi.setGroup (TaskGroup.step_move hg) ((hi.listener i).breakLoop hg)

theorem ServerInv.closeGroups (hi : ServerInv listeners s)
    (h : s.closeGroups grace listeners = some s') : ServerInv listeners s' := by
  unfold Server.closeGroups at h
  split at h <;> cases h
  refine ⟨fun i => ?_, nofun, nofun, nofun⟩
  have hl := hi.listener i
  dsimp only
  split_ifs with hm
  · cases hg : (s.group i).step s.now (.close .app (s.now + grace)) with
    | none => exact hl
    | some g => exact hl.step hg (by nofun) (by nofun) (by nofun) (by nofun)
  · exact hl

omit [DecidableEq ι] in
theorem ServerInv.groupsClosed (hi : ServerInv listeners s)
    (h : s.groupsClosed listeners = some s') : ServerInv listeners s' := by
  unfold Server.groupsClosed at h
  split at h
  · split_ifs at h with hall
    cases h
    refine ⟨hi.listener, ?_, ?_, nofun⟩
    · rintro todo ⟨⟩
      exact List.Subset.refl _
    · rintro todo ⟨⟩ i hm
      exact ⟨hall i hm, fun hn => absurd hm hn⟩
  · cases h

omit [DecidableEq ι] in
theorem ServerInv.next {d : ℕ} {i : ι} {todo : List ι} (hi : ServerInv listeners s)
    (hp : s.stop.pending = some (i :: todo)) (hf : s.run i = .finished) :
    ServerInv listeners { s with stop := .joining d todo } := by
  refine ⟨hi.listener, ?_, ?_, nofun⟩
  · rintro _ ⟨⟩
    exact (List.cons_subset.mp (hi.subset _ hp)).2
  · rintro _ ⟨⟩ j hj
    refine (hi.waited _ hp j hj).tail ?_
    rintro rfl
    exact (hf ▸ hi.listener j).settled (hi.waited _ hp j hj).1

omit [DecidableEq ι] in
theorem ServerInv.joined (hi : ServerInv listeners s) (h : s.joined = some s') :
    ServerInv listeners s' := by
  unfold Server.joined at h
  split at h
  · next hst =>
      split_ifs at h with hf
      cases h
      exact hi.next (by rw [hst]; rfl) hf
  · next hst =>
      split_ifs at h with hf
      cases h
      exact hi.next (by rw [hst]; rfl) hf
  · cases h

omit [DecidableEq ι] in
theorem ServerInv.expire (hi : ServerInv listeners s) (hok : Spares s .expire)
    (h : s.expire = some s') : ServerInv listeners s' := by
  unfold Server.expire at h
  split at h
  · next d i todo hst =>
      split_ifs at h with hf
      cases h
      have hp : s.stop.pending = some (i :: todo) := by rw [hst]; rfl
      refine ⟨hi.listener, ?_, ?_, ?_⟩
      · rintro _ ⟨⟩; exact hi.subset _ hp
      · rintro _ ⟨⟩; exact hi.waited _ hp
      · rintro d' j todo' ⟨⟩ hc
        obtain ⟨hq, ht⟩ := hok _ _ _ hst hc
        have happ := (hi.waited _ hp i (hi.subset _ hp List.mem_cons_self)).1
        exact ⟨(hi.listener i).group.closer.returned _ happ, hq, ht⟩
  · cases h

theorem ServerInv.dropRun (hi : ServerInv listeners s) (h : s.dropRun = some s') :
    ServerInv listeners s' := by
  unfold Server.dropRun at h
  split at h
  · next d i todo hst =>
      have hl := hi.listener i
      split at h
      · next hr =>
          cases h
          rw [hr] at hl
          exact hi.setRun (.inl hl.run)
      · next hr =>
          obtain ⟨g, hg, rfl⟩ := Option.map_eq_some_iff.mp h
          rw [hr] at hl
          exact hi.setGroup (TaskGroup.step_move hg) (hl.dropRun (hi.aborting d i todo hst) hg)
      · cases h
  · cases h

theorem ServerInv.step {a : Action ι} (hi : ServerInv listeners s) (hok : Spares s a)
    (h : s.step grace listeners a = some s') : ServerInv listeners s' := by
  cases a with
  | tick =>
      cases h
      exact ⟨hi.listener, hi.subset, hi.waited, hi.aborting⟩
  | group i a =>
      simp only [Server.step] at h
      split_ifs at h with ha
      obtain ⟨g, hg, rfl⟩ := Option.map_eq_some_iff.mp h
      have hg' := hi.setGroup (TaskGroup.step_move hg) ((hi.listener i).internal ha hg)
      rwa [show s.run i = (s.setGroup i g).run i from rfl, Server.setRun,
        Function.update_eq_self] at hg'
  | breakLoop i b => exact hi.breakLoop h
  | exitEarly i =>
      simp only [Server.step] at h
      split_ifs at h with hr
      cases h
      have hl := (hi.listener i).run
      rw [hr] at hl
      exact hi.setRun (.inl hl)
  | runReturns i =>
      simp only [Server.step] at h
      split_ifs at h with hr
      cases h
      exact hi.setRun (.inr (by rw [hr.2]; rfl))
  | cancel =>
      simp only [Server.step] at h
      split_ifs at h with hst
      cases h
      exact ⟨hi.listener, nofun, nofun, nofun⟩
  | closeGroups => exact hi.closeGroups h
  | groupsClosed => exact hi.groupsClosed h
  | joined => exact hi.joined h
  | expire => exact hi.expire hok h
  | dropRun => exact hi.dropRun h
  | ret =>
      simp only [Server.step] at h
      split at h
      · next hst =>
          cases h
          have hp : s.stop.pending = some [] := by rw [hst]; rfl
          refine ⟨hi.listener, ?_, ?_, nofun⟩
          · rintro _ ⟨⟩; exact hi.subset _ hp
          · rintro _ ⟨⟩; exact hi.waited _ hp
      · cases h

omit [DecidableEq ι] in
theorem ServerInv.start : ServerInv listeners (.start ι) :=
  ⟨fun _ => ⟨.new, fun _ => ⟨rfl, rfl⟩, rfl, nofun⟩, nofun, nofun, nofun⟩

theorem ServerInv.of_reachWhile (h : Transition.ReachWhile (system grace listeners) Spares s) :
    ServerInv listeners s := by
  refine h.invariant ?_ ?_
  · rintro s rfl
    exact .start
  · intro s a s' hi hok hs
    exact hi.step hok hs

end server

/-- When `App::shutdown` has returned, every task accepted by the group of a listener was handed
to its `JoinSet`, has exited and has been joined. -/
def AllJoined (listeners : List ι) (s : Server ι) : Prop :=
  s.stop = .returned → ∀ i ∈ listeners, ∀ f, ((s.group i).call f).accepted = true →
    f ∈ (s.group i).handed ∧ f ∉ (s.group i).tasks ∧ ((s.group i).status f).exited = true

/-- **The global deadline is authoritative** as long as it spares the listeners that wait for
their own children. -/
theorem allJoined_of_spares {grace : ℕ} {listeners : List ι} {s : Server ι}
    (h : Transition.ReachWhile (system grace listeners) Spares s) : AllJoined listeners s := by
  intro hret i hm f hf
  have hi := ServerInv.of_reachWhile h
  have hs := (hi.waited [] (by rw [hret]; rfl) i hm).2 List.not_mem_nil
  exact hs.joined (hi.listener i).group hf

/-! ### Runs of one listener -/

/-- A listener serves and runs one child that ignores the token. -/
def serve : List (Action Unit) :=
  ([.spawn (.task 0) none, .acquire (.task 0), .advance (.task 0), .advance (.task 0),
    .advance (.task 0), .recv] : List (TaskGroup.Action Caller)).map (.group ())

/-- The closing call of `c`, to its wait for the supervisor. -/
def closeFirst (c : Caller) : List (Action Unit) :=
  [.group () (.acquire c), .group () (.advance c), .group () (.advance c)]

/-- The closing call of `c` on a group that is closed already. -/
def closeAgain (c : Caller) : List (Action Unit) :=
  [.group () (.acquire c), .group () (.advance c)]

/-- `App::shutdown` closes the group before the listener does: at the deadline the child is
aborted and joined. -/
def appFirst : List (Action Unit) :=
  serve ++ [.cancel, .closeGroups] ++ closeFirst .app ++ [.breakLoop () false] ++
    closeAgain .run ++ [.runReturns (), .group () .recv] ++ List.replicate 10 .tick ++
    ([.elapse, .abort (.task 0), .joinNext (.task 0), .complete, .advance .app] :
      List (TaskGroup.Action Caller)).map (.group ()) ++ [.groupsClosed, .joined, .ret]

theorem allJoined_of_spares_appFirst :
    ∃ s, Transition.run (system 10 [()]) (.start Unit) appFirst = some s ∧ s.stop = .returned ∧
      ((s.group ()).call (.task 0)).accepted = true ∧ AllJoined [()] s := by
  refine ⟨_, rfl, rfl, rfl, ?_⟩
  have h0 : (system 10 [()]).init (.start Unit) := rfl
  refine allJoined_of_spares (.of_run (fun _ a => !(a matches .expire)) ?_ appFirst (.init h0) rfl)
  intro s a ha
  cases a with
  | expire => cases ha
  | _ => trivial

/-- The listener computes its deadline one tick after `App::shutdown` and closes the group
first, so `App::shutdown` finds the group closed, waits for the handle of the listener, and
aborts it while the supervisor is still one tick from its own deadline. -/
def listenerFirst : List (Action Unit) :=
  serve ++ [.cancel, .closeGroups, .tick, .breakLoop () false] ++ closeFirst .run ++
    closeAgain .app ++ [.groupsClosed, .group () .recv] ++ List.replicate 9 .tick ++
    [.expire, .dropRun, .joined, .ret]

theorem not_allJoined :
    ¬ ∀ s, Transition.Reachable (system 10 [()]) s → AllJoined [()] s := by
  intro h
  have hr : ∃ s, Transition.run (system 10 [()]) (.start Unit) listenerFirst = some s ∧
      s.stop = .returned ∧ ((s.group ()).call (.task 0)).accepted = true ∧
      (s.group ()).status (.task 0) = .running := ⟨_, rfl, rfl, rfl, rfl⟩
  obtain ⟨s, hs, hret, hacc, hrun⟩ := hr
  have := (h s (.of_run listenerFirst rfl hs) hret () List.mem_cons_self _ hacc).2.2
  rw [hrun] at this
  cases this

end DnsIngress.Shutdown
