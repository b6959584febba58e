import DnsIngress.Startup

/-! # What `App` owns while it starts and stops

`spawn_server` puts the task group of a listener and the handle of its task into the two lists
`task_groups` and `handles`; `App::shutdown` takes both lists, waits for the groups, and then
joins the handles one after the other, each of them until the deadline and, when that has
passed, after `handle.abort()`.  `Startup` leaves these lists out and joins all tasks in one
step.  Here every await of `App::shutdown` is a step of its own (`Unwind`), and only the task
whose handle was aborted can be cancelled.

The model of `Startup` is what these steps refine (`Launch.refines`): what it knows about
`ready` and about the readiness reports is used from there. -/

namespace DnsIngress.Startup

open Function (update)

/-! ### `ready` and the reports -/

/-- `ready` is set between the end of a successful `start` and the first store of `shutdown`,
and `start` goes on from a listener only when its socket is bound. -/
structure Announced (enabled : Listener → Bool) (s : App) : Prop where
  ready : s.ready = true → s.phase = .running ∨ ∃ error, s.phase = .stopping error
  reported : ∀ todo, s.phase.awaited = some todo → ∀ i, enabled i = true → i ∉ todo →
    (s.task i).report = .bound

namespace Announced

variable {enabled : Listener → Bool} {s s' : App}

theorem notReady (ha : Announced enabled s) (hr : s.phase ≠ .running)
    (hs : ∀ error, s.phase ≠ .stopping error) : s.ready = false := by
  cases h : s.ready with
  | false => rfl
  | true =>
      rcases ha.ready h with h | ⟨error, h⟩
      · exact absurd h hr
      · exact absurd h (hs error)

theorem of_notReady (hr : s.ready = false) (hw : s.phase.awaited = none) : Announced enabled s where
  ready h := by rw [hr] at h; cases h
  reported todo h := by rw [hw] at h; cases h

theorem receive {i : Listener} {todo : List Listener} (ha : Announced enabled s)
    (hp : s.phase = .awaiting (i :: todo)) (h : s.receive i todo = some s') :
    Announced enabled s' := by
  have hr : s.ready = false := ha.notReady (by rw [hp]; nofun) (by rw [hp]; nofun)
  unfold App.receive at h
  split at h
  · next hb =>
      cases h
      refine ⟨fun h => ?_, ?_⟩
      · rw [hr] at h
        cases h
      · rintro _ ⟨⟩ j he hn
        by_cases hj : j = i
        · rw [hj, hb]
        · exact ha.reported _ (by rw [hp]; rfl) j he (by simp [hj, hn])
  · cases h
    exact of_notReady hr rfl
  · split_ifs at h
    cases h
    exact of_notReady hr rfl

theorem listenerStep {i : Listener} {e : Event} (ha : Announced enabled s)
    (h : s.listenerStep i e = some s') : Announced enabled s' := by
  obtain ⟨t, ht, rfl⟩ := Option.map_eq_some_iff.mp h
  refine ⟨fun hr => ha.ready (Bool.and_eq_true_iff.mp hr).1, fun todo hw j he hn => ?_⟩
  have hb := ha.reported todo hw j he hn
  simp only [Function.update_apply]
  split_ifs with hj
  · rw [hj] at hb
    exact Task.report_step ht hb
  · exact hb

/-- **Step lemma.** -/
theorem step {a : Action} (ha : Announced enabled s) (h : App.step enabled s a = some s') :
    Announced enabled s' := by
  unfold App.step at h
  split at h
  · cases h
    exact ⟨ha.ready, ha.reported⟩
  · cases h
    exact of_notReady rfl rfl
  · next hp =>
      cases h
      exact of_notReady (ha.notReady (by rw [hp]; nofun) (by rw [hp]; nofun)) rfl
  · next hp =>
      have hr : s.ready = false := ha.notReady (by rw [hp]; nofun) (by rw [hp]; nofun)
      split at h <;> cases h <;> exact of_notReady hr rfl
  · next hp =>
      cases h
      exact of_notReady (ha.notReady (by rw [hp]; nofun) (by rw [hp]; nofun)) rfl
  · next hp =>
      cases h
      have hr : s.ready = false := ha.notReady (by rw [hp]; nofun) (by rw [hp]; nofun)
      refine ⟨fun h => ?_, ?_⟩
      · rw [hr] at h
        cases h
      · rintro _ ⟨⟩ i he hn
        exact absurd (List.mem_filter.mpr ⟨by cases i <;> decide, he⟩) hn
  · next hp => exact ha.receive hp h
  · next hp =>
      have hr : s.ready = false := ha.notReady (by rw [hp]; nofun) (by rw [hp]; nofun)
      split_ifs at h <;> cases h
      · exact of_notReady hr rfl
      · refine ⟨fun h => ?_, ?_⟩
        · rw [hr] at h
          cases h
        · rintro _ ⟨⟩
          exact ha.reported [] (by rw [hp]; rfl)
  · next hp =>
      cases h
      refine ⟨fun _ => .inl rfl, ?_⟩
      rintro _ ⟨⟩
      exact ha.reported [] (by rw [hp]; rfl)
  · cases h
    exact ⟨fun _ => .inr ⟨none, rfl⟩, nofun⟩
  · cases h
    exact ⟨fun _ => .inr ⟨none, rfl⟩, nofun⟩
  · cases h
    exact of_notReady rfl rfl
  · next hp =>
      cases h
      exact of_notReady (ha.notReady (by rw [hp]; nofun) (by rw [hp]; nofun)) rfl
  · next hp =>
      split_ifs at h
      cases h
      exact of_notReady (ha.notReady (by rw [hp]; nofun) (by rw [hp]; nofun)) rfl
  · exact ha.listenerStep h
  · cases h

/-- **Run lemma.** -/
theorem of_reachable (h : Transition.Reachable (system enabled) s) : Announced enabled s := by
  refine h.invariant ?_ fun s a s' ha _ hs => ha.step hs
  rintro s rfl
  exact of_notReady rfl rfl

end Announced

/-! ### Handles and task groups -/

/-- Program counter of `App::shutdown` after it has cancelled the token. -/
inductive Unwind
  /-- not there -/
  | idle
  /-- before `mem::take(&mut self.task_groups)` -/
  | takingGroups
  /-- awaiting `join_all` over the groups taken -/
  | closingGroups (groups : List Listener)
  /-- awaiting the first of the drained handles until the deadline -/
  | joiningHandles (todo : List Listener)
  /-- awaiting the handle of `i` after `handle.abort()` -/
  | abortedHandle (i : Listener) (todo : List Listener)
deriving DecidableEq

namespace Unwind

/-- The drained handles that are not joined yet. -/
def pending : Unwind → List Listener
  | .joiningHandles todo => todo
  | .abortedHandle i todo => i :: todo
  | .idle | .takingGroups | .closingGroups _ => []

/-- `mem::take(&mut self.task_groups)` is done. -/
def tookGroups : Unwind → Bool
  | .closingGroups _ | .joiningHandles _ | .abortedHandle _ _ => true
  | .idle | .takingGroups => false

/-- `self.handles.drain(..)` is done. -/
def drained : Unwind → Bool
  | .joiningHandles _ | .abortedHandle _ _ => true
  | .idle | .takingGroups | .closingGroups _ => false

theorem tookGroups_of_drained {u : Unwind} (h : u.drained = true) : u.tookGroups = true := by
  cases u <;> first | rfl | cases h

/-- `handle.abort()` was called for the task of `i`. -/
def aborts (i : Listener) : Unwind → Bool
  | .abortedHandle j _ => i = j
  | .idle | .takingGroups | .closingGroups _ | .joiningHandles _ => false

end Unwind

/-- The listener that `spawn_server` is called for. -/
def Phase.spawned : Phase → List Listener
  | .spawning todo => todo.take 1
  | .idle | .resetting | .checking | .awaiting _ | .storing | .running | .stopping _
  | .cancelling _ | .joining _ => []

/-- An `App` with its lists `handles` and `task_groups`. -/
structure Launch extends App where
  handles : List Listener
  taskGroups : List Listener
  unwind : Unwind
  /-- the listeners whose handle was awaited to its end, since `start` was called -/
  joined : List Listener

inductive LaunchAction
  /-- a step of `start`, of `shutdown` up to the cancellation, or of a listener task -/
  | app (a : Action)
  | takeGroups
  | groupsClosed
  /-- the deadline passes before the awaited task has ended -/
  | graceElapsed
  | handleJoined
  | allStopped

namespace Launch

/-- `App::new`. -/
def new : Launch where
  toApp := .new
  handles := []
  taskGroups := []
  unwind := .idle
  joined := []

variable (enabled : Listener → Bool) (s : Launch)

/-- Before a new call, what the earlier ones have spawned is joined and can be forgotten. -/
def forget : Launch :=
  if s.phase = .idle then
    { s with toApp := { s.toApp with task := fun _ => .unspawned }, joined := [] }
  else s

/-- A step of `start` or `shutdown` that leaves the two lists as they are. -/
def appStep (a : Action) : Option Launch :=
  (s.toApp.step enabled a).map fun app => { s with toApp := app }

/-- A step of a listener task, with what it stores. -/
def listenerStep (i : Listener) (e : Event) : Option Launch :=
  ((s.task i).step i s.cancelled (s.unwind.aborts i) e).map fun t =>
    { s with
      task := update s.task i t
      failed := s.failed || e = .storeFailed
      ready := s.ready && e ≠ .clearReady }

def step (a : LaunchAction) : Option Launch :=
  match a, s.unwind with
  | .app .joined, _ => none
  | .app (.listener i e), _ => s.listenerStep i e
  | .app .start, _ => s.forget.appStep enabled .start
  | .app .shutdown, _ => s.forget.appStep enabled .shutdown
  | .app .spawnServer, _ =>
      { s with
        handles := s.handles ++ s.phase.spawned
        taskGroups := s.taskGroups ++ s.phase.spawned }.appStep enabled .spawnServer
  | .app .cancel, _ => { s with unwind := .takingGroups }.appStep enabled .cancel
  | .app a, _ => s.appStep enabled a
  | .takeGroups, .takingGroups =>
      some { s with taskGroups := [], unwind := .closingGroups s.taskGroups }
  | .groupsClosed, .closingGroups _ =>
      some { s with handles := [], unwind := .joiningHandles s.handles }
  | .graceElapsed, .joiningHandles (i :: todo) => some { s with unwind := .abortedHandle i todo }
  | .handleJoined, .joiningHandles (i :: todo) | .handleJoined, .abortedHandle i todo =>
      if (s.task i).alive then none
      else some { s with unwind := .joiningHandles todo, joined := i :: s.joined }
  | .allStopped, .joiningHandles [] =>
      match s.phase with
      | .joining error =>
          some { s with
            phase := .idle
            result := (error.map .error).or s.result
            unwind := .idle }
      | _ => none
  | _, _ => none

end Launch

/-- One `App` with its lists, its listener tasks and any number of calls. -/
def launchSystem (enabled : Listener → Bool) : Transition.System Launch LaunchAction where
  init s := s = .new
  step := Launch.step enabled

/-- When `start` has returned `Ok`, every enabled listener has reported that its socket is bound;
when it has returned an error, `ready` is false and every task that it has spawned has ended and
is joined. -/
structure AllOrNothing (enabled : Listener → Bool) (s : Launch) : Prop where
  all : s.phase = .running → ∀ i, enabled i = true → (s.task i).report = .bound
  nothing : ∀ error, s.phase = .idle → s.result = some (.error error) →
    s.ready = false ∧ s.handles = [] ∧ s.taskGroups = [] ∧
      ∀ i, (s.task i).pc ≠ .unspawned → (s.task i).alive = false ∧ i ∈ s.joined

/-! ### Every task is owned until it is joined -/

namespace Task

variable {i : Listener} {cancelled aborted : Bool} {t t' : Task} {e : Event}

theorem alive_of_step (h : t.step i cancelled aborted e = some t') : t.alive = true := by
  cases move_of_step h <;> grind [alive, spawned]

/-- A step stays possible when the handle is aborted. -/
theorem step_aborted {aborted' : Bool} (ha : aborted = true → aborted' = true)
    (h : t.step i cancelled aborted e = some t') : t.step i cancelled aborted' e = some t' := by
  cases e <;> simp only [step] at h ⊢ <;> try exact h
  split_ifs at h with hc
  rw [if_pos ⟨ha hc.1, hc.2⟩]
  exact h

theorem not_alive_unspawned (h : t.pc = .unspawned) : t.alive = false := by
  rw [alive, h]

end Task

/-- `start` has cleared `ready` and not yet spawned a task. -/
def Phase.starting : Phase → Bool
  | .resetting | .checking => true
  | .idle | .spawning _ | .awaiting _ | .storing | .running | .stopping _ | .cancelling _
  | .joining _ => false

/-- Steps of `start` and `shutdown` that neither spawn nor join and do not cancel the token. -/
def Action.plain : Action → Bool
  | .spawnServer | .cancel | .joined | .listener _ _ => false
  | .rejectConfig _ | .start | .resetFailed | .checkCertificates _ _ | .receive | .loadFailed
  | .storeReady | .shutdown | .clearReady => true

theorem App.step_plain {enabled : Listener → Bool} {s s' : App} {a : Action}
    (ha : a.plain = true) (h : s.step enabled a = some s') :
    s'.task = s.task ∧ (∀ error, s.phase ≠ .joining error) ∧
      (s'.phase.unspawned = true → s.phase.unspawned = true) ∧
      (s'.phase.starting = true → s.phase = .idle ∧ a = .start ∨ s.phase.starting = true) := by
  unfold App.step at h
  split at h
  · next hp => cases h; exact ⟨rfl, by rw [hp]; nofun, id, .inr⟩
  · next hp =>
      cases h
      exact ⟨rfl, by rw [hp]; nofun, fun _ => by rw [hp]; rfl, fun _ => .inl ⟨hp, rfl⟩⟩
  · next hp =>
      cases h
      exact ⟨rfl, by rw [hp]; nofun, fun _ => by rw [hp]; rfl, fun _ => .inr (by rw [hp]; rfl)⟩
  · next hp =>
      split at h <;> cases h <;>
        exact ⟨rfl, by rw [hp]; nofun, fun _ => by rw [hp]; rfl, nofun⟩
  · cases ha
  · cases ha
  · next hp =>
      unfold App.receive at h
      split at h
      · cases h; exact ⟨rfl, by rw [hp]; nofun, nofun, nofun⟩
      · cases h; exact ⟨rfl, by rw [hp]; nofun, nofun, nofun⟩
      · split_ifs at h
        cases h
        exact ⟨rfl, by rw [hp]; nofun, nofun, nofun⟩
  · next hp => split_ifs at h <;> cases h <;> exact ⟨rfl, by rw [hp]; nofun, nofun, nofun⟩
  · next hp => cases h; exact ⟨rfl, by rw [hp]; nofun, nofun, nofun⟩
  · next hp => cases h; exact ⟨rfl, by rw [hp]; nofun, nofun, nofun⟩
  · next hp => cases h; exact ⟨rfl, by rw [hp]; nofun, nofun, nofun⟩
  · next hp => cases h; exact ⟨rfl, by rw [hp]; nofun, nofun, nofun⟩
  · cases ha
  · cases ha
  · cases ha
  · cases h

theorem Launch.forget_of_ne {s : Launch} (h : s.phase ≠ .idle) : s.forget = s := if_neg h

theorem Launch.forget_toApp {s : Launch} : s.forget.toApp =
    if s.phase = .idle then { s.toApp with task := fun _ => .unspawned } else s.toApp := by
  unfold forget
  split_ifs <;> rfl

theorem Launch.forget_phase {s : Launch} : s.forget.phase = s.phase := by
  unfold forget
  split_ifs <;> rfl

theorem Launch.forget_fresh {s : Launch} (h : s.forget.phase = .idle) (i : Listener) :
    s.forget.task i = .unspawned := by
  rw [forget, if_pos (forget_phase.symm.trans h)]

structure Owned (s : Launch) : Prop where
  task : ∀ i, (s.task i).pc ≠ .unspawned →
    i ∈ s.handles ∨ i ∈ s.unwind.pending ∨ (s.task i).alive = false ∧ i ∈ s.joined
  fresh : s.phase.starting = true → ∀ i, s.task i = .unspawned
  quiet : s.phase.unspawned = true → s.handles = [] ∧ s.taskGroups = []
  unwinding : s.unwind ≠ .idle → ∃ error, s.phase = .joining error
  groups : s.unwind.tookGroups = true → s.taskGroups = []
  handles : s.unwind.drained = true → s.handles = []

/-- The steps of `App::shutdown` after the cancellation. -/
inductive Launch.Move (s : Launch) : LaunchAction → Launch → Prop
  | takeGroups : s.unwind = .takingGroups →
      Move s .takeGroups { s with taskGroups := [], unwind := .closingGroups s.taskGroups }
  | groupsClosed (groups : List Listener) : s.unwind = .closingGroups groups →
      Move s .groupsClosed { s with handles := [], unwind := .joiningHandles s.handles }
  | graceElapsed (i : Listener) (todo : List Listener) : s.unwind = .joiningHandles (i :: todo) →
      Move s .graceElapsed { s with unwind := .abortedHandle i todo }
  | handleJoined (i : Listener) (todo : List Listener) : s.unwind.drained = true →
      s.unwind.pending = i :: todo → (s.task i).alive = false →
      Move s .handleJoined { s with unwind := .joiningHandles todo, joined := i :: s.joined }
  | allStopped (error : Option DnsProxyError) : s.unwind = .joiningHandles [] →
      s.phase = .joining error →
      Move s .allStopped { s with
        phase := .idle
        result := (error.map .error).or s.result
        unwind := .idle }

theorem Launch.move_of_step {enabled : Listener → Bool} {s s' : Launch} {a : LaunchAction}
    (ha : ∀ b, a ≠ .app b) (h : s.step enabled a = some s') : s.Move a s' := by
  unfold Launch.step at h
  split at h
  all_goals try exact absurd rfl (ha _)
  · next hu => cases h; exact .takeGroups hu
  · next hu => cases h; exact .groupsClosed _ hu
  · next hu => cases h; exact .graceElapsed _ _ hu
  · next hu =>
      split_ifs at h with ht
      cases h
      exact .handleJoined _ _ (by rw [hu]; rfl) (by rw [hu]; rfl) (by simpa using ht)
  · next hu =>
      split_ifs at h with ht
      cases h
      exact .handleJoined _ _ (by rw [hu]; rfl) (by rw [hu]; rfl) (by simpa using ht)
  · next hu =>
      split at h <;> cases h
      next hp => exact .allStopped _ hu hp
  · cases h

namespace Owned

variable {enabled : Listener → Bool} {s s' : Launch}

theorem new : Owned .new where
  task _ h := absurd rfl h
  fresh h := by cases h
  quiet _ := ⟨rfl, rfl⟩
  unwinding h := absurd rfl h
  groups h := by cases h
  handles h := by cases h

theorem unwind_idle (ho : Owned s) (h : ∀ error, s.phase ≠ .joining error) : s.unwind = .idle := by
  by_contra hu
  obtain ⟨error, hp⟩ := ho.unwinding hu
  exact h error hp

theorem forget (ho : Owned s) : Owned s.forget := by
  unfold Launch.forget
  split_ifs
  · exact ⟨fun _ h => absurd rfl h, fun _ _ => rfl, ho.quiet, ho.unwinding, ho.groups, ho.handles⟩
  · exact ho

theorem appStep {a : Action} (ho : Owned s) (ha : a.plain = true)
    (h : s.appStep enabled a = some s')
    (hf : a = .start → s.phase = .idle → ∀ i, s.task i = .unspawned) : Owned s' := by
  obtain ⟨app, happ, rfl⟩ := Option.map_eq_some_iff.mp h
  obtain ⟨ht, hj, hu, hs⟩ := App.step_plain ha happ
  have hidle := ho.unwind_idle hj
  refine ⟨fun i hi => ?_, fun h i => ?_, fun h => ho.quiet (hu h), fun h => absurd hidle h,
    ho.groups, ho.handles⟩
  · simp only [ht] at hi ⊢
    exact ho.task i hi
  · simp only [ht]
    rcases hs h with ⟨hp, hstart⟩ | h
    · exact hf hstart hp i
    · exact ho.fresh h i

theorem spawnServer (ho : Owned s) (h : s.step enabled (.app .spawnServer) = some s') :
    Owned s' := by
  obtain ⟨app, happ, rfl⟩ := Option.map_eq_some_iff.mp h
  simp only [App.step] at happ
  split at happ <;> try contradiction
  · next i todo hp =>
      cases happ
      have hidle : s.unwind = .idle := ho.unwind_idle (by rw [hp]; nofun)
      refine ⟨fun j hj => ?_, nofun, nofun, fun h => absurd hidle h, fun h => ?_, fun h => ?_⟩
      · simp only [Function.update_apply, hp, Phase.spawned, List.mem_append] at hj ⊢
        split_ifs at hj ⊢ with hji
        · exact .inl (.inr (by simp [hji]))
        · rcases ho.task j hj with h | h
          · exact .inl (.inl h)
          · exact .inr h
      · simp only [hidle] at h
        cases h
      · simp only [hidle] at h
        cases h
  · next hp =>
      cases happ
      have hidle : s.unwind = .idle := ho.unwind_idle (by rw [hp]; nofun)
      refine ⟨fun j hj => ?_, nofun, nofun, fun h => absurd hidle h, fun h => ?_, fun h => ?_⟩
      · simp only [hp, Phase.spawned, List.take_nil, List.append_nil] at hj ⊢
        exact ho.task j hj
      · simp only [hidle] at h
        cases h
      · simp only [hidle] at h
        cases h

theorem cancel (ho : Owned s) (h : s.step enabled (.app .cancel) = some s') : Owned s' := by
  obtain ⟨app, happ, rfl⟩ := Option.map_eq_some_iff.mp h
  simp only [App.step] at happ
  split at happ <;> try contradiction
  next error _ hp =>
    cases happ
    have hidle : s.unwind = .idle := ho.unwind_idle (by rw [hp]; nofun)
    refine ⟨fun j hj => ?_, nofun, nofun, fun _ => ⟨_, rfl⟩, nofun, nofun⟩
    simpa [hidle, Unwind.pending] using ho.task j hj

theorem listenerStep {i : Listener} {e : Event} (ho : Owned s)
    (h : s.listenerStep i e = some s') : Owned s' := by
  obtain ⟨t, ht, rfl⟩ := Option.map_eq_some_iff.mp h
  have ha := Task.alive_of_step ht
  refine ⟨fun j hj => ?_, fun hs => ?_, ho.quiet, ho.unwinding, ho.groups, ho.handles⟩
  case refine_2 =>
    rw [ho.fresh hs i] at ha
    cases ha
  simp only [Function.update_apply] at hj ⊢
  split_ifs at hj ⊢ with hji
  · subst hji
    rcases ho.task j (Task.spawned_step ht).1 with h | h | ⟨h, -⟩
    · exact .inl h
    · exact .inr (.inl h)
    · rw [ha] at h
      cases h
  · exact ho.task j hj

theorem move {a : LaunchAction} (ho : Owned s) (h : s.Move a s') : Owned s' := by
  cases h with
  | takeGroups hu =>
      refine ⟨?_, ho.fresh, fun h => ⟨(ho.quiet h).1, rfl⟩,
        fun _ => ho.unwinding (by rw [hu]; nofun), fun _ => rfl, nofun⟩
      simpa [hu, Unwind.pending] using ho.task
  | groupsClosed _ hu =>
      refine ⟨?_, ho.fresh, fun h => ⟨rfl, (ho.quiet h).2⟩,
        fun _ => ho.unwinding (by rw [hu]; nofun), fun _ => ho.groups (by rw [hu]; rfl),
        fun _ => rfl⟩
      simpa [hu, Unwind.pending] using ho.task
  | graceElapsed _ _ hu =>
      refine ⟨?_, ho.fresh, ho.quiet, fun _ => ho.unwinding (by rw [hu]; nofun),
        fun _ => ho.groups (by rw [hu]; rfl), fun _ => ho.handles (by rw [hu]; rfl)⟩
      simpa [hu, Unwind.pending] using ho.task
  | handleJoined i todo hd hp ha =>
      have hu : s.unwind ≠ .idle := by
        intro hu
        rw [hu] at hd
        cases hd
      refine ⟨fun j hj => ?_, ho.fresh, ho.quiet, fun _ => ho.unwinding hu,
        fun _ => ho.groups (Unwind.tookGroups_of_drained hd), fun _ => ho.handles hd⟩
      rcases ho.task j hj with h | h | ⟨hna, h⟩
      · exact .inl h
      · rw [hp, List.mem_cons] at h
        rcases h with rfl | h
        · exact .inr (.inr ⟨ha, List.mem_cons_self⟩)
        · exact .inr (.inl h)
      · exact .inr (.inr ⟨hna, List.mem_cons_of_mem _ h⟩)
  | allStopped _ hu _ =>
      refine ⟨fun j hj => ?_, nofun,
        fun _ => ⟨ho.handles (by rw [hu]; rfl), ho.groups (by rw [hu]; rfl)⟩,
        fun h => absurd rfl h, nofun, nofun⟩
      simpa [hu, Unwind.pending] using ho.task j hj

/-- **Step lemma.** -/
theorem step {a : LaunchAction} (ho : Owned s) (h : s.step enabled a = some s') : Owned s' := by
  cases a with
  | app a =>
      cases a with
      | joined => cases h
      | listener i e => exact ho.listenerStep h
      | start => exact ho.forget.appStep rfl h fun _ => Launch.forget_fresh
      | shutdown => exact ho.forget.appStep rfl h nofun
      | spawnServer => exact ho.spawnServer h
      | cancel => exact ho.cancel h
      | rejectConfig | resetFailed | checkCertificates | receive | loadFailed | storeReady
        | clearReady => exact ho.appStep rfl h nofun
  | _ => exact ho.move (Launch.move_of_step (by simp) h)

/-- **Run lemma.** -/
theorem of_reachable (h : Transition.Reachable (launchSystem enabled) s) : Owned s := by
  refine h.invariant ?_ fun s a s' ho _ hs => ho.step hs
  rintro s rfl
  exact new

theorem not_alive (ho : Owned s) (hh : s.handles = []) (hp : s.unwind.pending = [])
    (i : Listener) : (s.task i).alive = false := by
  by_cases hi : (s.task i).pc = .unspawned
  · exact Task.not_alive_unspawned hi
  · rcases ho.task i hi with h | h | h
    · rw [hh] at h
      cases h
    · rw [hp] at h
      cases h
    · exact h.1

end Owned

/-! ### The refinement -/

namespace Launch

variable {enabled : Listener → Bool} {s s' : Launch}

theorem toApp_of_step {a : Action} (hp : s.phase ≠ .idle)
    (hi : s'.phase = .idle → ∀ i, s'.task i = .unspawned)
    (h : s.toApp.step enabled a = some s'.toApp) :
    s.forget.toApp.step enabled a = some s'.forget.toApp := by
  rw [forget_of_ne hp, h]
  unfold forget
  split_ifs with hp'
  · have ht : (fun _ => .unspawned) = s'.task := funext fun i => (hi hp' i).symm
    rw [ht]
  · rfl

theorem toApp_of_listenerStep {i : Listener} {e : Event} (ho : Owned s)
    (h : s.listenerStep i e = some s') :
    s.forget.toApp.step enabled (.listener i e) = some s'.forget.toApp := by
  obtain ⟨t, ht, rfl⟩ := Option.map_eq_some_iff.mp h
  have hp : s.phase ≠ .idle := by
    intro hp
    have hidle : s.unwind = .idle := ho.unwind_idle (by rw [hp]; nofun)
    have hna := ho.not_alive (ho.quiet (by rw [hp]; rfl)).1 (by rw [hidle]; rfl) i
    rw [Task.alive_of_step ht] at hna
    cases hna
  refine toApp_of_step hp (fun h => absurd h hp) ?_
  refine Option.map_eq_some_iff.mpr ⟨t, Task.step_aborted (fun ha => ?_) ht, rfl⟩
  obtain ⟨error, hj⟩ := ho.unwinding (by intro hu; rw [hu] at ha; cases ha)
  rw [hj]

theorem toApp_of_appStep {a : Action} (ho : Owned s) (ha : a.plain = true) (hp : s.phase ≠ .idle)
    (h : s.appStep enabled a = some s') :
    s.forget.toApp.step enabled a = some s'.forget.toApp := by
  obtain ⟨app, happ, rfl⟩ := Option.map_eq_some_iff.mp h
  obtain ⟨ht, -, hu, -⟩ := App.step_plain ha happ
  refine toApp_of_step hp (fun hp' i => ?_) happ
  have hs : s.phase.starting = true := by
    have hu' := hu (by rw [hp']; rfl)
    cases hph : s.phase <;> simp_all [Phase.unspawned, Phase.starting]
  simp only [ht]
  exact ho.fresh hs i

theorem toApp_of_forget {a : Action} (ha : a = .start ∨ a = .shutdown)
    (h : s.forget.appStep enabled a = some s') :
    s.forget.toApp.step enabled a = some s'.forget.toApp := by
  obtain ⟨app, happ, rfl⟩ := Option.map_eq_some_iff.mp h
  have hp : app.phase ≠ .idle := by
    rcases ha with rfl | rfl
    all_goals
      simp only [App.step] at happ
      split at happ <;> try contradiction
      all_goals cases happ; nofun
  rw [happ, forget_of_ne (s := { s.forget with toApp := app }) hp]

/-- **Step lemma of the refinement.** -/
theorem toApp_step {a : LaunchAction} (ho : Owned s) (h : s.step enabled a = some s') :
    s'.forget.toApp = s.forget.toApp ∨
      ∃ b, s.forget.toApp.step enabled b = some s'.forget.toApp := by
  cases a with
  | app a =>
      refine .inr ⟨a, ?_⟩
      cases a with
      | joined => cases h
      | listener i e => exact toApp_of_listenerStep ho h
      | start => exact toApp_of_forget (.inl rfl) h
      | shutdown => exact toApp_of_forget (.inr rfl) h
      | spawnServer =>
          obtain ⟨app, happ, rfl⟩ := Option.map_eq_some_iff.mp h
          have hp : s.phase ≠ .idle := by
            intro hp
            simp only [App.step, hp] at happ
            cases happ
          refine toApp_of_step hp (fun hp' => ?_) happ
          simp only [App.step] at happ
          split at happ <;> first | contradiction | (cases happ; cases hp')
      | cancel =>
          obtain ⟨app, happ, rfl⟩ := Option.map_eq_some_iff.mp h
          have hp : s.phase ≠ .idle := by
            intro hp
            simp only [App.step, hp] at happ
            cases happ
          refine toApp_of_step hp (fun hp' => ?_) happ
          simp only [App.step] at happ
          split at happ <;> first | contradiction | (cases happ; cases hp')
      | rejectConfig error =>
          obtain ⟨app, happ, rfl⟩ := Option.map_eq_some_iff.mp h
          simp only [App.step] at happ
          split at happ <;> try contradiction
          next _ ha hp =>
            cases ha
            cases happ
            simp [forget, hp, App.step]
      | resetFailed | checkCertificates | receive | loadFailed | storeReady | clearReady =>
          refine toApp_of_appStep ho rfl ?_ h
          intro hp
          obtain ⟨app, happ, rfl⟩ := Option.map_eq_some_iff.mp h
          simp only [App.step, hp] at happ
          cases happ
  | allStopped =>
      cases move_of_step (by simp) h with
      | allStopped error hu hp =>
          have hna : ∀ i, (s.task i).alive = false :=
            ho.not_alive (ho.handles (by rw [hu]; rfl)) (by rw [hu]; rfl)
          have hne : s.phase ≠ .idle := by rw [hp]; nofun
          refine .inr ⟨.joined, ?_⟩
          rw [forget_of_ne hne]
          simp [App.step, hp, hna, forget]
  | takeGroups | groupsClosed | graceElapsed | handleJoined =>
      left
      cases move_of_step (by simp) h
      simp only [forget_toApp]

/-- **The refinement.** -/
theorem refines (h : Transition.Reachable (launchSystem enabled) s) :
    Transition.Reachable (system enabled) s.forget.toApp := by
  refine h.simulation (T := system enabled) (fun s => s.forget.toApp) ?_ fun s a s' hr hs =>
    toApp_step (.of_reachable hr) hs
  rintro s rfl
  rfl

end Launch

/-- **Startup is all or nothing.** -/
theorem allOrNothing_of_reachable {enabled : Listener → Bool} {s : Launch}
    (h : Transition.Reachable (launchSystem enabled) s) : AllOrNothing enabled s := by
  have ho := Owned.of_reachable h
  have ha := Announced.of_reachable (Launch.refines h)
  rw [Launch.forget_toApp] at ha
  constructor
  · intro hp i he
    rw [if_neg (by rw [hp]; nofun)] at ha
    exact ha.reported [] (by rw [hp]; rfl) i he List.not_mem_nil
  · intro _ hp _
    rw [if_pos hp] at ha
    have hidle : s.unwind = .idle := ho.unwind_idle (by rw [hp]; nofun)
    obtain ⟨hh, hg⟩ := ho.quiet (by rw [hp]; rfl)
    refine ⟨ha.notReady (by rw [hp]; nofun) (by rw [hp]; nofun), hh, hg, fun i hi => ?_⟩
    rcases ho.task i hi with h | h | h
    · rw [hh] at h
      cases h
    · rw [hidle] at h
      cases h
    · exact h

/-! ### A start that fails -/

def dotAndDoq (i : Listener) : Bool := i = .dot ∨ i = .doq

/-- DoT is bound when DoQ cannot bind its socket; the task of DoT does not stop before the
deadline and is aborted. -/
def bindFails : List LaunchAction :=
  [.app .start, .app .resetFailed, .app (.checkCertificates true none), .app .spawnServer,
    .app .spawnServer, .app .spawnServer, .app (.listener .dot .reportBound), .app .receive,
    .app (.listener .doq (.reportError (.io (utf8 "address in use")))), .app .receive,
    .app .clearReady, .app .cancel, .takeGroups, .groupsClosed, .graceElapsed,
    .app (.listener .doq .checkCancelled), .app (.listener .dot .abort), .handleJoined,
    .handleJoined, .allStopped]

theorem allOrNothing_of_reachable_bindFails :
    ∃ s, Transition.run (launchSystem dotAndDoq) .new bindFails = some s ∧
      s.result = some (.error (.io (utf8 "address in use"))) ∧ AllOrNothing dotAndDoq s :=
  ⟨_, rfl, rfl, allOrNothing_of_reachable (.of_run bindFails rfl rfl)⟩

end DnsIngress.Startup
