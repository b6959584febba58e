import DnsIngress.Shutdown
import DnsIngress.TaskGroupProgress

/-! # `App::shutdown` returns

Neither a listener that does not see the cancelled token nor a child that never exits keeps
`App::shutdown` from returning: the closing calls return because the groups abort their children at
the deadline, and the handle of a listener that is late is aborted.  If a listener has closed its
group first, `App::shutdown` may return before the children of this group are joined; they are
joined all the same.

Every listener's group is seen through `ofListener` as an execution of its own. -/

namespace DnsIngress.Shutdown

open Transition (Execution)
open Function (update)

/-- How many steps `App::shutdown` has before it, for this number of listeners. -/
def Stop.rank {ι : Type} (listeners : ℕ) : Stop ι → ℕ
  | .idle => 2 * listeners + 4
  | .cancelled => 2 * listeners + 3
  | .closing _ => 2 * listeners + 2
  | .joining _ todo => 2 * todo.length + 1
  | .aborting _ _ todo => 2 * todo.length + 2
  | .returned => 0

def Run.rank : Run → ℕ
  | .serving => 2
  | .closing => 1
  | .finished => 0

/-- The steps of `App::shutdown`. -/
def Action.stops {ι : Type} : Action ι → Bool
  | .cancel | .closeGroups | .groupsClosed | .joined | .expire | .ret => true
  | .tick | .group _ _ | .breakLoop _ _ | .exitEarly _ | .runReturns _ | .dropRun => false

/-- The steps of `App::shutdown` after its first, and of a `run` that has nothing left to do or is
aborted. -/
def Action.owed {ι : Type} : Action ι → Bool
  | .runReturns _ | .closeGroups | .groupsClosed | .joined | .expire | .dropRun | .ret => true
  | .tick | .group _ _ | .breakLoop _ _ | .exitEarly _ | .cancel => false

variable {ι : Type} [DecidableEq ι] {grace : ℕ} {listeners : List ι}

/-- A fair execution of the server.  Nothing is asked of the accept loops. -/
structure Fair (e : Execution (system grace listeners)) : Prop where
  clock : ∀ t, ∃ n, t ≤ (e.state n).now
  owed : ∀ a : Action ι, a.owed = true → e.WeaklyFair a
  group : ∀ (i : ι) (a : TaskGroup.Action Caller), a.owed = true → e.WeaklyFair (.group i a)
  /-- the mutex serves those who wait in turn -/
  lock : ∀ (i : ι) c, e.StronglyFair (.group i (.acquire c))

/-! ### What a step can do -/

/-- The branches of `step`, one constructor each. -/
inductive ServerMove (grace : ℕ) (listeners : List ι) (s : Server ι) : Action ι → Server ι → Prop
  | tick : ServerMove grace listeners s .tick { s with now := s.now + 1 }
  | group {j b g} : internal b = true → (s.group j).step s.now b = some g →
      ServerMove grace listeners s (.group j b) (s.setGroup j g)
  | breakLoop {j b g} : s.run j = .serving →
      (s.group j).step s.now (.close .run (s.now + grace)) = some g →
      ServerMove grace listeners s (.breakLoop j b) ((s.setGroup j g).setRun j .closing)
  | exitEarly {j} : s.run j = .serving →
      ServerMove grace listeners s (.exitEarly j) (s.setRun j .finished)
  | runReturns {j} : s.run j = .closing → (s.group j).call .run = .closeReturned →
      ServerMove grace listeners s (.runReturns j) (s.setRun j .finished)
  | cancel : s.stop = .idle →
      ServerMove grace listeners s .cancel { s with cancelled := true, stop := .cancelled }
  | closeGroups : s.stop = .cancelled →
      ServerMove grace listeners s .closeGroups { s with
        group := fun i =>
          if i ∈ listeners then
            ((s.group i).step s.now (.close .app (s.now + grace))).getD (s.group i)
          else s.group i
        stop := .closing (s.now + grace) }
  | groupsClosed {d} : s.stop = .closing d →
      (∀ i ∈ listeners, (s.group i).call .app = .closeReturned) →
      ServerMove grace listeners s .groupsClosed { s with stop := .joining d listeners }
  | joined {d j todo} : s.stop = .joining d (j :: todo) ∨ s.stop = .aborting d j todo →
      s.run j = .finished → ServerMove grace listeners s .joined { s with stop := .joining d todo }
  | expire {d j todo} : s.stop = .joining d (j :: todo) →
      ServerMove grace listeners s .expire { s with stop := .aborting d j todo }
  | dropServing {d j todo} : s.stop = .aborting d j todo → s.run j = .serving →
      ServerMove grace listeners s .dropRun (s.setRun j .finished)
  | dropClosing {d j todo g} : s.stop = .aborting d j todo → s.run j = .closing →
      (s.group j).step s.now (.cancel .run) = some g →
      ServerMove grace listeners s .dropRun ((s.setGroup j g).setRun j .finished)
  | ret {d} : s.stop = .joining d [] →
      ServerMove grace listeners s .ret { s with stop := .returned }

variable {s s' : Server ι} {a : Action ι} {i : ι}

/-- **Inversion of a step.** -/
theorem step_move (h : s.step grace listeners a = some s') : ServerMove grace listeners s a s' := by
  cases a with
  | tick =>
      cases h
      exact .tick
  | group j b =>
      simp only [Server.step] at h
      split_ifs at h with hb
      obtain ⟨g, hg, rfl⟩ := Option.map_eq_some_iff.mp h
      exact .group hb hg
  | breakLoop j b =>
      simp only [Server.step, Server.breakLoop] at h
      split_ifs at h with hr
      obtain ⟨g, hg, rfl⟩ := Option.map_eq_some_iff.mp h
      exact .breakLoop hr.1 hg
  | exitEarly j =>
      simp only [Server.step] at h
      split_ifs at h with hr
      cases h
      exact .exitEarly hr
  | runReturns j =>
      simp only [Server.step] at h
      split_ifs at h with hr
      cases h
      exact .runReturns hr.1 hr.2
  | cancel =>
      simp only [Server.step] at h
      split_ifs at h with hst
      cases h
      exact .cancel hst
  | closeGroups =>
      simp only [Server.step, Server.closeGroups] at h
      split at h
      · next hst =>
        cases h
        exact .closeGroups hst
      · cases h
  | groupsClosed =>
      simp only [Server.step, Server.groupsClosed] at h
      split at h
      · next hst =>
        split_ifs at h with hall
        cases h
        exact .groupsClosed hst hall
      · cases h
  | joined =>
      simp only [Server.step, Server.joined] at h
      split at h
      · next hst =>
        split_ifs at h with hf
        cases h
        exact .joined (.inl hst) hf
      · next hst =>
        split_ifs at h with hf
        cases h
        exact .joined (.inr hst) hf
      · cases h
  | expire =>
      simp only [Server.step, Server.expire] at h
      split at h
      · next hst =>
        split_ifs at h
        cases h
        exact .expire hst
      · cases h
  | dropRun =>
      simp only [Server.step, Server.dropRun] at h
      split at h
      · next hst =>
        split at h
        · next hr =>
          cases h
          exact .dropServing hst hr
        · next hr =>
          obtain ⟨g, hg, rfl⟩ := Option.map_eq_some_iff.mp h
          exact .dropClosing hst hr hg
        · cases h
      · cases h
  | ret =>
      simp only [Server.step] at h
      split at h
      · next hst =>
        cases h
        exact .ret hst
      · cases h

/-! ### What a step does to one listener -/

/-- What an action does to the `run` and the group of listener `i`. -/
inductive ListenerMove (now : ℕ) (i : ι) (a : Action ι) (r : Run) (g : TaskGroup Caller) :
    Run → TaskGroup Caller → Prop
  | same : ListenerMove now i a r g r g
  | internal {b g'} : a = .group i b → internal b = true → g.step now b = some g' →
      ListenerMove now i a r g r g'
  | closeApp {d g'} : a = .closeGroups → g.step now (.close .app d) = some g' →
      ListenerMove now i a r g r g'
  | breakLoop {d g'} : r = .serving → g.step now (.close .run d) = some g' →
      ListenerMove now i a r g .closing g'
  | exits : r = .serving → ListenerMove now i a r g .finished g
  | returns : r = .closing → g.call .run = .closeReturned → ListenerMove now i a r g .finished g
  | dropped {g'} : r = .closing → g.step now (.cancel .run) = some g' →
      ListenerMove now i a r g .finished g'

theorem ListenerMove.of_update {j : ι} {now : ℕ} {r : Run} {g : TaskGroup Caller}
    (h : ListenerMove now j a (s.run j) (s.group j) r g) (i : ι) :
    ListenerMove now i a (s.run i) (s.group i) (update s.run j r i) (update s.group j g i) := by
  by_cases hi : i = j
  · subst hi
    rw [Function.update_self, Function.update_self]
    cases h with
    | same => exact .same
    | internal ha hb hg => exact .internal ha hb hg
    | closeApp ha hg => exact .closeApp ha hg
    | breakLoop hr hg => exact .breakLoop hr hg
    | exits hr => exact .exits hr
    | returns hr hc => exact .returns hr hc
    | dropped hr hg => exact .dropped hr hg
  · rw [Function.update_of_ne hi, Function.update_of_ne hi]
    exact .same

theorem ListenerMove.of_setRun {j : ι} {now : ℕ} {r : Run}
    (h : ListenerMove now j a (s.run j) (s.group j) r (s.group j)) (i : ι) :
    ListenerMove now i a (s.run i) (s.group i) (update s.run j r i) (s.group i) := by
  simpa only [Function.update_eq_self] using h.of_update i

theorem ListenerMove.of_setGroup {j : ι} {now : ℕ} {g : TaskGroup Caller}
    (h : ListenerMove now j a (s.run j) (s.group j) (s.run j) g) (i : ι) :
    ListenerMove now i a (s.run i) (s.group i) (s.run i) (update s.group j g i) := by
  simpa only [Function.update_eq_self] using h.of_update i

theorem ServerMove.listener (h : ServerMove grace listeners s a s') (i : ι) :
    ListenerMove s.now i a (s.run i) (s.group i) (s'.run i) (s'.group i) := by
  cases h with
  | tick | cancel | groupsClosed | joined | expire | ret => exact .same
  | group hb hg => exact .of_setGroup (.internal rfl hb hg) i
  | breakLoop hr hg => exact .of_update (.breakLoop hr hg) i
  | exitEarly hr | dropServing _ hr => exact .of_setRun (.exits hr) i
  | runReturns hr hc => exact .of_setRun (.returns hr hc) i
  | dropClosing _ hr hg => exact .of_update (.dropped hr hg) i
  | closeGroups =>
      dsimp only
      split_ifs with hi
      · cases hg : (s.group i).step s.now (.close .app (s.now + grace)) with
        | none => exact .same
        | some g => exact .closeApp rfl hg
      · exact .same

omit [DecidableEq ι] in
theorem ListenerMove.group {now : ℕ} {r r' : Run} {g g' : TaskGroup Caller}
    (h : ListenerMove now i a r g r' g') : g' = g ∨ ∃ b, g.step now b = some g' := by
  cases h with
  | same | exits | returns => exact .inl rfl
  | internal _ _ hg | closeApp _ hg | breakLoop _ hg | dropped _ hg => exact .inr ⟨_, hg⟩

omit [DecidableEq ι] in
/-- What `run` has asked of its group stays true of it. -/
theorem ListenerMove.runCall {now : ℕ} {r r' : Run} {g g' : TaskGroup Caller}
    (h : ListenerMove now i a r g r' g') (hr : RunCall r (g.call .run)) :
    RunCall r' (g'.call .run) := by
  cases h with
  | same => exact hr
  | internal _ hb hg =>
      refine hr.move (TaskGroup.step_move hg) ?_ ?_ ?_
      · rintro p rfl
        cases hb
      · rintro d rfl
        cases hb
      · rintro rfl
        cases hb
  | closeApp _ hg => exact hr.move (TaskGroup.step_move hg) (by simp) (by simp) (by simp)
  | breakLoop _ hg =>
      cases TaskGroup.step_move hg with
      | close => simp [RunCall, Call.isClose]
  | exits hs =>
      subst hs
      exact .inl hr
  | returns _ hc => exact .inr (by rw [hc]; rfl)
  | dropped _ hg => cases TaskGroup.step_move hg <;> simp [RunCall, Call.ended]

omit [DecidableEq ι] in
theorem ListenerMove.run {now : ℕ} {r r' : Run} {g g' : TaskGroup Caller}
    (h : ListenerMove now i a r g r' g') : r' = r ∨ r'.rank < r.rank := by
  cases h with
  | same | internal | closeApp => exact .inl rfl
  | breakLoop hr | exits hr | returns hr | dropped hr =>
      rw [hr]
      exact .inr (by decide)

/-- A closing call of `App::shutdown` is where it was, or further on. -/
structure KeepsApp (g g' : TaskGroup Caller) : Prop where
  idle : g.call .app = .idle → g'.call .app = .idle
  isClose : (g.call .app).isClose = true → (g'.call .app).isClose = true
  returned : g.call .app = .closeReturned → g'.call .app = .closeReturned

theorem keepsApp_of_step {now : ℕ} {g g' : TaskGroup Caller} {b : TaskGroup.Action Caller}
    (hs : ∀ p, b ≠ .spawn .app p) (hd : ∀ d, b ≠ .close .app d) (hx : b ≠ .cancel .app)
    (h : g.step now b = some g') : KeepsApp g g' := by
  have hm := TaskGroup.step_move h
  refine ⟨fun hc => hm.call_idle hc hs hd, fun hc => (hm.isClose hd hx).trans hc, fun hc => ?_⟩
  rw [hm.call_ended (by rw [hc]; rfl), hc]

omit [DecidableEq ι] in
/-- Only `App::shutdown` begins its closing calls, and it never drops them. -/
theorem ListenerMove.app {now : ℕ} {r r' : Run} {g g' : TaskGroup Caller}
    (h : ListenerMove now i a r g r' g') (ha : a ≠ .closeGroups) : KeepsApp g g' := by
  cases h with
  | same | exits | returns => exact ⟨id, id, id⟩
  | internal _ hb hg =>
      apply keepsApp_of_step ?_ ?_ ?_ hg
      · rintro p rfl
        cases hb
      · rintro d rfl
        cases hb
      · rintro rfl
        cases hb
  | closeApp hcl => exact absurd hcl ha
  | breakLoop _ hg | dropped _ hg => exact keepsApp_of_step (by simp) (by simp) (by simp) hg

/-! ### What a step does to `App::shutdown` -/

theorem ServerMove.lowers (h : ServerMove grace listeners s a s') (ha : a.stops = true) :
    s'.stop.rank listeners.length < s.stop.rank listeners.length := by
  cases h with
  | tick | group | breakLoop | exitEarly | runReturns | dropServing | dropClosing => cases ha
  | cancel hs | closeGroups hs | groupsClosed hs | ret hs =>
      rw [hs]
      simp [Stop.rank]
  | expire hs =>
      rw [hs]
      simp only [Stop.rank, List.length_cons]
      omega
  | joined hs => rcases hs with hs | hs <;> simp [hs, Stop.rank]

theorem ServerMove.lowers_or (h : ServerMove grace listeners s a s') :
    s'.stop = s.stop ∨ s'.stop.rank listeners.length < s.stop.rank listeners.length := by
  cases ha : a.stops with
  | true => exact .inr (h.lowers ha)
  | false =>
      cases h with
      | cancel | closeGroups | groupsClosed | joined | expire | ret => cases ha
      | _ => exact .inl rfl

theorem ServerMove.stop_ne_idle (h : ServerMove grace listeners s a s') (hs : s.stop ≠ .idle) :
    s'.stop ≠ .idle := by
  cases h with
  | tick | group | breakLoop | exitEarly | runReturns | dropServing | dropClosing => exact hs
  | cancel | closeGroups | groupsClosed | joined | expire | ret => nofun

theorem ServerMove.now (h : ServerMove grace listeners s a s') : a = .tick ∨ s'.now = s.now := by
  cases h with
  | tick => exact .inl rfl
  | _ => exact .inr rfl

/-! ### What holds in every state -/

/-- The closing call of `App::shutdown`, in every phase. -/
def AppCall : Stop ι → Call → Prop
  | .idle, pc | .cancelled, pc => pc = .idle
  | .closing _, pc => pc.isClose = true
  | .joining _ _, pc | .aborting _ _ _, pc | .returned, pc => pc = .closeReturned

structure StopInv (listeners : List ι) (s : Server ι) : Prop where
  run : ∀ i, RunCall (s.run i) ((s.group i).call .run)
  app : ∀ i ∈ listeners, AppCall s.stop ((s.group i).call .app)
  joined : ∀ todo, s.stop.pending = some todo → ∀ i ∈ listeners, i ∉ todo → s.run i = .finished

omit [DecidableEq ι] in
theorem AppCall.keeps {stop : Stop ι} {g g' : TaskGroup Caller} (hs : AppCall stop (g.call .app))
    (h : KeepsApp g g') : AppCall stop (g'.call .app) := by
  cases stop with
  | idle | cancelled => exact h.idle hs
  | closing => exact h.isClose hs
  | joining | aborting | returned => exact h.returned hs

theorem AppCall.move (hs : AppCall s.stop ((s.group i).call .app)) (hi : i ∈ listeners)
    (h : ServerMove grace listeners s a s') : AppCall s'.stop ((s'.group i).call .app) := by
  have hkeeps := (h.listener i).app
  cases h with
  | closeGroups hst =>
      rw [hst] at hs
      have hidle : (s.group i).call .app = .idle := hs
      simp [AppCall, hi, TaskGroup.step, hidle, Call.isClose]
  | cancel hst =>
      rw [hst] at hs
      exact (hkeeps (by simp)).idle hs
  | groupsClosed _ hall => exact (hkeeps (by simp)).returned (hall i hi)
  | joined hst =>
      rcases hst with hst | hst <;> rw [hst] at hs <;> exact (hkeeps (by simp)).returned hs
  | expire hst | ret hst =>
      rw [hst] at hs
      exact (hkeeps (by simp)).returned hs
  | tick | group | breakLoop | exitEarly | runReturns | dropServing | dropClosing =>
      exact hs.keeps (hkeeps (by simp))

theorem StopInv.move (hi : StopInv listeners s) (h : ServerMove grace listeners s a s') :
    StopInv listeners s' := by
  have hfinished : ∀ j, s.run j = .finished → s'.run j = .finished := by
    intro j hj
    rcases (h.listener j).run with he | hlt
    · rw [he, hj]
    · rw [hj] at hlt
      exact absurd hlt (Nat.not_lt_zero _)
  refine ⟨fun j => (h.listener j).runCall (hi.run j), fun j hj => (hi.app j hj).move hj h, ?_⟩
  intro todo hp j hj hn
  apply hfinished j
  cases h with
  | cancel | closeGroups => cases hp
  | groupsClosed =>
      cases hp
      exact absurd hj hn
  | @joined d k _ hst hk =>
      cases hp
      have hpend : s.stop.pending = some (k :: todo) := by
        rcases hst with hst | hst <;> rw [hst] <;> rfl
      by_cases hjk : j = k
      · rw [hjk, hk]
      · refine hi.joined _ hpend j hj fun hm => ?_
        rcases List.mem_cons.mp hm with he | hm
        · exact hjk he
        · exact hn hm
  | expire hst | ret hst =>
      cases hp
      exact hi.joined _ (by rw [hst]; rfl) j hj hn
  | tick | group | breakLoop | exitEarly | runReturns | dropServing | dropClosing =>
      exact hi.joined todo hp j hj hn

theorem StopInv.of_reachable (h : Transition.Reachable (system grace listeners) s) :
    StopInv listeners s := by
  refine h.invariant ?_ ?_
  · rintro s rfl
    exact ⟨fun _ => rfl, fun _ _ => rfl, nofun⟩
  · intro s a s' hi _ hs
    exact hi.move (step_move hs)

/-! ### The listeners' groups -/

/-- A step of the server is at most one step of a listener's group, or of the clock. -/
theorem group_of_step (h : s.step grace listeners a = some s') (i : ι) :
    (s'.now, s'.group i) = (s.now, s.group i) ∨ ∃ ev,
      (TaskGroup.system Caller).step (s.now, s.group i) ev = some (s'.now, s'.group i) := by
  rcases (step_move h).now with rfl | hnow
  · cases h
    exact .inr ⟨.tick, rfl⟩
  · rcases ((step_move h).listener i).group with hg | ⟨b, hg⟩
    · exact .inl (by rw [hnow, hg])
    · refine .inr ⟨.act b, ?_⟩
      simp [TaskGroup.system, hg, hnow]

/-- What a listener's group and the clock do in an execution of the server. -/
def ofListener (e : Execution (system grace listeners)) (i : ι) :
    Execution (TaskGroup.system Caller) where
  state n := ((e.state n).now, (e.state n).group i)
  init := by
    rw [show e.state 0 = .start ι from e.init]
    rfl
  next n := by
    rcases e.next n with hs | ⟨a, hs⟩
    · rw [hs]
      exact .inl rfl
    · exact group_of_step hs i

theorem internal_of_owed {b : TaskGroup.Action Caller} (hb : b.owed = true) :
    internal b = true := by
  cases b with
  | advance | recv | joinNext | elapse | complete | abort => rfl
  | spawn | close | acquire | cancel | exit => cases hb

section execution
variable {e : Execution (system grace listeners)} {n m : ℕ}

theorem enabled_group {b : TaskGroup.Action Caller} (hb : internal b = true)
    (h : (ofListener e i).Enabled (.act b) n) : e.Enabled (.group i b) n := by
  obtain ⟨s, hs⟩ := h
  obtain ⟨g, hg, -⟩ := Option.map_eq_some_iff.mp hs
  have hg : ((e.state n).group i).step (e.state n).now b = some g := hg
  exact ⟨_, by simp [system, Server.step, hb, hg]; rfl⟩

theorem takes_of_group {b : TaskGroup.Action Caller} (h : e.Takes (.group i b) n) :
    (ofListener e i).Takes (.act b) n := by
  have hs : (e.state n).step grace listeners (.group i b) = some (e.state (n + 1)) := h
  simp only [Server.step] at hs
  split_ifs at hs
  obtain ⟨g, hg, hs⟩ := Option.map_eq_some_iff.mp hs
  simp [Execution.Takes, ofListener, TaskGroup.system, ← hs, hg, Server.setGroup]

theorem Fair.ofListener (hf : Fair e) (i : ι) : TaskGroup.Fair (ofListener e i) where
  clock := hf.clock
  owed b hb n hen := by
    obtain ⟨m, hm, ht⟩ := hf.group i b hb n fun m hm =>
      enabled_group (internal_of_owed hb) (hen m hm)
    exact ⟨m, hm, takes_of_group ht⟩
  lock c n hen := by
    obtain ⟨m, hm, ht⟩ := hf.lock i c n fun m hm => by
      obtain ⟨l, hl, hal⟩ := hen m hm
      exact ⟨l, hl, enabled_group rfl hal⟩
    exact ⟨m, hm, takes_of_group ht⟩

/-! ### Fair executions -/

theorem inv_at (e : Execution (system grace listeners)) (n : ℕ) : StopInv listeners (e.state n) :=
  .of_reachable (e.reachable n)

theorem clock_le (e : Execution (system grace listeners)) (h : n ≤ m) :
    (e.state n).now ≤ (e.state m).now := by
  induction h with
  | refl => exact Nat.le_refl _
  | @step m _ ih =>
      apply Nat.le_trans ih
      rcases e.next m with hs | ⟨a, hs⟩
      · rw [hs]
      · rcases (step_move hs).now with rfl | hnow
        · exact Option.some.inj hs ▸ Nat.le_succ _
        · exact Nat.le_of_eq hnow.symm

theorem stop_settles (e : Execution (system grace listeners)) (n : ℕ) :
    ∃ m, n ≤ m ∧ ∀ l, m ≤ l → (e.state l).stop = (e.state m).stop := by
  apply e.settles (fun s => s.stop) (Stop.rank listeners.length)
  intro m _
  rcases e.next m with hs | ⟨a, hs⟩
  · rw [hs]
    exact .inl rfl
  · exact (step_move hs).lowers_or

theorem run_settles (e : Execution (system grace listeners)) (i : ι) (n : ℕ) :
    ∃ m, n ≤ m ∧ ∀ l, m ≤ l → (e.state l).run i = (e.state m).run i := by
  apply e.settles (fun s => s.run i) Run.rank
  intro m _
  rcases e.next m with hs | ⟨a, hs⟩
  · rw [hs]
    exact .inl rfl
  · exact ((step_move hs).listener i).run

theorem finished_at (h : (e.state n).run i = .finished) (hm : n ≤ m) :
    (e.state m).run i = .finished := by
  induction hm with
  | refl => exact h
  | @step m _ ih =>
      rcases e.next m with hs | ⟨a, hs⟩
      · rw [hs, ih]
      · rcases ((step_move hs).listener i).run with he | hlt
        · rw [he, ih]
        · rw [ih] at hlt
          exact absurd hlt (Nat.not_lt_zero _)

theorem Fair.not_stuck (hf : Fair e) (ho : a.owed = true) (ha : a.stops = true)
    (hsame : ∀ l, n ≤ l → (e.state l).stop = (e.state n).stop)
    (hen : ∃ m, n ≤ m ∧ ∀ l, m ≤ l → (e.state l).step grace listeners a ≠ none) : False := by
  obtain ⟨m, hm, hen⟩ := hen
  obtain ⟨l, hl, ht⟩ := hf.owed a ho m fun l hl => Option.ne_none_iff_exists'.mp (hen l hl)
  have hnl := Nat.le_trans hm hl
  have hlt := (step_move ht).lowers ha
  rw [hsame l hnl, hsame (l + 1) (Nat.le_succ_of_le hnl)] at hlt
  exact absurd hlt (Nat.lt_irrefl _)

theorem Fair.returns_of_isClose (hf : Fair e) {c : Caller}
    (hclose : ∀ l, n ≤ l → (((e.state l).group i).call c).isClose = true) :
    ∃ m, n ≤ m ∧ ∀ l, m ≤ l → ((e.state l).group i).call c = .closeReturned := by
  have hbegun : ((e.state n).group i).call c ≠ .idle := by
    intro hc
    have hcl := hclose n (Nat.le_refl n)
    rw [hc] at hcl
    cases hcl
  obtain ⟨m, hm, hend⟩ := (hf.ofListener i).call_ends (n := n) hbegun
  refine ⟨m, hm, fun l hl => ?_⟩
  have hsame : ((e.state l).group i).call c = ((e.state m).group i).call c :=
    TaskGroup.call_of_ended (Shutdown.ofListener e i) hend hl
  have hend : (((e.state m).group i).call c).ended = true := hend
  have hcl := hclose m hm
  rw [hsame]
  generalize ((e.state m).group i).call c = pc at hcl hend
  cases pc <;> simp_all [Call.isClose, Call.ended]

theorem Fair.groups_close (hf : Fair e) {d : ℕ} (hst : ∀ l, n ≤ l → (e.state l).stop = .closing d) :
    ∃ m, n ≤ m ∧ ∀ l, m ≤ l →
      ∀ i ∈ listeners, ((e.state l).group i).call .app = .closeReturned := by
  apply Execution.eventually_forall_mem (P := fun i l =>
    ((e.state l).group i).call .app = .closeReturned)
  intro i hi
  apply hf.returns_of_isClose
  intro l hl
  have happ := (inv_at e l).app i hi
  rwa [hst l hl] at happ

/-- A listener whose handle is aborted ends: its `run` is dropped, or it closes its group and
returns. -/
theorem Fair.run_ends (hf : Fair e) {d : ℕ} {todo : List ι}
    (hst : ∀ l, n ≤ l → (e.state l).stop = .aborting d i todo) :
    ∃ m, n ≤ m ∧ (e.state m).run i = .finished := by
  obtain ⟨m, hm, hsame⟩ := run_settles e i n
  cases hr : (e.state m).run i with
  | finished => exact ⟨m, hm, hr⟩
  | serving =>
      obtain ⟨l, hl, ht⟩ := hf.owed .dropRun rfl m fun l hl => by
        refine ⟨(e.state l).setRun i .finished, ?_⟩
        simp [system, Server.step, Server.dropRun, hst l (Nat.le_trans hm hl), hsame l hl, hr]
      have hnl := Nat.le_trans hm hl
      refine ⟨l + 1, Nat.le_succ_of_le hnl, ?_⟩
      have hs : (e.state l).step grace listeners .dropRun = some (e.state (l + 1)) := ht
      have hmove := step_move hs
      generalize e.state (l + 1) = s' at hmove
      cases hmove with
      | @dropServing d' j todo' hj _ =>
          obtain ⟨-, rfl, -⟩ := Stop.aborting.inj ((hst l hnl).symm.trans hj)
          simp [Server.setRun]
      | @dropClosing d' j todo' g hj _ _ =>
          obtain ⟨-, rfl, -⟩ := Stop.aborting.inj ((hst l hnl).symm.trans hj)
          simp [Server.setRun]
  | closing =>
      have hclose : ∀ l, m ≤ l → (((e.state l).group i).call .run).isClose = true := by
        intro l hl
        have hrun := (inv_at e l).run i
        rwa [hsame l hl, hr] at hrun
      obtain ⟨m', hm', hret⟩ := hf.returns_of_isClose hclose
      obtain ⟨l, hl, ht⟩ := hf.owed (.runReturns i) rfl m' fun l hl => by
        refine ⟨(e.state l).setRun i .finished, ?_⟩
        simp [system, Server.step, hsame l (Nat.le_trans hm' hl), hr, hret l hl]
      have hnl := Nat.le_trans hm (Nat.le_trans hm' hl)
      refine ⟨l + 1, Nat.le_succ_of_le hnl, ?_⟩
      have hs : (e.state l).step grace listeners (.runReturns i) = some (e.state (l + 1)) := ht
      have hmove := step_move hs
      generalize e.state (l + 1) = s' at hmove
      cases hmove with
      | runReturns => simp [Server.setRun]

/-- **`App::shutdown` returns.** -/
theorem Fair.stop_returns (hf : Fair e) (hbegun : (e.state n).stop ≠ .idle) :
    ∃ m, n ≤ m ∧ (e.state m).stop = .returned := by
  obtain ⟨m, hm, hsame⟩ := stop_settles e n
  refine ⟨m, hm, ?_⟩
  have hjoin : ∀ d i todo, ((e.state m).stop = .joining d (i :: todo) ∨
      (e.state m).stop = .aborting d i todo) →
      ∀ m', m ≤ m' → (e.state m').run i = .finished → False := by
    intro d i todo hst m' hm' hr
    refine hf.not_stuck (a := .joined) rfl rfl hsame ⟨m', hm', fun l hl => ?_⟩
    have hlate := finished_at hr hl
    rcases hst with hst | hst <;>
      simp [Server.step, Server.joined, hsame l (Nat.le_trans hm' hl), hst, hlate]
  cases hst : (e.state m).stop with
  | returned => rfl
  | idle =>
      refine absurd hst (e.always (I := fun s => s.stop ≠ .idle) hbegun ?_ m hm)
      exact fun n _ a hn hs => (step_move hs).stop_ne_idle hn
  | cancelled =>
      refine (hf.not_stuck (a := .closeGroups) rfl rfl hsame
        ⟨m, Nat.le_refl m, fun l hl => ?_⟩).elim
      simp [Server.step, Server.closeGroups, hsame l hl, hst]
  | closing d =>
      obtain ⟨m', hm', hall⟩ := hf.groups_close fun l hl => (hsame l hl).trans hst
      refine (hf.not_stuck (a := .groupsClosed) rfl rfl hsame ⟨m', hm', fun l hl => ?_⟩).elim
      have hclosed := hall l hl
      simp [Server.step, Server.groupsClosed, hsame l (Nat.le_trans hm' hl), hst]
      exact hclosed
  | joining d todo =>
      cases todo with
      | nil =>
          refine (hf.not_stuck (a := .ret) rfl rfl hsame ⟨m, Nat.le_refl m, fun l hl => ?_⟩).elim
          simp [Server.step, hsame l hl, hst]
      | cons i todo =>
          obtain ⟨late, hlate⟩ := hf.clock d
          refine (hf.not_stuck (a := .expire) rfl rfl hsame
            ⟨max m late, Nat.le_max_left m late, fun l hl => ?_⟩).elim
          have hml := Nat.le_trans (Nat.le_max_left m late) hl
          have hnow := Nat.le_trans hlate (clock_le e (Nat.le_trans (Nat.le_max_right m late) hl))
          have hr : (e.state l).run i ≠ .finished := fun hr => hjoin d i todo (.inl hst) l hml hr
          simp [Server.step, Server.expire, hsame l hml, hst, hr, hnow]
  | aborting d i todo =>
      obtain ⟨m', hm', hr⟩ := hf.run_ends fun l hl => (hsame l hl).trans hst
      exact (hjoin d i todo (.inr hst) m' hm' hr).elim

/-- **`App::shutdown` returns**, in every fair execution in which it has begun, and then no
listener runs and no group takes a child; in the end every child that a group has accepted has
exited and been joined. -/
theorem shutdown_returns (e : Execution (system grace listeners)) (hf : Fair e) {n : ℕ}
    (hbegun : (e.state n).stop ≠ .idle) :
    (∃ m, n ≤ m ∧ (e.state m).stop = .returned ∧ ∀ i ∈ listeners,
      (e.state m).run i = .finished ∧ ((e.state m).group i).closed = true) ∧
    ∀ i ∈ listeners, ∃ m, n ≤ m ∧ ∀ f, (((e.state m).group i).call f).accepted = true →
      f ∈ ((e.state m).group i).handed ∧ f ∉ ((e.state m).group i).tasks ∧
        (((e.state m).group i).status f).exited = true := by
  obtain ⟨m, hm, hret⟩ := hf.stop_returns hbegun
  have hclosed : ∀ i ∈ listeners, ((e.state m).group i).closed = true := by
    intro i hi
    have happ := (inv_at e m).app i hi
    rw [hret] at happ
    exact (TaskGroup.inv_at (ofListener e i) m).closer.returned .app happ
  refine ⟨⟨m, hm, hret, fun i hi => ⟨?_, hclosed i hi⟩⟩, fun i hi => ?_⟩
  · exact (inv_at e m).joined [] (by rw [hret]; rfl) i hi List.not_mem_nil
  · obtain ⟨l, hl, hs⟩ := (hf.ofListener i).settles (hclosed i hi)
    exact ⟨l, Nat.le_trans hm hl, fun f hacc =>
      hs.joined (TaskGroup.inv_at (ofListener e i) l) hacc⟩

end execution

/-! ### A fair execution -/

/-- Nothing is going on. -/
structure Quiet (s : Server ι) : Prop where
  stop : s.stop = .returned
  run : ∀ i, s.run i = .finished
  group : ∀ i, TaskGroup.Quiet (s.group i)

theorem Quiet.step_eq_none (hq : Quiet s) (ha : a.owed = true) :
    s.step grace listeners a = none := by
  cases a with
  | runReturns i => simp [Server.step, hq.run i]
  | closeGroups | groupsClosed | joined | expire | dropRun | ret =>
      simp [Server.step, Server.closeGroups, Server.groupsClosed, Server.joined, Server.expire,
        Server.dropRun, hq.stop]
  | tick | group | breakLoop | exitEarly | cancel => cases ha

/-- An execution that comes to rest while the clock goes on is fair. -/
theorem Fair.of_quiet {e : Execution (system grace listeners)} {N : ℕ}
    (hclock : ∀ t, ∃ n, t ≤ (e.state n).now) (hq : ∀ n, N ≤ n → Quiet (e.state n)) : Fair e := by
  have hgroup : ∀ (i : ι) (b : TaskGroup.Action Caller), (b.owed = true ∨ ∃ c, b = .acquire c) →
      e.StronglyFair (.group i b) := by
    intro i b hb
    refine .of_disabled (N := N) fun m hm => ?_
    rintro ⟨s, hs⟩
    simp [system, Server.step, ((hq m hm).group i).step_eq_none hb] at hs
  refine ⟨hclock, fun a ha => ?_, fun i b hb => (hgroup i b (.inl hb)).weaklyFair,
    fun i c => hgroup i _ (.inr ⟨c, rfl⟩)⟩
  apply Execution.StronglyFair.weaklyFair
  refine .of_disabled (N := N) fun m hm => ?_
  rintro ⟨s, hs⟩
  exact Option.some_ne_none s (hs.symm.trans ((hq m hm).step_eq_none ha))

theorem follow_tick (s : Server ι) (n : ℕ) :
    Transition.follow (system grace listeners) s (fun _ => .tick) n =
      { s with now := s.now + n } := by
  induction n with
  | zero => rfl
  | succ n ih =>
      rw [Transition.follow, ih]
      rfl

/-- `App::shutdown` has aborted the listener that has closed its group first, and returned; then
the deadline of the listener elapses. -/
def lateJoin : List (Action Unit) :=
  listenerFirst ++ .tick :: ([.elapse, .abort (.task 0), .joinNext (.task 0), .complete] :
    List (TaskGroup.Action Caller)).map (.group ())

def lateExecution : Execution (system 10 [()]) :=
  .followActions (s := .start Unit) rfl (lateJoin.getD · .tick)

theorem fair_lateExecution : Fair lateExecution := by
  obtain ⟨s, hrun, hquiet⟩ : ∃ s, Transition.run (system 10 [()]) (.start Unit) lateJoin = some s ∧
      Quiet s := by
    refine ⟨_, rfl, rfl, fun _ => rfl, fun _ => ⟨rfl, fun c => ?_⟩⟩
    rcases c with _ | _ | _ | c
    · exact .inr rfl
    · exact .inr rfl
    · exact .inr rfl
    · exact .inl rfl
  have hlate : ∀ n, lateExecution.state (n + lateJoin.length) = { s with now := s.now + n } :=
    fun n => (Transition.follow_of_run hrun n).trans (follow_tick s n)
  apply Fair.of_quiet (N := lateJoin.length)
  · intro t
    refine ⟨t + lateJoin.length, ?_⟩
    rw [hlate]
    exact Nat.le_add_left t s.now
  · intro n hn
    obtain ⟨m, rfl⟩ := Nat.exists_eq_add_of_le' hn
    rw [hlate]
    exact ⟨hquiet.stop, hquiet.run, hquiet.group⟩

theorem shutdown_returns_lateExecution :
    (∃ m, 7 ≤ m ∧ (lateExecution.state m).stop = .returned ∧ ∀ i ∈ [()],
      (lateExecution.state m).run i = .finished ∧
        ((lateExecution.state m).group i).closed = true) ∧
    ∀ i ∈ [()], ∃ m, 7 ≤ m ∧ ∀ f, (((lateExecution.state m).group i).call f).accepted = true →
      f ∈ ((lateExecution.state m).group i).handed ∧
        f ∉ ((lateExecution.state m).group i).tasks ∧
        (((lateExecution.state m).group i).status f).exited = true :=
  shutdown_returns lateExecution fair_lateExecution (n := 7) (by decide)

end DnsIngress.Shutdown
