import DnsIngress.AcceptLoop

/-! # The accept loop comes back, and stops

A client that has been accepted gets a permit, if no connection task runs for ever, and the loop
goes on to the next one.  Once the token is cancelled, the loop is left.

`Fair` is what the runtime is trusted with.  The branch of a permit is taken if one stays free.  A
`select!` of two branches that are both ready takes either: the branch of the token is passed over
any number of times, but not for ever. -/

namespace DnsIngress.AcceptLoop

open Transition (Execution)

variable {backoff : Option (UInt64 × UInt64)} {maxConnections : ℕ} {s s' : AcceptLoop} {a : Action}

/-- The steps that are taken if they can be taken. -/
def Action.owed : Action → Bool
  | .acquire | .spawn | .wake => true
  | _ => false

structure Fair (e : Execution (system backoff maxConnections)) : Prop where
  clock : ∀ t, ∃ n, t ≤ (e.state n).now
  owed : ∀ a : Action, a.owed = true → e.WeaklyFair a
  select : e.StronglyFair .stop

/-! ### What a step leaves as it is -/

theorem now_give (s : AcceptLoop) (client : ℕ) (phase : Accept) :
    (s.give client phase).now = s.now ∧ (s.give client phase).phase = phase ∧
      (s.give client phase).cancelled = s.cancelled := by
  unfold give
  split_ifs <;> exact ⟨rfl, rfl, rfl⟩

theorem now_fail (s : AcceptLoop) (backoff : Option (UInt64 × UInt64)) :
    (s.fail backoff).now = s.now ∧ (s.fail backoff).cancelled = s.cancelled := by
  unfold fail
  split <;> exact ⟨rfl, rfl⟩

theorem Move.now_le (hm : Move backoff s a s') : s.now ≤ s'.now := by
  cases hm with
  | acceptError => exact (now_fail s backoff).1.ge
  | spawn | abortSpawn => exact (now_give s _ _).1.ge
  | tick ms => exact Nat.le_add_right _ ms
  | accept | acquire | wake | stop | abortDrop | abort | finish | cancel | closeGroup =>
      exact Nat.le_refl _

theorem Move.cancelled (hm : Move backoff s a s') (h : s.cancelled = true) :
    s'.cancelled = true := by
  cases hm with
  | acceptError => exact (now_fail s backoff).2.trans h
  | spawn | abortSpawn => exact (now_give s _ _).2.2.trans h
  | cancel => rfl
  | accept | acquire | wake | stop | abortDrop | abort | finish | closeGroup | tick => exact h

theorem Move.stopped (hm : Move backoff s a s') (h : s.phase = .stopped) : s'.phase = .stopped := by
  cases hm with
  | accept hp | acceptError hp | acquire hp _ | spawn hp | wake hp _ | abortSpawn hp =>
      rw [h] at hp
      cases hp
  | stop | abortDrop | abort => rfl
  | finish | cancel | closeGroup | tick => exact h

theorem Move.of_not_selects (hm : Move backoff s a s') (h : s.phase.selects = false) :
    s'.phase = s.phase ∨ s'.phase = .accepting ∨ s'.phase = .stopped := by
  cases hm with
  | accept hp | acceptError hp | acquire hp _ =>
      rw [hp] at h
      cases h
  | spawn => exact .inr (.inl (now_give s _ _).2.1)
  | wake => exact .inr (.inl rfl)
  | abortSpawn => exact .inr (.inr (now_give s _ _).2.1)
  | stop | abortDrop | abort => exact .inr (.inr rfl)
  | finish | cancel | closeGroup | tick => exact .inl rfl

theorem Move.of_acquiring {client : ℕ} (hm : Move backoff s a s')
    (h : s.phase = .acquiring client) :
    s'.phase = s.phase ∧ (s'.tasks = s.tasks ∨ s'.tasks.length < s.tasks.length) ∨
      s'.phase = .spawning client ∨ s'.phase = .stopped := by
  cases hm with
  | accept hp | acceptError hp | spawn hp | wake hp _ | abortSpawn hp | abortDrop hp =>
      rw [h] at hp
      cases hp
  | acquire hp _ =>
      rw [h] at hp
      cases hp
      exact .inr (.inl rfl)
  | stop | abort => exact .inr (.inr rfl)
  | finish hc =>
      refine .inl ⟨rfl, .inr ?_⟩
      have hlen := List.length_erase_of_mem hc
      have hpos := List.length_pos_of_mem hc
      show (s.tasks.erase _).length < s.tasks.length
      omega
  | cancel | closeGroup | tick => exact .inl ⟨rfl, .inl rfl⟩

/-! ### The steps that help -/

section
variable (backoff)

theorem step_spawn {client : ℕ} (h : s.phase = .spawning client) :
    s.step backoff .spawn = some (s.give client .accepting) := by
  simp only [step, h]

theorem step_wake {deadline : ℕ} (h : s.phase = .sleeping deadline) (hnow : deadline ≤ s.now) :
    s.step backoff .wake = some { s with phase := .accepting } := by
  simp only [step, h, if_pos hnow]

theorem step_acquire {client : ℕ} (h : s.phase = .acquiring client) (hfree : 0 < s.free) :
    s.step backoff .acquire = some { s with phase := .spawning client, free := s.free - 1 } := by
  simp only [step, h, if_pos hfree]

theorem step_finish {client : ℕ} (h : client ∈ s.tasks) :
    s.step backoff (.finish client) =
      some { s with tasks := s.tasks.erase client, free := s.free + 1 } := by
  simp only [step, if_pos h]

theorem step_stop (h : s.phase.selects = true) (hc : s.cancelled = true) :
    s.step backoff .stop = some { s with phase := .stopped } := by
  cases hp : s.phase with
  | accepting | acquiring client => simp only [step, hp, if_pos hc]
  | spawning _ | sleeping _ | stopped =>
      rw [hp] at h
      cases h

theorem phase_of_spawn (hs : s.step backoff .spawn = some s') : s'.phase = .accepting := by
  cases move_of_step hs with
  | spawn => exact (now_give s _ _).2.1

theorem phase_of_wake (hs : s.step backoff .wake = some s') : s'.phase = .accepting := by
  cases move_of_step hs with
  | wake => rfl

theorem phase_of_stop (hs : s.step backoff .stop = some s') : s'.phase = .stopped := by
  cases move_of_step hs with
  | stop => rfl

theorem selects_of_acquire (hs : s.step backoff .acquire = some s') :
    s'.phase.selects = false := by
  cases move_of_step hs with
  | acquire => rfl

theorem tasks_ne_of_finish {client : ℕ} (hs : s.step backoff (.finish client) = some s') :
    s'.tasks ≠ s.tasks := by
  cases move_of_step hs with
  | finish hc =>
      intro (htasks : s.tasks.erase client = s.tasks)
      have hlen := congrArg List.length htasks
      have herase := List.length_erase_of_mem hc
      have hpos := List.length_pos_of_mem hc
      omega

end

/-! ### Whole executions -/

section
variable (e : Execution (system backoff maxConnections))

theorem now_mono {n m : ℕ} (h : n ≤ m) : (e.state n).now ≤ (e.state m).now :=
  e.always (I := fun s => (e.state n).now ≤ s.now) (Nat.le_refl _)
    (fun _ _ _ hle hs => Nat.le_trans hle (move_of_step hs).now_le) m h

variable {e}

theorem Fair.resumes (hfair : Fair e) {n : ℕ} (h : (e.state n).phase.selects = false) :
    ∃ m, n ≤ m ∧ ((e.state m).phase = .accepting ∨ (e.state m).phase = .stopped) := by
  by_contra hno
  have hstay : ∀ m, n ≤ m → (e.state m).phase = (e.state n).phase := by
    refine e.always (I := fun s => s.phase = (e.state n).phase) rfl fun m hm b hp hs => ?_
    rcases (move_of_step hs).of_not_selects (by rw [hp]; exact h) with hsame | hdone
    · exact hsame.trans hp
    · exact absurd ⟨m + 1, Nat.le_succ_of_le hm, hdone⟩ hno
  obtain ⟨b, n', hn', howed, hen, htake⟩ : ∃ b n', n ≤ n' ∧ Action.owed b = true ∧
      (∀ m, n' ≤ m → e.Enabled b m) ∧
      ∀ s s' : AcceptLoop, s.step backoff b = some s' → s'.phase ≠ (e.state n).phase := by
    cases hphase : (e.state n).phase with
    | accepting | acquiring client =>
        rw [hphase] at h
        cases h
    | stopped => exact absurd ⟨n, Nat.le_refl n, .inr hphase⟩ hno
    | spawning client =>
        refine ⟨.spawn, n, Nat.le_refl n, rfl, fun m hm => ?_, fun s s' hs hp => ?_⟩
        · exact ⟨_, step_spawn backoff ((hstay m hm).trans hphase)⟩
        · rw [phase_of_spawn backoff hs] at hp
          cases hp
    | sleeping deadline =>
        obtain ⟨n', hn'⟩ := hfair.clock deadline
        refine ⟨.wake, max n n', Nat.le_max_left n n', rfl, fun m hm => ?_, fun s s' hs hp => ?_⟩
        · have hm' := Nat.le_trans hn' (now_mono e (Nat.le_trans (Nat.le_max_right n n') hm))
          exact ⟨_, step_wake backoff
            ((hstay m (Nat.le_trans (Nat.le_max_left n n') hm)).trans hphase) hm'⟩
        · rw [phase_of_wake backoff hs] at hp
          cases hp
  obtain ⟨m, hm, ht⟩ := hfair.owed b howed n' hen
  exact htake _ _ ht (hstay (m + 1) (by omega))

theorem Fair.acquires (hfair : Fair e) (hmax : 0 < maxConnections)
    (hends : ∀ client, e.WeaklyFair (.finish client)) {n client : ℕ}
    (h : (e.state n).phase = .acquiring client) :
    ∃ m, n ≤ m ∧ ((e.state m).phase = .spawning client ∨ (e.state m).phase = .stopped) := by
  by_contra hno
  have hnext : ∀ m b, n ≤ m → (e.state m).phase = .acquiring client →
      (e.state m).step backoff b = some (e.state (m + 1)) →
      (e.state (m + 1)).phase = .acquiring client ∧
        ((e.state (m + 1)).tasks = (e.state m).tasks ∨
          (e.state (m + 1)).tasks.length < (e.state m).tasks.length) := by
    intro m b hm hp hs
    rcases (move_of_step hs).of_acquiring hp with ⟨hsame, htasks⟩ | hdone
    · exact ⟨hsame.trans hp, htasks⟩
    · exact absurd ⟨m + 1, Nat.le_succ_of_le hm, hdone⟩ hno
  have hstay : ∀ m, n ≤ m → (e.state m).phase = .acquiring client :=
    e.always (I := fun s => s.phase = .acquiring client) h fun m hm b hp hs =>
      (hnext m b hm hp hs).1
  obtain ⟨-, -, hfalse⟩ := e.eventually_of_fair (G := fun _ => False) tasks List.length
    (fun m hm => by
      rcases e.next m with hsame | ⟨b, hs⟩
      · exact .inl (congrArg tasks hsame)
      · exact (hnext m b hm (hstay m hm) hs).2)
    (fun m hm _ => by
      have hpermits : ∀ l, m ≤ l →
          (e.state l).free + (e.state l).tasks.length = maxConnections := by
        intro l hl
        have := (bounded_of_reachable (e.reachable l)).permits
        rwa [hstay l (Nat.le_trans hm hl)] at this
      have hsum := hpermits m (Nat.le_refl m)
      by_cases hfree : 0 < (e.state m).free
      · refine ⟨.acquire, m, Nat.le_refl m, hfair.owed .acquire rfl, fun l hl hsame => ?_⟩
        have hfree' : 0 < (e.state l).free := by
          have := hpermits l hl
          rw [hsame] at this
          omega
        refine ⟨⟨_, step_acquire backoff (hstay l (Nat.le_trans hm hl)) hfree'⟩, fun ht => ?_⟩
        have hp := hstay (l + 1) (by omega)
        have hleft := selects_of_acquire backoff ht
        rw [hp] at hleft
        cases hleft
      · obtain ⟨k, hk⟩ : ∃ k, k ∈ (e.state m).tasks := List.exists_mem_of_length_pos (by omega)
        refine ⟨.finish k, m, Nat.le_refl m, hends k, fun l hl hsame => ?_⟩
        exact ⟨⟨_, step_finish backoff (hsame ▸ hk)⟩, tasks_ne_of_finish backoff⟩)
  exact hfalse

/-- **The accept loop** accepts again and again, if no task runs for ever, until it is told to stop,
and then it stops. -/
theorem run_returns (hmax : 0 < maxConnections) (e : Execution (system backoff maxConnections))
    (hfair : Fair e) :
    ((∀ client, e.WeaklyFair (.finish client)) → ∀ n, ∃ m, n ≤ m ∧
      ((e.state m).phase = .accepting ∨ (e.state m).phase = .stopped)) ∧
    ∀ n, (e.state n).cancelled = true → ∃ m, n ≤ m ∧ ∀ l, m ≤ l → (e.state l).phase = .stopped := by
  constructor
  · intro hends n
    cases hphase : (e.state n).phase with
    | accepting => exact ⟨n, Nat.le_refl n, .inl hphase⟩
    | acquiring client =>
        obtain ⟨m, hm, hp⟩ := hfair.acquires hmax hends hphase
        have hselects : (e.state m).phase.selects = false := by
          rcases hp with hp | hp <;> rw [hp] <;> rfl
        obtain ⟨l, hl, hdone⟩ := hfair.resumes hselects
        exact ⟨l, Nat.le_trans hm hl, hdone⟩
    | spawning _ | sleeping _ | stopped => exact hfair.resumes (by rw [hphase]; rfl)
  · intro n hc
    have hcancelled : ∀ m, n ≤ m → (e.state m).cancelled = true :=
      e.always (I := fun s => s.cancelled = true) hc fun _ _ _ h hs => (move_of_step hs).cancelled h
    obtain ⟨m, hm, hp⟩ : ∃ m, n ≤ m ∧ (e.state m).phase = .stopped := by
      by_contra hno
      obtain ⟨m, hm, ht⟩ := hfair.select n fun m hm => by
        by_cases hselects : (e.state m).phase.selects = true
        · exact ⟨m, Nat.le_refl m, _, step_stop backoff hselects (hcancelled m hm)⟩
        · obtain ⟨l, hl, hp | hp⟩ := hfair.resumes (Bool.not_eq_true _ ▸ hselects)
          · exact ⟨l, hl, _, step_stop backoff (by rw [hp]; rfl)
              (hcancelled l (Nat.le_trans hm hl))⟩
          · exact absurd ⟨l, Nat.le_trans hm hl, hp⟩ hno
      exact hno ⟨m + 1, Nat.le_succ_of_le hm, phase_of_stop backoff ht⟩
    exact ⟨m, hm, e.always (I := fun s => s.phase = .stopped) hp fun _ _ _ h hs =>
      (move_of_step hs).stopped h⟩

end

/-- The second of two clients waits for the permit of the first one; then the listener stops. -/
def twoClients : List Action :=
  [.accept, .acquire, .spawn, .accept, .finish 0, .acquire, .spawn, .finish 1, .cancel, .stop]

def twoClientsExecution : Execution (system none 1) :=
  .followActions (s := new 1) rfl (twoClients.getD · (.tick 1))

theorem follow_tick (s : AcceptLoop) (n : ℕ) :
    Transition.follow (system backoff maxConnections) s (fun _ => .tick 1) n =
      { s with now := s.now + n } := by
  induction n with
  | zero => rfl
  | succ n ih => rw [Transition.follow, ih]; rfl

theorem late_twoClientsExecution {n : ℕ} (hn : twoClients.length ≤ n) :
    (twoClientsExecution.state n).now = n - twoClients.length ∧
      (twoClientsExecution.state n).phase = .stopped ∧
      (twoClientsExecution.state n).tasks = [] := by
  obtain ⟨s, hrun, hnow, hphase, htasks⟩ : ∃ s,
      Transition.run (system none 1) (new 1) twoClients = some s ∧ s.now = 0 ∧
        s.phase = .stopped ∧ s.tasks = [] := ⟨_, rfl, rfl, rfl, rfl⟩
  obtain ⟨m, rfl⟩ := Nat.exists_eq_add_of_le' hn
  have hlate : twoClientsExecution.state (m + twoClients.length) = { s with now := s.now + m } :=
    (Transition.follow_of_run hrun m).trans (follow_tick s m)
  rw [hlate]
  exact ⟨by simp [hnow], hphase, htasks⟩

theorem disabled_twoClientsExecution {b : Action} {n : ℕ} (hn : twoClients.length ≤ n)
    (hb : b = .stop ∨ b.owed = true ∨ ∃ client, b = .finish client) :
    ¬ twoClientsExecution.Enabled b n := by
  rintro ⟨s', hs⟩
  obtain ⟨-, hphase, htasks⟩ := late_twoClientsExecution hn
  have hm : Move none (twoClientsExecution.state n) b s' := move_of_step hs
  cases hm with
  | acquire hp _ | spawn hp | wake hp _ | stop hp _ =>
      rw [hphase] at hp
      cases hp
  | finish hc =>
      rw [htasks] at hc
      cases hc
  | accept | acceptError | abortSpawn | abortDrop | abort | cancel | closeGroup | tick =>
      simp [Action.owed] at hb

theorem fair_twoClientsExecution : Fair twoClientsExecution where
  clock t := ⟨t + twoClients.length, by
    rw [(late_twoClientsExecution (Nat.le_add_left _ t)).1]
    omega⟩
  owed b hb := (Execution.StronglyFair.of_disabled fun _ hn =>
    disabled_twoClientsExecution hn (.inr (.inl hb))).weaklyFair
  select := .of_disabled fun _ hn => disabled_twoClientsExecution hn (.inl rfl)

theorem run_returns_twoClients :
    (∃ m, 4 ≤ m ∧ ((twoClientsExecution.state m).phase = .accepting ∨
      (twoClientsExecution.state m).phase = .stopped)) ∧
    ∃ m, 9 ≤ m ∧ ∀ l, m ≤ l → (twoClientsExecution.state l).phase = .stopped := by
  have hends : ∀ client, twoClientsExecution.WeaklyFair (.finish client) := fun client =>
    (Execution.StronglyFair.of_disabled fun _ hn =>
      disabled_twoClientsExecution hn (.inr (.inr ⟨client, rfl⟩))).weaklyFair
  have h := run_returns (by decide) twoClientsExecution fair_twoClientsExecution
  exact ⟨h.1 hends 4, h.2 9 (by decide)⟩

end DnsIngress.AcceptLoop
