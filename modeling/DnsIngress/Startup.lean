import DnsIngress.Error
import DnsIngress.Transition
import Mathlib.Tactic.SplitIfs
import Mathlib.Tactic.Common

/-! # `App::start`, the listener tasks and the ready flag

`App::start` clears the two flags `ready` and `failed`, spawns one task for every enabled
listener, waits for the readiness report of each in turn, reads `failed` and stores `ready`.
Every task runs a listener and, when its `run` returns an error while the token is not
cancelled, stores `failed` and clears `ready`.  No lock orders these accesses, so each of them
is an atomic step of its own:

* **`start`** has a program counter (`Phase`), which goes on through `App::shutdown`: clear
  `ready`, cancel the token (for ever: a later `start` uses the same token), join every task.
* **A listener task** (`Task`) binds its socket, reports, serves, and ends: `run` returns an
  error or `Ok`, or the task panics, at any time.
* `start` may be called again once `shutdown` has joined every task.

A task is alive until it has executed the stores that follow the end of its `run`. -/

namespace DnsIngress.Startup

open Function (update)

inductive Listener
  | healthcheck | dot | doh | doq | doh3
deriving DecidableEq

/-- The order in which `App::start` spawns them. -/
def Listener.all : List Listener := [.healthcheck, .dot, .doh, .doq, .doh3]

def Listener.name : Listener → Bytes
  | .healthcheck => utf8 "healthcheck"
  | .dot => utf8 "DoT"
  | .doh => utf8 "DoH"
  | .doq => utf8 "DoQ"
  | .doh3 => utf8 "DoH3"

/-- The accept loop ends when `endpoint.accept()` yields `None`. -/
def Listener.isQuic : Listener → Bool
  | .doq | .doh3 => true
  | .healthcheck | .dot | .doh => false

/-- What a listener has sent on its readiness channel. -/
inductive Report
  | pending
  | bound
  | error (e : DnsProxyError)
deriving DecidableEq

/-- Program counter of the task that `spawn_server` makes. -/
inductive Pc
  | unspawned
  /-- in `run`, before its report -/
  | binding
  /-- in the accept loop of `run` -/
  | serving
  /-- `run` returned an error, `shutdown.is_cancelled()` not yet read -/
  | returnedErr
  /-- before `failed.store(true)` -/
  | failing
  /-- before `ready.store(false)` -/
  | failedStored
  | ended
deriving DecidableEq

structure Task where
  pc : Pc
  report : Report
deriving DecidableEq

/-- The steps of a listener task. -/
inductive Event
  | reportBound
  | reportError (error : DnsProxyError)
  | returnErr | returnOk | panic | checkCancelled | storeFailed | clearReady | abort
deriving DecidableEq

namespace Task

def unspawned : Task := ⟨.unspawned, .pending⟩

def spawned : Task := ⟨.binding, .pending⟩

def alive (t : Task) : Bool :=
  match t.pc with
  | .unspawned | .ended => false
  | .binding | .serving | .returnedErr | .failing | .failedStored => true

/-- `run` has returned or panicked, so an unused readiness sender was dropped. -/
def runEnded (t : Task) : Bool :=
  match t.pc with
  | .returnedErr | .failing | .failedStored | .ended => true
  | .unspawned | .binding | .serving => false

/-- One step of the task of listener `i`; `aborted` says whether `handle.abort()` may reach it. -/
def step (i : Listener) (cancelled aborted : Bool) (t : Task) : Event → Option Task
  | .reportBound => if t = spawned then some ⟨.serving, .bound⟩ else none
  | .reportError error => if t = spawned then some ⟨.returnedErr, .error error⟩ else none
  | .returnErr =>
      if t.pc = .binding ∨ t.pc = .serving then some { t with pc := .returnedErr } else none
  | .returnOk =>
      -- the accept loop is left
      if t.pc = .serving ∧ (cancelled || i.isQuic) then some { t with pc := .ended } else none
  | .panic => if t.pc = .binding ∨ t.pc = .serving then some { t with pc := .ended } else none
  | .checkCancelled =>
      if t.pc = .returnedErr then some { t with pc := if cancelled then .ended else .failing }
      else none
  | .storeFailed => if t.pc = .failing then some { t with pc := .failedStored } else none
  | .clearReady => if t.pc = .failedStored then some { t with pc := .ended } else none
  | .abort =>
      if aborted ∧ (t.pc = .binding ∨ t.pc = .serving) then some { t with pc := .ended } else none

end Task

/-- Program counter of `App::start` and `App::shutdown`.  `shutdown` carries the error that
`start` returns after it, if `start` called it. -/
inductive Phase
  /-- no call in progress, nothing spawned -/
  | idle
  /-- before `self.failed.store(false)` -/
  | resetting
  /-- before the certificate checks -/
  | checking
  | spawning (todo : List Listener)
  /-- awaiting the readiness of the first listener in `todo`; the load of `failed` is next when
  there is none -/
  | awaiting (todo : List Listener)
  /-- before `self.ready.store(true)` -/
  | storing
  /-- `start` has returned `Ok` -/
  | running
  /-- in `shutdown`, before `self.ready.store(false)` -/
  | stopping (error : Option DnsProxyError)
  | cancelling (error : Option DnsProxyError)
  /-- closing the groups and joining the handles -/
  | joining (error : Option DnsProxyError)
deriving DecidableEq

/-- `App::shutdown` is in progress. -/
def Phase.inShutdown : Phase → Bool
  | .stopping _ | .cancelling _ | .joining _ => true
  | .idle | .resetting | .checking | .spawning _ | .awaiting _ | .storing | .running => false

structure App where
  ready : Bool
  failed : Bool
  /-- the cancellation token -/
  cancelled : Bool
  phase : Phase
  task : Listener → Task
  /-- what the last call of `start` returned -/
  result : Option (Except DnsProxyError Unit)

inductive Action
  /-- `start` returns the error of `validate_and_load_upstream_roots` -/
  | rejectConfig (error : DnsProxyError)
  | start
  | resetFailed
  /-- the certificate checks, with the error of `CertificateResolver::new` if it fails -/
  | checkCertificates (certificates : Bool) (error : Option DnsProxyError)
  | spawnServer
  | receive
  | loadFailed
  | storeReady
  | shutdown
  | clearReady
  | cancel
  | joined
  | listener (i : Listener) (e : Event)

namespace App

/-- `App::new`. -/
def new : App where
  ready := false
  failed := false
  cancelled := false
  phase := .idle
  task := fun _ => .unspawned
  result := none

variable (enabled : Listener → Bool) (s : App)

/-- The enabled listeners, in the order of `readiness`. -/
def readiness : List Listener := Listener.all.filter enabled

/-- The certificate checks of `start`, needed for a DNS listener only. -/
def checkCertificates (certificates : Bool) (error : Option DnsProxyError) : Option DnsProxyError :=
  if [Listener.dot, .doh, .doq, .doh3].any enabled then
    if certificates then error
    else some (.tls (utf8 "at least one TLS certificate is required for an enabled DNS listener"))
  else none

/-- `receiver.await`. -/
def receive (i : Listener) (todo : List Listener) : Option App :=
  match (s.task i).report with
  | .bound => some { s with phase := .awaiting todo }
  | .error error => some { s with phase := .stopping (some error) }
  | .pending =>
      -- the sender was dropped
      if (s.task i).runEnded then
        some { s with phase := .stopping (some (.protocol
          (i.name ++ utf8 " server exited before reporting listener readiness"))) }
      else none

/-- A step of a listener task, with what it stores. -/
def listenerStep (i : Listener) (e : Event) : Option App :=
  ((s.task i).step i s.cancelled (s.phase matches .joining _) e).map fun t =>
    { s with
      task := update s.task i t
      failed := s.failed || e = .storeFailed
      ready := s.ready && e ≠ .clearReady }

def step (a : Action) : Option App :=
  match a, s.phase with
  | .rejectConfig error, .idle => some { s with result := some (.error error) }
  | .start, .idle => some { s with ready := false, phase := .resetting, result := none }
  | .resetFailed, .resetting => some { s with failed := false, phase := .checking }
  | .checkCertificates certificates error, .checking =>
      match checkCertificates enabled certificates error with
      | none => some { s with phase := .spawning (readiness enabled) }
      | some e => some { s with phase := .idle, result := some (.error e) }
  | .spawnServer, .spawning (i :: todo) =>
      some { s with task := update s.task i .spawned, phase := .spawning todo }
  | .spawnServer, .spawning [] => some { s with phase := .awaiting (readiness enabled) }
  | .receive, .awaiting (i :: todo) => s.receive i todo
  | .loadFailed, .awaiting [] =>
      if s.failed then
        some { s with
          phase := .stopping (some (.protocol (utf8 "a listener exited during startup"))) }
      else some { s with phase := .storing }
  | .storeReady, .storing =>
      some { s with ready := true, phase := .running, result := some (.ok ()) }
  | .shutdown, .running | .shutdown, .idle => some { s with phase := .stopping none }
  | .clearReady, .stopping e => some { s with ready := false, phase := .cancelling e }
  | .cancel, .cancelling e => some { s with cancelled := true, phase := .joining e }
  | .joined, .joining e =>
      if ∀ i ∈ Listener.all, (s.task i).alive = false then
        some { s with
          phase := .idle
          task := fun _ => .unspawned
          result := (e.map .error).or s.result }
      else none
  | .listener i e, _ => s.listenerStep i e
  | _, _ => none

end App

/-- One `App`, its listener tasks and any number of calls of `start` and `shutdown`. -/
def system (enabled : Listener → Bool) : Transition.System App Action where
  init s := s = .new
  step := App.step enabled

/-- After `start` has returned `Ok`, and until `shutdown` is called, the task of every enabled
listener is alive if `ready` is set. -/
def ReadyTruthful (enabled : Listener → Bool) (s : App) : Prop :=
  s.phase = .running → s.ready = true → ∀ i, enabled i = true → (s.task i).alive = true

/-! ### The steps of one task -/

namespace Task

variable {i : Listener} {cancelled aborted : Bool} {t t' : Task} {e : Event}

/-- The cases of `step`. -/
inductive Move (i : Listener) (cancelled aborted : Bool) (t : Task) : Event → Task → Prop
  | bound : t = spawned → Move i cancelled aborted t .reportBound ⟨.serving, .bound⟩
  | failedToBind {error} : t = spawned →
      Move i cancelled aborted t (.reportError error) ⟨.returnedErr, .error error⟩
  | returnedErr : t.pc = .binding ∨ t.pc = .serving →
      Move i cancelled aborted t .returnErr { t with pc := .returnedErr }
  | returnedOk : t.pc = .serving →
      Move i cancelled aborted t .returnOk { t with pc := .ended }
  | panicked : t.pc = .binding ∨ t.pc = .serving →
      Move i cancelled aborted t .panic { t with pc := .ended }
  /-- the error is of a shutdown -/
  | excused : t.pc = .returnedErr → cancelled = true →
      Move i cancelled aborted t .checkCancelled { t with pc := .ended }
  | failing : t.pc = .returnedErr →
      Move i cancelled aborted t .checkCancelled { t with pc := .failing }
  | storedFailed : t.pc = .failing →
      Move i cancelled aborted t .storeFailed { t with pc := .failedStored }
  | clearedReady : t.pc = .failedStored →
      Move i cancelled aborted t .clearReady { t with pc := .ended }
  | aborted : aborted = true → t.pc = .binding ∨ t.pc = .serving →
      Move i cancelled aborted t .abort { t with pc := .ended }

theorem move_of_step (h : t.step i cancelled aborted e = some t') :
    Move i cancelled aborted t e t' := by
  cases e with
  | checkCancelled =>
      simp only [step] at h
      split_ifs at h with hp hc <;> cases h
      · exact .excused hp hc
      · exact .failing hp
  | _ =>
      simp only [step] at h
      split_ifs at h with hp
      cases h
      constructor <;> first | exact hp | exact hp.1 | exact hp.2

theorem report_step (h : t.step i cancelled aborted e = some t') (hb : t.report = .bound) :
    t'.report = .bound := by
  cases move_of_step h with
  | bound | failedToBind =>
      subst t
      cases hb
  | _ => exact hb

theorem report_of_step (h : t.step i cancelled aborted e = some t') (hb : t'.report = .bound)
    (hp : t'.pc ≠ .serving) : t.report = .bound := by
  cases move_of_step h with
  | bound => exact absurd rfl hp
  | failedToBind => cases hb
  | _ => exact hb

theorem spawned_step (h : t.step i cancelled aborted e = some t') :
    t.pc ≠ .unspawned ∧ t'.pc ≠ .unspawned ∧ t'.pc ≠ .binding := by
  cases move_of_step h <;> simp_all [spawned] <;> grind

theorem failedStored_of_step (h : t.step i cancelled aborted e = some t')
    (hp : t'.pc = .failedStored) : e = .storeFailed := by
  cases move_of_step h with
  | storedFailed => rfl
  | _ => cases hp

theorem ended_of_step (h : t.step i cancelled aborted e = some t') (hp : t'.pc = .ended) :
    e = .returnOk ∨ e = .panic ∨ (e = .checkCancelled ∧ cancelled = true) ∨
      (e = .clearReady ∧ t.pc = .failedStored) ∨ aborted = true := by
  cases move_of_step h with
  | bound | failedToBind | returnedErr | failing | storedFailed => cases hp
  | returnedOk => exact .inl rfl
  | panicked => exact .inr (.inl rfl)
  | excused _ hc => exact .inr (.inr (.inl ⟨rfl, hc⟩))
  | clearedReady hf => exact .inr (.inr (.inr (.inl ⟨rfl, hf⟩)))
  | aborted ha => exact .inr (.inr (.inr (.inr ha)))

end Task

/-! ### The invariant -/

/-- No task of this call of `start` exists yet. -/
def Phase.unspawned : Phase → Bool
  | .idle | .resetting | .checking => true
  | .spawning _ | .awaiting _ | .storing | .running | .stopping _ | .cancelling _ | .joining _ =>
      false

/-- The listeners whose readiness `start` has still to receive, once all are spawned. -/
def Phase.awaited : Phase → Option (List Listener)
  | .awaiting todo => some todo
  | .storing | .running => some []
  | .idle | .resetting | .checking | .spawning _ | .stopping _ | .cancelling _ | .joining _ => none

/-- Outside `shutdown`, a listener whose socket is bound does not end otherwise than by an error
that its task records; and the task does not clear `ready` after `start` has read `failed` and
before it stores `ready`. -/
def Recorded (s : App) : Action → Prop
  | .listener i e => (s.task i).report = .bound → s.phase.inShutdown = false →
      e ≠ .returnOk ∧ e ≠ .panic ∧ (e = .checkCancelled → s.cancelled = false) ∧
        (e = .clearReady → s.phase ≠ .storing)
  | _ => True

structure Inv (enabled : Listener → Bool) (s : App) : Prop where
  fresh : s.phase.unspawned = true → ∀ i, s.task i = .unspawned
  spawned : ∀ i, (s.task i).report = .bound → (s.task i).pc ≠ .unspawned
  reported : ∀ todo, s.phase.awaited = some todo → ∀ i, enabled i = true → i ∉ todo →
    (s.task i).report = .bound
  flagged : s.phase.inShutdown = false → ∀ i, (s.task i).report = .bound →
    (s.task i).pc = .failedStored ∨ (s.task i).pc = .ended → s.failed = true
  storing : s.phase = .storing → ∀ i, enabled i = true → (s.task i).pc ≠ .ended
  running : s.phase = .running → s.ready = true → ∀ i, enabled i = true → (s.task i).pc ≠ .ended

namespace Inv

variable {enabled : Listener → Bool} {s s' : App}

theorem new : Inv enabled .new where
  fresh _ _ := rfl
  spawned _ h := by cases h
  reported _ h := by cases h
  flagged _ _ h := by cases h
  storing h := by cases h
  running h := by cases h

theorem advance {p : Phase} {r f c : Bool} {res : Option (Except DnsProxyError Unit)}
    (hi : Inv enabled s) (hu : p.unspawned = true → s.phase.unspawned = true)
    (hs : p.awaited = none) (hf : p.inShutdown = false → s.phase.inShutdown = false)
    (hff : p.inShutdown = false → s.failed = true → f = true ∨ s.phase.unspawned = true) :
    Inv enabled { s with ready := r, failed := f, cancelled := c, phase := p, result := res } where
  fresh h := hi.fresh (hu h)
  spawned := hi.spawned
  reported todo h := by rw [hs] at h; cases h
  flagged h i hb hp := by
    rcases hff h (hi.flagged (hf h) i hb hp) with h | h
    · exact h
    · rw [hi.fresh h i] at hb; cases hb
  storing h := by subst h; cases hs
  running h := by subst h; cases hs

/-- An enabled listener of which `start` knows that its socket is bound. -/
theorem report (hi : Inv enabled s) (h : s.phase.awaited = some []) {i : Listener}
    (he : enabled i = true) : (s.task i).report = .bound :=
  hi.reported [] h i he List.not_mem_nil

theorem receive {i : Listener} {todo : List Listener} (hi : Inv enabled s)
    (hp : s.phase = .awaiting (i :: todo)) (h : s.receive i todo = some s') : Inv enabled s' := by
  have hsd : s.phase.inShutdown = false := by rw [hp]; rfl
  unfold App.receive at h
  split at h
  · next hb =>
      cases h
      refine ⟨nofun, hi.spawned, ?_, fun _ => hi.flagged hsd, nofun, nofun⟩
      rintro _ ⟨⟩ j he hn
      by_cases hj : j = i
      · rw [hj, hb]
      · exact hi.reported _ (by rw [hp]; rfl) j he (by simp [hj, hn])
  · cases h
    exact hi.advance nofun rfl nofun nofun
  · split_ifs at h
    cases h
    exact hi.advance nofun rfl nofun nofun

theorem listenerStep {i : Listener} {e : Event} (hi : Inv enabled s)
    (hok : Recorded s (.listener i e)) (h : s.listenerStep i e = some s') : Inv enabled s' := by
  obtain ⟨t, ht, rfl⟩ := Option.map_eq_some_iff.mp h
  have hsp := Task.spawned_step ht
  have hend : s.phase.inShutdown = false → (s.task i).report = .bound → t.pc = .ended →
      e = .clearReady ∧ s.phase ≠ .storing ∧ (s.task i).pc = .failedStored := by
    intro hsd hb hp
    obtain ⟨hno, hnp, hnc, hcl⟩ := hok hb hsd
    rcases Task.ended_of_step ht hp with h | h | ⟨h, hc⟩ | ⟨h, hp⟩ | h
    · exact absurd h hno
    · exact absurd h hnp
    · rw [hnc h] at hc; cases hc
    · exact ⟨h, hcl h, hp⟩
    · cases hph : s.phase <;> simp_all [Phase.inShutdown]
  refine ⟨fun hu => ?_, fun j hb => ?_, fun todo hw j he hn => ?_, fun hsd j hb hp => ?_,
    fun hst j he => ?_, fun hru hr j he => ?_⟩
  all_goals simp only [Function.update_apply, Bool.or_eq_true, Bool.and_eq_true,
    decide_eq_true_eq] at *
  · rw [hi.fresh hu i] at hsp
    exact absurd rfl hsp.1
  · split_ifs at hb ⊢
    · exact hsp.2.1
    · exact hi.spawned j hb
  · split_ifs with hj
    · subst hj; exact Task.report_step ht (hi.reported todo hw j he hn)
    · exact hi.reported todo hw j he hn
  · split_ifs at hb hp with hj
    · rcases hp with hp | hp
      · exact .inr (Task.failedStored_of_step ht hp)
      · have hb' := Task.report_of_step ht hb (by rw [hp]; nofun)
        exact .inl (hi.flagged hsd i hb' (.inl (hend hsd hb' hp).2.2))
    · exact .inl (hi.flagged hsd j hb hp)
  · split_ifs with hj
    · intro hp
      subst hj
      exact (hend (by rw [hst]; rfl) (hi.report (by rw [hst]; rfl) he) hp).2.1 hst
    · exact hi.storing hst j he
  · split_ifs with hj
    · intro hp
      subst hj
      exact hr.2 (hend (by rw [hru]; rfl) (hi.report (by rw [hru]; rfl) he) hp).1
    · exact hi.running hru hr.1 j he

/-- The load of `failed`: no task of this call of `start` has ended. -/
theorem loadFailed (hi : Inv enabled s) (hp : s.phase = .awaiting []) (hf : s.failed = false) :
    Inv enabled { s with phase := .storing } := by
  have hsd : s.phase.inShutdown = false := by rw [hp]; rfl
  have hb : ∀ i, enabled i = true → (s.task i).report = .bound := fun i he =>
    hi.report (by rw [hp]; rfl) he
  refine ⟨nofun, hi.spawned, ?_, fun _ => hi.flagged hsd, fun _ i he hend => ?_, nofun⟩
  · rintro _ - i he -
    exact hb i he
  · rw [hi.flagged hsd i (hb i he) (.inr hend)] at hf
    cases hf

theorem spawnServer {i : Listener} {todo : List Listener} (hi : Inv enabled s)
    (hp : s.phase = .spawning (i :: todo)) :
    Inv enabled { s with task := update s.task i .spawned, phase := .spawning todo } := by
  have hsd : s.phase.inShutdown = false := by rw [hp]; rfl
  refine ⟨nofun, fun j hb => ?_, nofun, fun _ j hb hpc => ?_, nofun, nofun⟩
  all_goals simp only [Function.update_apply] at *
  · split_ifs at hb ⊢
    · nofun
    · exact hi.spawned j hb
  · split_ifs at hb hpc
    · cases hb
    · exact hi.flagged hsd j hb hpc

/-- **Step lemma.** -/
theorem step {a : Action} (hi : Inv enabled s) (hok : Recorded s a)
    (h : App.step enabled s a = some s') : Inv enabled s' := by
  unfold App.step at h
  split at h
  · cases h
    exact ⟨hi.fresh, hi.spawned, hi.reported, hi.flagged, hi.storing, hi.running⟩
  · next hp =>
      cases h
      exact hi.advance (fun _ => by rw [hp]; rfl) rfl (fun _ => by rw [hp]; rfl)
        fun _ _ => .inr (by rw [hp]; rfl)
  · next hp =>
      cases h
      exact hi.advance (fun _ => by rw [hp]; rfl) rfl (fun _ => by rw [hp]; rfl)
        fun _ _ => .inr (by rw [hp]; rfl)
  · next hp =>
      split at h
      · cases h
        exact hi.advance nofun rfl (fun _ => by rw [hp]; rfl) fun _ hf => .inl hf
      · cases h
        exact hi.advance (fun _ => by rw [hp]; rfl) rfl (fun _ => by rw [hp]; rfl)
          fun _ hf => .inl hf
  · next hp => cases h; exact hi.spawnServer hp
  · next hp =>
      cases h
      refine ⟨nofun, hi.spawned, ?_, fun _ => hi.flagged (by rw [hp]; rfl), nofun, nofun⟩
      rintro _ ⟨⟩ i he hn
      exact absurd (List.mem_filter.mpr ⟨by cases i <;> decide, he⟩) hn
  · next hp => exact hi.receive hp h
  · next hp =>
      split_ifs at h with hf
      · cases h
        exact hi.advance nofun rfl nofun nofun
      · cases h
        exact hi.loadFailed hp (by simpa using hf)
  · next hp =>
      cases h
      refine ⟨nofun, hi.spawned, ?_, fun _ => hi.flagged (by rw [hp]; rfl), nofun,
        fun _ _ => hi.storing hp⟩
      rintro _ ⟨⟩ i he -
      exact hi.report (by rw [hp]; rfl) he
  · cases h; exact hi.advance nofun rfl nofun nofun
  · cases h; exact hi.advance nofun rfl nofun nofun
  · cases h; exact hi.advance nofun rfl nofun nofun
  · cases h; exact hi.advance nofun rfl nofun nofun
  · split_ifs at h
    cases h
    exact ⟨fun _ _ => rfl, nofun, nofun, nofun, nofun, nofun⟩
  · exact hi.listenerStep hok h
  · cases h

/-- **Run lemma.** -/
theorem of_reachWhile (h : Transition.ReachWhile (system enabled) Recorded s) : Inv enabled s := by
  refine h.invariant ?_ ?_
  · rintro s rfl
    exact .new
  · intro s a s' hi hok hs
    exact hi.step hok hs

end Inv

/-- **`/ready` tells the truth** in every run in which no listener ends unrecorded. -/
theorem readyTruthful_of_recorded {enabled : Listener → Bool} {s : App}
    (h : Transition.ReachWhile (system enabled) Recorded s) : ReadyTruthful enabled s := by
  intro hp hr i he
  have hi := Inv.of_reachWhile h
  have hs := hi.spawned i (hi.report (by rw [hp]; rfl) he)
  have hend := hi.running hp hr i he
  unfold Task.alive
  cases hpc : (s.task i).pc <;> simp_all

/-! ### Runs with DoQ alone -/

def doqOnly : Listener → Bool := (· = .doq)

/-- `start`, up to the load of `failed`. -/
def startDoq : List Action :=
  [.start, .resetFailed, .checkCertificates true none, .spawnServer, .spawnServer,
    .listener .doq .reportBound, .receive, .loadFailed]

/-- The listener fails after `start` has returned: the task clears `ready` before it ends. -/
def failsLate : List Action :=
  startDoq ++ [.storeReady, .listener .doq .returnErr, .listener .doq .checkCancelled,
    .listener .doq .storeFailed]

theorem readyTruthful_of_recorded_failsLate :
    ∃ s, Transition.run (system doqOnly) .new failsLate = some s ∧ s.phase = .running ∧
      s.ready = true ∧ ReadyTruthful doqOnly s := by
  refine ⟨_, rfl, rfl, rfl, readyTruthful_of_recorded ?_⟩
  refine .of_run (fun s a => match a with
    | .listener _ e => (e == .reportBound || e == .returnErr || e == .storeFailed ||
        e == .checkCancelled && !s.cancelled)
    | _ => true) ?_ failsLate (.init rfl) rfl
  intro s a ha
  cases a with
  | listener i e =>
      intro _ _
      cases e <;> simp_all
  | _ => trivial

/-- The endpoint closes, so `run` returns `Ok`. -/
def endpointCloses : List Action := startDoq ++ [.storeReady, .listener .doq .returnOk]

/-- The listener fails between the load of `failed` and the store of `ready`. -/
def failsBetween : List Action :=
  startDoq ++ [.listener .doq .returnErr, .listener .doq .checkCancelled,
    .listener .doq .storeFailed, .listener .doq .clearReady, .storeReady]

def panics : List Action := startDoq ++ [.storeReady, .listener .doq .panic]

/-- `start` is called on an `App` that was shut down: the token is still cancelled, so the
accept loop is left at once. -/
def startsAgain : List Action :=
  startDoq ++ [.storeReady, .shutdown, .clearReady, .cancel, .listener .doq .returnOk, .joined] ++
    startDoq ++ [.storeReady, .listener .doq .returnOk]

/-- In none of these runs does `/ready` tell the truth. -/
theorem not_readyTruthful : ¬ ∃ as ∈ [endpointCloses, failsBetween, panics, startsAgain],
    ∀ s, Transition.run (system doqOnly) .new as = some s → ReadyTruthful doqOnly s := by
  have hdead : ∀ as ∈ [endpointCloses, failsBetween, panics, startsAgain],
      ∃ s, Transition.run (system doqOnly) .new as = some s ∧ s.phase = .running ∧
        s.ready = true ∧ (s.task .doq).alive = false := by
    simp only [List.forall_mem_cons, List.not_mem_nil, false_implies, implies_true, and_true]
    exact ⟨⟨_, rfl, rfl, rfl, rfl⟩, ⟨_, rfl, rfl, rfl, rfl⟩, ⟨_, rfl, rfl, rfl, rfl⟩,
      ⟨_, rfl, rfl, rfl, rfl⟩⟩
  rintro ⟨as, has, h⟩
  obtain ⟨s, hs, hp, hr, ha⟩ := hdead as has
  rw [h s hs hp hr .doq rfl] at ha
  cases ha

end DnsIngress.Startup
