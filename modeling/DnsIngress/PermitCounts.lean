import DnsIngress.Config
import DnsIngress.Startup

/-! # The permit counts of the semaphores

Every listener makes a semaphore of its connections in `run`; those of multiplexed protocols make
one more for the requests of each connection they serve; and the pool of a QUIC listener makes one
for its sessions when the listener is constructed.  The counts are those of `LimitsConfig`, and
`Semaphore::new` panics above `MAX_PERMITS`.

A `usize` has 64 bits. -/

namespace DnsIngress

open Startup (Listener)

/-- `Semaphore::MAX_PERMITS`, which is `usize::MAX >> 3`. -/
def maxPermits : UInt64 := (0xffffffffffffffff : UInt64) >>> 3

structure Semaphore where
  permits : UInt64
  le_max : permits ≤ maxPermits

/-- `Semaphore::new`; `none` is its panic. -/
def Semaphore.new (permits : UInt64) : Option Semaphore :=
  if h : permits ≤ maxPermits then some ⟨permits, h⟩ else none

/-- What a listener passes to `Semaphore::new`: in its constructor, in `run`, and in serving a
connection. -/
structure SemaphoreCounts where
  construct : List UInt64
  run : List UInt64
  connection : List UInt64

def QuicConnectionPool.withRootStore (maxEntries : UInt64) : List UInt64 := [maxEntries]

def Http3ConnectionPool.withRootStore (maxEntries : UInt64) : List UInt64 := [maxEntries]

section
variable (limits : LimitsConfig)

def HealthcheckServer.semaphores : SemaphoreCounts where
  construct := []
  run := [limits.maxConnectionsPerListener]
  connection := []

def DoTServer.semaphores : SemaphoreCounts where
  construct := []
  run := [limits.maxConnectionsPerListener]
  connection := []

/-- The pool of HTTP clients has no semaphore. -/
def DoHServer.semaphores : SemaphoreCounts where
  construct := []
  run := [limits.maxConnectionsPerListener]
  connection := [limits.maxInflightRequestsPerConnection]

def DoQServer.semaphores : SemaphoreCounts where
  construct := QuicConnectionPool.withRootStore limits.maxUpstreamPoolEntries
  run := [limits.maxConnectionsPerListener]
  connection := [limits.maxInflightRequestsPerConnection]

def DoH3Server.semaphores : SemaphoreCounts where
  construct := Http3ConnectionPool.withRootStore limits.maxUpstreamPoolEntries
  run := [limits.maxConnectionsPerListener]
  connection := [limits.maxInflightRequestsPerConnection]

def semaphores : Listener → SemaphoreCounts
  | .healthcheck => HealthcheckServer.semaphores limits
  | .dot => DoTServer.semaphores limits
  | .doh => DoHServer.semaphores limits
  | .doq => DoQServer.semaphores limits
  | .doh3 => DoH3Server.semaphores limits

end

def AppConfig.enabled (config : AppConfig) : Listener → Bool
  | .healthcheck => config.servers.healthcheck.enabled
  | .dot => config.servers.dot.enabled
  | .doh => config.servers.doh.enabled
  | .doq => config.servers.doq.enabled
  | .doh3 => config.servers.doh3.enabled

/-- The counts passed to `Semaphore::new` until every listener has served so many connections. -/
def AppConfig.permitCounts (config : AppConfig) (connections : Listener → ℕ) : List UInt64 :=
  (Listener.all.filter config.enabled).flatMap fun l =>
    let counts := semaphores config.limits l
    counts.construct ++ counts.run ++ (List.replicate (connections l) counts.connection).flatten

/-! ### Which limits are passed on -/

/-- The listeners that serve several requests of a connection at a time. -/
def isMultiplexed : Listener → Bool
  | .doh | .doq | .doh3 => true
  | .healthcheck | .dot => false

variable {config : AppConfig}

theorem Listener.mem_all (l : Listener) : l ∈ Listener.all := by
  cases l <;> decide

theorem mem_semaphores {limits : LimitsConfig} {l : Listener} {connections : ℕ} {n : UInt64} :
    n ∈ (semaphores limits l).construct ++ (semaphores limits l).run ++
        (List.replicate connections (semaphores limits l).connection).flatten ↔
      n = limits.maxConnectionsPerListener ∨
      (l.isQuic = true ∧ n = limits.maxUpstreamPoolEntries) ∨
      (isMultiplexed l = true ∧ 0 < connections ∧ n = limits.maxInflightRequestsPerConnection) := by
  have hreplicate (counts : List UInt64) :
      n ∈ (List.replicate connections counts).flatten ↔ 0 < connections ∧ n ∈ counts := by
    simp only [List.mem_flatten, List.mem_replicate, Nat.pos_iff_ne_zero]
    exact ⟨fun ⟨_, ⟨h, rfl⟩, hn⟩ => ⟨h, hn⟩, fun ⟨h, hn⟩ => ⟨_, ⟨h, rfl⟩, hn⟩⟩
  rw [List.mem_append, List.mem_append, hreplicate]
  cases l <;>
    simp [semaphores, HealthcheckServer.semaphores, DoTServer.semaphores, DoHServer.semaphores,
      DoQServer.semaphores, DoH3Server.semaphores, QuicConnectionPool.withRootStore,
      Http3ConnectionPool.withRootStore, Listener.isQuic, isMultiplexed, or_left_comm, or_assoc]

theorem mem_permitCounts {connections : Listener → ℕ} {n : UInt64} :
    n ∈ config.permitCounts connections ↔ ∃ l, config.enabled l = true ∧
      (n = config.limits.maxConnectionsPerListener ∨
        (l.isQuic = true ∧ n = config.limits.maxUpstreamPoolEntries) ∨
        (isMultiplexed l = true ∧ 0 < connections l ∧
          n = config.limits.maxInflightRequestsPerConnection)) := by
  simp only [AppConfig.permitCounts, List.mem_flatMap, List.mem_filter, Listener.mem_all, true_and,
    mem_semaphores]

/-- The limits that the enabled listeners pass on are permit counts. -/
structure AppConfig.Fits (config : AppConfig) : Prop where
  connections : ∀ l, config.enabled l = true →
    config.limits.maxConnectionsPerListener ≤ maxPermits
  requests : ∀ l, config.enabled l = true → isMultiplexed l = true →
    config.limits.maxInflightRequestsPerConnection ≤ maxPermits
  sessions : ∀ l, config.enabled l = true → l.isQuic = true →
    config.limits.maxUpstreamPoolEntries ≤ maxPermits

theorem Semaphore.new_isSome {permits : UInt64} :
    (Semaphore.new permits).isSome = true ↔ permits ≤ maxPermits := by
  unfold Semaphore.new
  split_ifs with h
  · exact iff_of_true rfl h
  · exact iff_of_false Bool.false_ne_true h

theorem permitCounts_le_iff :
    (∀ connections, ∀ n ∈ config.permitCounts connections, n ≤ maxPermits) ↔ config.Fits := by
  constructor
  · intro h
    have hone (l : Listener) (n : UInt64) (hl : config.enabled l = true) (hn : _) :
        n ≤ maxPermits :=
      h (fun _ => 1) n (mem_permitCounts.mpr ⟨l, hl, hn⟩)
    exact
      { connections := fun l hl => hone l _ hl (.inl rfl)
        requests := fun l hl hm => hone l _ hl (.inr (.inr ⟨hm, Nat.one_pos, rfl⟩))
        sessions := fun l hl hq => hone l _ hl (.inr (.inl ⟨hq, rfl⟩)) }
  · intro h connections n hn
    obtain ⟨l, hl, rfl | ⟨hq, rfl⟩ | ⟨hm, -, rfl⟩⟩ := mem_permitCounts.mp hn
    · exact h.connections l hl
    · exact h.sessions l hl hq
    · exact h.requests l hl hm

/-- The check of the limits leaves no semaphore without a permit. -/
theorem LimitsConfig.check_ok {limits : LimitsConfig} (h : limits.check = .ok ()) :
    0 < limits.maxConnectionsPerListener ∧ 0 < limits.maxInflightRequestsPerConnection ∧
      0 < limits.maxUpstreamPoolEntries := by
  unfold LimitsConfig.check at h
  split_ifs at h with hzero
  simp only [not_or] at hzero
  exact ⟨UInt64.pos_iff_ne_zero.mpr hzero.1, UInt64.pos_iff_ne_zero.mpr hzero.2.1,
    UInt64.pos_iff_ne_zero.mpr hzero.2.2.1⟩

/-- **When an accepted configuration cannot panic its listeners.**  Its permit counts are positive,
and none is more than a semaphore has, whatever connections are served, iff the limits that are
passed on fit. -/
theorem permitCounts_exact (env : Environment) (config : AppConfig) :
    config.validateStructure env = .ok () →
      (∀ connections, ∀ n ∈ config.permitCounts connections, 0 < n) ∧
      ((∀ connections, ∀ n ∈ config.permitCounts connections, n ≤ maxPermits) ↔ config.Fits) := by
  intro h
  simp only [AppConfig.validateStructure, seq_ok] at h
  obtain ⟨hconnections, hrequests, hsessions⟩ := LimitsConfig.check_ok h.2.2.2.1
  refine ⟨?_, permitCounts_le_iff⟩
  intro connections n hn
  obtain ⟨l, -, rfl | ⟨-, rfl⟩ | ⟨-, -, rfl⟩⟩ := mem_permitCounts.mp hn
  · exact hconnections
  · exact hsessions
  · exact hrequests

/-- The default configuration and its certificate, whose limits fit. -/
theorem permitCounts_exact_default :
    (∀ connections, ∀ n ∈ certifiedConfig.permitCounts connections, n ≤ maxPermits) ↔
      certifiedConfig.Fits :=
  (permitCounts_exact readyEnvironment certifiedConfig (by decide +kernel)).2

/-- A connection limit one above the greatest permit count. -/
def limitlessConfig : AppConfig :=
  { certifiedConfig with
    limits := { LimitsConfig.default with maxConnectionsPerListener := 2 ^ 61 } }

/-- It is accepted, and the DoT listener panics as it starts. -/
theorem permitCounts_limitless :
    limitlessConfig.validateStructure readyEnvironment = .ok () ∧
      limitlessConfig.enabled .dot = true ∧
      2 ^ 61 ∈ (semaphores limitlessConfig.limits .dot).run ∧
      2 ^ 61 ∈ limitlessConfig.permitCounts (fun _ => 0) ∧ ¬ (2 ^ 61 : UInt64) ≤ maxPermits := by
  decide +kernel

/-- No listener panics in `Semaphore::new`, whatever connections it serves. -/
def AppConfig.NeverPanics (config : AppConfig) : Prop :=
  ∀ connections, ∀ n ∈ config.permitCounts connections, (Semaphore.new n).isSome = true

theorem neverPanics_iff : config.NeverPanics ↔ config.Fits := by
  simp only [AppConfig.NeverPanics, Semaphore.new_isSome]
  exact permitCounts_le_iff

end DnsIngress
