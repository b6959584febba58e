import DnsIngress.DoqStream
import DnsIngress.DotConnection
import DnsIngress.RequestMetrics

/-! # The metrics of all listeners together

All tasks of the listeners share one `Metrics`.  A `Handling` is a task that records something,
with everything that it meets, and `records` the calls it makes; `recording` is any number of them,
whose atomic additions interleave in any order.

`account_of_quiet`: once no task is in progress the counters add up, modulo 2⁶⁴, for every
interleaving. -/

namespace DnsIngress.Metrics

open Counters Transition

/-- A DoT connection, in a state that its task can be in. -/
structure DotHandling where
  rewriter : BaseSniRewriter
  serverNameError : Bytes → Option Bytes
  port : UInt16
  connection : DoTServer.Connection
  reachable : Reachable (DoTServer.session rewriter serverNameError port) connection

/-- What a DoH or a DoH3 request meets before it is sent upstream. -/
structure HttpHandling where
  crates : HttpCrates
  rewriter : BaseSniRewriter
  endpoint : HttpUpstreamConfig
  requestPath : Bytes
  tlsSni : Bytes
  req : Request
  received : Option ReceivedBody
  duration : ℕ

inductive Handling
  | dot (d : DotHandling)
  | doh (h : HttpHandling) (timeoutSeconds : UInt64) (exchange : Option HttpExchange)
  | doq (text : Quic.ReadExactError → Bytes) (t : Quic.StreamTask) (duration : ℕ)
  | doh3 (h : HttpHandling) (exchange : Option Http3Exchange) (stream : RequestStream)
  /-- the task of a DoH3 connection, and whether `handle_connection` returns an error -/
  | doh3Connection (failed : Bool)

/-- What the task of a DoQ stream records. -/
def doqRecords (text : Quic.ReadExactError → Bytes) (t : Quic.StreamTask) (duration : ℕ) :
    List Record :=
  if t.shutdown then []
  else
    match (Quic.forwardQuicStream text t.toTransaction).result with
    | .ok (bytesReceived, bytesSent) =>
        [.request true (.ofNat bytesReceived) (.ofNat bytesSent) duration]
    | .error _ => [.request false 0 0 duration, .upstreamError]

def Handling.records : Handling → List Record
  | dot d => d.connection.records
  | doh h timeoutSeconds exchange =>
      (handleHttpRequestRecorded h.crates h.rewriter h.endpoint h.requestPath h.tlsSni h.req
        h.received timeoutSeconds exchange h.duration).2
  | doq text t duration => doqRecords text t duration
  | doh3 h exchange stream =>
      (handleRequestRecorded h.crates h.rewriter h.endpoint h.requestPath h.tlsSni h.req h.received
        exchange h.duration stream).2
  | doh3Connection failed => if failed then [.upstreamError] else []

/-- One `Metrics` and the tasks of all listeners. -/
def recording : System (State Handling Counter UInt64) (Action Handling) :=
  system fun h => additions h.records

/-! ### The account of one task -/

/-- The failed DoT sessions, which are no upstream errors. -/
def Handling.dotFailures : Handling → ℕ
  | dot d => requests false d.connection.records
  | doh _ _ _ | doq _ _ _ | doh3 _ _ _ | doh3Connection _ => 0

/-- The DoH3 connections that end with an error, which are no requests. -/
def Handling.brokenConnections : Handling → ℕ
  | doh3Connection failed => if failed then 1 else 0
  | dot _ | doh _ _ _ | doq _ _ _ | doh3 _ _ _ => 0

/-- The requests with a Host that has been rewritten, and recorded. -/
def Handling.httpRequests : Handling → ℕ
  | h@(doh _ _ _) | h@(doh3 _ _ _) => requests true h.records + requests false h.records
  | dot _ | doq _ _ _ | doh3Connection _ => 0

theorem dot_errors (d : DotHandling) :
    errors d.connection.records = 0 ∧ rewrites d.connection.records = 0 := by
  have h := (DoTServer.Inv.of_reachable d.reachable).recorded
  cases hp : d.connection.phase with
  | returned result =>
      cases result with
      | ok _ =>
          obtain ⟨duration, hrec⟩ := (h.success hp).2
          rw [hrec]
          exact ⟨rfl, rfl⟩
      | error e =>
          by_cases hu : d.connection.upstream = none
          · rw [(h.failure e hp).1 hu]
            exact ⟨rfl, rfl⟩
          · obtain ⟨duration, hrec⟩ := (h.failure e hp).2 hu
            rw [hrec]
            exact ⟨rfl, rfl⟩
  | _ =>
      rw [h.otherwise (by rw [hp]; nofun)]
      exact ⟨rfl, rfl⟩

theorem http_accurate (h : HttpHandling) :
    (∀ timeoutSeconds exchange, ∃ client, Accurate client
      (Handling.doh h timeoutSeconds exchange).records) ∧
    ∀ exchange stream, ∃ client, Accurate client (Handling.doh3 h exchange stream).records :=
  ⟨fun _ _ => ⟨_, (handleRecorded_accurate answers_doh rfl).1⟩,
    fun _ _ => ⟨_, (handleRecorded_accurate answers_doh3 rfl).1⟩⟩

theorem doq_errors (text : Quic.ReadExactError → Bytes) (t : Quic.StreamTask) (duration : ℕ) :
    errors (doqRecords text t duration) = requests false (doqRecords text t duration) := by
  unfold doqRecords
  split
  · rfl
  · split <;> rfl

/-- **Every failed request is an upstream error**, but for those of DoT, and every upstream error
is a failed request, but for broken DoH3 connections. -/
theorem Handling.balanced (h : Handling) :
    requests false h.records + h.brokenConnections = errors h.records + h.dotFailures := by
  cases h with
  | dot d =>
      show requests false d.connection.records + 0 = errors d.connection.records +
        requests false d.connection.records
      rw [(dot_errors d).1, Nat.zero_add, Nat.add_zero]
  | doh h timeoutSeconds exchange =>
      obtain ⟨client, hacc⟩ := (http_accurate h).1 timeoutSeconds exchange
      exact hacc.failures.symm
  | doq text t duration => exact (doq_errors text t duration).symm
  | doh3 h exchange stream =>
      obtain ⟨client, hacc⟩ := (http_accurate h).2 exchange stream
      exact hacc.failures.symm
  | doh3Connection failed => cases failed <;> rfl

/-- A server name is rewritten before its request is recorded. -/
theorem Handling.httpRequests_le (h : Handling) : h.httpRequests ≤ rewrites h.records := by
  cases h with
  | doh h timeoutSeconds exchange =>
      obtain ⟨client, hacc⟩ := (http_accurate h).1 timeoutSeconds exchange
      exact hacc.once
  | doh3 h exchange stream =>
      obtain ⟨client, hacc⟩ := (http_accurate h).2 exchange stream
      exact hacc.once
  | dot | doq | doh3Connection => exact Nat.zero_le _

/-! ### The account of all tasks -/

/-- A sum over all tasks. -/
def tally (f : Handling → ℕ) (s : State Handling Counter UInt64) : ℕ :=
  (s.tasks.map fun t => f t.kind).sum

variable {s : State Handling Counter UInt64}

theorem tally_add (f g : Handling → ℕ) :
    tally (fun h => f h + g h) s = tally f s + tally g s :=
  List.sum_map_add

theorem tally_le {f g : Handling → ℕ} (h : ∀ x, f x ≤ g x) : tally f s ≤ tally g s := by
  unfold tally
  induction s.tasks with
  | nil => exact Nat.le_refl 0
  | cons t tasks ih => exact Nat.add_le_add (h t.kind) ih

theorem value_of_tally (h : Reachable recording s) (hq : s.Quiet) (c : Counter) :
    s.value c = .ofNat (tally (fun x => c.sum x.records) s) := by
  rw [value_of_quiet h hq c, tally]
  induction s.tasks with
  | nil => rfl
  | cons t tasks ih =>
      rw [List.map_cons, List.map_cons, List.sum_cons, List.sum_cons, ih, total_additions,
        UInt64.ofNat_add]

/-- **The counters add up**, whatever the order of the additions. -/
theorem account_of_quiet (h : Reachable recording s) (hq : s.Quiet) :
    s.value .totalRequests = s.value .successfulRequests + s.value .failedRequests ∧
    s.value .failedRequests + .ofNat (tally Handling.brokenConnections s) =
      s.value .upstreamErrors + .ofNat (tally Handling.dotFailures s) ∧
    s.value .sniRewrites = .ofNat (tally (fun x => rewrites x.records) s) ∧
    tally Handling.httpRequests s ≤ tally (fun x => rewrites x.records) s := by
  refine ⟨?_, ?_, value_of_tally h hq .sniRewrites, tally_le Handling.httpRequests_le⟩
  · simp only [value_of_tally h hq, sum_totalRequests, ← UInt64.ofNat_add, ← tally_add]
    rfl
  · simp only [value_of_tally h hq, ← UInt64.ofNat_add, ← tally_add]
    congr 2
    exact funext Handling.balanced

/-- A DoH3 request and a broken connection, the additions of the request out of order. -/
def twoTasks : List (Action Handling) :=
  let request : HttpHandling :=
    { crates := plainCrates
      rewriter := createRewriter certifiedConfig.rewrite
      endpoint := certifiedConfig.upstream.doh3
      requestPath := utf8 "/dns-query"
      tlsSni := utf8 "hOmE.example.COM"
      req := mixedCaseRequest
      received := some (.complete (List.replicate 12 0))
      duration := 1500 }
  [.spawn (.doh3 request (some twoChunks) stalledStream), .spawn (.doh3Connection true), .call 0,
    .call 1, .add 0 0, .call 0, .add 0 3, .add 1 0, .add 0 0, .add 0 0, .add 0 1, .add 0 0]

theorem run_twoTasks :
    ∃ s, run recording ⟨fun _ => 0, []⟩ twoTasks = some s ∧ s.Quiet ∧
      tally Handling.brokenConnections s = 1 ∧ tally Handling.dotFailures s = 0 ∧
      tally (fun x => rewrites x.records) s = 1 ∧
      tally (fun x => Counter.sum .processingDurationMicros x.records) s = 1500 := by
  obtain ⟨s, hrun, htasks, htallies⟩ : ∃ s,
      run recording ⟨fun _ => 0, []⟩ twoTasks = some s ∧
      (s.tasks.map fun t => (t.todo, t.left)) = [([], []), ([], [])] ∧
      tally Handling.brokenConnections s = 1 ∧ tally Handling.dotFailures s = 0 ∧
      tally (fun x => rewrites x.records) s = 1 ∧
      tally (fun x => Counter.sum .processingDurationMicros x.records) s = 1500 :=
    ⟨_, rfl, rfl, rfl, rfl, rfl, rfl⟩
  refine ⟨s, hrun, fun t ht => ?_, htallies⟩
  have hmem : (t.todo, t.left) ∈ s.tasks.map fun t => (t.todo, t.left) :=
    List.mem_map.mpr ⟨t, ht, rfl⟩
  rw [htasks] at hmem
  have hboth : (t.todo, t.left) = ([], []) := (List.mem_pair.mp hmem).elim id id
  exact Prod.mk.inj hboth

theorem account_of_quiet_twoTasks :
    ∃ s, run recording ⟨fun _ => 0, []⟩ twoTasks = some s ∧ s.Quiet ∧
      s.value .failedRequests + 1 = s.value .upstreamErrors ∧
      s.value .totalRequests = s.value .successfulRequests + s.value .failedRequests := by
  have hinit : recording.init ⟨fun _ => 0, []⟩ := rfl
  obtain ⟨s, hrun, hq, hbroken, hdot, -⟩ := run_twoTasks
  obtain ⟨htotal, hfailed, -, -⟩ := account_of_quiet (.of_run twoTasks hinit hrun) hq
  rw [hbroken, hdot] at hfailed
  exact ⟨s, hrun, hq, by simpa using hfailed, htotal⟩

end DnsIngress.Metrics
