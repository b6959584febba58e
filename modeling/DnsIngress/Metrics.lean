import DnsIngress.Counters
import DnsIngress.Error

/-! # Metrics (`metrics.rs`)

A `Metrics` is eight `AtomicU64`s, and each of its methods is a list of `fetch_add`s: a call of
`Counters`, over the integers modulo 2⁶⁴.

`Record` is a call of one of the methods, and a handler makes a list of them. -/

namespace DnsIngress

inductive Counter
  | totalRequests
  | successfulRequests
  | failedRequests
  | bytesReceived
  | bytesSent
  | sniRewrites
  | upstreamErrors
  | processingDurationMicros
deriving DecidableEq

/-- A call of a method of `Metrics`.  The duration is in microseconds. -/
inductive Record
  | request (success : Bool) (bytesReceived bytesSent : UInt64) (duration : ℕ)
  | sniRewrite
  | upstreamError
deriving DecidableEq

/-- `record_request`. -/
def recordRequest (success : Bool) (bytesReceived bytesSent : UInt64) (duration : ℕ) :
    List (Counter × UInt64) :=
  [(.totalRequests, 1), (if success then .successfulRequests else .failedRequests, 1),
    (.bytesReceived, bytesReceived), (.bytesSent, bytesSent),
    (.processingDurationMicros, .ofNat (min duration (UInt64.size - 1)))]

/-- `record_sni_rewrite`. -/
def recordSniRewrite : List (Counter × UInt64) := [(.sniRewrites, 1)]

/-- `record_upstream_error`. -/
def recordUpstreamError : List (Counter × UInt64) := [(.upstreamErrors, 1)]

/-- What a call adds. -/
def Record.adds : Record → List (Counter × UInt64)
  | request success bytesReceived bytesSent duration =>
      recordRequest success bytesReceived bytesSent duration
  | sniRewrite => recordSniRewrite
  | upstreamError => recordUpstreamError

/-! ### What the calls of a handler add -/

open Counters (amount total)

/-- What a call adds to a counter, which wraps around. -/
def Counter.count : Counter → Record → ℕ
  | .totalRequests, .request _ _ _ _ => 1
  | .successfulRequests, .request success _ _ _ => if success then 1 else 0
  | .failedRequests, .request success _ _ _ => if success then 0 else 1
  | .bytesReceived, .request _ received _ _ => received.toNat
  | .bytesSent, .request _ _ sent _ => sent.toNat
  | .processingDurationMicros, .request _ _ _ duration => min duration (UInt64.size - 1)
  | .sniRewrites, .sniRewrite => 1
  | .upstreamErrors, .upstreamError => 1
  | _, _ => 0

/-- What these calls add to a counter. -/
def Counter.sum (c : Counter) (records : List Record) : ℕ := (records.map c.count).sum

/-- The requests with this result. -/
def requests (success : Bool) (records : List Record) : ℕ :=
  Counter.sum (if success then .successfulRequests else .failedRequests) records

def rewrites (records : List Record) : ℕ := Counter.sum .sniRewrites records

def errors (records : List Record) : ℕ := Counter.sum .upstreamErrors records

/-- The additions of these calls. -/
def additions (records : List Record) : List (List (Counter × UInt64)) := records.map Record.adds

theorem amount_adds (c : Counter) (r : Record) : amount c r.adds = .ofNat (c.count r) := by
  cases r with
  | request success =>
      cases c <;> cases success <;> simp [Record.adds, recordRequest, Counter.count]
  | sniRewrite => cases c <;> rfl
  | upstreamError => cases c <;> rfl

theorem total_additions (c : Counter) (records : List Record) :
    total c (additions records) = .ofNat (c.sum records) := by
  induction records with
  | nil => rfl
  | cons r records ih =>
      rw [additions, List.map_cons, Counters.total_cons, ← additions, ih, amount_adds,
        ← UInt64.ofNat_add]
      rfl

theorem sum_totalRequests (records : List Record) :
    Counter.sum .totalRequests records = requests true records + requests false records := by
  have hone : ∀ r, Counter.count .totalRequests r =
      Counter.count .successfulRequests r + Counter.count .failedRequests r := by
    intro r
    cases r with
    | request success => cases success <;> rfl
    | _ => rfl
  simp only [requests, Counter.sum, funext hone, List.sum_map_add, if_true, Bool.false_eq_true,
    if_false]

end DnsIngress
