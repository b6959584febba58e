import DnsIngress.Metrics
import DnsIngress.RelayTransparency
import DnsIngress.Routing

/-! # A DoT connection (`DoTServer::handle_connection` in `readers/dot.rs`)

The task of an accepted connection: the handshake with the client, the rewrite of its server name,
the connection and the handshake with the target, the relay and the record of it.  A step is what
happens between two awaits, and while the relay runs a step of the relay; the task may be dropped
at every await, when the listener shuts down.

`session_exact` covers the whole of it: which peer the bytes go to, when a session is recorded, and
what a recorded success means. -/

namespace DnsIngress.DoTServer

open Relay Transition

/-- Where the task is. -/
inductive Phase
  /-- in `acceptor.accept(stream)` -/
  | accepting
  /-- in `TcpStream::connect` -/
  | connecting (target : Bytes)
  /-- in `connector.connect` -/
  | securing (target : Bytes)
  /-- in `try_join!` -/
  | relaying (target : Bytes)
  | returned (result : Except DnsProxyError Unit)
  /-- there was no handshake with the client, or the future was dropped -/
  | abandoned

structure Connection where
  phase : Phase := .accepting
  /-- of the handshake with the client -/
  serverName : Option Bytes := none
  /-- the server name and the port of the TLS connection to the upstream -/
  upstream : Option (Bytes × UInt16) := none
  streams : Halves := {}
  records : List Record := []

inductive Action
  | accept (serverName : Option Bytes)
  /-- the handshake with the client fails, or is slow -/
  | refuse
  /-- a failure is an error or, for `some none`, a timeout -/
  | connect (failure : Option (Option Bytes))
  | secure (failure : Option (Option Bytes))
  | relay (x : Side) (e : Event)
  /-- `try_join!` returns -/
  | join (duration : ℕ)
  | shutdown

section
variable (rewriter : BaseSniRewriter) (serverNameError : Bytes → Option Bytes) (port : UInt16)

/-- `format!("{}:{}", target, upstream_port)`. -/
def upstreamName (target : Bytes) : Bytes := target ++ utf8 ":" ++ decimal port.toNat

/-- The error of a connection attempt. -/
def attemptError (target text : Bytes) : Option Bytes → DnsProxyError
  | none => .timeout (upstreamName port target)
  | some reason => .upstream (.connectionFailed (upstreamName port target) (text ++ reason))

/-- What is recorded of a session. -/
def sessionRecord (duration : ℕ) : Except DnsProxyError (UInt64 × UInt64) → Record
  | .ok (clientToUpstream, upstreamToClient) =>
      .request true clientToUpstream upstreamToClient duration
  | .error _ => .request false 0 0 duration

/-- `return Err(..)`. -/
def Connection.fail (s : Connection) (e : DnsProxyError) : Connection :=
  { s with phase := .returned (.error e) }

def Connection.step (s : Connection) (a : Action) : Option Connection :=
  match a, s.phase with
  | .accept serverName, .accepting =>
      match DoTServer.target rewriter serverName with
      | .error e => some ({ s with serverName := serverName }.fail e)
      | .ok target => some { s with phase := .connecting target, serverName := serverName }
  | .refuse, .accepting => some { s with phase := .abandoned }
  | .connect (some failure), .connecting target =>
      some (s.fail (attemptError port target (utf8 "Failed to connect: ") failure))
  | .connect none, .connecting target =>
      match serverNameError target with
      | some e =>
          some (s.fail (.invalidInput
            (utf8 "Failed to create ServerName for upstream connection: " ++ e)))
      | none => some { s with phase := .securing target }
  | .secure (some failure), .securing target =>
      some (s.fail (attemptError port target (utf8 "Failed to establish TLS connection: ") failure))
  | .secure none, .securing target =>
      some { s with phase := .relaying target, upstream := some (target, port) }
  | .relay x e, .relaying target =>
      (s.streams.step (upstreamName port target) (x, e)).map fun streams =>
        { s with streams := streams }
  | .join duration, .relaying _ =>
      s.streams.joined.map fun result =>
        { s with
          phase := .returned (result.map fun _ => ())
          records := s.records ++ [sessionRecord duration result] }
  | .shutdown, .returned _ | .shutdown, .abandoned => none
  | .shutdown, _ => some { s with phase := .abandoned }
  | _, _ => none

/-- The task of one connection. -/
def session : System Connection Action where
  init s := s = {}
  step s a := s.step rewriter serverNameError port a

end

/-! ### The invariant -/

variable {rewriter : BaseSniRewriter} {serverNameError : Bytes → Option Bytes} {port : UInt16}
  {s s' : Connection} {a : Action}

/-- The streams belong to a TLS connection to this target. -/
structure Secured (rewriter : BaseSniRewriter) (serverNameError : Bytes → Option Bytes)
    (port : UInt16) (s : Connection) (target : Bytes) : Prop where
  upstream : s.upstream = some (target, port)
  routed : DoTServer.target rewriter s.serverName = .ok target
  valid : serverNameError target = none
  streams : Reachable (relay (upstreamName port target)) s.streams

/-- There is no TLS connection to an upstream, and nothing has been relayed or recorded. -/
structure Unsecured (s : Connection) : Prop where
  upstream : s.upstream = none
  streams : s.streams = {}
  records : s.records = []

/-- What holds of a connection in each phase. -/
def Inv (rewriter : BaseSniRewriter) (serverNameError : Bytes → Option Bytes) (port : UInt16)
    (s : Connection) : Prop :=
  match s.phase with
  | .accepting => Unsecured s
  | .connecting target => Unsecured s ∧ DoTServer.target rewriter s.serverName = .ok target
  | .securing target =>
      Unsecured s ∧ DoTServer.target rewriter s.serverName = .ok target ∧
        serverNameError target = none
  | .relaying target => Secured rewriter serverNameError port s target ∧ s.records = []
  | .returned (.ok ()) =>
      ∃ target counts duration, Secured rewriter serverNameError port s target ∧
        s.streams.joined = some (.ok counts) ∧ s.records = [sessionRecord duration (.ok counts)]
  | .returned (.error error) =>
      Unsecured s ∨ ∃ target duration, Secured rewriter serverNameError port s target ∧
        s.streams.joined = some (.error error) ∧
        s.records = [sessionRecord duration (.error error)]
  | .abandoned =>
      Unsecured s ∨ ∃ target, Secured rewriter serverNameError port s target ∧ s.records = []

theorem Unsecured.inv_fail (h : Unsecured s) (e : DnsProxyError) :
    Inv rewriter serverNameError port (s.fail e) :=
  .inl ⟨h.upstream, h.streams, h.records⟩

/-- **Step lemma.** -/
theorem Inv.step (hi : Inv rewriter serverNameError port s)
    (h : s.step rewriter serverNameError port a = some s') :
    Inv rewriter serverNameError port s' := by
  unfold Connection.step at h
  split at h
  · -- the handshake with the client
    next hp =>
    rw [Inv, hp] at hi
    split at h <;> cases h
    · next serverName _ _ _ =>
      have hu : Unsecured { s with serverName := serverName } :=
        ⟨hi.upstream, hi.streams, hi.records⟩
      exact hu.inv_fail _
    · next ht => exact ⟨⟨hi.upstream, hi.streams, hi.records⟩, ht⟩
  · next hp =>
    rw [Inv, hp] at hi
    cases h
    exact .inl ⟨hi.upstream, hi.streams, hi.records⟩
  · -- the connection to the target
    next hp =>
    rw [Inv, hp] at hi
    cases h
    exact hi.1.inv_fail _
  · next hp =>
    rw [Inv, hp] at hi
    split at h <;> cases h
    · exact hi.1.inv_fail _
    · next hv => exact ⟨⟨hi.1.upstream, hi.1.streams, hi.1.records⟩, hi.2, hv⟩
  · -- the handshake with the target
    next hp =>
    rw [Inv, hp] at hi
    cases h
    exact hi.1.inv_fail _
  · next target hp =>
    rw [Inv, hp] at hi
    cases h
    obtain ⟨hu, ht, hv⟩ := hi
    refine ⟨⟨rfl, ht, hv, ?_⟩, hu.records⟩
    show Reachable _ s.streams
    rw [hu.streams]
    exact .init rfl
  · -- the relay
    next x e target hp =>
    rw [Inv, hp] at hi
    obtain ⟨streams, hs, rfl⟩ := Option.map_eq_some_iff.mp h
    obtain ⟨hsec, hrec⟩ := hi
    have hrelay : (relay (upstreamName port target)).step s.streams (x, e) = some streams := hs
    show Inv _ _ _ { s with streams := streams }
    rw [Inv, hp]
    exact ⟨⟨hsec.upstream, hsec.routed, hsec.valid, .step hsec.streams trivial hrelay⟩, hrec⟩
  · next duration target hp =>
    rw [Inv, hp] at hi
    obtain ⟨result, hj, rfl⟩ := Option.map_eq_some_iff.mp h
    obtain ⟨hsec, hrec⟩ := hi
    have hsec' : Secured rewriter serverNameError port
        { s with
          phase := .returned (result.map fun _ => ())
          records := s.records ++ [sessionRecord duration result] } target :=
      ⟨hsec.upstream, hsec.routed, hsec.valid, hsec.streams⟩
    have hone : s.records ++ [sessionRecord duration result] = [sessionRecord duration result] := by
      rw [hrec, List.nil_append]
    cases result with
    | error error => exact .inr ⟨target, duration, hsec', hj, hone⟩
    | ok counts => exact ⟨target, counts, duration, hsec', hj, hone⟩
  · cases h
  · cases h
  · -- the future is dropped
    cases h
    unfold Inv at hi
    split at hi
    · exact .inl ⟨hi.upstream, hi.streams, hi.records⟩
    · exact .inl ⟨hi.1.upstream, hi.1.streams, hi.1.records⟩
    · exact .inl ⟨hi.1.upstream, hi.1.streams, hi.1.records⟩
    · next target _ =>
      exact .inr ⟨target, ⟨hi.1.upstream, hi.1.routed, hi.1.valid, hi.1.streams⟩, hi.2⟩
    · next hnot _ _ hp => exact (hnot _ hp).elim
    · next hnot _ _ _ hp => exact (hnot _ hp).elim
    · next hnot _ hp => exact (hnot hp).elim
  · cases h

/-- **Run lemma.** -/
theorem Inv.of_reachable (h : Reachable (session rewriter serverNameError port) s) :
    Inv rewriter serverNameError port s := by
  refine h.invariant ?_ fun s a s' hi _ hs => hi.step hs
  rintro s rfl
  exact ⟨rfl, rfl, rfl⟩

theorem Inv.cases (hi : Inv rewriter serverNameError port s) :
    Unsecured s ∨ ∃ target, Secured rewriter serverNameError port s target := by
  unfold Inv at hi
  split at hi
  · exact .inl hi
  · exact .inl hi.1
  · exact .inl hi.1
  · next target _ => exact .inr ⟨target, hi.1⟩
  · obtain ⟨target, -, -, h, -⟩ := hi
    exact .inr ⟨target, h⟩
  · rcases hi with h | ⟨target, -, h, -⟩
    · exact .inl h
    · exact .inr ⟨target, h⟩
  · rcases hi with h | ⟨target, h, -⟩
    · exact .inl h
    · exact .inr ⟨target, h⟩

/-- What is recorded of a connection, and when. -/
structure Recorded (s : Connection) : Prop where
  /-- a success is both streams in full, with their lengths -/
  success : s.phase = .returned (.ok ()) → (∀ x, (s.streams.half x).Complete) ∧
    ∃ duration, s.records = [.request true (.ofNat s.streams.client.sent.length)
      (.ofNat s.streams.upstream.sent.length) duration]
  /-- a failure is recorded if the relay has begun -/
  failure : ∀ error, s.phase = .returned (.error error) →
    (s.upstream = none → s.records = []) ∧
    (s.upstream ≠ none → ∃ duration, s.records = [.request false 0 0 duration])
  otherwise : (∀ result, s.phase ≠ .returned result) → s.records = []

theorem Inv.recorded (hi : Inv rewriter serverNameError port s) : Recorded s where
  success hp := by
    rw [Inv, hp] at hi
    obtain ⟨target, ⟨a, b⟩, duration, hsec, hj, hrec⟩ := hi
    have hhalf := Halves.inv_of_reachable hsec.streams
    obtain ⟨ha, hb⟩ := Halves.joined_ok hj
    have hclient := (hhalf .client).complete ha
    have hupstream := (hhalf .upstream).complete hb
    refine ⟨fun x => ?_, duration, ?_⟩
    · cases x
      · exact hclient.1
      · exact hupstream.1
    · rw [hrec, sessionRecord, hclient.2, hupstream.2]
      rfl
  failure error hp := by
    rw [Inv, hp] at hi
    rcases hi with hu | ⟨target, duration, hsec, -, hrec⟩
    · exact ⟨fun _ => hu.records, fun hne => absurd hu.upstream hne⟩
    · refine ⟨fun hnone => ?_, fun _ => ⟨duration, hrec⟩⟩
      rw [hsec.upstream] at hnone
      cases hnone
  otherwise hno := by
    unfold Inv at hi
    split at hi
    · exact hi.records
    · exact hi.1.records
    · exact hi.1.records
    · exact hi.2
    · next hp => exact absurd hp (hno _)
    · next hp => exact absurd hp (hno _)
    · rcases hi with h | ⟨-, -, h⟩
      · exact h.records
      · exact h

/-- **A DoT connection**: the streams of the client and of an upstream are joined only once the
upstream has shown to be the target that the client's server name is rewritten to; each peer gets
a prefix of what the other sends; and what is recorded is how it has ended. -/
theorem session_exact (h : Reachable (session rewriter serverNameError port) s) :
    (s.streams ≠ {} → ∃ sni r, s.serverName = some sni ∧ rewriter.rewrite sni = some r ∧
      serverNameError r.targetHostname = none ∧ s.upstream = some (r.targetHostname, port)) ∧
    (∀ x, (s.streams.half x).delivered <+: (s.streams.half x).sent) ∧ Recorded s := by
  have hi := Inv.of_reachable h
  refine ⟨fun hne => ?_, fun x => ?_, hi.recorded⟩
  · rcases hi.cases with hu | ⟨target, hsec⟩
    · exact absurd hu.streams hne
    · obtain ⟨sni, r, hsni, hr, rfl⟩ := connectionTarget_ok hsec.routed
      exact ⟨sni, r, hsni, hr, hsec.valid, hsec.upstream⟩
  · rcases hi.cases with hu | ⟨target, hsec⟩
    · rw [hu.streams]
      cases x <;> exact List.nil_prefix
    · exact (Halves.inv_of_reachable hsec.streams x).delivered_le

/-- A zone transfer whose client ends its stream first. -/
def transferSession : List Action :=
  [.accept (some (utf8 "home.example.com")), .connect none, .secure none] ++
    Halves.halfClosed.map (fun (x, e) => .relay x e) ++ [.join 7]

theorem session_exact_transfer :
    ∃ s, run (session (createRewriter certifiedConfig.rewrite) (fun _ => none) 853) {}
        transferSession = some s ∧
      s.upstream = some (utf8 "home.example.cn", 853) ∧ Recorded s := by
  have hinit : (session (createRewriter certifiedConfig.rewrite) (fun _ => none) 853).init {} := rfl
  refine ⟨_, rfl, rfl, ?_⟩
  exact (session_exact (.of_run transferSession hinit rfl)).2.2

end DnsIngress.DoTServer
