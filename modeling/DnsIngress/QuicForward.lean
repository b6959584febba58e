import DnsIngress.QuicStream

/-! # A DoQ transaction (`forward_quic_stream` in `upstream/quic.rs`)

A `Transaction` is the arguments of `forward_quic_stream` and what its awaits give: the lease of
the pool, the stream that is opened on it, and the behaviour of the two streams.  Nothing is
assumed of either peer.

* `relayFrames` is the response loop.  Every iteration takes a frame off the upstream stream, so
  the recursion is on the bytes that are left.
* `Stops` says where the loop can stop, `relayFrames_stops` that it stops there and nowhere else,
  after a run of valid frames that it has relayed.
* `forward_exact`: the relay is exact, from the query to the last byte of the response. -/

namespace DnsIngress.Quic

open Framing

/-- `timeout(idle_timeout, pool.get(..)).await`. -/
inductive PoolGet
  | lease
  | overloaded
  | connectionFailed (reason : Bytes)
  | elapsed
deriving DecidableEq

/-- `timeout(idle_timeout, connection.open_bi()).await`. -/
inductive OpenBi
  | streams
  | error (reason : Bytes)
  | elapsed
deriving DecidableEq

structure Transaction where
  serverName : Bytes
  upstreamPort : UInt16
  clientSend : Sink
  clientRecv : RecvStream
  poolGet : PoolGet
  openBi : OpenBi
  upstreamSend : Sink
  upstreamRecv : RecvStream

/-- What is left when `forward_quic_stream` has returned and its streams are dropped. -/
structure Outcome where
  /-- `(bytes_received, bytes_sent)` -/
  result : Except DnsProxyError (ℕ × ℕ)
  clientSend : SendStream
  /-- `none` if no upstream stream was opened -/
  upstreamSend : Option SendStream
  /-- whether `pool.invalidate` was called -/
  invalidated : Bool

section
variable (text : ReadExactError → Bytes)

/-- The response loop of `forward_quic_stream`. -/
def relayFrames (recv : RecvStream) (send : SendStream) (bytesSent : ℕ) :
    Except DnsProxyError ℕ × SendStream :=
  match _ : readDoqFrame text recv with
  | (.error e, _) => (.error e, send)
  | (.ok none, _) => (.ok bytesSent, send)
  | (.ok (some response), recv') =>
      if response.length < 12 ∨ response.take 2 ≠ [0, 0] then
        (.error (.protocol (utf8 "DoQ upstream response has an invalid DNS message ID")), send)
      else
        match writeDoqFrame send response with
        | (.error e, send) => (.error e, send)
        | (.ok (), send) => relayFrames recv' send (bytesSent + (response.length + 2))
termination_by recv.bytes.length
decreasing_by exact readDoqFrame_shortens ‹_›

/-- `forward_quic_stream`. -/
def forwardQuicStream (t : Transaction) : Outcome :=
  let upstream := t.serverName ++ utf8 ":" ++ decimal t.upstreamPort.toNat
  let unopened (e : DnsProxyError) (invalidated : Bool) : Outcome :=
    { result := .error e, clientSend := t.clientSend.opened.drop, upstreamSend := none,
      invalidated := invalidated }
  let opened (result : Except DnsProxyError (ℕ × ℕ)) (clientSend upstreamSend : SendStream) :
      Outcome :=
    { result := result, clientSend := clientSend.drop, upstreamSend := some upstreamSend.drop,
      invalidated := false }
  match readDoqQuery text t.clientRecv with
  | .error e => unopened e false
  | .ok query =>
      let bytesReceived := query.length + 2
      match t.poolGet with
      | .elapsed => unopened (doqIdleTimeout (utf8 "opening upstream connection")) false
      | .overloaded =>
          unopened (overloaded t.serverName t.upstreamPort (utf8 "QUIC")) false
      | .connectionFailed reason =>
          unopened (upstreamError t.serverName t.upstreamPort reason) false
      | .lease =>
          match t.openBi with
          | .error error =>
              unopened (.upstream (.requestFailed upstream
                (utf8 "Failed to open DoQ stream: " ++ error))) true
          | .elapsed => unopened (doqIdleTimeout (utf8 "opening upstream stream")) true
          | .streams =>
              match writeDoqFrame t.upstreamSend.opened query with
              | (.error e, upstreamSend) => opened (.error e) t.clientSend.opened upstreamSend
              | (.ok (), upstreamSend) =>
                  match upstreamSend.finish with
                  | (.error error, upstreamSend) =>
                      opened (.error (.upstream (.requestFailed upstream
                        (utf8 "Failed to finish DoQ query: " ++ error))))
                        t.clientSend.opened upstreamSend
                  | (.ok (), upstreamSend) =>
                      match relayFrames text t.upstreamRecv t.clientSend.opened 0 with
                      | (.error e, clientSend) => opened (.error e) clientSend upstreamSend
                      | (.ok bytesSent, clientSend) =>
                          match clientSend.finish with
                          | (.error e, clientSend) =>
                              opened (.error (.protocol
                                (utf8 "Failed to finish client stream: " ++ e)))
                                clientSend upstreamSend
                          | (.ok (), clientSend) =>
                              opened (.ok (bytesReceived, bytesSent)) clientSend upstreamSend

end

/-! ### The response loop -/

/-- The loop stops before these bytes of a response with this ending: what it returns, and what
it has written since the last frame that was relayed. -/
inductive Stops (ending : Ending) (send : SendStream) :
    Bytes → Except DnsProxyError Unit → List Bytes → Prop
  | fin : ending = .fin → Stops ending send [] (.ok ()) []
  | stall {rest operation} : ending = .stall → Incomplete rest →
      Stops ending send rest (.error (doqIdleTimeout operation)) []
  | malformed {rest message} : (∀ m rest', Sendable m → ZeroId m → rest ≠ encode m ++ rest') →
      (ending = .fin → rest ≠ []) → (ending = .stall → ¬ Incomplete rest) →
      Stops ending send rest (.error (.protocol message)) []
  | write {m rest j error chunks} : Sendable m → ZeroId m → j < 2 → send.FailsAt j error →
      chunks.flatten <+: encode m → chunks.flatten.length < (encode m).length →
      Stops ending send (encode m ++ rest) (.error error) chunks

variable {text : ReadExactError → Bytes} {send : SendStream} {m rest : Bytes} {ending : Ending}
  {bytesSent : ℕ}

theorem relayFrames_encode (hm : Sendable m) :
    relayFrames text ⟨encode m ++ rest, ending⟩ send bytesSent =
      if m.length < 12 ∨ m.take 2 ≠ [0, 0] then
        (.error (.protocol (utf8 "DoQ upstream response has an invalid DNS message ID")), send)
      else
        match writeDoqFrame send m with
        | (.error e, send) => (.error e, send)
        | (.ok (), send) => relayFrames text ⟨rest, ending⟩ send (bytesSent + (m.length + 2)) := by
  rw [relayFrames]
  have hr : readDoqFrame text ⟨encode m ++ rest, ending⟩ = _ := readDoqFrame_encode hm
  split <;> simp_all

theorem relayFrames_zeroId (hm : Sendable m) (hz : ZeroId m) :
    relayFrames text ⟨encode m ++ rest, ending⟩ send bytesSent =
      match writeDoqFrame send m with
      | (.error e, send) => (.error e, send)
      | (.ok (), send) => relayFrames text ⟨rest, ending⟩ send (bytesSent + (m.length + 2)) := by
  have hgood : ¬ (m.length < 12 ∨ m.take 2 ≠ [0, 0]) := by simp [hz.1, hz.2]
  rw [relayFrames_encode hm, if_neg hgood]

theorem relayFrames_frame (hm : Sendable m) (hz : ZeroId m) (hw : send.Writes 2) :
    relayFrames text ⟨encode m ++ rest, ending⟩ send bytesSent =
      relayFrames text ⟨rest, ending⟩ (send.wrote (frameChunks m))
        (bytesSent + (encode m).length) := by
  rw [relayFrames_zeroId hm hz, writeDoqFrame_ok hm hw, length_encode]

theorem relayFrames_writeFails (hm : Sendable m) (hz : ZeroId m) {e : DnsProxyError}
    {send' : SendStream} (hwrite : writeDoqFrame send m = (.error e, send')) :
    relayFrames text ⟨encode m ++ rest, ending⟩ send bytesSent = (.error e, send') := by
  rw [relayFrames_zeroId hm hz, hwrite]

theorem relayFrames_end {recv : RecvStream}
    (h : (readDoqFrame text recv).1 = .ok none) :
    relayFrames text recv send bytesSent = (.ok bytesSent, send) := by
  rw [relayFrames]
  split <;> simp_all

theorem relayFrames_error {recv : RecvStream} {e : DnsProxyError}
    (h : (readDoqFrame text recv).1 = .error e) :
    relayFrames text recv send bytesSent = (.error e, send) := by
  rw [relayFrames]
  split <;> simp_all

theorem wrote_cons (m : Bytes) (ms : List Bytes) :
    (send.wrote (frameChunks m)).wrote (ms.flatMap frameChunks) =
      send.wrote ((m :: ms).flatMap frameChunks) := by
  rw [SendStream.wrote_wrote, List.flatMap_cons]

/-- The loop relays the frames `ms`, stops before `rest` with result `r`, and has written `chunks`
since the last of the frames. -/
structure Relays (text : ReadExactError → Bytes) (recv : RecvStream) (send : SendStream)
    (bytesSent : ℕ) (ms : List Bytes) (rest : Bytes) (r : Except DnsProxyError Unit)
    (chunks : List Bytes) : Prop where
  bytes : recv.bytes = encodeAll ms ++ rest
  valid : ∀ m ∈ ms, Sendable m ∧ ZeroId m
  writes : send.Writes (2 * ms.length)
  stops : Stops recv.ending (send.wrote (ms.flatMap frameChunks)) rest r chunks
  result : relayFrames text recv send bytesSent =
    (r.map fun _ => bytesSent + (encodeAll ms).length,
      (send.wrote (ms.flatMap frameChunks)).wrote chunks)

variable {recv : RecvStream} {ms : List Bytes} {r : Except DnsProxyError Unit} {chunks : List Bytes}

theorem Relays.nil (hs : Stops recv.ending send recv.bytes r chunks)
    (hr : relayFrames text recv send bytesSent = (r.map fun _ => bytesSent, send.wrote chunks)) :
    Relays text recv send bytesSent [] recv.bytes r chunks where
  bytes := rfl
  valid := by simp
  writes := SendStream.writes_zero
  stops := by simpa [SendStream.wrote_nil] using hs
  result := by simpa [SendStream.wrote_nil] using hr

theorem writes_cons {m : Bytes} {ms : List Bytes} :
    send.Writes (2 * (m :: ms).length) ↔
      send.Writes 2 ∧ (send.wrote (frameChunks m)).Writes (2 * ms.length) := by
  rw [show 2 * (m :: ms).length = (frameChunks m).length + 2 * ms.length by
    simp [frameChunks]; omega]
  exact SendStream.writes_wrote

theorem Relays.cons {tail : Bytes} (hm : Sendable m) (hz : ZeroId m) (hw : send.Writes 2)
    (h : Relays text ⟨tail, ending⟩ (send.wrote (frameChunks m)) (bytesSent + (encode m).length)
      ms rest r chunks) :
    Relays text ⟨encode m ++ tail, ending⟩ send bytesSent (m :: ms) rest r chunks where
  bytes := by
    rw [encodeAll_cons, List.append_assoc, ← h.bytes]
  valid := by
    intro x hx
    rcases List.mem_cons.mp hx with rfl | hx
    · exact ⟨hm, hz⟩
    · exact h.valid x hx
  writes := writes_cons.mpr ⟨hw, h.writes⟩
  stops := wrote_cons m ms ▸ h.stops
  result := by
    rw [relayFrames_frame hm hz hw, h.result, wrote_cons, encodeAll_cons, List.length_append,
      Nat.add_assoc]

/-- **The loop relays a run of valid frames and stops.** -/
theorem exists_relays (text : ReadExactError → Bytes) (recv : RecvStream) (send : SendStream)
    (bytesSent : ℕ) : ∃ ms rest r chunks, Relays text recv send bytesSent ms rest r chunks := by
  obtain ⟨bytes, ending⟩ := recv
  induction hn : bytes.length using Nat.strong_induction_on generalizing bytes send bytesSent with
  | _ n ih =>
      rcases readDoqFrame_cases text ⟨bytes, ending⟩ with
        ⟨m, rest, hm, rfl, hr⟩ | ⟨hfin, hr⟩ | ⟨he, hinc, op, hr⟩ | ⟨hbad, hne, message, hr⟩
      · by_cases hz : ZeroId m
        · rcases writeDoqFrame_cases send hm with
            ⟨hw, -⟩ | ⟨j, error, chunks, hj, hfail, hpre, hlt, hwrite⟩
          · obtain ⟨ms, rest', r, chunks, h⟩ := ih rest.length (by simp [← hn])
              (send.wrote (frameChunks m)) (bytesSent + (encode m).length) rest rfl
            exact ⟨m :: ms, rest', r, chunks, h.cons hm hz hw⟩
          · refine ⟨[], _, .error error, chunks, .nil (.write hm hz hj hfail hpre hlt) ?_⟩
            rw [relayFrames_writeFails hm hz hwrite]
            rfl
        · refine ⟨[], _, .error (.protocol
            (utf8 "DoQ upstream response has an invalid DNS message ID")), [],
            .nil (.malformed ?_ ?_ ?_) ?_⟩
          · intro m' rest' hm' hz' h
            exact hz ((encode_append_inj hm hm' h).1 ▸ hz')
          · intro _ h
            exact encode_ne_nil m (List.append_eq_nil_iff.mp h).1
          · intro _ h
            exact not_incomplete_encode hm h
          · have hbad : m.length < 12 ∨ m.take 2 ≠ [0, 0] := by
              by_contra hgood
              exact hz ⟨by omega, by_contra fun h => hgood (.inr h)⟩
            rw [relayFrames_encode hm, if_pos hbad, SendStream.wrote_nil]
            rfl
      · cases hfin
        refine ⟨[], [], .ok (), [], .nil (.fin rfl) ?_⟩
        rw [relayFrames_end (by rw [hr]), SendStream.wrote_nil]
        rfl
      · refine ⟨[], bytes, .error (doqIdleTimeout op), [], .nil (.stall he hinc) ?_⟩
        rw [relayFrames_error hr, SendStream.wrote_nil]
        rfl
      · refine ⟨[], bytes, .error (.protocol message), [], .nil (.malformed ?_ ?_ ?_) ?_⟩
        · rintro m rest' hm - rfl
          rcases hbad with ⟨-, hinc⟩ | ⟨rest, hz⟩
          · exact not_incomplete_encode hm hinc
          · exact encode_append_ne_zero hm hz
        · rintro rfl rfl
          exact hne rfl
        · intro hstall hinc
          rcases hbad with ⟨hns, -⟩ | ⟨rest, rfl⟩
          · exact hns hstall
          · exact not_incomplete_zero rest hinc
        · rw [relayFrames_error hr, SendStream.wrote_nil]
          rfl

theorem relayFrames_encodeAll (hms : ∀ m ∈ ms, Sendable m ∧ ZeroId m)
    (hw : send.Writes (2 * ms.length)) :
    relayFrames text ⟨encodeAll ms ++ rest, ending⟩ send bytesSent =
      relayFrames text ⟨rest, ending⟩ (send.wrote (ms.flatMap frameChunks))
        (bytesSent + (encodeAll ms).length) := by
  induction ms generalizing send bytesSent with
  | nil => simp [SendStream.wrote_nil]
  | cons m ms ih =>
      obtain ⟨hm, hz⟩ := hms m List.mem_cons_self
      obtain ⟨hw₁, hw₂⟩ := writes_cons.mp hw
      rw [encodeAll_cons, List.append_assoc, relayFrames_frame hm hz hw₁,
        ih (fun x hx => hms x (List.mem_cons_of_mem _ hx)) hw₂, wrote_cons, List.length_append,
        Nat.add_assoc]

theorem Relays.isLongestRun (h : Relays text recv send bytesSent ms rest r chunks)
    (hwrites : ∀ j, send.outcome j = .ok) : chunks = [] ∧ IsLongestRun ZeroId ms recv.bytes := by
  rw [h.bytes]
  cases h.stops with
  | fin _ =>
      refine ⟨rfl, isLongestRun_of_stuck h.valid fun m rest' _ _ he => ?_⟩
      exact encode_ne_nil m (List.append_eq_nil_iff.mp he.symm).1
  | stall _ hinc =>
      refine ⟨rfl, isLongestRun_of_stuck h.valid fun m rest' hm _ he => ?_⟩
      exact not_incomplete_encode hm (he ▸ hinc)
  | malformed hbad _ _ => exact ⟨rfl, isLongestRun_of_stuck h.valid hbad⟩
  | write _ _ _ hfail _ _ => exact absurd (hwrites _) hfail.not_ok

/-- The write that fails is one of the two of the frame after the run. -/
theorem Relays.failedWrite {j : ℕ} {e : DnsProxyError}
    (h : Relays text recv send bytesSent ms (encode m ++ rest) r chunks) (hm : Sendable m)
    (hz : ZeroId m) (hj : j < 2) (hfail : (send.wrote (ms.flatMap frameChunks)).FailsAt j e) :
    recv.bytes = encodeAll (ms ++ [m]) ++ rest ∧ (∀ x ∈ ms ++ [m], Sendable x ∧ ZeroId x) ∧
      2 * ms.length + j < 2 * (ms ++ [m]).length ∧ send.FailsAt (2 * ms.length + j) e := by
  have hlen := length_flatMap_frameChunks ms
  refine ⟨?_, ?_, ?_, ?_⟩
  · rw [h.bytes, encodeAll_append, List.append_assoc, encodeAll_cons, encodeAll_nil,
      List.append_nil]
  · intro x hx
    rcases List.mem_append.mp hx with hx | hx
    · exact h.valid x hx
    · rw [List.mem_singleton.mp hx]
      exact ⟨hm, hz⟩
  · rw [List.length_append, List.length_singleton]
    omega
  · rw [← hlen]
    exact hfail.wrote (hlen ▸ h.writes)

/-! ### The transaction -/

/-- Every write to the stream succeeds, and so does `finish`. -/
structure Sink.Reliable (sink : Sink) : Prop where
  writes : ∀ j, sink.outcome j = .ok
  finishes : sink.finishError = none

variable {t : Transaction} {query : Bytes}

/-- The client's stream is one query. -/
structure Transaction.Accepted (t : Transaction) (query : Bytes) : Prop where
  sendable : Sendable query
  zeroId : ZeroId query
  clientRecv : t.clientRecv = ⟨encode query, .fin⟩

/-- The query has been accepted and the upstream has it. -/
structure Transaction.Sent (t : Transaction) (query : Bytes) : Prop extends t.Accepted query where
  lease : t.poolGet = .lease
  streams : t.openBi = .streams
  writes : t.upstreamSend.opened.Writes 2
  finishes : t.upstreamSend.finishError = none

/-- The stream the upstream has got the query on. -/
def Transaction.queryStream (t : Transaction) (query : Bytes) : SendStream :=
  { t.upstreamSend.opened.wrote (frameChunks query) with fin := true }

theorem Transaction.Accepted.readDoqQuery (h : t.Accepted query) :
    readDoqQuery text t.clientRecv = .ok query := by
  rw [h.clientRecv]
  exact readDoqQuery_fin h.sendable h.zeroId

theorem forwardQuicStream_sent (h : t.Sent query) :
    forwardQuicStream text t =
      match relayFrames text t.upstreamRecv t.clientSend.opened 0 with
      | (.error e, clientSend) =>
          { result := .error e, clientSend := clientSend.drop,
            upstreamSend := some (t.queryStream query), invalidated := false }
      | (.ok bytesSent, clientSend) =>
          match clientSend.finish with
          | (.error e, clientSend) =>
              { result := .error (.protocol (utf8 "Failed to finish client stream: " ++ e)),
                clientSend := clientSend.drop, upstreamSend := some (t.queryStream query),
                invalidated := false }
          | (.ok (), clientSend) =>
              { result := .ok (query.length + 2, bytesSent), clientSend := clientSend.drop,
                upstreamSend := some (t.queryStream query), invalidated := false } := by
  have hq : readDoqQuery text t.clientRecv = .ok query := h.readDoqQuery
  have hf : (t.upstreamSend.opened.wrote (frameChunks query)).finish =
      (.ok (), t.queryStream query) := by
    have : (t.upstreamSend.opened.wrote (frameChunks query)).finishError = none := h.finishes
    rw [SendStream.finish, this]
    rfl
  simp only [forwardQuicStream, hq, h.lease, h.streams,
    writeDoqFrame_ok h.sendable h.writes, hf]
  rfl

/-- The end of a transaction, by where its response loop stops. -/
theorem forwardQuicStream_relays (h : t.Sent query)
    (hr : Relays text t.upstreamRecv t.clientSend.opened 0 ms rest r chunks) :
    (forwardQuicStream text t).upstreamSend = some (t.queryStream query) ∧
    (forwardQuicStream text t).clientSend.written = ms.flatMap frameChunks ++ chunks ∧
    (forwardQuicStream text t).result =
      match r, t.clientSend.finishError with
      | .error e, _ => .error e
      | .ok (), some e => .error (.protocol (utf8 "Failed to finish client stream: " ++ e))
      | .ok (), none => .ok (query.length + 2, (encodeAll ms).length) := by
  rw [forwardQuicStream_sent h, hr.result]
  cases r with
  | error e => exact ⟨rfl, rfl, rfl⟩
  | ok _ =>
      have hfe : ((t.clientSend.opened.wrote (ms.flatMap frameChunks)).wrote chunks).finishError =
          t.clientSend.finishError := rfl
      simp only [Except.map, SendStream.finish, hfe, Nat.zero_add]
      cases t.clientSend.finishError with
      | some e => exact ⟨rfl, rfl, rfl⟩
      | none => exact ⟨rfl, rfl, rfl⟩

/-- The points where a transaction can end. -/
inductive Ends (text : ReadExactError → Bytes) (t : Transaction) (o : Outcome) : Prop
  | query (e : DnsProxyError) : readDoqQuery text t.clientRecv = .error e →
      o.result = .error e → o.upstreamSend = none → Ends text t o
  | connection (query : Bytes) (e : DnsProxyError) : t.Accepted query → t.poolGet ≠ .lease →
      o.result = .error e → e.isProtocol = false → o.upstreamSend = none → Ends text t o
  | stream (query : Bytes) (e : DnsProxyError) : t.Accepted query → t.poolGet = .lease →
      t.openBi ≠ .streams → o.result = .error e → e.isProtocol = false → o.upstreamSend = none →
      Ends text t o
  | queryWrite (query : Bytes) (j : ℕ) (e : DnsProxyError) : t.Accepted query →
      t.poolGet = .lease → t.openBi = .streams → j < 2 → t.upstreamSend.opened.FailsAt j e →
      o.result = .error e → o.upstreamSend ≠ none → o.clientSend.bytes = [] → Ends text t o
  | queryFinish (query message : Bytes) (e : DnsProxyError) : t.Accepted query →
      t.poolGet = .lease → t.openBi = .streams → t.upstreamSend.opened.Writes 2 →
      t.upstreamSend.finishError = some message → o.result = .error e → e.isProtocol = false →
      o.upstreamSend ≠ none → o.clientSend.bytes = [] → Ends text t o
  | response (query : Bytes) (ms : List Bytes) (rest : Bytes) (r : Except DnsProxyError Unit)
      (chunks : List Bytes) : t.Sent query →
      Relays text t.upstreamRecv t.clientSend.opened 0 ms rest r chunks → Ends text t o

theorem forwardQuicStream_query (text : ReadExactError → Bytes) {e : DnsProxyError}
    (hq : readDoqQuery text t.clientRecv = .error e) :
    (forwardQuicStream text t).result = .error e ∧
      (forwardQuicStream text t).upstreamSend = none := by
  simp only [forwardQuicStream, hq, and_self]

theorem forwardQuicStream_connection (text : ReadExactError → Bytes) (hacc : t.Accepted query)
    (hp : t.poolGet ≠ .lease) :
    ∃ e, (forwardQuicStream text t).result = .error e ∧ e.isProtocol = false ∧
      (forwardQuicStream text t).upstreamSend = none := by
  have hq : readDoqQuery text t.clientRecv = .ok query := hacc.readDoqQuery
  cases hpool : t.poolGet with
  | lease => exact absurd hpool hp
  | _ =>
      simp only [forwardQuicStream, hq, hpool]
      exact ⟨_, rfl, rfl, trivial⟩

theorem forwardQuicStream_stream (text : ReadExactError → Bytes) (hacc : t.Accepted query)
    (hp : t.poolGet = .lease)
    (ho : t.openBi ≠ .streams) :
    ∃ e, (forwardQuicStream text t).result = .error e ∧ e.isProtocol = false ∧
      (forwardQuicStream text t).upstreamSend = none := by
  have hq : readDoqQuery text t.clientRecv = .ok query := hacc.readDoqQuery
  cases hopen : t.openBi with
  | streams => exact absurd hopen ho
  | _ =>
      simp only [forwardQuicStream, hq, hp, hopen]
      exact ⟨_, rfl, rfl, trivial⟩

theorem forwardQuicStream_queryWrite (text : ReadExactError → Bytes) (hacc : t.Accepted query)
    (hp : t.poolGet = .lease)
    (ho : t.openBi = .streams) {e : DnsProxyError} {upstreamSend : SendStream}
    (hw : writeDoqFrame t.upstreamSend.opened query = (.error e, upstreamSend)) :
    (forwardQuicStream text t).result = .error e ∧
      (forwardQuicStream text t).upstreamSend ≠ none ∧
      (forwardQuicStream text t).clientSend.bytes = [] := by
  have hq : readDoqQuery text t.clientRecv = .ok query := hacc.readDoqQuery
  simp only [forwardQuicStream, hq, hp, ho, hw]
  exact ⟨trivial, by simp, rfl⟩

theorem forwardQuicStream_queryFinish (text : ReadExactError → Bytes) (hacc : t.Accepted query)
    (hp : t.poolGet = .lease)
    (ho : t.openBi = .streams) (hw : t.upstreamSend.opened.Writes 2) {message : Bytes}
    (hf : t.upstreamSend.finishError = some message) :
    ∃ e, (forwardQuicStream text t).result = .error e ∧ e.isProtocol = false ∧
      (forwardQuicStream text t).upstreamSend ≠ none ∧
      (forwardQuicStream text t).clientSend.bytes = [] := by
  have hq : readDoqQuery text t.clientRecv = .ok query := hacc.readDoqQuery
  have hf' : (t.upstreamSend.opened.wrote (frameChunks query)).finish =
      (.error message, t.upstreamSend.opened.wrote (frameChunks query)) := by
    have : (t.upstreamSend.opened.wrote (frameChunks query)).finishError = some message := hf
    rw [SendStream.finish, this]
  simp only [forwardQuicStream, hq, hp, ho, writeDoqFrame_ok hacc.sendable hw, hf']
  exact ⟨_, rfl, rfl, by simp, rfl⟩

theorem forwardQuicStream_response (h : t.Sent query) {e : DnsProxyError} {clientSend : SendStream}
    (hr : relayFrames text t.upstreamRecv t.clientSend.opened 0 = (.error e, clientSend)) :
    (forwardQuicStream text t).result = .error e ∧
      (forwardQuicStream text t).clientSend.bytes = clientSend.bytes := by
  rw [forwardQuicStream_sent h, hr]
  exact ⟨rfl, rfl⟩

/-- **Every transaction ends at one of these points.** -/
theorem forwardQuicStream_ends (text : ReadExactError → Bytes) (t : Transaction) :
    Ends text t (forwardQuicStream text t) := by
  cases hq : readDoqQuery text t.clientRecv with
  | error e =>
      have ⟨hr, hu⟩ := forwardQuicStream_query text hq
      exact .query e hq hr hu
  | ok query =>
      obtain ⟨hm, hz, hrecv⟩ := readDoqQuery_ok hq
      have hacc : t.Accepted query := ⟨hm, hz, hrecv⟩
      by_cases hp : t.poolGet = .lease
      · by_cases ho : t.openBi = .streams
        · rcases writeDoqFrame_cases t.upstreamSend.opened hm with
            ⟨hw, -⟩ | ⟨j, e, chunks, hj, hfail, -, -, hwrite⟩
          · cases hf : t.upstreamSend.finishError with
            | none =>
                obtain ⟨ms, rest, r, chunks, h⟩ :=
                  exists_relays text t.upstreamRecv t.clientSend.opened 0
                exact .response query ms rest r chunks ⟨hacc, hp, ho, hw, hf⟩ h
            | some message =>
                obtain ⟨e, hr, hn, hu, hb⟩ := forwardQuicStream_queryFinish text hacc hp ho hw hf
                exact .queryFinish query message e hacc hp ho hw hf hr hn hu hb
          · have ⟨hr, hu, hb⟩ := forwardQuicStream_queryWrite text hacc hp ho hwrite
            exact .queryWrite query j e hacc hp ho hj hfail hr hu hb
        · obtain ⟨e, hr, hn, hu⟩ := forwardQuicStream_stream text hacc hp ho
          exact .stream query e hacc hp ho hr hn hu
      · obtain ⟨e, hr, hn, hu⟩ := forwardQuicStream_connection text hacc hp
        exact .connection query e hacc hp hr hn hu

/-- The client's stream always ends with a FIN. -/
theorem forwardQuicStream_fin (text : ReadExactError → Bytes) (t : Transaction) :
    (forwardQuicStream text t).clientSend.fin = true := by
  unfold forwardQuicStream
  repeat' split
  all_goals rfl

/-- **The relay is exact.**  The upstream receives the client's query frame and a FIN; the client
receives the longest run of complete frames with a header and the message ID zero, and at no
moment anything else; the call returns `Ok` when the upstream's FIN is at the end of this run. -/
theorem forward_exact (hq : readDoqQuery text t.clientRecv = .ok query) (hpool : t.poolGet = .lease)
    (hopen : t.openBi = .streams) (hup : t.upstreamSend.Reliable) (hcl : t.clientSend.Reliable) :
    let o := forwardQuicStream text t
    ∃ ms, IsLongestRun ZeroId ms t.upstreamRecv.bytes ∧
      (∃ upstreamSend, o.upstreamSend = some upstreamSend ∧
        upstreamSend.bytes = t.clientRecv.bytes ∧ t.clientRecv.bytes = encode query ∧
        upstreamSend.fin = true) ∧
      (∀ k, (o.clientSend.written.take k).flatten <+: t.upstreamRecv.bytes) ∧
      o.clientSend.bytes = encodeAll ms ∧
      ((∃ counts, o.result = .ok counts) ↔
        t.upstreamRecv.ending = .fin ∧ t.upstreamRecv.bytes = encodeAll ms) ∧
      ∀ bytesReceived bytesSent, o.result = .ok (bytesReceived, bytesSent) →
        o.clientSend.bytes = t.upstreamRecv.bytes ∧ bytesSent = t.upstreamRecv.bytes.length ∧
          bytesReceived = (encode query).length := by
  obtain ⟨hm, hz, hrecv⟩ := readDoqQuery_ok hq
  have hsent : t.Sent query :=
    { sendable := hm, zeroId := hz, clientRecv := hrecv, lease := hpool, streams := hopen,
      writes := fun _ _ => hup.writes _, finishes := hup.finishes }
  obtain ⟨ms, rest, r, chunks, h⟩ := exists_relays text t.upstreamRecv t.clientSend.opened 0
  obtain ⟨rfl, hrun⟩ := h.isLongestRun hcl.writes
  obtain ⟨hupstream, hwritten, hresult⟩ := forwardQuicStream_relays hsent h
  rw [hcl.finishes] at hresult
  rw [List.append_nil] at hwritten
  have hbytes : (forwardQuicStream text t).clientSend.bytes = encodeAll ms := by
    rw [SendStream.bytes, hwritten, flatten_flatMap_frameChunks]
  have hend : r = .ok () ↔ t.upstreamRecv.ending = .fin ∧ t.upstreamRecv.bytes = encodeAll ms := by
    rw [h.bytes]
    constructor
    · rintro rfl
      cases h.stops with
      | fin he => exact ⟨he, by rw [List.append_nil]⟩
    · rintro ⟨he, hb⟩
      obtain rfl : rest = [] := List.append_right_eq_self.mp hb
      cases h.stops with
      | fin _ => rfl
      | stall hs _ => exact absurd (he.symm.trans hs) (by simp)
      | malformed _ hne _ => exact absurd rfl (hne he)
  intro o
  refine ⟨ms, hrun, ⟨t.queryStream query, hupstream, ?_, ?_, rfl⟩, ?_, hbytes, ?_, ?_⟩
  · rw [hrecv, Transaction.queryStream]
    exact (SendStream.bytes_wrote _).trans (flatten_frameChunks query)
  · rw [hrecv]
  · intro k
    refine List.IsPrefix.trans ?_ hrun.2.1
    rw [← hbytes, SendStream.bytes]
    exact (List.take_prefix k _).flatten
  · rw [← hend, show o.result = _ from hresult]
    cases r with
    | error e => simp
    | ok _ => simp
  · intro bytesReceived bytesSent hok
    rw [show o.result = _ from hresult] at hok
    cases r with
    | error e => cases hok
    | ok _ =>
        cases hok
        rw [(hend.mp rfl).2]
        exact ⟨hbytes, rfl, by rw [length_encode]⟩

/-! ### A transfer that breaks off -/

/-- The texts of quinn's errors. -/
def quinnText : ReadExactError → Bytes
  | .finishedEarly read => utf8 "stream finished early (" ++ decimal read ++ utf8 " bytes read)"
  | .readError reason => reason

/-- A DNS header with the message ID zero. -/
def header : Bytes := List.replicate 12 0

/-- The upstream resets its stream in the length of the third message. -/
def cutTransfer : Transaction where
  serverName := utf8 "a.example"
  upstreamPort := 853
  clientSend := .reliable
  clientRecv := ⟨encode header, .fin⟩
  poolGet := .lease
  openBi := .streams
  upstreamSend := .reliable
  upstreamRecv := ⟨encodeAll [header, header] ++ [0], .reset (utf8 "reset by peer")⟩

theorem forward_exact_cutTransfer :
    (forwardQuicStream quinnText cutTransfer).clientSend.bytes = encodeAll [header, header] ∧
      ¬ ∃ counts, (forwardQuicStream quinnText cutTransfer).result = .ok counts := by
  have hreliable : Sink.reliable.Reliable := ⟨fun _ => rfl, rfl⟩
  have hq : readDoqQuery quinnText cutTransfer.clientRecv = .ok header :=
    readDoqQuery_fin (by decide) (by decide)
  obtain ⟨ms, hrun, -, -, hbytes, hok, -⟩ := forward_exact hq rfl rfl hreliable hreliable
  have hlongest : IsLongestRun ZeroId [header, header] cutTransfer.upstreamRecv.bytes := by
    refine isLongestRun_of_stuck (by decide) fun m rest hm _ he => ?_
    have hinc : Incomplete [0] := by decide
    rw [he] at hinc
    exact not_incomplete_encode hm hinc
  rw [hlongest.unique hrun]
  refine ⟨hbytes, fun h => ?_⟩
  cases (hok.mp h).1

end DnsIngress.Quic
