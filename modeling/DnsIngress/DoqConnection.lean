import DnsIngress.DoqStream

/-! # The streams of a DoQ connection

All stream tasks of a connection share it, and a task that ends with `DnsProxyError::Protocol`
closes it for all of them.  Each task meets an arbitrary behaviour of its client's stream, of the
pool and of its upstream, so a list of tasks stands for every interleaving of them, and for the
effects that closing the connection for one has on the others.

* `Fair` is the promise to the client: a task closes the connection only if the bytes of its own
  stream are not one query.
* `Blames` lists the ways to break it.  `fair_iff` says that there are no others. -/

namespace DnsIngress.Quic

open Framing

/-- The task calls `close_connection.close(..)`. -/
def StreamTask.closes (text : ReadExactError → Bytes) (t : StreamTask) : Bool :=
  !t.shutdown && closesConnection (forwardQuicStream text t.toTransaction).result

/-- The bytes of a stream are not one frame with a DNS header and the message ID zero. -/
def Violates (bytes : Bytes) : Prop :=
  ∀ query, Sendable query → ZeroId query → bytes ≠ encode query

/-- A task closes the connection only for a client that broke the protocol on its stream. -/
def StreamTask.Fair (text : ReadExactError → Bytes) (t : StreamTask) : Prop :=
  t.closes text = true → Violates t.clientRecv.bytes

/-- The ways to close the connection for a client that has sent one query. -/
inductive Blames (t : Transaction) : Prop
  /-- the client resets its stream after the query -/
  | queryReset (query reason : Bytes) : Sendable query → ZeroId query →
      t.clientRecv = ⟨encode query, .reset reason⟩ → Blames t
  /-- the upstream refuses the query -/
  | queryWriteFails (query : Bytes) (j k : ℕ) (reason : Bytes) : t.Accepted query →
      t.poolGet = .lease → t.openBi = .streams → j < 2 → t.upstreamSend.opened.Writes j →
      t.upstreamSend.outcome j = .error k reason → Blames t
  /-- after some valid frames, the response has neither another one nor a clean end -/
  | responseBreaks (query : Bytes) (ms : List Bytes) (rest : Bytes) : t.Sent query →
      t.upstreamRecv.bytes = encodeAll ms ++ rest → (∀ m ∈ ms, Sendable m ∧ ZeroId m) →
      (∀ m rest', Sendable m → ZeroId m → rest ≠ encode m ++ rest') →
      (t.upstreamRecv.ending = .fin → rest ≠ []) →
      (t.upstreamRecv.ending = .stall → ¬ Incomplete rest) →
      t.clientSend.opened.Writes (2 * ms.length) → Blames t
  /-- the client stops the response stream -/
  | responseWriteFails (query : Bytes) (ms : List Bytes) (rest : Bytes) (j k : ℕ)
      (reason : Bytes) : t.Sent query → t.upstreamRecv.bytes = encodeAll ms ++ rest →
      (∀ m ∈ ms, Sendable m ∧ ZeroId m) → j < 2 * ms.length → t.clientSend.opened.Writes j →
      t.clientSend.outcome j = .error k reason → Blames t
  /-- the client stops it after the last frame -/
  | finishFails (query : Bytes) (ms : List Bytes) (message : Bytes) : t.Sent query →
      t.upstreamRecv = ⟨encodeAll ms, .fin⟩ → (∀ m ∈ ms, Sendable m ∧ ZeroId m) →
      t.clientSend.opened.Writes (2 * ms.length) → t.clientSend.finishError = some message →
      Blames t

variable {text : ReadExactError → Bytes} {t : StreamTask}

theorem StreamTask.closes_iff :
    t.closes text = true ↔ t.shutdown = false ∧
      ∃ message, (forwardQuicStream text t.toTransaction).result = .error (.protocol message) := by
  rw [StreamTask.closes, Bool.and_eq_true, Bool.not_eq_true']
  refine and_congr_right fun _ => ?_
  constructor
  · intro h
    cases hr : (forwardQuicStream text t.toTransaction).result with
    | ok _ =>
        rw [hr] at h
        cases h
    | error e =>
        rw [hr] at h
        cases e with
        | protocol message => exact ⟨message, rfl⟩
        | _ => cases h
  · rintro ⟨message, hr⟩
    rw [hr]
    rfl

/-- A response that has neither a valid frame nor a clean end is a protocol error. -/
theorem relayFrames_breaks (text : ReadExactError → Bytes) {rest : Bytes} {ending : Ending}
    {send : SendStream} {bytesSent : ℕ}
    (hbad : ∀ m rest', Sendable m → ZeroId m → rest ≠ encode m ++ rest')
    (hfin : ending = .fin → rest ≠ []) (hstall : ending = .stall → ¬ Incomplete rest) :
    ∃ message send', relayFrames text ⟨rest, ending⟩ send bytesSent =
      (.error (.protocol message), send') := by
  obtain ⟨ms, rest', r, chunks, h⟩ := exists_relays text ⟨rest, ending⟩ send bytesSent
  have hb : rest = encodeAll ms ++ rest' := h.bytes
  cases ms with
  | cons m ms =>
      obtain ⟨hm, hz⟩ := h.valid m List.mem_cons_self
      rw [encodeAll_cons, List.append_assoc] at hb
      exact absurd hb (hbad m _ hm hz)
  | nil =>
      rw [encodeAll_nil, List.nil_append] at hb
      have hr := h.result
      cases h.stops with
      | fin he => exact absurd hb (hfin he)
      | stall he hinc => exact absurd (hb ▸ hinc) (hstall he)
      | malformed => exact ⟨_, _, hr⟩
      | @write m rest' _ _ _ hm hz => exact absurd hb (hbad m rest' hm hz)

/-- A client that has sent one query has not broken the protocol. -/
theorem not_violates {query : Bytes} (hm : Sendable query) (hz : ZeroId query) :
    ¬ Violates (encode query) :=
  fun h => h query hm hz rfl

theorem not_fair_of_response {query message : Bytes} {send : SendStream}
    (hs : t.shutdown = false) (hsent : t.Sent query)
    (hr : relayFrames text t.upstreamRecv t.clientSend.opened 0 =
      (.error (.protocol message), send)) : ¬ t.Fair text := by
  intro hf
  have hresult := (forwardQuicStream_response hsent hr).1
  have hv := hf (StreamTask.closes_iff.mpr ⟨hs, message, hresult⟩)
  rw [hsent.clientRecv] at hv
  exact not_violates hsent.sendable hsent.zeroId hv

theorem forwardQuicStream_finishFails {t : Transaction} {query message : Bytes} {n : ℕ}
    {send : SendStream} (hsent : t.Sent query)
    (hr : relayFrames text t.upstreamRecv t.clientSend.opened 0 = (.ok n, send))
    (hf : send.finishError = some message) :
    (forwardQuicStream text t).result =
      .error (.protocol (utf8 "Failed to finish client stream: " ++ message)) := by
  rw [forwardQuicStream_sent hsent, hr]
  simp only [SendStream.finish, hf]

theorem not_fair_of_blames (hs : t.shutdown = false) (h : Blames t.toTransaction) :
    ¬ t.Fair text := by
  cases h with
  | queryReset query reason hm hz hrecv =>
      intro hf
      have hinc : Incomplete [] := by decide
      obtain ⟨message, hread⟩ : ∃ message,
          (readDoqFrame text ⟨[], .reset reason⟩).1 = .error (.protocol message) :=
        readDoqFrame_cut hinc (by simp) (by simp)
      have hq := readDoqQuery_encode_error hm hz hread
      rw [List.append_nil, ← hrecv] at hq
      have hv := hf (StreamTask.closes_iff.mpr ⟨hs, message, (forwardQuicStream_query text hq).1⟩)
      rw [hrecv] at hv
      exact not_violates hm hz hv
  | queryWriteFails query j k reason hacc hp ho hj hw herr =>
      intro hf
      rw [← Sink.opened_outcome] at herr
      obtain ⟨e, chunks, hfail, hwrite, -⟩ :=
        writeDoqFrame_fails hacc.sendable hj hw (by rw [herr]; simp)
      obtain ⟨message, rfl⟩ := hfail.protocol_of_error herr
      have hr := (forwardQuicStream_queryWrite text hacc hp ho hwrite).1
      have hv := hf (StreamTask.closes_iff.mpr ⟨hs, message, hr⟩)
      rw [hacc.clientRecv] at hv
      exact not_violates hacc.sendable hacc.zeroId hv
  | responseBreaks query ms rest hsent hb hms hbad hfin hstall hw =>
      obtain ⟨message, send, hbreak⟩ := relayFrames_breaks text hbad hfin hstall
      have hrelay : relayFrames text ⟨encodeAll ms ++ rest, t.upstreamRecv.ending⟩
          t.clientSend.opened 0 = _ := relayFrames_encodeAll hms hw
      rw [hbreak, ← hb] at hrelay
      exact not_fair_of_response hs hsent hrelay
  | responseWriteFails query ms rest j k reason hsent hb hms hj hw herr =>
      rw [← Sink.opened_outcome] at herr
      obtain ⟨e, send, hfail, hrelay, -⟩ := relayFrames_fails text rest t.upstreamRecv.ending 0
        hms hj hw (by rw [herr]; simp)
      obtain ⟨message, rfl⟩ := hfail.protocol_of_error herr
      rw [← hb] at hrelay
      exact not_fair_of_response hs hsent hrelay
  | finishFails query ms message hsent hrecv hms hw hfinish =>
      intro hf
      have hend : ∀ send n, relayFrames text ⟨[], .fin⟩ send n = (.ok n, send) :=
        fun _ _ => relayFrames_end (by rw [readDoqFrame_fin])
      have hrelay : relayFrames text ⟨encodeAll ms ++ [], .fin⟩ t.clientSend.opened 0 = _ :=
        relayFrames_encodeAll hms hw
      rw [hend, List.append_nil, ← hrecv] at hrelay
      have hresult := forwardQuicStream_finishFails hsent hrelay hfinish
      have hv := hf (StreamTask.closes_iff.mpr ⟨hs, _, hresult⟩)
      rw [hsent.clientRecv] at hv
      exact not_violates hsent.sendable hsent.zeroId hv

theorem fair_of_not_blames (h : ¬ Blames t.toTransaction) : t.Fair text := by
  intro hcloses query hm hz hb
  obtain ⟨-, message, hresult⟩ := StreamTask.closes_iff.mp hcloses
  cases forwardQuicStream_ends text t.toTransaction with
  | query e hq hr hu =>
      cases hr.symm.trans hresult
      cases hrecv : t.clientRecv with
      | mk bytes ending =>
          rw [hrecv] at hq hb
          subst hb
          cases ending with
          | fin => cases hq.symm.trans (readDoqQuery_fin hm hz)
          | stall =>
              have hinc : Incomplete [] := by decide
              have hstall : Incomplete (encode query) ∨ ∃ m rest, Sendable m ∧ ZeroId m ∧
                  encode query = encode m ++ rest ∧ Incomplete rest :=
                .inr ⟨query, [], hm, hz, by rw [List.append_nil], hinc⟩
              obtain ⟨op, hq'⟩ := readDoqQuery_stall text hstall
              cases hq.symm.trans hq'
          | reset reason => exact h (.queryReset query reason hm hz hrecv)
  | connection _ e _ _ hr he _ | stream _ e _ _ _ hr he _ =>
      cases hr.symm.trans hresult
      cases he
  | queryFinish _ _ e _ _ _ _ _ hr he _ _ =>
      cases hr.symm.trans hresult
      cases he
  | queryWrite query' j e hacc hp ho hj hfail hr _ _ =>
      cases hr.symm.trans hresult
      obtain ⟨k, reason, herr⟩ := hfail.error_of_protocol
      rw [Sink.opened_outcome] at herr
      exact h (.queryWriteFails query' j k reason hacc hp ho hj hfail.1 herr)
  | response query' ms rest r chunks hsent hrelays =>
      obtain ⟨-, -, hr⟩ := forwardQuicStream_relays hsent hrelays
      rw [hresult] at hr
      have hbytes := hrelays.bytes
      have hstops := hrelays.stops
      generalize he : t.upstreamRecv.ending = ending at hstops
      cases hstops with
      | fin hending =>
          cases hf : t.clientSend.finishError with
          | none => rw [hf] at hr; cases hr
          | some message' =>
              refine h (.finishFails query' ms message' hsent ?_ hrelays.valid hrelays.writes hf)
              rw [← hending, ← he, ← List.append_nil (encodeAll ms), ← hbytes]
      | stall _ _ => cases hr
      | malformed hbad hfin hstall =>
          exact h (.responseBreaks query' ms rest hsent hbytes hrelays.valid hbad (he ▸ hfin)
            (he ▸ hstall) hrelays.writes)
      | @write m rest j e chunks hm' hz' hj hfail _ _ =>
          cases hr
          obtain ⟨hbytes', hvalid, hlt, hfail'⟩ := hrelays.failedWrite hm' hz' hj hfail
          obtain ⟨k, reason, herr⟩ := hfail'.error_of_protocol
          rw [Sink.opened_outcome] at herr
          exact h (.responseWriteFails query' (ms ++ [m]) rest (2 * ms.length + j) k reason hsent
            hbytes' hvalid hlt hfail'.1 herr)

/-- **The promise is kept on every stream of a connection exactly when each task is shut down or
blames its client rightly.** -/
theorem fair_iff {streams : List StreamTask} :
    (∀ t ∈ streams, t.Fair text) ↔
      ∀ t ∈ streams, t.shutdown = true ∨ ¬ Blames t.toTransaction := by
  refine forall₂_congr fun t _ => ?_
  constructor
  · intro hf
    cases hs : t.shutdown with
    | true => exact .inl rfl
    | false => exact .inr fun h => not_fair_of_blames hs h hf
  · rintro (hs | h)
    · intro hcloses
      cases hs.symm.trans (StreamTask.closes_iff.mp hcloses).1
    · exact fair_of_not_blames h

/-- The upstream answers with a response whose message ID is not zero. -/
def badAnswer : StreamTask :=
  { cutTransfer with
    upstreamRecv := ⟨encode (1 :: header), .fin⟩
    shutdown := false }

/-- The client stops the response stream before the first frame. -/
def stoppedResponse : StreamTask :=
  { cutTransfer with
    clientSend := { Sink.reliable with outcome := fun _ => .error 0 (utf8 "stopped by peer") }
    shutdown := false }

/-- Neither client has broken the protocol, and both lose their connection. -/
theorem not_fair : ¬ badAnswer.Fair quinnText ∧ ¬ stoppedResponse.Fair quinnText := by
  have hsent : cutTransfer.Sent header :=
    { sendable := by decide, zeroId := by decide, clientRecv := rfl, lease := rfl, streams := rfl,
      writes := fun _ _ => rfl, finishes := rfl }
  constructor
  · have hbad : ∀ m rest, Sendable m → ZeroId m → encode (1 :: header) ≠ encode m ++ rest := by
      intro m rest hm hz he
      rw [← List.append_nil (encode (1 :: header))] at he
      obtain ⟨rfl, -⟩ := encode_append_inj (by decide) hm he
      exact absurd hz (by decide)
    exact not_fair_of_blames rfl (.responseBreaks header [] (encode (1 :: header))
      { hsent with } rfl (by simp) hbad (by decide) (by decide) fun _ _ => rfl)
  · exact not_fair_of_blames rfl (.responseWriteFails header [header] (encode header ++ [0]) 0 0
      (utf8 "stopped by peer") { hsent with } rfl (by decide) (by decide)
      (by simp [SendStream.Writes]) rfl)

end DnsIngress.Quic
