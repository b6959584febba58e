import DnsIngress.QuicForward

/-! # The DoQ stream task (`handle_connection` in `readers/doq.rs`)

A stream task owns both halves of a client stream.  They are dropped with the future of
`forward_quic_stream`, and quinn finishes a dropped `SendStream`, so the client sees a FIN after
every failure; only the close of the connection tells a truncated response from a complete one,
and the task closes it for `DnsProxyError::Protocol` alone.

* `Faithful` is the promise to the client: a FIN on a connection that is not being closed means
  that the response is complete.
* `Truncates` lists the ways to break it.  `faithful_iff` says that there are no others. -/

namespace DnsIngress.Quic

open Framing

/-- A stream task, and whether `shutdown.cancelled()` wins its `select!`.  The listener then drops
all handles of its connections, which closes them. -/
structure StreamTask extends Transaction where
  shutdown : Bool

/-- The task closes the client's connection for this result. -/
def closesConnection : Except DnsProxyError (ℕ × ℕ) → Bool
  | .ok _ => false
  | .error error => error.isProtocol

/-- A response that ends by a FIN on an open connection is complete: the upstream's stream ended
by FIN at the end of a frame, and all of its frames have been relayed. -/
def StreamTask.Faithful (text : ReadExactError → Bytes) (t : StreamTask) : Prop :=
  let o := forwardQuicStream text t.toTransaction
  t.shutdown = false → closesConnection o.result = false → o.clientSend.fin = true →
    o.upstreamSend ≠ none ∧ t.upstreamRecv.ending = .fin ∧
      ∃ ms, (∀ m ∈ ms, Sendable m) ∧ t.upstreamRecv.bytes = encodeAll ms ∧
        o.clientSend.bytes = encodeAll ms

/-- The ways to end a response early without closing the connection. -/
inductive Truncates (t : Transaction) : Prop
  /-- the client falls silent within its query, or before the FIN after it -/
  | queryStalls : t.clientRecv.ending = .stall → (Incomplete t.clientRecv.bytes ∨
      ∃ query rest, Sendable query ∧ ZeroId query ∧ t.clientRecv.bytes = encode query ++ rest ∧
        Incomplete rest) → Truncates t
  | noConnection (query : Bytes) : t.Accepted query → t.poolGet ≠ .lease → Truncates t
  | noStream (query : Bytes) : t.Accepted query → t.poolGet = .lease → t.openBi ≠ .streams →
      Truncates t
  /-- the upstream takes no more of the query; an empty response would still be complete -/
  | queryWriteStalls (query : Bytes) (j k : ℕ) : t.Accepted query → t.poolGet = .lease →
      t.openBi = .streams → j < 2 → t.upstreamSend.opened.Writes j →
      t.upstreamSend.outcome j = .stall k → t.upstreamRecv ≠ ⟨[], .fin⟩ → Truncates t
  | queryFinishFails (query message : Bytes) : t.Accepted query → t.poolGet = .lease →
      t.openBi = .streams → t.upstreamSend.opened.Writes 2 →
      t.upstreamSend.finishError = some message → t.upstreamRecv ≠ ⟨[], .fin⟩ → Truncates t
  /-- the upstream falls silent within a frame, or between two -/
  | responseStalls (query : Bytes) (ms : List Bytes) (rest : Bytes) : t.Sent query →
      t.upstreamRecv = ⟨encodeAll ms ++ rest, .stall⟩ → (∀ m ∈ ms, Sendable m ∧ ZeroId m) →
      Incomplete rest → t.clientSend.opened.Writes (2 * ms.length) → Truncates t
  /-- the client takes no more of the response -/
  | responseWriteStalls (query : Bytes) (ms : List Bytes) (rest : Bytes) (j k : ℕ) :
      t.Sent query → t.upstreamRecv.bytes = encodeAll ms ++ rest →
      (∀ m ∈ ms, Sendable m ∧ ZeroId m) → j < 2 * ms.length → t.clientSend.opened.Writes j →
      t.clientSend.outcome j = .stall k → Truncates t

variable {text : ReadExactError → Bytes} {t : StreamTask}

/-- An error that leaves the connection open needs a complete response. -/
theorem StreamTask.Faithful.of_error (h : t.Faithful text) (hs : t.shutdown = false)
    {e : DnsProxyError} (hr : (forwardQuicStream text t.toTransaction).result = .error e)
    (he : e.isProtocol = false) :
    (forwardQuicStream text t.toTransaction).upstreamSend ≠ none ∧
      t.upstreamRecv.ending = .fin ∧
      (forwardQuicStream text t.toTransaction).clientSend.bytes = t.upstreamRecv.bytes := by
  obtain ⟨hu, hfin, ms, -, hb, hc⟩ := h hs (by rw [hr]; exact he) (forwardQuicStream_fin text _)
  exact ⟨hu, hfin, hc.trans hb.symm⟩

theorem RecvStream.eq_of_nil {recv : RecvStream} {send : SendStream} (he : recv.ending = .fin)
    (hb : send.bytes = recv.bytes) (hs : send.bytes = []) : recv = ⟨[], .fin⟩ := by
  obtain ⟨bytes, ending⟩ := recv
  simp only at he hb
  rw [he, ← hb, hs]

/-- A write of the response that does not succeed ends the loop, before the last byte. -/
theorem relayFrames_fails (text : ReadExactError → Bytes) (rest : Bytes) (ending : Ending)
    (bytesSent : ℕ) {send : SendStream} {ms : List Bytes} {j : ℕ}
    (hms : ∀ m ∈ ms, Sendable m ∧ ZeroId m) (hj : j < 2 * ms.length)
    (hw : send.Writes j) (ho : send.outcome (send.written.length + j) ≠ .ok) :
    ∃ error send', send.FailsAt j error ∧
      relayFrames text ⟨encodeAll ms ++ rest, ending⟩ send bytesSent = (.error error, send') ∧
      send'.bytes.length < send.bytes.length + (encodeAll ms).length := by
  induction ms generalizing send bytesSent j with
  | nil => exact absurd hj (Nat.not_lt_zero j)
  | cons m ms ih =>
      obtain ⟨hm, hz⟩ := hms m List.mem_cons_self
      rw [encodeAll_cons, List.append_assoc, List.length_append]
      by_cases hlt : j < 2
      · obtain ⟨error, chunks, hfail, hwrite, hshort⟩ := writeDoqFrame_fails hm hlt hw ho
        refine ⟨error, send.wrote chunks, hfail, relayFrames_writeFails hm hz hwrite, ?_⟩
        rw [SendStream.bytes_wrote, List.length_append]
        omega
      · have hsplit : j = (frameChunks m).length + (j - 2) := by
          simp [frameChunks]
          omega
        rw [hsplit] at hw ho
        obtain ⟨hw₁, hw₂⟩ := SendStream.writes_wrote.mp hw
        have hj' : j - 2 < 2 * ms.length := by
          rw [List.length_cons] at hj
          omega
        obtain ⟨error, send', hfail, hr, hshort⟩ := ih (bytesSent + (encode m).length)
          (fun x hx => hms x (List.mem_cons_of_mem _ hx)) hj' hw₂
          (by simpa [SendStream.wrote, Nat.add_assoc] using ho)
        refine ⟨error, send', ?_, ?_, ?_⟩
        · rw [hsplit]
          exact hfail.wrote hw₁
        · rw [relayFrames_frame hm hz hw₁, hr]
        · rw [SendStream.bytes_wrote, flatten_frameChunks, List.length_append] at hshort
          omega

theorem not_faithful_of_truncates (hs : t.shutdown = false) (h : Truncates t.toTransaction) :
    ¬ t.Faithful text := by
  intro hf
  cases h with
  | queryStalls he hinc =>
      obtain ⟨op, hq⟩ := readDoqQuery_stall text hinc
      rw [← he] at hq
      have ⟨hr, hu⟩ := forwardQuicStream_query text hq
      exact (hf.of_error hs hr rfl).1 hu
  | noConnection query hacc hp =>
      obtain ⟨e, hr, he, hu⟩ := forwardQuicStream_connection text hacc hp
      exact (hf.of_error hs hr he).1 hu
  | noStream query hacc hp ho =>
      obtain ⟨e, hr, he, hu⟩ := forwardQuicStream_stream text hacc hp ho
      exact (hf.of_error hs hr he).1 hu
  | queryWriteStalls query j k hacc hp ho hj hw hstall hne =>
      rw [← Sink.opened_outcome] at hstall
      obtain ⟨e, chunks, hfail, hwrite, -⟩ :=
        writeDoqFrame_fails hacc.sendable hj hw (by rw [hstall]; simp)
      obtain ⟨op, rfl⟩ := hfail.timeout_of_stall hstall
      obtain ⟨hr, -, hb⟩ := forwardQuicStream_queryWrite text hacc hp ho hwrite
      obtain ⟨-, hfin, hbytes⟩ := hf.of_error hs hr rfl
      exact hne (RecvStream.eq_of_nil hfin hbytes hb)
  | queryFinishFails query message hacc hp ho hw hfinish hne =>
      obtain ⟨e, hr, he, -, hb⟩ := forwardQuicStream_queryFinish text hacc hp ho hw hfinish
      obtain ⟨-, hfin, hbytes⟩ := hf.of_error hs hr he
      exact hne (RecvStream.eq_of_nil hfin hbytes hb)
  | responseStalls query ms rest hsent hrecv hms hinc hw =>
      obtain ⟨op, hread⟩ := readDoqFrame_stall text hinc
      have hrelay : relayFrames text ⟨encodeAll ms ++ rest, .stall⟩ t.clientSend.opened 0 = _ :=
        relayFrames_encodeAll hms hw
      rw [relayFrames_error hread, ← hrecv] at hrelay
      have hfin := (hf.of_error hs (forwardQuicStream_response hsent hrelay).1 rfl).2.1
      rw [hrecv] at hfin
      cases hfin
  | responseWriteStalls query ms rest j k hsent hb hms hj hw hstall =>
      rw [← Sink.opened_outcome] at hstall
      obtain ⟨e, send, hfail, hrelay, hlt⟩ := relayFrames_fails text rest t.upstreamRecv.ending 0
        hms hj hw (by rw [hstall]; simp)
      obtain ⟨op, rfl⟩ := hfail.timeout_of_stall hstall
      rw [← hb] at hrelay
      obtain ⟨hr, hclient⟩ := forwardQuicStream_response hsent hrelay
      have hbytes := (hf.of_error hs hr rfl).2.2
      have hnone : t.clientSend.opened.bytes = [] := rfl
      rw [hclient] at hbytes
      rw [hbytes, hb, List.length_append, hnone, List.length_nil] at hlt
      omega

/-- A timeout of a write, or an error that closes the connection. -/
theorem SendStream.FailsAt.stall_of_open {send : SendStream} {j : ℕ} {e : DnsProxyError}
    (h : send.FailsAt j e) (he : e.isProtocol = false) :
    ∃ k, send.outcome (send.written.length + j) = .stall k := by
  rcases h.2 with ⟨hk, -⟩ | ⟨-, message, rfl⟩
  · exact hk
  · cases he

theorem faithful_of_not_truncates (h : ¬ Truncates t.toTransaction) : t.Faithful text := by
  intro hs hopen hfin
  have nonprotocol : ∀ e, (forwardQuicStream text t.toTransaction).result = .error e →
      e.isProtocol = false := by
    intro e hr
    rw [hr] at hopen
    exact hopen
  cases forwardQuicStream_ends text t.toTransaction with
  | query e hq hr hu =>
      rcases readDoqQuery_cases text t.clientRecv with
        ⟨_, -, -, -, hok⟩ | ⟨⟨he, hinc⟩, -⟩ | ⟨message, hp⟩
      · cases hq.symm.trans hok
      · exact absurd (.queryStalls he hinc) h
      · cases hq.symm.trans hp
        cases nonprotocol _ hr
  | connection query e hacc hp hr he hu => exact absurd (.noConnection query hacc hp) h
  | stream query e hacc hp ho hr he hu => exact absurd (.noStream query hacc hp ho) h
  | queryWrite query j e hacc hp ho hj hfail hr hu hb =>
      obtain ⟨k, hstall⟩ := hfail.stall_of_open (nonprotocol e hr)
      by_cases hne : t.upstreamRecv = ⟨[], .fin⟩
      · exact ⟨hu, by rw [hne], [], by simp, by rw [hne, encodeAll_nil], hb⟩
      · exact absurd (.queryWriteStalls query j k hacc hp ho hj hfail.1
          (by simpa [Sink.opened] using hstall) hne) h
  | queryFinish query message e hacc hp ho hw hf hr he hu hb =>
      by_cases hne : t.upstreamRecv = ⟨[], .fin⟩
      · exact ⟨hu, by rw [hne], [], by simp, by rw [hne, encodeAll_nil], hb⟩
      · exact absurd (.queryFinishFails query message hacc hp ho hw hf hne) h
  | response query ms rest r chunks hsent hrelays =>
      obtain ⟨hu, hwritten, hresult⟩ := forwardQuicStream_relays hsent hrelays
      have hb := hrelays.bytes
      have hstops := hrelays.stops
      generalize he : t.upstreamRecv.ending = ending at hstops
      cases hstops with
      | fin hending =>
          refine ⟨by simp [hu], hending, ms, fun m hm => (hrelays.valid m hm).1, ?_, ?_⟩
          · rw [hb, List.append_nil]
          · rw [SendStream.bytes, hwritten, List.append_nil, flatten_flatMap_frameChunks]
      | stall hending hinc =>
          refine absurd (.responseStalls query ms rest hsent ?_ hrelays.valid hinc hrelays.writes) h
          rw [← hb, ← hending, ← he]
      | malformed _ _ _ => cases nonprotocol _ hresult
      | @write m rest j e chunks hm hz hj hfail _ _ =>
          obtain ⟨hbytes, hvalid, hlt, hfail'⟩ := hrelays.failedWrite hm hz hj hfail
          obtain ⟨k, hstall⟩ := hfail'.stall_of_open (nonprotocol e hresult)
          rw [Sink.opened_outcome] at hstall
          exact absurd (.responseWriteStalls query (ms ++ [m]) rest (2 * ms.length + j) k hsent
            hbytes hvalid hlt hfail'.1 hstall) h

/-- **The promise is kept exactly when the task is shut down or no response is truncated.** -/
theorem faithful_iff :
    t.Faithful text ↔ t.shutdown = true ∨ ¬ Truncates t.toTransaction := by
  constructor
  · intro hf
    cases hs : t.shutdown with
    | true => exact .inl rfl
    | false => exact .inr fun h => not_faithful_of_truncates hs h hf
  · rintro (hs | h)
    · intro hs'
      cases hs.symm.trans hs'
    · exact faithful_of_not_truncates h

/-- The upstream sends the first message of a transfer and falls silent. -/
def stalledTransfer : StreamTask :=
  { cutTransfer with upstreamRecv := ⟨encode header, .stall⟩, shutdown := false }

theorem not_faithful : ¬ stalledTransfer.Faithful quinnText := by
  refine not_faithful_of_truncates rfl (.responseStalls header [header] [] ?_ rfl ?_ ?_ ?_)
  · exact
      { sendable := by decide, zeroId := by decide, clientRecv := rfl, lease := rfl, streams := rfl,
        writes := fun _ _ => rfl, finishes := rfl }
  · decide
  · decide
  · exact fun _ _ => rfl

end DnsIngress.Quic
