import DnsIngress.Error
import DnsIngress.Framing

/-! # The DoQ frame reader and writer (`upstream/quic.rs`)

* `RecvStream` is what a peer delivers on a stream: some bytes, and then a FIN, a reset or
  silence.  Bytes that arrive after the deadline of a read belong to the silence.
* `Sink` is what the writes of a sending half will do, `SendStream` adds what has been written so
  far.  A failed `write_all` has written a part of its chunk, and never all of it.
* `ReadExactError` is quinn's; the text of its `Display` is the parameter `text`. -/

namespace DnsIngress.Quic

open Framing

inductive ReadExactError
  /-- the stream ended after this many of the bytes asked for -/
  | finishedEarly (read : ℕ)
  | readError (reason : Bytes)
deriving DecidableEq

/-- What follows the last byte of a stream. -/
inductive Ending
  | fin
  | reset (reason : Bytes)
  | stall
deriving DecidableEq

structure RecvStream where
  bytes : Bytes
  ending : Ending
deriving DecidableEq

/-- `timeout(idle_timeout, op).await`; `elapsed` is the expired timeout. -/
inductive Awaited (ε ρ : Type)
  | ok (r : ρ)
  | error (e : ε)
  | elapsed

/-- `recv.read_exact(..)` for `n` bytes, under a timeout. -/
def RecvStream.readExact (recv : RecvStream) (n : ℕ) :
    Awaited ReadExactError Bytes × RecvStream :=
  if n ≤ recv.bytes.length then
    (.ok (recv.bytes.take n), { recv with bytes := recv.bytes.drop n })
  else
    let drained : RecvStream := { recv with bytes := [] }
    match recv.ending with
    | .fin => (.error (.finishedEarly recv.bytes.length), drained)
    | .reset reason => (.error (.readError reason), drained)
    | .stall => (.elapsed, drained)

def doqIdleTimeout (operation : Bytes) : DnsProxyError :=
  .timeout (utf8 "DoQ transaction (" ++ operation ++ utf8 ")")

section
variable (text : ReadExactError → Bytes)

/-- `read_doq_frame`. -/
def readDoqFrame (recv : RecvStream) : Except DnsProxyError (Option Bytes) × RecvStream :=
  match recv.readExact 2 with
  | (.elapsed, recv) => (.error (doqIdleTimeout (utf8 "reading DoQ frame length")), recv)
  | (.error (.finishedEarly 0), recv) => (.ok none, recv)
  | (.error error, recv) =>
      (.error (.protocol (utf8 "DoQ stream ended with an incomplete frame: " ++ text error)), recv)
  | (.ok length, recv) =>
      if fromBeBytes length = 0 then
        (.error (.protocol (utf8 "DoQ DNS frame must not be empty")), recv)
      else
        match recv.readExact (fromBeBytes length) with
        | (.elapsed, recv) => (.error (doqIdleTimeout (utf8 "reading DoQ message")), recv)
        | (.error error, recv) =>
            (.error (.protocol
              (utf8 "DoQ stream ended with an incomplete DNS message: " ++ text error)), recv)
        | (.ok message, recv) => (.ok (some message), recv)

/-- `read_doq_query`. -/
def readDoqQuery (recv : RecvStream) : Except DnsProxyError Bytes :=
  match readDoqFrame text recv with
  | (.error e, _) => .error e
  | (.ok none, _) => .error (.protocol (utf8 "DoQ stream ended before query frame"))
  | (.ok (some query), recv) =>
      if query.length < 12 then
        .error (.protocol (utf8 "DoQ query is shorter than the DNS header"))
      else if query.take 2 ≠ [0, 0] then
        .error (.protocol (utf8 "DoQ query DNS message ID must be zero"))
      else
        match readDoqFrame text recv with
        | (.error e, _) => .error e
        | (.ok (some _), _) =>
            .error (.protocol (utf8 "DoQ stream contains more than one query"))
        | (.ok none, _) => .ok query

end

/-! ### Sending -/

/-- What a `write_all` does, under a timeout; a failing one writes this many bytes at most. -/
inductive WriteOutcome
  | ok
  | error (written : ℕ) (reason : Bytes)
  | stall (written : ℕ)
deriving DecidableEq

/-- How a sending half will behave. -/
structure Sink where
  /-- what the `i`-th `write_all` of the stream does -/
  outcome : ℕ → WriteOutcome
  finishError : Option Bytes

/-- A sink whose writes succeed. -/
def Sink.reliable : Sink where
  outcome := fun _ => .ok
  finishError := none

structure SendStream extends Sink where
  /-- the bytes each `write_all` so far has written -/
  written : List Bytes
  fin : Bool

def Sink.opened (sink : Sink) : SendStream := { sink with written := [], fin := false }

def SendStream.bytes (send : SendStream) : Bytes := send.written.flatten

def SendStream.wrote (send : SendStream) (chunks : List Bytes) : SendStream :=
  { send with written := send.written ++ chunks }

/-- `send.write_all(chunk)`, under a timeout. -/
def SendStream.writeAll (send : SendStream) (chunk : Bytes) : Awaited Bytes Unit × SendStream :=
  match send.outcome send.written.length with
  | .ok => (.ok (), send.wrote [chunk])
  | .error written reason => (.error reason, send.wrote [chunk.dropLast.take written])
  | .stall written => (.elapsed, send.wrote [chunk.dropLast.take written])

/-- `send.finish()`. -/
def SendStream.finish (send : SendStream) : Except Bytes Unit × SendStream :=
  match send.finishError with
  | some error => (.error error, send)
  | none => (.ok (), { send with fin := true })

/-- A stream dropped without `finish` or `reset` is finished. -/
def SendStream.drop (send : SendStream) : SendStream := { send with fin := true }

/-- `write_doq_frame`. -/
def writeDoqFrame (send : SendStream) (message : Bytes) : Except DnsProxyError Unit × SendStream :=
  if 65535 < message.length then
    (.error (.protocol (utf8 "DoQ message exceeds 65535 bytes")), send)
  else
    match send.writeAll (toBeBytes message.length) with
    | (.elapsed, send) => (.error (doqIdleTimeout (utf8 "writing DoQ frame length")), send)
    | (.error error, send) =>
        (.error (.protocol (utf8 "Failed to write DoQ frame length: " ++ error)), send)
    | (.ok (), send) =>
        match send.writeAll message with
        | (.elapsed, send) => (.error (doqIdleTimeout (utf8 "writing DoQ message")), send)
        | (.error error, send) =>
            (.error (.protocol (utf8 "Failed to write DoQ frame body: " ++ error)), send)
        | (.ok (), send) => (.ok (), send)

/-! ### What the reader returns -/

variable {text : ReadExactError → Bytes} {recv recv' : RecvStream} {m rest : Bytes}
  {ending : Ending}

theorem readExact_append (l : Bytes) :
    (RecvStream.mk (l ++ rest) ending).readExact l.length = (.ok l, ⟨rest, ending⟩) := by
  unfold RecvStream.readExact
  rw [if_pos (by simp)]
  simp

theorem readDoqFrame_encode (hm : Sendable m) :
    readDoqFrame text ⟨encode m ++ rest, ending⟩ = (.ok (some m), ⟨rest, ending⟩) := by
  have hne : fromBeBytes (toBeBytes m.length) ≠ 0 := by
    rw [fromBeBytes_toBeBytes hm.2]
    have := hm.1
    omega
  have hread : (RecvStream.mk (encode m ++ rest) ending).readExact 2 =
      (.ok (toBeBytes m.length), ⟨m ++ rest, ending⟩) := by
    rw [encode_append]
    exact readExact_append (toBeBytes m.length)
  simp only [readDoqFrame, hread, hne, if_false]
  rw [fromBeBytes_toBeBytes hm.2, readExact_append]

theorem readDoqFrame_fin : readDoqFrame text ⟨[], .fin⟩ = (.ok none, ⟨[], .fin⟩) := rfl

theorem readDoqFrame_zero :
    readDoqFrame text ⟨0 :: 0 :: rest, ending⟩ =
      (.error (.protocol (utf8 "DoQ DNS frame must not be empty")), ⟨rest, ending⟩) := by
  simp [readDoqFrame, RecvStream.readExact, fromBeBytes]

/-- The outcome of a read that the stream has not bytes enough for. -/
def Ending.shortRead (available : ℕ) : Ending → Awaited ReadExactError Bytes
  | .fin => .error (.finishedEarly available)
  | .reset reason => .error (.readError reason)
  | .stall => .elapsed

theorem readExact_short {bytes : Bytes} {n : ℕ} (h : bytes.length < n) :
    (RecvStream.mk bytes ending).readExact n = (ending.shortRead bytes.length, ⟨[], ending⟩) := by
  unfold RecvStream.readExact
  rw [if_neg (Nat.not_le.mpr h)]
  cases ending <;> rfl

/-- A stream that breaks off within a frame is read up to the length, or beyond it. -/
theorem readExact_incomplete {bytes : Bytes} (h : Incomplete bytes) (ending : Ending) :
    bytes.length < 2 ∨ ∃ length tail, fromBeBytes length ≠ 0 ∧ tail.length < fromBeBytes length ∧
      (RecvStream.mk bytes ending).readExact 2 = (.ok length, ⟨tail, ending⟩) := by
  by_cases hlen : bytes.length < 2
  · exact .inl hlen
  · have hshort := h.resolve_left hlen
    refine .inr ⟨bytes.take 2, bytes.drop 2, by omega, hshort, ?_⟩
    unfold RecvStream.readExact
    rw [if_pos (by simpa using Nat.not_lt.mp hlen)]

theorem readDoqFrame_stall (text : ReadExactError → Bytes) {bytes : Bytes} (h : Incomplete bytes) :
    ∃ operation, (readDoqFrame text ⟨bytes, .stall⟩).1 = .error (doqIdleTimeout operation) := by
  rcases readExact_incomplete h .stall with hlen | ⟨length, tail, hne, hshort, hread⟩
  · simp only [readDoqFrame, readExact_short hlen, Ending.shortRead]
    exact ⟨_, rfl⟩
  · simp only [readDoqFrame, hread, hne, if_false, readExact_short hshort, Ending.shortRead]
    exact ⟨_, rfl⟩

theorem readDoqFrame_cut {bytes : Bytes} (h : Incomplete bytes) (hstall : ending ≠ .stall)
    (hfin : bytes = [] → ending ≠ .fin) :
    ∃ message, (readDoqFrame text ⟨bytes, ending⟩).1 = .error (.protocol message) := by
  rcases readExact_incomplete h ending with hlen | ⟨length, tail, hne, hshort, hread⟩
  · simp only [readDoqFrame, readExact_short hlen]
    cases ending with
    | stall => exact absurd rfl hstall
    | reset _ => exact ⟨_, rfl⟩
    | fin =>
        cases bytes with
        | nil => exact absurd rfl (hfin rfl)
        | cons _ _ => exact ⟨_, rfl⟩
  · simp only [readDoqFrame, hread, hne, if_false, readExact_short hshort]
    cases ending with
    | stall => exact absurd rfl hstall
    | fin => exact ⟨_, rfl⟩
    | reset _ => exact ⟨_, rfl⟩

/-- **What a call of `read_doq_frame` does, by what the stream starts with.** -/
theorem readDoqFrame_cases (text : ReadExactError → Bytes) (recv : RecvStream) :
    (∃ m rest, Sendable m ∧ recv.bytes = encode m ++ rest ∧
      readDoqFrame text recv = (.ok (some m), ⟨rest, recv.ending⟩)) ∨
    (recv = ⟨[], .fin⟩ ∧ readDoqFrame text recv = (.ok none, recv)) ∨
    (recv.ending = .stall ∧ Incomplete recv.bytes ∧
      ∃ operation, (readDoqFrame text recv).1 = .error (doqIdleTimeout operation)) ∨
    (recv.ending ≠ .stall ∧ Incomplete recv.bytes ∨ ∃ rest, recv.bytes = 0 :: 0 :: rest) ∧
      recv ≠ ⟨[], .fin⟩ ∧ ∃ message, (readDoqFrame text recv).1 = .error (.protocol message) := by
  obtain ⟨bytes, ending⟩ := recv
  rcases head_cases bytes with ⟨m, rest, hm, rfl⟩ | ⟨rest, rfl⟩ | hinc
  · exact .inl ⟨m, rest, hm, rfl, readDoqFrame_encode hm⟩
  · refine .inr (.inr (.inr ⟨.inr ⟨rest, rfl⟩, by simp, ?_⟩))
    rw [readDoqFrame_zero]
    exact ⟨_, rfl⟩
  · by_cases hstall : ending = .stall
    · subst hstall
      exact .inr (.inr (.inl ⟨rfl, hinc, readDoqFrame_stall text hinc⟩))
    · by_cases hfin : bytes = [] ∧ ending = .fin
      · obtain ⟨rfl, rfl⟩ := hfin
        exact .inr (.inl ⟨rfl, readDoqFrame_fin⟩)
      · refine .inr (.inr (.inr ⟨.inl ⟨hstall, hinc⟩, ?_, ?_⟩))
        · rintro ⟨⟩
          exact hfin ⟨rfl, rfl⟩
        · exact readDoqFrame_cut hinc hstall fun hb he => hfin ⟨hb, he⟩

theorem readDoqFrame_some (h : readDoqFrame text recv = (.ok (some m), recv')) :
    Sendable m ∧ recv.bytes = encode m ++ recv'.bytes ∧ recv'.ending = recv.ending := by
  rcases readDoqFrame_cases text recv with
    ⟨m', rest, hm, hb, hr⟩ | ⟨-, hr⟩ | ⟨-, -, _, hr⟩ | ⟨-, -, _, hr⟩
  · rw [hr] at h
    cases h
    exact ⟨hm, hb, rfl⟩
  all_goals
    rw [h] at hr
    cases hr

theorem readDoqFrame_shortens (h : readDoqFrame text recv = (.ok (some m), recv')) :
    recv'.bytes.length < recv.bytes.length := by
  obtain ⟨-, hb, -⟩ := readDoqFrame_some h
  rw [hb, List.length_append, length_encode]
  omega

/-! ### What the query reader returns -/

/-- A message with a DNS header and the message ID zero. -/
def ZeroId (m : Bytes) : Prop := 12 ≤ m.length ∧ m.take 2 = [0, 0]

instance (m : Bytes) : Decidable (ZeroId m) := inferInstanceAs (Decidable (_ ∧ _))

theorem readDoqQuery_encode (hm : Sendable m) (hz : ZeroId m) :
    readDoqQuery text ⟨encode m ++ rest, ending⟩ =
      match readDoqFrame text ⟨rest, ending⟩ with
      | (.error e, _) => .error e
      | (.ok (some _), _) => .error (.protocol (utf8 "DoQ stream contains more than one query"))
      | (.ok none, _) => .ok m := by
  rw [readDoqQuery, readDoqFrame_encode hm]
  simp only [Nat.not_lt.mpr hz.1, hz.2, ne_eq, not_true, if_false]

theorem readDoqQuery_fin (hm : Sendable m) (hz : ZeroId m) :
    readDoqQuery text ⟨encode m, .fin⟩ = .ok m := by
  have h : readDoqQuery text ⟨encode m ++ [], .fin⟩ = _ := readDoqQuery_encode hm hz
  rwa [List.append_nil, readDoqFrame_fin] at h

theorem readDoqQuery_error {e : DnsProxyError} (h : (readDoqFrame text recv).1 = .error e) :
    readDoqQuery text recv = .error e := by
  unfold readDoqQuery
  split <;> simp_all

theorem readDoqQuery_encode_error {e : DnsProxyError} (hm : Sendable m) (hz : ZeroId m)
    (h : (readDoqFrame text ⟨rest, ending⟩).1 = .error e) :
    readDoqQuery text ⟨encode m ++ rest, ending⟩ = .error e := by
  rw [readDoqQuery_encode hm hz]
  split <;> simp_all

theorem readDoqQuery_stall (text : ReadExactError → Bytes) {bytes : Bytes}
    (h : Incomplete bytes ∨ ∃ m rest, Sendable m ∧ ZeroId m ∧ bytes = encode m ++ rest ∧
      Incomplete rest) :
    ∃ operation, readDoqQuery text ⟨bytes, .stall⟩ = .error (doqIdleTimeout operation) := by
  rcases h with hinc | ⟨m, rest, hm, hz, rfl, hinc⟩
  · obtain ⟨op, hr⟩ := readDoqFrame_stall text hinc
    exact ⟨op, readDoqQuery_error hr⟩
  · obtain ⟨op, hr⟩ := readDoqFrame_stall text hinc
    exact ⟨op, readDoqQuery_encode_error hm hz hr⟩

/-- **What `read_doq_query` returns**: the query of a stream that is one frame, a timeout if the
stream falls silent within the query or after it, else a protocol error. -/
theorem readDoqQuery_cases (text : ReadExactError → Bytes) (recv : RecvStream) :
    (∃ m, Sendable m ∧ ZeroId m ∧ recv = ⟨encode m, .fin⟩ ∧ readDoqQuery text recv = .ok m) ∨
    ((recv.ending = .stall ∧ (Incomplete recv.bytes ∨ ∃ m rest, Sendable m ∧ ZeroId m ∧
        recv.bytes = encode m ++ rest ∧ Incomplete rest)) ∧
      ∃ operation, readDoqQuery text recv = .error (doqIdleTimeout operation)) ∨
    ∃ message, readDoqQuery text recv = .error (.protocol message) := by
  rcases readDoqFrame_cases text recv with
    ⟨m, rest, hm, hb, hr⟩ | ⟨rfl, hr⟩ | ⟨he, hinc, op, hr⟩ | ⟨-, -, message, hr⟩
  · obtain ⟨bytes, ending⟩ := recv
    simp only at hb
    subst hb
    by_cases hz : ZeroId m
    · rcases readDoqFrame_cases text ⟨rest, ending⟩ with
        ⟨_, _, -, -, hr'⟩ | ⟨hr, hr'⟩ | ⟨he, hinc, op, hr'⟩ | ⟨-, -, message, hr'⟩
      · refine .inr (.inr ⟨utf8 "DoQ stream contains more than one query", ?_⟩)
        rw [readDoqQuery_encode hm hz, hr']
      · cases hr
        refine .inl ⟨m, hm, hz, by rw [List.append_nil], ?_⟩
        rw [readDoqQuery_encode hm hz, hr']
      · exact .inr (.inl ⟨⟨he, .inr ⟨m, rest, hm, hz, rfl, hinc⟩⟩, op,
          readDoqQuery_encode_error hm hz hr'⟩)
      · exact .inr (.inr ⟨message, readDoqQuery_encode_error hm hz hr'⟩)
    · refine .inr (.inr ?_)
      rw [readDoqQuery, hr]
      by_cases hlen : m.length < 12
      · exact ⟨_, if_pos hlen⟩
      · have hid : m.take 2 ≠ [0, 0] := fun h => hz ⟨Nat.not_lt.mp hlen, h⟩
        refine ⟨utf8 "DoQ query DNS message ID must be zero", ?_⟩
        simp only [hlen, hid, if_false, ne_eq, not_false_eq_true, if_true]
  · refine .inr (.inr ⟨utf8 "DoQ stream ended before query frame", ?_⟩)
    rw [readDoqQuery, hr]
  · exact .inr (.inl ⟨⟨he, .inl hinc⟩, op, readDoqQuery_error hr⟩)
  · exact .inr (.inr ⟨message, readDoqQuery_error hr⟩)

theorem readDoqQuery_ok (h : readDoqQuery text recv = .ok m) :
    Sendable m ∧ ZeroId m ∧ recv = ⟨encode m, .fin⟩ := by
  rcases readDoqQuery_cases text recv with
    ⟨m', hm, hz, hrecv, hr⟩ | ⟨-, _, hr⟩ | ⟨_, hr⟩
  · rw [h] at hr
    cases hr
    exact ⟨hm, hz, hrecv⟩
  all_goals
    rw [h] at hr
    cases hr

/-- The bytes of one query and nothing else: two bytes for its length, the most significant first,
and that many bytes, which are a header at least and start with the message ID zero. -/
def IsQuery (bytes m : Bytes) : Prop :=
  ∃ hi lo : UInt8, bytes = hi :: lo :: m ∧ m.length = hi.toNat * 256 + lo.toNat ∧
    12 ≤ m.length ∧ m.length ≤ 65535 ∧ m.take 2 = [0, 0]

theorem isQuery_iff {bytes : Bytes} :
    IsQuery bytes m ↔ Sendable m ∧ ZeroId m ∧ bytes = encode m := by
  constructor
  · rintro ⟨hi, lo, rfl, hlen, hheader, hmax, hid⟩
    refine ⟨⟨by omega, hmax⟩, ⟨hheader, hid⟩, ?_⟩
    rw [encode, hlen, toBeBytes_pair]
    rfl
  · rintro ⟨hm, hz, rfl⟩
    refine ⟨UInt8.ofNat (m.length / 256), UInt8.ofNat m.length, rfl, ?_, hz.1, hm.2, hz.2⟩
    rw [← fromBeBytes_pair]
    exact (fromBeBytes_toBeBytes hm.2).symm

/-- **`read_doq_query` accepts a stream ended by FIN iff its bytes are one query.**  Any other
bytes, cut short or with bytes after the query, are a protocol error. -/
theorem readDoqQuery_exact (text : ReadExactError → Bytes) (bytes : Bytes) :
    (∀ m, readDoqQuery text ⟨bytes, .fin⟩ = .ok m ↔ IsQuery bytes m) ∧
      ((¬ ∃ m, IsQuery bytes m) →
        ∃ message, readDoqQuery text ⟨bytes, .fin⟩ = .error (.protocol message)) := by
  constructor
  · intro m
    rw [isQuery_iff]
    constructor
    · intro h
      obtain ⟨hm, hz, hrecv⟩ := readDoqQuery_ok h
      exact ⟨hm, hz, congrArg RecvStream.bytes hrecv⟩
    · rintro ⟨hm, hz, rfl⟩
      exact readDoqQuery_fin hm hz
  · intro hnone
    rcases readDoqQuery_cases text ⟨bytes, .fin⟩ with
      ⟨m, hm, hz, hrecv, -⟩ | ⟨⟨hstall, -⟩, -⟩ | ⟨message, hr⟩
    · exact absurd ⟨m, isQuery_iff.mpr ⟨hm, hz, congrArg RecvStream.bytes hrecv⟩⟩ hnone
    · cases hstall
    · exact ⟨message, hr⟩

/-! ### What the writer does -/

variable {send : SendStream}

@[simp] theorem SendStream.bytes_wrote (chunks : List Bytes) :
    (send.wrote chunks).bytes = send.bytes ++ chunks.flatten := by
  simp [SendStream.bytes, SendStream.wrote]

theorem SendStream.wrote_wrote (chunks chunks' : List Bytes) :
    (send.wrote chunks).wrote chunks' = send.wrote (chunks ++ chunks') := by
  simp [SendStream.wrote]

theorem SendStream.wrote_nil : send.wrote [] = send := by
  simp [SendStream.wrote]

theorem Sink.opened_outcome (sink : Sink) (j : ℕ) :
    sink.opened.outcome (sink.opened.written.length + j) = sink.outcome j := by
  simp [Sink.opened]

/-- The next `n` writes succeed. -/
def SendStream.Writes (send : SendStream) (n : ℕ) : Prop :=
  ∀ j < n, send.outcome (send.written.length + j) = .ok

/-- The two chunks of a frame. -/
def frameChunks (m : Bytes) : List Bytes := [toBeBytes m.length, m]

@[simp] theorem flatten_frameChunks (m : Bytes) : (frameChunks m).flatten = encode m := by
  simp [frameChunks, encode]

theorem flatten_flatMap_frameChunks (ms : List Bytes) :
    (ms.flatMap frameChunks).flatten = encodeAll ms := by
  induction ms with
  | nil => rfl
  | cons m ms ih => simp [ih]

theorem length_flatMap_frameChunks (ms : List Bytes) :
    (ms.flatMap frameChunks).length = 2 * ms.length := by
  induction ms with
  | nil => rfl
  | cons m ms ih =>
      rw [List.flatMap_cons, List.length_append, ih, List.length_cons]
      simp only [frameChunks, List.length_cons, List.length_nil]
      omega

/-- The write after the next `j` fails, and the writer returns this error. -/
def SendStream.FailsAt (send : SendStream) (j : ℕ) (error : DnsProxyError) : Prop :=
  send.Writes j ∧
    ((∃ k, send.outcome (send.written.length + j) = .stall k) ∧
        (∃ operation, error = doqIdleTimeout operation) ∨
      (∃ k reason, send.outcome (send.written.length + j) = .error k reason) ∧
        ∃ message, error = .protocol message)

theorem SendStream.writes_zero : send.Writes 0 := fun _ hj => absurd hj (Nat.not_lt_zero _)

theorem SendStream.writes_wrote {chunks : List Bytes} {n : ℕ} :
    send.Writes (chunks.length + n) ↔
      send.Writes chunks.length ∧ (send.wrote chunks).Writes n := by
  simp only [SendStream.Writes, SendStream.wrote, List.length_append, Nat.add_assoc]
  constructor
  · intro h
    exact ⟨fun j hj => h j (by omega), fun j hj => h (chunks.length + j) (by omega)⟩
  · rintro ⟨h₁, h₂⟩ j hj
    by_cases hlt : j < chunks.length
    · exact h₁ j hlt
    · have := h₂ (j - chunks.length) (by omega)
      rwa [show chunks.length + (j - chunks.length) = j by omega] at this

theorem take_dropLast_prefix {chunk : Bytes} (k : ℕ) (h : chunk ≠ []) :
    chunk.dropLast.take k <+: chunk ∧ (chunk.dropLast.take k).length < chunk.length := by
  have hpos := List.length_pos_iff.mpr h
  refine ⟨(List.take_prefix _ _).trans (List.dropLast_prefix _), ?_⟩
  simp only [List.length_take, List.length_dropLast]
  omega

theorem writeAll_cases (send : SendStream) {chunk : Bytes} (h : chunk ≠ []) :
    (send.Writes 1 ∧ send.writeAll chunk = (.ok (), send.wrote [chunk])) ∨
    ∃ part, part <+: chunk ∧ part.length < chunk.length ∧
      ((∃ k, send.outcome send.written.length = .stall k) ∧
          send.writeAll chunk = (.elapsed, send.wrote [part]) ∨
        ∃ k reason, send.outcome send.written.length = .error k reason ∧
          send.writeAll chunk = (.error reason, send.wrote [part])) := by
  unfold SendStream.writeAll
  cases ho : send.outcome send.written.length with
  | ok =>
      refine .inl ⟨fun j hj => ?_, rfl⟩
      rw [show j = 0 by omega]
      exact ho
  | error k reason =>
      have ⟨hp, hlt⟩ := take_dropLast_prefix k h
      exact .inr ⟨_, hp, hlt, .inr ⟨k, reason, rfl, rfl⟩⟩
  | stall k =>
      have ⟨hp, hlt⟩ := take_dropLast_prefix k h
      exact .inr ⟨_, hp, hlt, .inl ⟨⟨k, rfl⟩, rfl⟩⟩

/-- **A frame is written whole, or the writer fails and has written a proper prefix of it.** -/
theorem writeDoqFrame_cases (send : SendStream) (hm : Sendable m) :
    (send.Writes 2 ∧ writeDoqFrame send m = (.ok (), send.wrote (frameChunks m))) ∨
    ∃ j error chunks, j < 2 ∧ send.FailsAt j error ∧ chunks.flatten <+: encode m ∧
      chunks.flatten.length < (encode m).length ∧
      writeDoqFrame send m = (.error error, send.wrote chunks) := by
  have hmax : ¬ 65535 < m.length := Nat.not_lt.mpr hm.2
  have hne : m ≠ [] := List.ne_nil_of_length_pos hm.1
  rcases writeAll_cases send (toBeBytes_ne_nil m.length) with
    ⟨hw, hr⟩ | ⟨part, hp, hlt, hfail⟩
  · rcases writeAll_cases (send.wrote [toBeBytes m.length]) hne with
      ⟨hw', hr'⟩ | ⟨part, hp, hlt, hfail⟩
    · refine .inl ⟨SendStream.writes_wrote.mpr ⟨hw, hw'⟩, ?_⟩
      simp only [writeDoqFrame, hmax, if_false, hr, hr', SendStream.wrote_wrote]
      rfl
    · have hflat : [toBeBytes m.length, part].flatten <+: encode m := by
        simpa [encode] using hp
      have hlen : [toBeBytes m.length, part].flatten.length < (encode m).length := by
        simp
        omega
      refine .inr ?_
      rcases hfail with ⟨ho, hr'⟩ | ⟨k, reason, ho, hr'⟩
      · refine ⟨1, doqIdleTimeout (utf8 "writing DoQ message"),
          [toBeBytes m.length, part], by omega,
          ⟨hw, .inl ⟨by simpa [SendStream.wrote] using ho, _, rfl⟩⟩, hflat, hlen, ?_⟩
        simp only [writeDoqFrame, hmax, if_false, hr, hr', SendStream.wrote_wrote]
        rfl
      · refine ⟨1, .protocol (utf8 "Failed to write DoQ frame body: " ++ reason),
          [toBeBytes m.length, part], by omega,
          ⟨hw, .inr ⟨⟨k, reason, by simpa [SendStream.wrote] using ho⟩, _, rfl⟩⟩, hflat, hlen, ?_⟩
        simp only [writeDoqFrame, hmax, if_false, hr, hr', SendStream.wrote_wrote]
        rfl
  · have hflat : [part].flatten <+: encode m := by
      simpa [encode] using hp.trans (List.prefix_append _ m)
    have hlen : [part].flatten.length < (encode m).length := by
      rw [length_toBeBytes] at hlt
      simp
      omega
    refine .inr ?_
    rcases hfail with ⟨ho, hr⟩ | ⟨k, reason, ho, hr⟩
    · refine ⟨0, doqIdleTimeout (utf8 "writing DoQ frame length"), [part], by omega,
        ⟨SendStream.writes_zero, .inl ⟨ho, _, rfl⟩⟩, hflat, hlen, ?_⟩
      simp only [writeDoqFrame, hmax, if_false, hr]
    · refine ⟨0, .protocol (utf8 "Failed to write DoQ frame length: " ++ reason), [part], by omega,
        ⟨SendStream.writes_zero, .inr ⟨⟨k, reason, ho⟩, _, rfl⟩⟩, hflat, hlen, ?_⟩
      simp only [writeDoqFrame, hmax, if_false, hr]

theorem SendStream.FailsAt.not_ok {j : ℕ} {error : DnsProxyError} (h : send.FailsAt j error) :
    send.outcome (send.written.length + j) ≠ .ok := by
  intro hok
  rcases h.2 with ⟨⟨k, ho⟩, -⟩ | ⟨⟨k, reason, ho⟩, -⟩
  · cases hok.symm.trans ho
  · cases hok.symm.trans ho

theorem SendStream.FailsAt.unique {j j' : ℕ} {error : DnsProxyError} (h : send.FailsAt j error)
    (hw : send.Writes j') (ho : send.outcome (send.written.length + j') ≠ .ok) : j = j' := by
  rcases Nat.lt_trichotomy j j' with hlt | heq | hlt
  · exact absurd (hw j hlt) h.not_ok
  · exact heq
  · exact absurd (h.1 j' hlt) ho

theorem writeDoqFrame_ok (hm : Sendable m) (hw : send.Writes 2) :
    writeDoqFrame send m = (.ok (), send.wrote (frameChunks m)) := by
  rcases writeDoqFrame_cases send hm with ⟨-, h⟩ | ⟨j, error, chunks, hj, hfail, -⟩
  · exact h
  · exact absurd (hw j hj) hfail.not_ok

/-- A write that does not succeed fails the writer, and the frame is not written whole. -/
theorem writeDoqFrame_fails (hm : Sendable m) {j : ℕ} (hj : j < 2) (hw : send.Writes j)
    (ho : send.outcome (send.written.length + j) ≠ .ok) :
    ∃ error chunks, send.FailsAt j error ∧
      writeDoqFrame send m = (.error error, send.wrote chunks) ∧
        chunks.flatten.length < (encode m).length := by
  rcases writeDoqFrame_cases send hm with
    ⟨hw', -⟩ | ⟨j', error, chunks, -, hfail, -, hlt, hwrite⟩
  · exact absurd (hw' j hj) ho
  · obtain rfl := hfail.unique hw ho
    exact ⟨error, chunks, hfail, hwrite, hlt⟩

theorem SendStream.FailsAt.timeout_of_stall {j k : ℕ} {error : DnsProxyError}
    (h : send.FailsAt j error) (ho : send.outcome (send.written.length + j) = .stall k) :
    ∃ operation, error = doqIdleTimeout operation := by
  rcases h.2 with ⟨-, hop⟩ | ⟨⟨k', reason, ho'⟩, -⟩
  · exact hop
  · cases ho.symm.trans ho'

theorem SendStream.FailsAt.protocol_of_error {j k : ℕ} {reason : Bytes} {error : DnsProxyError}
    (h : send.FailsAt j error) (ho : send.outcome (send.written.length + j) = .error k reason) :
    ∃ message, error = .protocol message := by
  rcases h.2 with ⟨⟨k', ho'⟩, -⟩ | ⟨-, hp⟩
  · cases ho.symm.trans ho'
  · exact hp

theorem SendStream.FailsAt.error_of_protocol {j : ℕ} {message : Bytes}
    (h : send.FailsAt j (.protocol message)) :
    ∃ k reason, send.outcome (send.written.length + j) = .error k reason := by
  rcases h.2 with ⟨-, op, hop⟩ | ⟨hk, -⟩
  · cases hop
  · exact hk

theorem SendStream.FailsAt.wrote {chunks : List Bytes} {j : ℕ} {error : DnsProxyError}
    (hw : send.Writes chunks.length) (h : (send.wrote chunks).FailsAt j error) :
    send.FailsAt (chunks.length + j) error := by
  refine ⟨SendStream.writes_wrote.mpr ⟨hw, h.1⟩, ?_⟩
  have hlen :
      (send.wrote chunks).written.length + j = send.written.length + (chunks.length + j) := by
    simp [SendStream.wrote, Nat.add_assoc]
  rw [← hlen]
  exact h.2

end DnsIngress.Quic
