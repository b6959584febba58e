import DnsIngress.QuicStream

/-! # Whole DoQ streams

`writeDoqFrames` writes one message after the other, `readDoqFrames` reads frames until the reader
stops.  `framing_roundTrip`: reading gives back what has been written, and a stream that is read to
its end is the encoding of what has been read.

`readDoqFrameOn` is the frame reader over any kind of stream.  With the streams of `quinn` it is
`readDoqFrame`; with streams that also keep a log it tells which of its reads have met the FIN. -/

namespace DnsIngress.Quic

open Framing

section
variable (text : ReadExactError → Bytes)

/-- `write_doq_frame` for one message after the other. -/
def writeDoqFrames (send : SendStream) : List Bytes → Except DnsProxyError Unit × SendStream
  | [] => (.ok (), send)
  | m :: ms =>
      match writeDoqFrame send m with
      | (.error e, send) => (.error e, send)
      | (.ok (), send) => writeDoqFrames send ms

/-- `read_doq_frame` over any kind of stream. -/
def readDoqFrameOn {σ : Type} (readExact : σ → ℕ → Awaited ReadExactError Bytes × σ) (s : σ) :
    Except DnsProxyError (Option Bytes) × σ :=
  match readExact s 2 with
  | (.elapsed, s) => (.error (doqIdleTimeout (utf8 "reading DoQ frame length")), s)
  | (.error (.finishedEarly 0), s) => (.ok none, s)
  | (.error error, s) =>
      (.error (.protocol (utf8 "DoQ stream ended with an incomplete frame: " ++ text error)), s)
  | (.ok length, s) =>
      if fromBeBytes length = 0 then
        (.error (.protocol (utf8 "DoQ DNS frame must not be empty")), s)
      else
        match readExact s (fromBeBytes length) with
        | (.elapsed, s) => (.error (doqIdleTimeout (utf8 "reading DoQ message")), s)
        | (.error error, s) =>
            (.error (.protocol
              (utf8 "DoQ stream ended with an incomplete DNS message: " ++ text error)), s)
        | (.ok message, s) => (.ok (some message), s)

theorem readDoqFrameOn_readExact (recv : RecvStream) :
    readDoqFrameOn text RecvStream.readExact recv = readDoqFrame text recv := by
  unfold readDoqFrameOn readDoqFrame
  cases recv.readExact 2 with
  | mk first recv₁ =>
      cases first with
      | elapsed => rfl
      | error error =>
          cases error with
          | readError _ => rfl
          | finishedEarly k => cases k <;> rfl
      | ok length =>
          by_cases hz : fromBeBytes length = 0
          · simp only [hz, if_true]
          · simp only [hz, if_false]
            cases recv₁.readExact (fromBeBytes length) with
            | mk second recv₂ => cases second <;> rfl

/-- A `read_exact` that logs whether the stream has the bytes it asks for. -/
def readExactLogged (s : RecvStream × List Bool) (n : ℕ) :
    Awaited ReadExactError Bytes × RecvStream × List Bool :=
  ((s.1.readExact n).1, (s.1.readExact n).2, s.2 ++ [decide (n ≤ s.1.bytes.length)])

/-- `read_doq_frame` and the log of its reads. -/
def readDoqFrameLogged (recv : RecvStream) :
    Except DnsProxyError (Option Bytes) × RecvStream × List Bool :=
  readDoqFrameOn text readExactLogged (recv, [])

theorem le_of_readExact_ok {recv recv' : RecvStream} {n : ℕ} {l : Bytes}
    (h : recv.readExact n = (.ok l, recv')) : n ≤ recv.bytes.length := by
  by_contra hlt
  obtain ⟨bytes, ending⟩ := recv
  rw [readExact_short (Nat.not_le.mp hlt)] at h
  cases ending <;> cases h

/-- The log changes nothing.  Every read but the last one has found its bytes, and so has the last
one if there is a message. -/
theorem readDoqFrameLogged_spec (recv : RecvStream) :
    ∃ reads, readDoqFrameLogged text recv =
        ((readDoqFrame text recv).1, (readDoqFrame text recv).2, reads) ∧
      ∃ found, (reads = [found] ∨ reads = [true, found]) ∧
        ∀ m, (readDoqFrame text recv).1 = .ok (some m) → found = true := by
  unfold readDoqFrameLogged readDoqFrameOn readDoqFrame
  cases h : recv.readExact 2 with
  | mk first recv₁ =>
      cases first with
      | elapsed =>
          simp only [readExactLogged, h]
          exact ⟨_, rfl, _, .inl rfl, by rintro _ ⟨⟩⟩
      | error error =>
          simp only [readExactLogged, h]
          cases error with
          | readError _ => exact ⟨_, rfl, _, .inl rfl, by rintro _ ⟨⟩⟩
          | finishedEarly k => cases k <;> exact ⟨_, rfl, _, .inl rfl, by rintro _ ⟨⟩⟩
      | ok length =>
          have hfound := le_of_readExact_ok h
          by_cases hz : fromBeBytes length = 0
          · simp only [readExactLogged, h, hz, if_true]
            exact ⟨_, rfl, _, .inl rfl, by rintro _ ⟨⟩⟩
          · simp only [readExactLogged, h, hz, if_false, hfound, decide_true]
            cases h₂ : recv₁.readExact (fromBeBytes length) with
            | mk second recv₂ =>
                cases second with
                | ok message =>
                    exact ⟨_, rfl, _, .inr rfl, fun _ _ => decide_eq_true (le_of_readExact_ok h₂)⟩
                | error _ | elapsed => exact ⟨_, rfl, _, .inr rfl, by rintro _ ⟨⟩⟩

theorem readDoqFrameLogged_shortens {recv recv' : RecvStream} {m : Bytes} {reads : List Bool}
    (h : readDoqFrameLogged text recv = (.ok (some m), recv', reads)) :
    recv'.bytes.length < recv.bytes.length := by
  obtain ⟨_, heq, -⟩ := readDoqFrameLogged_spec text recv
  rw [heq, Prod.mk.injEq, Prod.mk.injEq] at h
  exact readDoqFrame_shortens (Prod.ext h.1 h.2.1)

/-- What is read until the reader stops. -/
structure Reading where
  messages : List Bytes
  /-- the `None` or the error at which it stops -/
  result : Except DnsProxyError Unit
  /-- for every `read_exact`, whether the stream has the bytes it asks for -/
  reads : List Bool

/-- `read_doq_frame` until it stops. -/
def readDoqFrames (recv : RecvStream) : Reading :=
  match _ : readDoqFrameLogged text recv with
  | (.error e, _, reads) => ⟨[], .error e, reads⟩
  | (.ok none, _, reads) => ⟨[], .ok (), reads⟩
  | (.ok (some m), recv', reads) =>
      let r := readDoqFrames recv'
      { r with messages := m :: r.messages, reads := reads ++ r.reads }
termination_by recv.bytes.length
decreasing_by exact readDoqFrameLogged_shortens text ‹_›

/-- How a stream breaks off after its last complete frame, and the error of the reader. -/
inductive Broken : Bytes → DnsProxyError → Prop
  | length (b : UInt8) : Broken [b] (.protocol
      (utf8 "DoQ stream ended with an incomplete frame: " ++ text (.finishedEarly 1)))
  | zero (tail : Bytes) : Broken (0 :: 0 :: tail)
      (.protocol (utf8 "DoQ DNS frame must not be empty"))
  | body (hi lo : UInt8) (tail : Bytes) : tail.length < fromBeBytes [hi, lo] →
      Broken (hi :: lo :: tail) (.protocol
        (utf8 "DoQ stream ended with an incomplete DNS message: " ++
          text (.finishedEarly tail.length)))

end

variable {text : ReadExactError → Bytes} {recv : RecvStream} {ending : Ending} {m rest tail : Bytes}
  {ms : List Bytes} {send : SendStream} {e : DnsProxyError}

/-! ### Writing -/

theorem writeDoqFrames_ok (hms : ∀ m ∈ ms, Sendable m) (hw : send.Writes (2 * ms.length)) :
    writeDoqFrames send ms = (.ok (), send.wrote (ms.flatMap frameChunks)) := by
  induction ms generalizing send with
  | nil => rw [writeDoqFrames, List.flatMap_nil, SendStream.wrote_nil]
  | cons m ms ih =>
      rw [List.length_cons, Nat.mul_succ, Nat.add_comm] at hw
      have hchunks : send.Writes ((frameChunks m).length + 2 * ms.length) := hw
      obtain ⟨hw₁, hw₂⟩ := SendStream.writes_wrote.mp hchunks
      rw [writeDoqFrames, writeDoqFrame_ok (hms m List.mem_cons_self) hw₁]
      dsimp only
      rw [ih (fun x hx => hms x (List.mem_cons_of_mem _ hx)) hw₂, SendStream.wrote_wrote,
        List.flatMap_cons]

theorem bytes_writeDoqFrames (sink : Sink) (hms : ∀ m ∈ ms, Sendable m)
    (hw : sink.opened.Writes (2 * ms.length)) :
    ∃ send, writeDoqFrames sink.opened ms = (.ok (), send) ∧ send.bytes = encodeAll ms ∧
      send.finishError = sink.finishError := by
  refine ⟨_, writeDoqFrames_ok hms hw, ?_, rfl⟩
  rw [SendStream.bytes_wrote, flatten_flatMap_frameChunks]
  rfl

/-! ### Reading -/

/-- Every read but the last one has found its bytes. -/
def Found (reads : List Bool) : Prop := ∀ found ∈ reads.dropLast, found = true

theorem found_of_cases {reads : List Bool} {found : Bool}
    (h : reads = [found] ∨ reads = [true, found]) : Found reads := by
  rcases h with rfl | rfl <;> simp [Found]

theorem Found.append {reads reads' : List Bool} (h : Found reads')
    (hreads : ∀ found ∈ reads, found = true) : Found (reads ++ reads') := by
  intro found hfound
  cases reads' with
  | nil =>
      rw [List.append_nil] at hfound
      exact hreads found (List.mem_of_mem_dropLast hfound)
  | cons first reads' =>
      rw [List.dropLast_append_of_ne_nil (List.cons_ne_nil _ _)] at hfound
      rcases List.mem_append.mp hfound with hmem | hmem
      · exact hreads found hmem
      · exact h found hmem

theorem readDoqFrames_encode (text : ReadExactError → Bytes) (rest : Bytes) (ending : Ending)
    (hm : Sendable m) :
    ∃ reads, (∀ found ∈ reads, found = true) ∧
      readDoqFrames text ⟨encode m ++ rest, ending⟩ =
        { messages := m :: (readDoqFrames text ⟨rest, ending⟩).messages
          result := (readDoqFrames text ⟨rest, ending⟩).result
          reads := reads ++ (readDoqFrames text ⟨rest, ending⟩).reads } := by
  have hr : readDoqFrame text ⟨encode m ++ rest, ending⟩ = _ := readDoqFrame_encode hm
  obtain ⟨reads, hlog, found, hreads, hfound⟩ :=
    readDoqFrameLogged_spec text ⟨encode m ++ rest, ending⟩
  obtain rfl := hfound m (by rw [hr])
  rw [hr] at hlog
  refine ⟨reads, by rcases hreads with rfl | rfl <;> simp, ?_⟩
  rw [readDoqFrames]
  split
  · next h => cases hlog.symm.trans h
  · next h => cases hlog.symm.trans h
  · next h =>
      cases hlog.symm.trans h
      rfl

theorem readDoqFrames_error (h : (readDoqFrame text recv).1 = .error e) :
    ∃ reads, Found reads ∧ readDoqFrames text recv = ⟨[], .error e, reads⟩ := by
  obtain ⟨reads, hlog, found, hreads, -⟩ := readDoqFrameLogged_spec text recv
  rw [h] at hlog
  refine ⟨reads, found_of_cases hreads, ?_⟩
  rw [readDoqFrames]
  split <;> next h' => cases hlog.symm.trans h' <;> rfl

theorem readDoqFrame_nil (text : ReadExactError → Bytes) :
    (readDoqFrame text ⟨[], .fin⟩).1 = .ok none := rfl

theorem readDoqFrames_none (h : (readDoqFrame text recv).1 = .ok none) :
    ∃ reads, Found reads ∧ readDoqFrames text recv = ⟨[], .ok (), reads⟩ := by
  obtain ⟨reads, hlog, found, hreads, -⟩ := readDoqFrameLogged_spec text recv
  rw [h] at hlog
  refine ⟨reads, found_of_cases hreads, ?_⟩
  rw [readDoqFrames]
  split <;> next h' => cases hlog.symm.trans h' <;> rfl

/-- The first bytes of a stream are a frame, or there are none, or the stream is broken. -/
theorem encode_or_broken (text : ReadExactError → Bytes) (bytes : Bytes) :
    (∃ m rest, Sendable m ∧ bytes = encode m ++ rest) ∨ bytes = [] ∨
      ∃ e, Broken text bytes e := by
  rcases head_cases bytes with hm | ⟨tail, rfl⟩ | hinc
  · exact .inl hm
  · exact .inr (.inr ⟨_, .zero tail⟩)
  · match bytes, hinc with
    | [], _ => exact .inr (.inl rfl)
    | [b], _ => exact .inr (.inr ⟨_, .length b⟩)
    | hi :: lo :: tail, hinc =>
        have hshort : tail.length < fromBeBytes [hi, lo] := by
          rcases hinc with h | h
          · exact absurd h (by simp)
          · exact h
        exact .inr (.inr ⟨_, .body hi lo tail hshort⟩)

theorem Broken.readDoqFrame (h : Broken text tail e) :
    (readDoqFrame text ⟨tail, .fin⟩).1 = .error e := by
  cases h with
  | length b => rfl
  | zero tail => rw [readDoqFrame_zero]
  | body hi lo tail hshort =>
      have hne : fromBeBytes [hi, lo] ≠ 0 := by omega
      have hread : (RecvStream.mk (hi :: lo :: tail) .fin).readExact 2 =
          (.ok [hi, lo], ⟨tail, .fin⟩) := readExact_append [hi, lo]
      simp only [Quic.readDoqFrame, hread, hne, if_false, readExact_short hshort, Ending.shortRead]

theorem Broken.not_encode (h : Broken text tail e) (hm : Sendable m) : tail ≠ encode m ++ rest := by
  rintro rfl
  generalize hbytes : encode m ++ rest = bytes at h
  have hinc : ¬ Incomplete bytes := hbytes ▸ not_incomplete_encode hm
  cases h with
  | length b => exact hinc (.inl (by simp))
  | zero tail => exact encode_append_ne_zero hm hbytes
  | body hi lo tail hshort => exact hinc (.inr hshort)

/-- What is read of a stream that ends in a FIN. -/
structure Reading.Parses (text : ReadExactError → Bytes) (bytes : Bytes) (r : Reading) : Prop where
  sendable : ∀ m ∈ r.messages, Sendable m
  /-- the stream ends after the messages, or is broken there -/
  stops : ∃ tail, bytes = encodeAll r.messages ++ tail ∧
    (tail = [] ∧ r.result = .ok () ∨ ∃ e, Broken text tail e ∧ r.result = .error e)
  found : Found r.reads

/-- **Every stream is read up to its end, or up to where it is broken.** -/
theorem readDoqFrames_parses (text : ReadExactError → Bytes) (bytes : Bytes) :
    (readDoqFrames text ⟨bytes, .fin⟩).Parses text bytes := by
  induction hn : bytes.length using Nat.strong_induction_on generalizing bytes with
  | h n ih =>
      rcases encode_or_broken text bytes with ⟨m, rest, hm, rfl⟩ | rfl | ⟨e, hbroken⟩
      · have hlt : rest.length < n := by
          rw [← hn, List.length_append, length_encode]
          omega
        obtain ⟨hsendable, ⟨tail, hrest, hstops⟩, hfound⟩ := ih _ hlt rest rfl
        obtain ⟨reads, hreads, hframes⟩ := readDoqFrames_encode text rest .fin hm
        rw [hframes]
        refine ⟨?_, ⟨tail, ?_, hstops⟩, ?_⟩
        · intro x hx
          rcases List.mem_cons.mp hx with rfl | hx
          · exact hm
          · exact hsendable x hx
        · rw [encodeAll_cons, List.append_assoc, ← hrest]
        · exact hfound.append hreads
      · obtain ⟨reads, hfound, hframes⟩ :=
          readDoqFrames_none (readDoqFrame_nil text)
        rw [hframes]
        exact ⟨by simp, ⟨[], rfl, .inl ⟨rfl, rfl⟩⟩, hfound⟩
      · obtain ⟨reads, hfound, hframes⟩ := readDoqFrames_error hbroken.readDoqFrame
        rw [hframes]
        exact ⟨by simp, ⟨bytes, rfl, .inr ⟨e, hbroken, rfl⟩⟩, hfound⟩

theorem readDoqFrames_encodeAll (text : ReadExactError → Bytes) (hms : ∀ m ∈ ms, Sendable m) :
    (readDoqFrames text ⟨encodeAll ms, .fin⟩).messages = ms ∧
      (readDoqFrames text ⟨encodeAll ms, .fin⟩).result = .ok () := by
  induction ms with
  | nil =>
      obtain ⟨reads, -, hframes⟩ := readDoqFrames_none (readDoqFrame_nil text)
      rw [encodeAll_nil, hframes]
      exact ⟨rfl, rfl⟩
  | cons m ms ih =>
      obtain ⟨hmessages, hresult⟩ := ih fun x hx => hms x (List.mem_cons_of_mem _ hx)
      obtain ⟨reads, -, hframes⟩ :=
        readDoqFrames_encode text (encodeAll ms) .fin (hms m List.mem_cons_self)
      rw [encodeAll_cons, hframes, hmessages]
      exact ⟨rfl, hresult⟩

/-- **DoQ framing round-trips over whole streams.** -/
theorem framing_roundTrip (text : ReadExactError → Bytes) :
    (∀ (ms : List Bytes) (sink : Sink), (∀ m ∈ ms, 1 ≤ m.length ∧ m.length ≤ 65535) →
      sink.opened.Writes (2 * ms.length) → sink.finishError = none →
      ∃ send sent, writeDoqFrames sink.opened ms = (.ok (), send) ∧ send.finish = (.ok (), sent) ∧
        (readDoqFrames text ⟨sent.bytes, .fin⟩).messages = ms ∧
        (readDoqFrames text ⟨sent.bytes, .fin⟩).result = .ok ()) ∧
    ∀ bytes : Bytes, ∃ ms result reads,
      readDoqFrames text ⟨bytes, .fin⟩ = ⟨ms, result, reads⟩ ∧ Found reads ∧
        ((result = .ok () ∧
            (writeDoqFrames Sink.reliable.opened ms).1 = .ok () ∧
            (writeDoqFrames Sink.reliable.opened ms).2.bytes = bytes) ∨
          ∃ tail e, bytes = encodeAll ms ++ tail ∧ Broken text tail e ∧ result = .error e ∧
            IsLongestRun (fun _ => True) ms bytes) := by
  constructor
  · intro ms sink hms hw hfinish
    obtain ⟨send, hwrite, hbytes, herror⟩ := bytes_writeDoqFrames sink hms hw
    have hsent : send.finish = (.ok (), { send with fin := true }) := by
      rw [SendStream.finish, herror, hfinish]
    refine ⟨send, { send with fin := true }, hwrite, hsent, ?_⟩
    have hbytes' : SendStream.bytes { send with fin := true } = encodeAll ms := hbytes
    rw [hbytes']
    exact readDoqFrames_encodeAll text hms
  · intro bytes
    obtain ⟨hsendable, ⟨tail, hbytes, hstops⟩, hfound⟩ := readDoqFrames_parses text bytes
    refine ⟨_, _, _, rfl, hfound, ?_⟩
    rcases hstops with ⟨rfl, hresult⟩ | ⟨e, hbroken, hresult⟩
    · obtain ⟨send, hwrite, hsent, -⟩ :=
        bytes_writeDoqFrames Sink.reliable hsendable fun _ _ => rfl
      rw [List.append_nil] at hbytes
      refine .inl ⟨hresult, by rw [hwrite], ?_⟩
      rw [hwrite]
      exact hsent.trans hbytes.symm
    · refine .inr ⟨tail, e, hbytes, hbroken, hresult, ?_⟩
      have hlongest : IsLongestRun (fun _ => True) _ (_ ++ tail) :=
        isLongestRun_of_stuck (fun m hm => ⟨hsendable m hm, trivial⟩)
          fun m rest' hm _ => hbroken.not_encode hm
      rwa [← hbytes] at hlongest

theorem framing_roundTrip_twoMessages :
    ∃ send sent, writeDoqFrames Sink.reliable.opened [[7], [8, 9]] = (.ok (), send) ∧
      send.finish = (.ok (), sent) ∧
      (readDoqFrames (fun _ => []) ⟨sent.bytes, .fin⟩).messages = [[7], [8, 9]] ∧
      (readDoqFrames (fun _ => []) ⟨sent.bytes, .fin⟩).result = .ok () := by
  have hms : ∀ m ∈ [[7], [8, 9]], 1 ≤ (m : Bytes).length ∧ m.length ≤ 65535 := by decide
  exact (framing_roundTrip fun _ => []).1 _ Sink.reliable hms (fun _ _ => rfl) rfl

end DnsIngress.Quic
