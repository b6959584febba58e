import DnsIngress.DohResponse

/-! # The stream of a DoH3 request (`handle_request` in `readers/doh3.rs`)

Every operation on the stream of a request may fail, or not be done before its deadline, or be
dropped with its task.  The handler answers any error with an error response, also one of the
operations that write the response of the upstream.

* `RequestStream` is what the operations will do, and the frames so far.  `h3` refuses HEADERS that
  are larger than the peer takes before it writes anything; and once a frame has been given to a
  stream of `h3_quinn` and is not written, it refuses every other one (`StopsAfterFailure`).
* `OneResponse` says that the client does not get a second response.  `oneResponse`: it does not,
  as an error after a part of a response is not written. -/

namespace DnsIngress

open Ascii

/-- Where the DATA of a response is from. -/
inductive Origin
  | upstream
  | errorText
deriving DecidableEq

inductive H3Frame
  | headers (status : StatusCode) (headers : HeaderMap)
  | data (origin : Origin) (payload : Bytes)
deriving DecidableEq

def H3Frame.isHeaders : H3Frame → Bool
  | headers _ _ => true
  | data _ _ => false

/-- The frames of a response. -/
def Response.frames (origin : Origin) (response : Response) : List H3Frame :=
  [.headers response.status response.headers, .data origin response.body]

/-- What an operation does that the stream has been given; one that does not succeed may have
written its frame. -/
inductive SendOutcome
  | ok
  | error (written : Bool) (reason : Bytes)
  /-- it is not done in time -/
  | pending (written : Bool)
  /-- the task is dropped before it is done -/
  | dropped (written : Bool)
deriving DecidableEq

def SendOutcome.written : SendOutcome → Bool
  | ok => true
  | error written _ => written
  | pending written => written
  | dropped written => written

/-- Nothing is written after an operation that has not been done: the stream keeps the rest of its
frame, and refuses another one. -/
def StopsAfterFailure (outcome : ℕ → SendOutcome) : Prop :=
  ∀ i j, i < j → outcome i ≠ .ok → (outcome j).written = false

structure RequestStream where
  /-- what the `i`-th of the next operations does -/
  outcome : ℕ → SendOutcome
  /-- the error of HEADERS that are larger than the peer takes; nothing is written of them -/
  headerTooBig : StatusCode → HeaderMap → Option Bytes
  frames : List H3Frame
  stops : StopsAfterFailure outcome

/-- The stream after an operation. -/
def RequestStream.after (stream : RequestStream) (frame : Option H3Frame) : RequestStream where
  outcome i := stream.outcome (i + 1)
  headerTooBig := stream.headerTooBig
  frames := stream.frames ++ if (stream.outcome 0).written then frame.toList else []
  stops i j h := stream.stops (i + 1) (j + 1) (Nat.succ_lt_succ h)

/-- The error of an operation that is not given to the stream. -/
def RequestStream.refusal (stream : RequestStream) : Option H3Frame → Option Bytes
  | some (.headers status headers) => stream.headerTooBig status headers
  | _ => none

/-- An operation, the frame it writes, and its errors; `elapsed` is `none` if it has no
deadline. -/
structure Operation (ε : Type) where
  frame : Option H3Frame
  failed : Bytes → ε
  elapsed : Option ε

/-- The operations in order, up to the first that does not succeed; `none` if they do not
return. -/
def perform {ε : Type} :
    List (Operation ε) → RequestStream → Option (Except ε Unit) × RequestStream
  | [], stream => (some (.ok ()), stream)
  | op :: ops, stream =>
      match stream.refusal op.frame with
      | some reason => (some (.error (op.failed reason)), stream)
      | none =>
          match stream.outcome 0 with
          | .ok => perform ops (stream.after op.frame)
          | .error _ reason => (some (.error (op.failed reason)), stream.after op.frame)
          | .pending _ => (op.elapsed.map .error, stream.after op.frame)
          | .dropped _ => (none, stream.after op.frame)

/-- `send_response`, `send_data` and `finish` in `process_request`, each under a timeout. -/
def responseOperations (response : Response) : List (Operation DnsProxyError) :=
  [{ frame := some (.headers response.status response.headers)
     failed := fun e => .protocol (utf8 "Failed to send DoH3 response: " ++ e)
     elapsed := some (.timeout (utf8 "DoH3 client response headers")) },
   { frame := some (.data .upstream response.body)
     failed := fun e => .protocol (utf8 "Failed to send DoH3 response body: " ++ e)
     elapsed := some (.timeout (utf8 "DoH3 client response body")) },
   { frame := none
     failed := fun e => .protocol (utf8 "Failed to finish DoH3 response: " ++ e)
     elapsed := some (.timeout (utf8 "DoH3 client response finish")) }]

/-- The operations of `send_error_response`, which have no deadline. -/
def errorOperations (response : Response) : List (Operation DnsProxyError) :=
  [⟨some (.headers response.status response.headers), .protocol, none⟩,
   ⟨some (.data .errorText response.body), .protocol, none⟩,
   ⟨none, .protocol, none⟩]

section
variable (crates : HttpCrates) (rewriter : BaseSniRewriter) (endpoint : HttpUpstreamConfig)
  (requestPath tlsSni : Bytes) (req : Request) (received : Option ReceivedBody)
  (exchange : Option Http3Exchange)

/-- `process_request`, up to the response of the upstream; `none` if it is given up before. -/
def processResponse : Option (Except DnsProxyError Response) :=
  match processRequest crates rewriter endpoint requestPath tlsSni req received with
  | .error e => some (.error e)
  | .ok none => none
  | .ok (some call) =>
      exchange.map fun exchange =>
        match forwardHttp3 crates call endpoint.port exchange with
        | .ok response => .ok response
        | .error e => .error (.upstream (.requestFailed call.upstreamUri e.display))

/-- The response to a request with this result. -/
def clientResponse : Except DnsProxyError Response → Response
  | .ok response => response
  | .error error => sendErrorResponse error

/-- The rest of `process_request`, which sends the response to the client. -/
def sendUpstreamResponse (stream : RequestStream) :
    Option (Except DnsProxyError Response) → Option (Except DnsProxyError Unit) × RequestStream
  | none => (some (.ok ()), stream)
  | some (.error e) => (some (.error e), stream)
  | some (.ok response) => perform (responseOperations response) stream

/-- The rest of `handle_request`, which answers an error of `process_request`. -/
def answerError : Option (Except DnsProxyError Unit) × RequestStream →
    Option (Except DnsProxyError Unit) × RequestStream
  | (some (.error error), stream) =>
      match perform (errorOperations (sendErrorResponse error)) stream with
      | (sent, stream) => (sent.map fun _ => .error error, stream)
  | processed => processed

/-- `handle_request`; `none` if it does not return. -/
def handleRequestOn (stream : RequestStream) : Option (Except DnsProxyError Unit) × RequestStream :=
  answerError (sendUpstreamResponse stream
    (processResponse crates rewriter endpoint requestPath tlsSni req received exchange))

end

/-! ### Operations in order -/

section
variable {ε : Type} {op : Operation ε} {ops : List (Operation ε)}
  {stream stream' : RequestStream} {e : ε} {frame : Option H3Frame}

/-- Nothing more is written on this stream. -/
def RequestStream.Stopped (stream : RequestStream) : Prop :=
  ∀ i, (stream.outcome i).written = false

theorem RequestStream.stopped_after (h : stream.outcome 0 ≠ .ok) : (stream.after frame).Stopped :=
  fun i => stream.stops 0 (i + 1) (Nat.succ_pos i) h

theorem RequestStream.Stopped.ne_ok (h : stream.Stopped) (i : ℕ) : stream.outcome i ≠ .ok := by
  intro hok
  have hwritten := h i
  rw [hok] at hwritten
  cases hwritten

theorem refusal_eq_none (h : ∀ status headers, frame ≠ some (.headers status headers)) :
    stream.refusal frame = none := by
  cases frame with
  | none => rfl
  | some frame =>
      cases frame with
      | headers status headers => exact absurd rfl (h status headers)
      | data origin payload => rfl

theorem perform_refused {reason : Bytes} (h : stream.refusal op.frame = some reason) :
    perform (op :: ops) stream = (some (.error (op.failed reason)), stream) := by
  rw [perform, h]

theorem perform_ok_cons (hrefusal : stream.refusal op.frame = none) (h : stream.outcome 0 = .ok) :
    perform (op :: ops) stream = perform ops (stream.after op.frame) := by
  rw [perform, hrefusal, h]

theorem perform_failed (hrefusal : stream.refusal op.frame = none) (h : stream.outcome 0 ≠ .ok) :
    (perform (op :: ops) stream).2 = stream.after op.frame := by
  rw [perform, hrefusal]
  dsimp only
  split
  · next hok => exact absurd hok h
  · rfl
  · rfl
  · rfl

theorem filterMap_frame_cons (op : Operation ε) (ops : List (Operation ε)) :
    (op :: ops).filterMap Operation.frame =
      op.frame.toList ++ ops.filterMap Operation.frame := by
  rw [List.filterMap_cons]
  cases op.frame <;> rfl

theorem after_frames_ok (frame : Option H3Frame) (h : stream.outcome 0 = .ok) :
    (stream.after frame).frames = stream.frames ++ frame.toList := by
  rw [RequestStream.after, h]
  rfl

/-- What has been written is the beginning of what was to be written. -/
theorem perform_frames (ops : List (Operation ε)) (stream : RequestStream) :
    ∃ frames, (perform ops stream).2.frames = stream.frames ++ frames ∧
      frames <+: ops.filterMap Operation.frame := by
  induction ops generalizing stream with
  | nil => exact ⟨[], (List.append_nil _).symm, List.nil_prefix⟩
  | cons op ops ih =>
      rw [filterMap_frame_cons]
      cases hrefusal : stream.refusal op.frame with
      | some reason =>
          rw [perform_refused hrefusal]
          exact ⟨[], (List.append_nil _).symm, List.nil_prefix⟩
      | none =>
          by_cases hfirst : stream.outcome 0 = .ok
          · obtain ⟨frames, hframes, hprefix⟩ := ih (stream.after op.frame)
            refine ⟨op.frame.toList ++ frames, ?_, (List.prefix_append_right_inj _).mpr hprefix⟩
            rw [perform_ok_cons hrefusal hfirst, hframes, after_frames_ok _ hfirst,
              List.append_assoc]
          · rw [perform_failed hrefusal hfirst]
            refine ⟨_, rfl, ?_⟩
            split
            · exact List.prefix_append _ _
            · exact List.nil_prefix

theorem perform_stopped (ops : List (Operation ε)) (h : stream.Stopped) :
    (perform ops stream).2.frames = stream.frames := by
  cases ops with
  | nil => rfl
  | cons op ops =>
      cases hrefusal : stream.refusal op.frame with
      | some reason => rw [perform_refused hrefusal]
      | none =>
          rw [perform_failed hrefusal (h.ne_ok 0), RequestStream.after, h 0]
          exact List.append_nil _

/-- HEADERS may be refused.  Any other error is that of a stream that has stopped. -/
theorem stopped_of_error (hops : ∀ op ∈ ops, ∀ status headers,
      op.frame ≠ some (.headers status headers))
    (h : perform ops stream = (some (.error e), stream')) : stream'.Stopped := by
  induction ops generalizing stream with
  | nil => cases h
  | cons op ops ih =>
      have hrefusal : stream.refusal op.frame = none :=
        refusal_eq_none (hops op List.mem_cons_self)
      by_cases hfirst : stream.outcome 0 = .ok
      · rw [perform_ok_cons hrefusal hfirst] at h
        exact ih (fun op hop => hops op (List.mem_cons_of_mem _ hop)) h
      · have hafter : (perform (op :: ops) stream).2 = stream.after op.frame :=
          perform_failed hrefusal hfirst
        rw [h] at hafter
        rw [show stream' = stream.after op.frame from hafter]
        exact RequestStream.stopped_after hfirst

theorem perform_ok (ops : List (Operation ε)) (h : ∀ i, stream.outcome i = .ok)
    (hsize : ∀ status headers, stream.headerTooBig status headers = none) :
    ∃ stream', perform ops stream = (some (.ok ()), stream') ∧
      stream'.frames = stream.frames ++ ops.filterMap Operation.frame := by
  induction ops generalizing stream with
  | nil => exact ⟨stream, rfl, (List.append_nil _).symm⟩
  | cons op ops ih =>
      have hrefusal : stream.refusal op.frame = none := by
        unfold RequestStream.refusal
        split
        · exact hsize _ _
        · rfl
      have hafter : ∀ i, (stream.after op.frame).outcome i = .ok := fun i => h (i + 1)
      obtain ⟨stream', hrun, hframes⟩ := ih hafter hsize
      refine ⟨stream', (perform_ok_cons hrefusal (h 0)).trans hrun, ?_⟩
      rw [hframes, after_frames_ok _ (h 0), filterMap_frame_cons, List.append_assoc]

end

/-! ### One response -/

/-- At most one HEADERS, and no DATA of an error text after DATA of an upstream body. -/
structure OneResponse (frames : List H3Frame) : Prop where
  headers : (frames.filter H3Frame.isHeaders).length ≤ 1
  data : ∀ body text,
    ¬ List.Sublist [.data .upstream body, .data .errorText text] frames

theorem oneResponse_frames (origin : Origin) (response : Response) :
    OneResponse (response.frames origin) where
  headers := by simp [Response.frames, List.filter_cons, H3Frame.isHeaders]
  data body text hs := by
    have hboth := hs.filter fun frame => !frame.isHeaders
    simp [Response.frames, H3Frame.isHeaders] at hboth

theorem OneResponse.of_beginning {frames : List H3Frame} {origin : Origin} {response : Response}
    (h : frames <+: response.frames origin) : OneResponse frames where
  headers := ((h.sublist.filter _).length_le).trans (oneResponse_frames origin response).headers
  data body text hs := (oneResponse_frames origin response).data body text (hs.trans h.sublist)

/-! ### Runs of the handler -/

theorem handleRequest_eq (crates : HttpCrates) (rewriter : BaseSniRewriter)
    (endpoint : HttpUpstreamConfig) (requestPath tlsSni : Bytes) (req : Request)
    (received : Option ReceivedBody) (exchange : Option Http3Exchange) :
    handleRequest crates rewriter endpoint requestPath tlsSni req received exchange =
      (processResponse crates rewriter endpoint requestPath tlsSni req received exchange).map
        clientResponse := by
  unfold handleRequest processResponse
  cases processRequest crates rewriter endpoint requestPath tlsSni req received with
  | error e => rfl
  | ok call? =>
      match call?, exchange with
      | none, _ => rfl
      | some call, none => rfl
      | some call, some exchange =>
          simp only [Option.map_some, Option.some.injEq]
          cases forwardHttp3 crates call endpoint.port exchange <;> rfl

section
variable {stream stream' : RequestStream} {error : DnsProxyError} {response : Response}

/-- The stream takes everything. -/
structure RequestStream.Open (stream : RequestStream) : Prop where
  succeeds : ∀ i, stream.outcome i = .ok
  fits : ∀ status headers, stream.headerTooBig status headers = none

theorem responseOperations_frames (response : Response) :
    (responseOperations response).filterMap Operation.frame = response.frames .upstream := rfl

theorem errorOperations_frames (response : Response) :
    (errorOperations response).filterMap Operation.frame = response.frames .errorText := rfl

theorem answerError_error (error : DnsProxyError) (stream : RequestStream) :
    (answerError (some (.error error), stream)).2 =
      (perform (errorOperations (sendErrorResponse error)) stream).2 := rfl

/-- The error response follows nothing, or is not written. -/
theorem responseOperations_error (response : Response)
    (h : perform (responseOperations response) stream = (some (.error error), stream')) :
    stream' = stream ∨ stream'.Stopped := by
  obtain ⟨headers, rest, hops, hrest⟩ : ∃ headers rest,
      responseOperations response = headers :: rest ∧ ∀ op ∈ rest, ∀ status headers,
        Operation.frame op ≠ some (.headers status headers) := by
    refine ⟨_, _, rfl, fun op hop status headers => ?_⟩
    simp only [List.mem_cons, List.not_mem_nil, or_false] at hop
    obtain rfl | rfl := hop <;> simp
  rw [hops] at h
  cases hrefusal : stream.refusal headers.frame with
  | some reason =>
      rw [perform_refused hrefusal] at h
      cases h
      exact .inl rfl
  | none =>
      by_cases hfirst : stream.outcome 0 = .ok
      · rw [perform_ok_cons hrefusal hfirst] at h
        exact .inr (stopped_of_error hrest h)
      · have hafter : (perform (headers :: rest) stream).2 = stream.after headers.frame :=
          perform_failed hrefusal hfirst
        rw [h] at hafter
        rw [show stream' = stream.after headers.frame from hafter]
        exact .inr (RequestStream.stopped_after hfirst)

/-- **What the client gets is the beginning of one response**: of the upstream's, or of an error. -/
theorem handler_frames (stream : RequestStream)
    (processed : Option (Except DnsProxyError Response)) :
    ∃ frames origin response,
      (answerError (sendUpstreamResponse stream processed)).2.frames = stream.frames ++ frames ∧
        frames <+: Response.frames origin response ∧
        (processed = some (.ok response) ∨ response.status.isSuccess = false) := by
  have herror (error : DnsProxyError) (stream : RequestStream) :
      ∃ frames origin response, (answerError (some (.error error), stream)).2.frames =
        stream.frames ++ frames ∧ frames <+: Response.frames origin response ∧
          (processed = some (.ok response) ∨ response.status.isSuccess = false) := by
    obtain ⟨frames, hframes, hprefix⟩ :=
      perform_frames (errorOperations (sendErrorResponse error)) stream
    exact ⟨frames, .errorText, sendErrorResponse error, hframes, hprefix,
      .inr (isSuccess_sendErrorResponse error)⟩
  match processed with
  | none =>
      exact ⟨[], .errorText, sendErrorResponse (.protocol []), (List.append_nil _).symm,
        List.nil_prefix, .inr (isSuccess_sendErrorResponse _)⟩
  | some (.error error) => exact herror error stream
  | some (.ok response) =>
      obtain ⟨frames, hframes, hprefix⟩ := perform_frames (responseOperations response) stream
      have hsent : ∃ frames origin response',
          (perform (responseOperations response) stream).2.frames = stream.frames ++ frames ∧
            frames <+: Response.frames origin response' ∧
            ((some (.ok response) : Option (Except DnsProxyError Response)) = some (.ok response') ∨
              response'.status.isSuccess = false) :=
        ⟨frames, .upstream, response, hframes, hprefix, .inl rfl⟩
      simp only [sendUpstreamResponse]
      match hrun : perform (responseOperations response) stream with
      | (none, stream') =>
          rw [hrun] at hsent
          exact hsent
      | (some (.ok ()), stream') =>
          rw [hrun] at hsent
          exact hsent
      | (some (.error error), stream') =>
          rcases responseOperations_error response hrun with rfl | hstopped
          · exact herror error stream'
          · rw [hrun] at hsent
            rw [answerError_error, perform_stopped _ hstopped]
            exact hsent

/-- If the stream takes everything, the client gets what the handler has for it. -/
theorem handler_frames_open (hopen : stream.Open)
    (processed : Option (Except DnsProxyError Response)) :
    ∃ origin, (answerError (sendUpstreamResponse stream processed)).2.frames =
      stream.frames ++ processed.elim [] fun result =>
        Response.frames origin (clientResponse result) := by
  match processed with
  | none => exact ⟨.upstream, (List.append_nil _).symm⟩
  | some (.error error) =>
      obtain ⟨stream', hrun, hframes⟩ :=
        perform_ok (errorOperations (sendErrorResponse error)) hopen.succeeds hopen.fits
      refine ⟨.errorText, ?_⟩
      rw [sendUpstreamResponse, answerError_error, hrun, hframes, errorOperations_frames]
      rfl
  | some (.ok response) =>
      obtain ⟨stream', hrun, hframes⟩ :=
        perform_ok (responseOperations response) hopen.succeeds hopen.fits
      refine ⟨.upstream, ?_⟩
      rw [sendUpstreamResponse, hrun, answerError, hframes, responseOperations_frames]
      · rfl
      · simp

end

/-- **A client gets at most one response**, whatever the operations on its stream do. -/
theorem oneResponse (crates : HttpCrates) (rewriter : BaseSniRewriter)
    (endpoint : HttpUpstreamConfig) (requestPath tlsSni : Bytes) (req : Request)
    (received : Option ReceivedBody) (exchange : Option Http3Exchange) {outcome : ℕ → SendOutcome}
    (hstops : StopsAfterFailure outcome)
    (headerTooBig : StatusCode → HeaderMap → Option Bytes) :
    OneResponse (handleRequestOn crates rewriter endpoint requestPath tlsSni req received exchange
      ⟨outcome, headerTooBig, [], hstops⟩).2.frames := by
  obtain ⟨frames, origin, response, hframes, hprefix, -⟩ :=
    handler_frames ⟨outcome, headerTooBig, [], hstops⟩
      (processResponse crates rewriter endpoint requestPath tlsSni req received exchange)
  rw [handleRequestOn, hframes, List.nil_append]
  exact .of_beginning hprefix

/-- The DATA of a response is not taken in time, and so nothing after it. -/
def stalledBody : ℕ → SendOutcome
  | 0 => .ok
  | 1 => .pending true
  | _ => .error false (utf8 "internal error in the http stack")

theorem stopsAfterFailure_stalledBody : StopsAfterFailure stalledBody := by
  intro i j hij hfail
  match i, j with
  | 0, _ => exact absurd rfl hfail
  | _ + 1, 0 | _ + 1, 1 => omega
  | _ + 1, _ + 2 => rfl

def stalledStream : RequestStream :=
  ⟨stalledBody, fun _ _ => none, [], stopsAfterFailure_stalledBody⟩

/-- The DNS answer, of which the client takes a part. -/
def stalledRun : Option (Except DnsProxyError Unit) × RequestStream :=
  handleRequestOn plainCrates (createRewriter certifiedConfig.rewrite)
    certifiedConfig.upstream.doh3 (utf8 "/dns-query") (utf8 "hOmE.example.COM") mixedCaseRequest
    (some (.complete (List.replicate 12 0))) (some twoChunks) stalledStream

/-- The error response to it is refused. -/
theorem oneResponse_stalledBody :
    stalledRun.1 = some (.error (.timeout (utf8 "DoH3 client response body"))) ∧
      stalledRun.2.frames.map H3Frame.isHeaders = [true, false] ∧
      OneResponse stalledRun.2.frames :=
  ⟨by decide +kernel, by decide +kernel,
    oneResponse _ _ _ _ _ _ _ _ stopsAfterFailure_stalledBody _⟩

end DnsIngress
