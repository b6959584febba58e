import DnsIngress.Routing

/-! # Responses to DoH and DoH3 clients

`forward_http_request` and `forward_http3_request` from the connection on, and the handlers that
make a response of what they return.  What the network gives is data:

* a `Frame` or a `Buf` is one piece of a body, and a `BodyEnd` what comes after the last one;
* `Awaited` is the result of an operation with a deadline;
* an exchange is all of these for one request.

The response is the one that is given to `hyper`, or written to the stream of the request; the
writes to the client succeed.  `onlyDnsAnswers` is the same for both protocols: a client's success
is an upstream DNS answer, unchanged. -/

namespace DnsIngress

open Ascii

/-- `StatusCode`. -/
abbrev StatusCode := ℕ

namespace StatusCode

def isSuccess (status : StatusCode) : Bool := 200 ≤ status && status < 300

def badRequest : StatusCode := 400
def notFound : StatusCode := 404
def methodNotAllowed : StatusCode := 405
def requestTimeout : StatusCode := 408
def payloadTooLarge : StatusCode := 413
def unsupportedMediaType : StatusCode := 415
def badGateway : StatusCode := 502
def serviceUnavailable : StatusCode := 503
def gatewayTimeout : StatusCode := 504

end StatusCode

structure Response where
  status : StatusCode
  headers : HeaderMap
  body : Bytes
deriving DecidableEq

/-- What comes after the last frame of a body. -/
inductive BodyEnd
  | complete
  /-- no frame before the deadline -/
  | stalled
  | failed (reason : Bytes)
deriving DecidableEq

/-! ### DoH -/

inductive Frame
  | data (bytes : Bytes)
  | trailers

def Frame.bytes : Frame → Bytes
  | data bytes => bytes
  | trailers => []

inductive BodyCollectionError
  | stalled (operation : Bytes)
  | tooLarge (operation : Bytes)
  | read (operation reason : Bytes)

/-- The loop of `collect_body_with_progress`. -/
def collectBodyWithProgress (operation : Bytes) (ending : BodyEnd) (collected : Bytes) :
    List Frame → Except BodyCollectionError Bytes
  | [] =>
      match ending with
      | .complete => .ok collected
      | .stalled => .error (.stalled operation)
      | .failed reason => .error (.read operation reason)
  | .trailers :: frames => collectBodyWithProgress operation ending collected frames
  | .data data :: frames =>
      if maxDnsMessageSize - collected.length < data.length then .error (.tooLarge operation)
      else collectBodyWithProgress operation ending (collected ++ data) frames

/-- `timeout(timeout, client.request(req)).await`. -/
inductive HttpReply
  | response (status : StatusCode) (headers : HeaderMap) (frames : List Frame) (ending : BodyEnd)
  | error (reason : Bytes)
  | elapsed

structure HttpExchange where
  /-- the error of `get_client` -/
  clientError : Option Bytes
  reply : HttpReply

/-- An `anyhow::Error` and what it can be downcast to. -/
inductive ForwardError
  | body (e : BodyCollectionError)
  | other (message : Bytes)

section
variable (crates : HttpCrates)

/-- The checks of a successful response. -/
def checkResponse {ε : Type} (context : Bytes) (notDns : ε) (malformed : Bytes → ε)
    (status : StatusCode) (headers : HeaderMap) (body : Bytes) : Except ε Unit :=
  if !status.isSuccess then .ok ()
  else if !isDnsMessageContentType ((headers.lookup (utf8 "content-type")).bind crates.toStr) then
    .error notDns
  else
    match validateDnsMessage body context with
    | .error reason => .error (malformed reason)
    | .ok () => .ok ()

/-- The checks in `forward_http_request`. -/
def checkHttpResponse (upstreamUri : Bytes) :
    StatusCode → HeaderMap → Bytes → Except ForwardError Unit :=
  checkResponse crates (utf8 "HTTP upstream DNS response")
    (.other (utf8 "HTTP upstream response for " ++ upstreamUri ++
      utf8 " is successful but not application/dns-message"))
    fun _ =>
      .other (utf8 "HTTP upstream response for " ++ upstreamUri ++ utf8 " is malformed")

/-- `forward_http_request`. -/
def forwardHttp (call : ForwardCall) (timeoutSeconds : UInt64) (exchange : HttpExchange) :
    Except ForwardError Response :=
  match exchange.clientError with
  | some e => .error (.other e)
  | none =>
      match forwardHttpRequest crates call with
      | .error e => .error (.other e)
      | .ok _ =>
          match exchange.reply with
          | .response status headers frames ending =>
              match collectBodyWithProgress
                (utf8 "Upstream response body for " ++ call.upstreamUri) ending [] frames with
              | .error e => .error (.body e)
              | .ok body =>
                  match checkHttpResponse crates call.upstreamUri status headers body with
                  | .error e => .error e
                  | .ok () => .ok ⟨status, headers, body⟩
          | .error reason => .ok ⟨.badGateway, [], utf8 "Upstream error: " ++ reason⟩
          | .elapsed =>
              .ok ⟨.gatewayTimeout, [],
                utf8 "Upstream timeout after " ++ decimal timeoutSeconds.toNat ++ utf8 "s"⟩

/-- The headers of an error response. -/
def errorHeaders (allow : Bool) : HeaderMap :=
  (utf8 "content-type", utf8 "text/plain; charset=utf-8") ::
    if allow then [(utf8 "allow", utf8 "GET, POST")] else []

/-- `doh_error_response`. -/
def dohErrorResponse : DohHttpError → Response
  | .badRequest => ⟨.badRequest, errorHeaders false, utf8 "invalid DoH request"⟩
  | .notFound => ⟨.notFound, errorHeaders false, utf8 "DoH endpoint not found"⟩
  | .methodNotAllowed => ⟨.methodNotAllowed, errorHeaders true, utf8 "method not allowed"⟩
  | .unsupportedMediaType =>
      ⟨.unsupportedMediaType, errorHeaders false,
        utf8 "Content-Type must be application/dns-message"⟩
  | .payloadTooLarge =>
      ⟨.payloadTooLarge, errorHeaders false, utf8 "DNS message exceeds 65535 bytes"⟩
  | .requestTimeout => ⟨.requestTimeout, errorHeaders false, utf8 "request body timed out"⟩
  | .gatewayTimeout => ⟨.gatewayTimeout, errorHeaders false, utf8 "upstream timed out"⟩
  | .badGateway => ⟨.badGateway, errorHeaders false, utf8 "upstream request failed"⟩

variable (rewriter : BaseSniRewriter) (endpoint : HttpUpstreamConfig) (requestPath tlsSni : Bytes)
  (req : Request)

/-- `handle_http_request`. -/
def handleHttpRequest (received : ReceivedBody) (timeoutSeconds : UInt64)
    (exchange : HttpExchange) : Response :=
  match handleHttpRequestInner crates rewriter endpoint requestPath tlsSni req received with
  | .error e => dohErrorResponse e
  | .ok call =>
      match forwardHttp crates call timeoutSeconds exchange with
      | .ok response => response
      | .error (.body (.stalled _)) => dohErrorResponse .gatewayTimeout
      | .error _ => dohErrorResponse .badGateway

end

/-! ### DoH3 -/

/-- A `Buf` is made of buffers. -/
abbrev Buf := List Bytes

/-- `remaining()`. -/
def Buf.remaining (b : Buf) : ℕ := b.flatten.length

/-- `chunk()`: the first of the buffers. -/
def Buf.chunk (b : Buf) : Bytes := b.headD []

/-- All of it is in the first buffer. -/
def Buf.Contiguous (b : Buf) : Prop := b.chunk = b.flatten

/-- The result of an operation with a deadline. -/
inductive Awaited (α : Type)
  | ok (a : α)
  | error (reason : Bytes)
  | elapsed

/-- `timeout(..).await.map_err(..)?.map_err(..)?`. -/
def Awaited.within {α : Type} (upstream : Bytes) (wrap : Bytes → DnsProxyError) :
    Awaited α → Except DnsProxyError α
  | ok a => .ok a
  | error reason => .error (wrap reason)
  | elapsed => .error (.timeout upstream)

/-- `timeout(timeout, pool.get(..)).await`. -/
inductive SessionGet
  | session
  | error (e : DnsProxyError)
  | elapsed

structure Http3Exchange where
  get : SessionGet
  sendRequest : Awaited Unit
  sendData : Awaited Unit
  finish : Awaited Unit
  recvResponse : Awaited (StatusCode × HeaderMap)
  chunks : List Buf
  ending : BodyEnd

/-- The `recv_data` loop of `forward_http3_request`. -/
def recvResponseBody (upstreamUri : Bytes) (ending : BodyEnd) (responseBody : Bytes) :
    List Buf → Except DnsProxyError Bytes
  | [] =>
      match ending with
      | .complete => .ok responseBody
      | .stalled => .error (.timeout upstreamUri)
      | .failed reason => .error (.protocol reason)
  | chunk :: chunks =>
      if maxDnsMessageSize < responseBody.length + chunk.remaining then
        .error (.upstream (.requestFailed upstreamUri
          (utf8 "HTTP/3 upstream response exceeds DNS message limit")))
      else recvResponseBody upstreamUri ending (responseBody ++ chunk.chunk) chunks

section
variable (crates : HttpCrates)

/-- The checks in `forward_http3_request`. -/
def checkHttp3Response (upstreamUri : Bytes) :
    StatusCode → HeaderMap → Bytes → Except DnsProxyError Unit :=
  checkResponse crates (utf8 "HTTP/3 upstream DNS response")
    (.upstream (.requestFailed upstreamUri
      (utf8 "HTTP/3 upstream returned a successful non-DNS response")))
    fun reason => .upstream (.requestFailed upstreamUri reason)

def SessionGet.result (upstream : Bytes) : SessionGet → Except DnsProxyError Unit
  | session => .ok ()
  | error e => .error e
  | elapsed => .error (.timeout upstream)

/-- `forward_http3_request`. -/
def forwardHttp3 (call : ForwardCall) (port : UInt16) (exchange : Http3Exchange) :
    Except DnsProxyError Response := do
  let uri := call.upstreamUri
  exchange.get.result (call.targetHostname ++ utf8 ":" ++ decimal port.toNat)
  let _ ← forwardHttp3Request crates call port
  exchange.sendRequest.within uri fun reason => .upstream (.requestFailed uri reason)
  (if call.body = [] then .ok () else exchange.sendData.within uri .protocol)
  exchange.finish.within uri .protocol
  let (status, headers) ← exchange.recvResponse.within uri .protocol
  let body ← recvResponseBody uri exchange.ending [] exchange.chunks
  checkHttp3Response crates uri status headers body
  .ok ⟨status, headers, body⟩

/-- `message.contains(text)`. -/
def contains (message text : Bytes) : Bool := decide (text <:+: message)

/-- The status of `send_error_response`. -/
def errorStatus (error : DnsProxyError) : StatusCode :=
  let message := error.display
  if contains message (utf8 "request path") then .notFound
  else if contains message (utf8 "only supports GET and POST") then .methodNotAllowed
  else if contains message (utf8 "Content-Type") then .unsupportedMediaType
  else if contains message (utf8 "exceeds") || contains message (utf8 "65535 bytes") then
    .payloadTooLarge
  else
    match error with
    | .timeout _ => .gatewayTimeout
    | .overloaded _ _ => .serviceUnavailable
    | .upstream _ => .badGateway
    | _ => .badRequest

/-- `send_error_response`. -/
def sendErrorResponse (error : DnsProxyError) : Response where
  status := errorStatus error
  headers := errorHeaders (errorStatus error = .methodNotAllowed)
  body := error.display

variable (rewriter : BaseSniRewriter) (endpoint : HttpUpstreamConfig) (requestPath tlsSni : Bytes)
  (req : Request)

/-- `DoH3Server::handle_request`; `none` if the listener is shut down while the request's body
arrives, or during the exchange. -/
def handleRequest (received : Option ReceivedBody) (exchange : Option Http3Exchange) :
    Option Response :=
  match processRequest crates rewriter endpoint requestPath tlsSni req received with
  | .error e => some (sendErrorResponse e)
  | .ok none => none
  | .ok (some call) =>
      exchange.map fun exchange =>
        match forwardHttp3 crates call endpoint.port exchange with
        | .ok response => response
        | .error e =>
            sendErrorResponse (.upstream (.requestFailed call.upstreamUri e.display))

end

/-! ### Error responses -/

theorem isSuccess_dohErrorResponse (e : DohHttpError) :
    (dohErrorResponse e).status.isSuccess = false := by
  cases e <;> rfl

theorem isSuccess_sendErrorResponse (error : DnsProxyError) :
    (sendErrorResponse error).status.isSuccess = false := by
  simp only [sendErrorResponse, errorStatus]
  split_ifs
  any_goals rfl
  split <;> rfl

/-! ### Bodies -/

theorem collectBodyWithProgress_ok {operation collected body : Bytes} {ending : BodyEnd}
    {frames : List Frame}
    (h : collectBodyWithProgress operation ending collected frames = .ok body) :
    ending = .complete ∧ body = collected ++ frames.flatMap Frame.bytes := by
  induction frames generalizing collected with
  | nil =>
      cases ending <;> cases h
      exact ⟨rfl, by simp⟩
  | cons frame frames ih =>
      cases frame with
      | trailers => exact ih h
      | data data =>
          simp only [collectBodyWithProgress] at h
          split at h
          · cases h
          · obtain ⟨hend, hbody⟩ := ih h
            exact ⟨hend, by simp [hbody, Frame.bytes]⟩

theorem recvResponseBody_ok {upstreamUri responseBody body : Bytes} {ending : BodyEnd}
    {chunks : List Buf} (hcontiguous : ∀ chunk ∈ chunks, chunk.Contiguous)
    (h : recvResponseBody upstreamUri ending responseBody chunks = .ok body) :
    ending = .complete ∧ body = responseBody ++ chunks.flatMap List.flatten := by
  induction chunks generalizing responseBody with
  | nil =>
      cases ending <;> cases h
      exact ⟨rfl, by simp⟩
  | cons chunk chunks ih =>
      simp only [recvResponseBody] at h
      split at h
      · cases h
      · obtain ⟨hend, hbody⟩ := ih (fun c hc => hcontiguous c (List.mem_cons_of_mem _ hc)) h
        rw [hcontiguous chunk List.mem_cons_self] at hbody
        exact ⟨hend, by simp [hbody]⟩

/-! ### Only DNS answers are a success -/

/-- A response as the upstream has sent it. -/
structure UpstreamResponse where
  status : StatusCode
  headers : HeaderMap
  body : Bytes
  /-- whether the body has ended -/
  complete : Bool

def HttpExchange.response? (exchange : HttpExchange) : Option UpstreamResponse :=
  match exchange.reply with
  | .response status headers frames ending =>
      some ⟨status, headers, frames.flatMap Frame.bytes, ending = .complete⟩
  | .error _ | .elapsed => none

def Http3Exchange.response? (exchange : Http3Exchange) : Option UpstreamResponse :=
  match exchange.recvResponse with
  | .ok (status, headers) =>
      some ⟨status, headers, exchange.chunks.flatMap List.flatten, exchange.ending = .complete⟩
  | .error _ | .elapsed => none

variable {crates : HttpCrates}

/-- A complete DNS message of a DNS media type. -/
structure UpstreamResponse.IsDnsAnswer (crates : HttpCrates) (r : UpstreamResponse) : Prop where
  success : r.status.isSuccess = true
  complete : r.complete = true
  /-- the text before the first semicolon -/
  mediaType : ∃ value text, r.headers.lookup (utf8 "content-type") = some value ∧
    crates.toStr value = some text ∧
    toAsciiLowercase (trim (text.takeWhile (· != 59))) = utf8 "application/dns-message"
  atLeast : 12 ≤ r.body.length
  atMost : r.body.length ≤ 65535

/-- The client's response to what the upstream has sent. -/
structure Validates (crates : HttpCrates) (upstream : Option UpstreamResponse)
    (client : Response) : Prop where
  success : client.status.isSuccess = true → ∃ r, upstream = some r ∧ r.IsDnsAnswer crates ∧
    client = ⟨r.status, r.headers, r.body⟩
  rejected : ∀ r, upstream = some r → r.status.isSuccess = true → ¬ r.IsDnsAnswer crates →
    client.status.isSuccess = false

theorem Validates.of_success {upstream : Option UpstreamResponse} {client : Response}
    (h : client.status.isSuccess = true → ∃ r, upstream = some r ∧ r.IsDnsAnswer crates ∧
      client = ⟨r.status, r.headers, r.body⟩) : Validates crates upstream client where
  success := h
  rejected := by
    intro r hr _ hnot
    rw [Bool.eq_false_iff]
    intro hc
    obtain ⟨r', hr', hanswer, -⟩ := h hc
    cases hr.symm.trans hr'
    exact hnot hanswer

theorem Validates.of_error {upstream : Option UpstreamResponse} {client : Response}
    (h : client.status.isSuccess = false) : Validates crates upstream client :=
  .of_success fun hc => absurd hc (by rw [h]; exact Bool.false_ne_true)

theorem validateDnsMessage_ok {message context : Bytes} :
    validateDnsMessage message context = .ok () ↔
      12 ≤ message.length ∧ message.length ≤ 65535 := by
  unfold validateDnsMessage maxDnsMessageSize
  split <;> simp_all

theorem isDnsMessageContentType_iff {value : Option Bytes} :
    isDnsMessageContentType value = true ↔ ∃ text, value = some text ∧
      toAsciiLowercase (trim (text.takeWhile (· != 59))) = utf8 "application/dns-message" := by
  have hlower : toAsciiLowercase (utf8 "application/dns-message") =
      utf8 "application/dns-message" := by rfl
  cases value <;> simp [isDnsMessageContentType, eqIgnoreAsciiCase, hlower]

theorem checkResponse_ok {ε : Type} {context body : Bytes} {notDns : ε} {malformed : Bytes → ε}
    {status : StatusCode} {headers : HeaderMap}
    (h : checkResponse crates context notDns malformed status headers body = .ok ())
    (hs : status.isSuccess = true) :
    (UpstreamResponse.mk status headers body true).IsDnsAnswer crates := by
  simp only [checkResponse, hs, Bool.not_true, Bool.false_eq_true, if_false] at h
  split_ifs at h with hc
  split at h
  · cases h
  · next hv =>
      obtain ⟨text, htext, hmedia⟩ := isDnsMessageContentType_iff.mp (by simpa using hc)
      obtain ⟨value, hvalue, htext⟩ := Option.bind_eq_some_iff.mp htext
      obtain ⟨hlow, hhigh⟩ := validateDnsMessage_ok.mp hv
      exact ⟨hs, rfl, ⟨value, text, hvalue, htext, hmedia⟩, hlow, hhigh⟩

variable {rewriter : BaseSniRewriter} {endpoint : HttpUpstreamConfig} {requestPath tlsSni : Bytes}
  {req : Request} {call : ForwardCall} {client : Response}

theorem forwardHttp_validates {timeoutSeconds : UInt64} {exchange : HttpExchange}
    (h : forwardHttp crates call timeoutSeconds exchange = .ok client) :
    Validates crates exchange.response? client := by
  unfold forwardHttp at h
  split at h
  · cases h
  · split at h
    · cases h
    · split at h
      · next status headers frames ending hreply =>
          split at h
          · cases h
          · next body hbody =>
              split at h
              · cases h
              · next hcheck =>
                  cases h
                  obtain ⟨rfl, rfl⟩ := collectBodyWithProgress_ok hbody
                  rw [List.nil_append] at hcheck ⊢
                  refine .of_success fun hs => ⟨_, ?_, checkResponse_ok hcheck hs, rfl⟩
                  simp [HttpExchange.response?, hreply]
      · cases h
        exact .of_error rfl
      · cases h
        exact .of_error rfl

theorem forwardHttp3_validates {port : UInt16} {exchange : Http3Exchange}
    (hcontiguous : ∀ chunk ∈ exchange.chunks, chunk.Contiguous)
    (h : forwardHttp3 crates call port exchange = .ok client) :
    Validates crates exchange.response? client := by
  obtain ⟨_, -, h⟩ := bind_eq_ok.mp h
  obtain ⟨_, -, h⟩ := bind_eq_ok.mp h
  obtain ⟨_, -, h⟩ := bind_eq_ok.mp h
  obtain ⟨_, -, h⟩ := bind_eq_ok.mp h
  obtain ⟨_, -, h⟩ := bind_eq_ok.mp h
  obtain ⟨⟨status, headers⟩, hrecv, h⟩ := bind_eq_ok.mp h
  obtain ⟨body, hbody, h⟩ := bind_eq_ok.mp h
  obtain ⟨_, hcheck, h⟩ := bind_eq_ok.mp h
  cases h
  have hresponse : exchange.recvResponse = .ok (status, headers) := by
    cases hr : exchange.recvResponse with
    | ok r =>
        rw [hr] at hrecv
        cases hrecv
        rfl
    | error reason | elapsed => cases hr ▸ hrecv
  obtain ⟨hend, rfl⟩ := recvResponseBody_ok hcontiguous hbody
  rw [List.nil_append] at hcheck ⊢
  refine .of_success fun hs => ⟨_, ?_, checkResponse_ok hcheck hs, rfl⟩
  simp [Http3Exchange.response?, hresponse, hend]

/-- **Only DNS answers reach clients as success, unchanged**, over DoH and over DoH3; a request
that has been sent over HTTP/3 is answered. -/
theorem onlyDnsAnswers (crates : HttpCrates) (rewriter : BaseSniRewriter)
    (endpoint : HttpUpstreamConfig) (requestPath tlsSni : Bytes) (req : Request) :
    (∀ received timeoutSeconds exchange, Validates crates exchange.response?
      (handleHttpRequest crates rewriter endpoint requestPath tlsSni req received timeoutSeconds
        exchange)) ∧
    ∀ received exchange,
      (∀ e, exchange = some e → ∀ chunk ∈ e.chunks, chunk.Contiguous) →
      (∀ client, handleRequest crates rewriter endpoint requestPath tlsSni req received exchange =
        some client → Validates crates (exchange.bind Http3Exchange.response?) client) ∧
      ∀ call, processRequest crates rewriter endpoint requestPath tlsSni req received =
        .ok (some call) → exchange.isSome = true →
        (handleRequest crates rewriter endpoint requestPath tlsSni req received exchange).isSome =
          true := by
  constructor
  · intro received timeoutSeconds exchange
    unfold handleHttpRequest
    split
    · exact .of_error (isSuccess_dohErrorResponse _)
    · split
      · next hforward => exact forwardHttp_validates hforward
      · exact .of_error (isSuccess_dohErrorResponse _)
      · exact .of_error (isSuccess_dohErrorResponse _)
  · intro received exchange hcontiguous
    constructor
    · intro client h
      simp only [handleRequest] at h
      split at h
      · cases h
        exact .of_error (isSuccess_sendErrorResponse _)
      · cases h
      · obtain ⟨e, rfl, hclient⟩ := Option.map_eq_some_iff.mp h
        split at hclient
        · next hforward =>
            cases hclient
            exact forwardHttp3_validates (hcontiguous e rfl) hforward
        · cases hclient
          exact .of_error (isSuccess_sendErrorResponse _)
    · intro call hcall hsome
      simp only [handleRequest, hcall, Option.isSome_map, hsome]

/-- A DNS answer in two chunks. -/
def twoChunks : Http3Exchange where
  get := .session
  sendRequest := .ok ()
  sendData := .ok ()
  finish := .ok ()
  recvResponse := .ok (200, [(utf8 "content-type", utf8 "Application/DNS-message ; q=1")])
  chunks := [[List.replicate 10 1], [List.replicate 4 2]]
  ending := .complete

theorem onlyDnsAnswers_twoChunks :
    ∃ client, handleRequest plainCrates (createRewriter certifiedConfig.rewrite)
        certifiedConfig.upstream.doh3 (utf8 "/dns-query") (utf8 "hOmE.example.COM")
        mixedCaseRequest (some (.complete (List.replicate 12 0))) (some twoChunks) = some client ∧
      client.status = 200 ∧ Validates plainCrates twoChunks.response? client := by
  obtain ⟨client, hclient, hstatus⟩ : ∃ client, handleRequest plainCrates
      (createRewriter certifiedConfig.rewrite) certifiedConfig.upstream.doh3 (utf8 "/dns-query")
      (utf8 "hOmE.example.COM") mixedCaseRequest (some (.complete (List.replicate 12 0)))
      (some twoChunks) = some client ∧ client.status = 200 := ⟨_, rfl, rfl⟩
  have hcontiguous : ∀ e, some twoChunks = some e → ∀ chunk ∈ e.chunks, chunk.Contiguous := by
    rintro _ ⟨⟩ chunk hchunk
    rcases List.mem_pair.mp hchunk with rfl | rfl <;> rfl
  exact ⟨client, hclient, hstatus,
    ((onlyDnsAnswers plainCrates _ _ _ _ mixedCaseRequest).2 _ _ hcontiguous).1 client hclient⟩

end DnsIngress
