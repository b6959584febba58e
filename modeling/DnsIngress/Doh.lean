import DnsIngress.Http

/-! # The DoH and DoH3 request handlers

`handle_http_request_inner` of `proxy/http.rs` and `DoH3Server::process_request` of
`readers/doh3.rs`, up to the call that sends the request upstream.  The two make the same checks
in the same order; they differ in the errors they report and in the server name they are given,
which DoH lowers at the handshake and DoH3 at every request. -/

namespace DnsIngress

open Ascii

inductive DohHttpError
  | badRequest
  | notFound
  | methodNotAllowed
  | unsupportedMediaType
  | payloadTooLarge
  | requestTimeout
  | gatewayTimeout
  | badGateway
deriving DecidableEq

section
variable (crates : HttpCrates) (rewriter : BaseSniRewriter) (endpoint : HttpUpstreamConfig)
  (requestPath tlsSni : Bytes) (req : Request)

/-- The arguments of the call upstream. -/
def forwardCall (target body : Bytes) : ForwardCall where
  upstreamUri := upstreamUri target endpoint req.uri.query
  targetHostname := target
  method := req.method
  headers := req.headers
  body := body

/-- The check of a GET query or of a POST content type. -/
def checkDohMessage : Except DohHttpError Unit :=
  if req.method = .get then
    match validateDohGetQuery crates req.uri (utf8 "DoH") with
    | .error _ => .error .badRequest
    | .ok () => .ok ()
  else if !isDnsMessageContentType (req.contentType crates) then .error .unsupportedMediaType
  else .ok ()

/-- The body of a DoH request. -/
def collectDohBody (received : ReceivedBody) : Except DohHttpError Bytes :=
  if req.method = .post then
    match received with
    | .stalled => .error .requestTimeout
    | .tooLarge => .error .payloadTooLarge
    | .failed _ => .error .badRequest
    | .complete body =>
        match validateDnsMessage body (utf8 "DoH POST body") with
        | .error _ => .error .badRequest
        | .ok () => .ok body
  else .ok []

/-- `handle_http_request_inner`. -/
def handleHttpRequestInner (received : ReceivedBody) : Except DohHttpError ForwardCall :=
  if req.uri.path ≠ requestPath then .error .notFound
  else
    match req.host crates with
    | none => .error .badRequest
    | some host =>
        match normalizeHostname crates host with
        | none => .error .badRequest
        | some host =>
            if host ≠ tlsSni then .error .badRequest
            else if req.method ≠ .get ∧ req.method ≠ .post then .error .methodNotAllowed
            else
              match checkDohMessage crates req with
              | .error e => .error e
              | .ok () =>
                  match rewriter.rewrite host with
                  | none => .error .badRequest
                  | some r =>
                      match collectDohBody req received with
                      | .error e => .error e
                      | .ok body => .ok (forwardCall endpoint req r.targetHostname body)

def checkDoh3Message : Except DnsProxyError Unit :=
  if req.method = .get then
    match validateDohGetQuery crates req.uri (utf8 "DoH3") with
    | .error e => .error (.invalidInput e)
    | .ok () => .ok ()
  else if !isDnsMessageContentType (req.contentType crates) then
    .error (.invalidInput (utf8 "DoH3 POST Content-Type must be application/dns-message"))
  else .ok ()

/-- The body of a DoH3 request; `none` if the listener is shut down while it arrives. -/
def collectDoh3Body (received : Option ReceivedBody) : Except DnsProxyError (Option Bytes) :=
  if req.method = .post then
    match received with
    | none => .ok none
    | some .stalled => .error (.timeout (utf8 "DoH3 request body"))
    | some .tooLarge =>
        .error (.invalidInput (utf8 "DoH3 POST body exceeds the DNS message limit"))
    | some (.failed reason) =>
        .error (.protocol (utf8 "Failed to read DoH3 request body: " ++ reason))
    | some (.complete body) =>
        match validateDnsMessage body (utf8 "DoH3 POST body") with
        | .error e => .error (.invalidInput e)
        | .ok () => .ok (some body)
  else .ok (some [])

/-- `process_request`; nothing is forwarded for `none`. -/
def processRequest (received : Option ReceivedBody) :
    Except DnsProxyError (Option ForwardCall) :=
  if req.uri.path ≠ requestPath then
    .error (.invalidInput (utf8 "DoH3 request path must be " ++ requestPath))
  else
    match req.host crates with
    | none =>
        .error (.invalidInput (utf8 "Missing or invalid Host header in " ++ req.method.display ++
          utf8 " request to " ++ req.uri.text))
    | some host =>
        match normalizeHostname crates host with
        | none => .error (.invalidInput (utf8 "Invalid DoH3 Host header"))
        | some host =>
            if host ≠ toAsciiLowercase tlsSni then
              .error (.invalidInput (utf8 "DoH3 Host does not match TLS SNI"))
            else if req.method ≠ .get ∧ req.method ≠ .post then
              .error (.invalidInput (utf8 "DoH3 only supports GET and POST"))
            else
              match checkDoh3Message crates req with
              | .error e => .error e
              | .ok () =>
                  match rewriter.rewrite host with
                  | none => .error (.sniRewrite (.noMatchingBaseDomain host))
                  | some r =>
                      match collectDoh3Body req received with
                      | .error e => .error e
                      | .ok none => .ok none
                      | .ok (some body) =>
                          .ok (some (forwardCall endpoint req r.targetHostname body))

end

variable {crates : HttpCrates} {rewriter : BaseSniRewriter} {endpoint : HttpUpstreamConfig}
  {requestPath tlsSni : Bytes} {req : Request} {call : ForwardCall}

/-- A DoH request that is forwarded goes where its server name is rewritten to. -/
theorem handleHttpRequestInner_ok {received : ReceivedBody}
    (h : handleHttpRequestInner crates rewriter endpoint requestPath tlsSni req received =
      .ok call) :
    ∃ r body, rewriter.rewrite tlsSni = some r ∧
      call = forwardCall endpoint req r.targetHostname body := by
  unfold handleHttpRequestInner at h
  repeat' split at h
  all_goals try (cases h; done)
  next host _ hsni _ _ _ _ r hr _ body _ =>
    cases h
    rw [not_not.mp hsni] at hr
    exact ⟨r, body, hr, rfl⟩

theorem processRequest_ok {received : Option ReceivedBody}
    (h : processRequest crates rewriter endpoint requestPath tlsSni req received =
      .ok (some call)) :
    ∃ r body, rewriter.rewrite tlsSni = some r ∧
      call = forwardCall endpoint req r.targetHostname body := by
  unfold processRequest at h
  repeat' split at h
  all_goals try (cases h; done)
  next host _ hsni _ _ _ _ r hr _ body _ =>
    cases h
    rw [not_not.mp hsni, rewrite_toAsciiLowercase] at hr
    exact ⟨r, body, hr, rfl⟩

end DnsIngress
