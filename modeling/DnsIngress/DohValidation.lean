import DnsIngress.DohResponse

/-! # The validation of DoH and DoH3 requests

`validateRequest` is what both handlers check before they forward a request, and the first `Fault`
they find.  `handleHttpRequestInner_eq` and `processRequest_eq` say that each handler is this
validation with its own errors.

A body arrives in pieces.  `collectRequestBody` and `recvRequestBody` are the loops that read it; of
a body that arrives completely both keep the same bytes, however it has been cut
(`collectRequestBody_complete`, `recvRequestBody_complete`). -/

namespace DnsIngress

open Ascii

/-- Why a request is rejected. -/
inductive Fault
  | wrongPath
  | missingHost
  | invalidHost
  | wrongHost
  | wrongMethod
  | missingParameter
  | notBase64
  /-- the message in the query is too short or too long -/
  | querySize
  | wrongMediaType
  /-- no base domain -/
  | unmatched (host : Bytes)
  | stalled
  | tooLarge
  | failed (reason : Bytes)
  /-- the body is too short or too long -/
  | bodySize

section
variable (crates : HttpCrates) (rewriter : BaseSniRewriter) (requestPath sni : Bytes)
  (req : Request)

/-- The size of a DNS message. -/
def IsMessage (message : Bytes) : Prop :=
  12 ≤ message.length ∧ message.length ≤ maxDnsMessageSize

instance (message : Bytes) : Decidable (IsMessage message) := inferInstanceAs (Decidable (_ ∧ _))

/-- The check of a GET query. -/
def validateQuery (uri : Uri) : Except Fault Unit :=
  match uri.query.bind dnsParameter with
  | none => .error .missingParameter
  | some [] => .error .notBase64
  | some parameter =>
      match crates.base64Decode parameter with
      | none => .error .notBase64
      | some message => if IsMessage message then .ok () else .error .querySize

def validateMessage : Except Fault Unit :=
  if req.method = .get then validateQuery crates req.uri
  else if !isDnsMessageContentType (req.contentType crates) then .error .wrongMediaType
  else .ok ()

/-- The body that is forwarded. -/
def validateBody (received : ReceivedBody) : Except Fault Bytes :=
  if req.method = .post then
    match received with
    | .stalled => .error .stalled
    | .tooLarge => .error .tooLarge
    | .failed reason => .error (.failed reason)
    | .complete body => if IsMessage body then .ok body else .error .bodySize
  else .ok []

/-- The checks of a request for the right path and host. -/
def validateContent (host : Bytes) (received : ReceivedBody) : Except Fault (Bytes × Bytes) :=
  match validateMessage crates req with
  | .error fault => .error fault
  | .ok () =>
      match rewriter.rewrite host with
      | none => .error (.unmatched host)
      | some r =>
          match validateBody req received with
          | .error fault => .error fault
          | .ok body => .ok (r.targetHostname, body)

/-- The target and the body of the request that is forwarded. -/
def validateRequest (received : ReceivedBody) : Except Fault (Bytes × Bytes) :=
  if req.uri.path ≠ requestPath then .error .wrongPath
  else
    match req.host crates with
    | none => .error .missingHost
    | some authority =>
        match normalizeHostname crates authority with
        | none => .error .invalidHost
        | some host =>
            if host ≠ sni then .error .wrongHost
            else if req.method ≠ .get ∧ req.method ≠ .post then .error .wrongMethod
            else validateContent crates rewriter req host received

end

/-! ### The two handlers -/

/-- The error of DoH. -/
def Fault.doh : Fault → DohHttpError
  | .wrongPath => .notFound
  | .missingHost | .invalidHost | .wrongHost => .badRequest
  | .wrongMethod => .methodNotAllowed
  | .missingParameter | .notBase64 | .querySize => .badRequest
  | .wrongMediaType => .unsupportedMediaType
  | .unmatched _ => .badRequest
  | .stalled => .requestTimeout
  | .tooLarge => .payloadTooLarge
  | .failed _ => .badRequest
  | .bodySize => .badRequest

/-- The error of DoH3. -/
def Fault.doh3 (requestPath : Bytes) (req : Request) : Fault → DnsProxyError
  | .wrongPath => .invalidInput (utf8 "DoH3 request path must be " ++ requestPath)
  | .missingHost =>
      .invalidInput (utf8 "Missing or invalid Host header in " ++ req.method.display ++
        utf8 " request to " ++ req.uri.text)
  | .invalidHost => .invalidInput (utf8 "Invalid DoH3 Host header")
  | .wrongHost => .invalidInput (utf8 "DoH3 Host does not match TLS SNI")
  | .wrongMethod => .invalidInput (utf8 "DoH3 only supports GET and POST")
  | .missingParameter =>
      .invalidInput (utf8 "DoH3" ++ utf8 " GET requests require a non-empty dns query parameter")
  | .notBase64 =>
      .invalidInput (utf8 "DoH3" ++ utf8 " dns query parameter must be unpadded base64url")
  | .querySize =>
      .invalidInput (utf8 "DoH3" ++ utf8 " GET dns query parameter" ++
        utf8 " must contain one DNS message between 12 and 65535 bytes")
  | .wrongMediaType =>
      .invalidInput (utf8 "DoH3 POST Content-Type must be application/dns-message")
  | .unmatched host => .sniRewrite (.noMatchingBaseDomain host)
  | .stalled => .timeout (utf8 "DoH3 request body")
  | .tooLarge => .invalidInput (utf8 "DoH3 POST body exceeds the DNS message limit")
  | .failed reason => .protocol (utf8 "Failed to read DoH3 request body: " ++ reason)
  | .bodySize =>
      .invalidInput (utf8 "DoH3 POST body" ++
        utf8 " must contain one DNS message between 12 and 65535 bytes")

variable {crates : HttpCrates} {rewriter : BaseSniRewriter} {endpoint : HttpUpstreamConfig}
  {requestPath sni tlsSni : Bytes} {req : Request} {received : ReceivedBody}

theorem validateDnsMessage_eq (message context : Bytes) :
    validateDnsMessage message context = if IsMessage message then .ok () else
      .error (context ++ utf8 " must contain one DNS message between 12 and 65535 bytes") := rfl

/-- The text of a fault of a query. -/
def Fault.queryText (protocol : Bytes) : Fault → Bytes
  | .missingParameter =>
      protocol ++ utf8 " GET requests require a non-empty dns query parameter"
  | .notBase64 => protocol ++ utf8 " dns query parameter must be unpadded base64url"
  | _ =>
      protocol ++ utf8 " GET dns query parameter" ++
        utf8 " must contain one DNS message between 12 and 65535 bytes"

theorem validateDohGetQuery_eq (crates : HttpCrates) (uri : Uri) (protocol : Bytes) :
    validateDohGetQuery crates uri protocol =
      (validateQuery crates uri).mapError (Fault.queryText protocol) := by
  unfold validateDohGetQuery validateQuery
  cases uri.query.bind dnsParameter with
  | none => rfl
  | some parameter =>
      cases parameter with
      | nil => rfl
      | cons b parameter =>
          cases hmessage : crates.base64Decode (b :: parameter) with
          | none => simp only [hmessage, Except.mapError, Fault.queryText]
          | some message =>
              simp only [hmessage, validateDnsMessage_eq]
              split <;> rfl

theorem validateQuery_error {uri : Uri} {fault : Fault}
    (h : validateQuery crates uri = .error fault) :
    fault = .missingParameter ∨ fault = .notBase64 ∨ fault = .querySize := by
  unfold validateQuery at h
  split at h
  · cases h
    exact .inl rfl
  · cases h
    exact .inr (.inl rfl)
  · split at h
    · cases h
      exact .inr (.inl rfl)
    · split at h <;> cases h
      exact .inr (.inr rfl)

theorem checkDohMessage_eq (crates : HttpCrates) (req : Request) :
    checkDohMessage crates req = (validateMessage crates req).mapError Fault.doh := by
  unfold checkDohMessage validateMessage
  split
  · rw [validateDohGetQuery_eq]
    cases hq : validateQuery crates req.uri with
    | ok _ => rfl
    | error fault => rcases validateQuery_error hq with rfl | rfl | rfl <;> rfl
  · split <;> rfl

theorem checkDoh3Message_eq (crates : HttpCrates) (requestPath : Bytes) (req : Request) :
    checkDoh3Message crates req =
      (validateMessage crates req).mapError (Fault.doh3 requestPath req) := by
  unfold checkDoh3Message validateMessage
  split
  · rw [validateDohGetQuery_eq]
    cases hq : validateQuery crates req.uri with
    | ok _ => rfl
    | error fault => rcases validateQuery_error hq with rfl | rfl | rfl <;> rfl
  · split <;> rfl

theorem collectDohBody_eq (req : Request) (received : ReceivedBody) :
    collectDohBody req received = (validateBody req received).mapError Fault.doh := by
  unfold collectDohBody validateBody
  split
  · cases received with
    | stalled | tooLarge | failed _ => rfl
    | complete body =>
        by_cases hm : IsMessage body
        · simp only [validateDnsMessage_eq, hm, if_true, Except.mapError]
        · simp only [validateDnsMessage_eq, hm, if_false, Except.mapError, Fault.doh]
  · rfl

theorem collectDoh3Body_eq (requestPath : Bytes) (req : Request) (received : ReceivedBody) :
    collectDoh3Body req (some received) =
      ((validateBody req received).mapError (Fault.doh3 requestPath req)).map some := by
  unfold collectDoh3Body validateBody
  split
  · cases received with
    | stalled | tooLarge | failed _ => rfl
    | complete body =>
        by_cases hm : IsMessage body
        · simp only [validateDnsMessage_eq, hm, if_true, Except.mapError, Except.map]
        · simp only [validateDnsMessage_eq, hm, if_false, Except.mapError, Except.map, Fault.doh3]
  · rfl

/-- **DoH makes the validation**, with its own errors. -/
theorem handleHttpRequestInner_eq (crates : HttpCrates) (rewriter : BaseSniRewriter)
    (endpoint : HttpUpstreamConfig) (requestPath sni : Bytes) (req : Request)
    (received : ReceivedBody) :
    handleHttpRequestInner crates rewriter endpoint requestPath sni req received =
      ((validateRequest crates rewriter requestPath sni req received).mapError Fault.doh).map
        fun (target, body) => forwardCall endpoint req target body := by
  unfold handleHttpRequestInner validateRequest validateContent
  rw [checkDohMessage_eq, collectDohBody_eq]
  split
  · rfl
  · cases req.host crates with
    | none => rfl
    | some authority =>
        cases hnorm : normalizeHostname crates authority with
        | none => simp only [hnorm]; rfl
        | some host =>
            simp only [hnorm]
            split
            · rfl
            · split
              · rfl
              · cases validateMessage crates req with
                | error fault => rfl
                | ok _ =>
                    simp only [Except.mapError]
                    cases rewriter.rewrite host with
                    | none => rfl
                    | some r => cases validateBody req received <;> rfl

/-- **DoH3 makes the validation**, with its own errors. -/
theorem processRequest_eq (crates : HttpCrates) (rewriter : BaseSniRewriter)
    (endpoint : HttpUpstreamConfig) (requestPath tlsSni : Bytes) (req : Request)
    (received : ReceivedBody) :
    processRequest crates rewriter endpoint requestPath tlsSni req (some received) =
      ((validateRequest crates rewriter requestPath (toAsciiLowercase tlsSni) req
        received).mapError (Fault.doh3 requestPath req)).map
        fun (target, body) => some (forwardCall endpoint req target body) := by
  unfold processRequest validateRequest validateContent
  rw [checkDoh3Message_eq crates requestPath, collectDoh3Body_eq requestPath]
  split
  · rfl
  · cases req.host crates with
    | none => rfl
    | some authority =>
        cases hnorm : normalizeHostname crates authority with
        | none => simp only [hnorm]; rfl
        | some host =>
            simp only [hnorm]
            split
            · rfl
            · split
              · rfl
              · cases validateMessage crates req with
                | error fault => rfl
                | ok _ =>
                    simp only [Except.mapError]
                    cases rewriter.rewrite host with
                    | none => rfl
                    | some r => cases validateBody req received <;> rfl

/-! ### What has been validated -/

theorem validateRequest_ok {target body : Bytes}
    (h : validateRequest crates rewriter requestPath sni req received = .ok (target, body)) :
    (req.method = .get ∨ req.method = .post) ∧ validateMessage crates req = .ok () ∧
      (∃ r, rewriter.rewrite sni = some r ∧ target = r.targetHostname) ∧
      validateBody req received = .ok body := by
  unfold validateRequest validateContent at h
  repeat' split at h
  all_goals try (cases h; done)
  next host _ hsni hmethod _ hmessage _ r hr _ body' hbody =>
    cases h
    rw [not_not.mp hsni] at hr
    exact ⟨by tauto, hmessage, ⟨r, hr, rfl⟩, hbody⟩

theorem processRequest_getD {call : ForwardCall} {received : Option ReceivedBody}
    (h : processRequest crates rewriter endpoint requestPath tlsSni req received =
      .ok (some call)) :
    processRequest crates rewriter endpoint requestPath tlsSni req
      (some (received.getD .stalled)) = .ok (some call) := by
  cases received with
  | some received => exact h
  | none =>
      unfold processRequest at h ⊢
      by_cases hpost : req.method = .post
      · simp only [collectDoh3Body, if_pos hpost] at h
        repeat' split at h
        all_goals cases h
      · simpa only [collectDoh3Body, if_neg hpost] using h

theorem toOption_eq_some {ε α : Type} {x : Except ε α} {a : α} (h : x.toOption = some a) :
    x = .ok a := by
  cases x with
  | error e => cases h
  | ok b =>
      cases h
      rfl

/-- What DoH forwards has been validated, for the target of the server name. -/
theorem DoHServer.forwards_validated {config : AppConfig} {u : UpstreamRequest Bytes}
    (h : DoHServer.forwards crates config (some sni) req received = some u) :
    ∃ r body, (createRewriter config.rewrite).rewrite sni = some r ∧
      validateRequest crates (createRewriter config.rewrite) config.servers.doh.path
        (toAsciiLowercase sni) req received = .ok (r.targetHostname, body) ∧
      forwardHttpRequest crates (forwardCall config.upstream.doh req r.targetHostname body) =
        .ok u := by
  simp only [DoHServer.forwards, handleHttpRequestInner_eq] at h
  cases hv : validateRequest crates (createRewriter config.rewrite) config.servers.doh.path
    (toAsciiLowercase sni) req received with
  | error fault =>
      rw [hv] at h
      cases h
  | ok validated =>
      obtain ⟨target, body⟩ := validated
      obtain ⟨-, -, ⟨r, hr, rfl⟩, -⟩ := validateRequest_ok hv
      rw [rewrite_toAsciiLowercase] at hr
      rw [hv] at h
      exact ⟨r, body, hr, rfl, toOption_eq_some h⟩

theorem DoH3Server.forwards_validated {config : AppConfig} {received : Option ReceivedBody}
    {u : UpstreamRequest (Bytes × UInt16)}
    (h : DoH3Server.forwards crates config (some sni) req received = some u) :
    ∃ r body, (createRewriter config.rewrite).rewrite sni = some r ∧
      validateRequest crates (createRewriter config.rewrite) config.servers.doh3.path
        (toAsciiLowercase sni) req (received.getD .stalled) = .ok (r.targetHostname, body) ∧
      forwardHttp3Request crates (forwardCall config.upstream.doh3 req r.targetHostname body)
        config.upstream.doh3.port = .ok u := by
  simp only [DoH3Server.forwards] at h
  split at h
  · cases h
  · cases h
  · next call hcall =>
      have hcall := processRequest_getD hcall
      rw [processRequest_eq] at hcall
      cases hv : validateRequest crates (createRewriter config.rewrite) config.servers.doh3.path
        (toAsciiLowercase sni) req (received.getD .stalled) with
      | error fault =>
          rw [hv] at hcall
          cases hcall
      | ok validated =>
          obtain ⟨target, body⟩ := validated
          obtain ⟨-, -, ⟨r, hr, rfl⟩, -⟩ := validateRequest_ok hv
          rw [rewrite_toAsciiLowercase] at hr
          rw [hv] at hcall
          cases hcall
          exact ⟨r, body, hr, rfl, toOption_eq_some h⟩

theorem validateQuery_ok {uri : Uri} :
    validateQuery crates uri = .ok () ↔ ∃ query parameter message, uri.query = some query ∧
      dnsParameter query = some parameter ∧ parameter ≠ [] ∧
      crates.base64Decode parameter = some message ∧ IsMessage message := by
  unfold validateQuery
  constructor
  · intro h
    split at h
    · cases h
    · cases h
    · next parameter hne hp =>
        obtain ⟨query, hquery, hp⟩ := Option.bind_eq_some_iff.mp hp
        split at h
        · cases h
        · next message hmessage =>
            split at h
            · next hm => exact ⟨query, parameter, message, hquery, hp, hne, hmessage, hm⟩
            · cases h
  · rintro ⟨query, parameter, message, hquery, hp, hne, hmessage, hm⟩
    rw [hquery, Option.bind_some, hp]
    cases parameter with
    | nil => exact absurd rfl hne
    | cons b parameter => simp only [hmessage, hm, if_true]

/-! ### Bodies in pieces -/

/-- The body of a DoH request. -/
def collectRequestBody (frames : List Frame) (ending : BodyEnd) : ReceivedBody :=
  match collectBodyWithProgress (utf8 "DoH request body") ending [] frames with
  | .ok body => .complete body
  | .error (.stalled _) => .stalled
  | .error (.tooLarge _) => .tooLarge
  | .error (.read _ reason) => .failed reason

/-- The `recv_data` loop of `process_request`; it copies all the buffers of a chunk. -/
def recvRequestBody (ending : BodyEnd) (bodyData : Bytes) : List Buf → ReceivedBody
  | [] =>
      match ending with
      | .complete => .complete bodyData
      | .stalled => .stalled
      | .failed reason => .failed reason
  | chunk :: chunks =>
      if maxDnsMessageSize < bodyData.length + chunk.remaining then .tooLarge
      else recvRequestBody ending (bodyData ++ chunk.flatten) chunks

/-- What is received of a body that arrives completely. -/
def ReceivedBody.delivered (body : Bytes) : ReceivedBody :=
  if maxDnsMessageSize < body.length then .tooLarge else .complete body

theorem collectBodyWithProgress_complete (operation : Bytes) {collected : Bytes}
    (hlen : collected.length ≤ maxDnsMessageSize) (frames : List Frame) :
    collectBodyWithProgress operation .complete collected frames =
      if maxDnsMessageSize < (collected ++ frames.flatMap Frame.bytes).length then
        .error (.tooLarge operation)
      else .ok (collected ++ frames.flatMap Frame.bytes) := by
  induction frames generalizing collected with
  | nil =>
      rw [List.flatMap_nil, List.append_nil, if_neg (Nat.not_lt.mpr hlen)]
      rfl
  | cons frame frames ih =>
      cases frame with
      | trailers =>
          rw [collectBodyWithProgress, ih hlen]
          rfl
      | data data =>
          rw [collectBodyWithProgress, List.flatMap_cons, Frame.bytes, ← List.append_assoc]
          split
          · next hdata =>
              rw [if_pos]
              simp only [List.length_append]
              omega
          · next hdata =>
              rw [ih]
              simp only [List.length_append]
              omega

theorem recvRequestBody_append {bodyData : Bytes} (hlen : bodyData.length ≤ maxDnsMessageSize)
    (chunks : List Buf) :
    recvRequestBody .complete bodyData chunks =
      .delivered (bodyData ++ chunks.flatMap List.flatten) := by
  induction chunks generalizing bodyData with
  | nil =>
      rw [List.flatMap_nil, List.append_nil, ReceivedBody.delivered,
        if_neg (Nat.not_lt.mpr hlen)]
      rfl
  | cons chunk chunks ih =>
      rw [recvRequestBody, List.flatMap_cons, ← List.append_assoc, Buf.remaining]
      split
      · next hchunk =>
          rw [ReceivedBody.delivered, if_pos]
          simp only [List.length_append]
          omega
      · next hchunk =>
          rw [ih]
          simp only [List.length_append]
          omega

theorem collectRequestBody_complete (frames : List Frame) :
    collectRequestBody frames .complete = .delivered (frames.flatMap Frame.bytes) := by
  unfold collectRequestBody ReceivedBody.delivered
  rw [collectBodyWithProgress_complete _ (Nat.zero_le _), List.nil_append]
  by_cases h : maxDnsMessageSize < (frames.flatMap Frame.bytes).length
  · simp only [h, if_true]
  · simp only [h, if_false]

theorem recvRequestBody_complete (chunks : List Buf) :
    recvRequestBody .complete [] chunks = .delivered (chunks.flatMap List.flatten) := by
  rw [recvRequestBody_append (Nat.zero_le _), List.nil_append]

end DnsIngress
