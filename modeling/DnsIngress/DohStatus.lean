import DnsIngress.DohValidation
import DnsIngress.Occurrence

/-! # The status codes of rejected and failed requests

DoH maps each fault to a status; DoH3 looks for five texts in the rendered error before it looks at
its kind.  An error is misread if one of them stands in a part that the client or the upstream has
chosen, or by chance in the text of another fault.

`sameVerdict_iff` says for which requests DoH and DoH3 answer with the same status, and
`upstreamStatus_iff` for which failures of the upstream DoH3 reports the kind. -/

namespace DnsIngress

open Ascii Occurrence

/-- The texts that `send_error_response` looks for. -/
def classifierTexts : List Bytes :=
  [utf8 "request path", utf8 "only supports GET and POST", utf8 "Content-Type", utf8 "exceeds",
    utf8 "65535 bytes"]

def Marked (s : Bytes) : Prop := ∃ text ∈ classifierTexts, text <:+: s

instance (s : Bytes) : Decidable (Marked s) :=
  inferInstanceAs (Decidable (∃ text ∈ classifierTexts, text <:+: s))

/-- The status of an error by its kind. -/
def DnsProxyError.kindStatus : DnsProxyError → StatusCode
  | .timeout _ => .gatewayTimeout
  | .overloaded _ _ => .serviceUnavailable
  | .upstream _ => .badGateway
  | _ => .badRequest

/-- The kind of an error counts if and only if none of the texts occurs. -/
theorem errorStatus_eq_kindStatus_iff {e : DnsProxyError} :
    errorStatus e = e.kindStatus ↔ ¬ Marked e.display := by
  have hkind : e.kindStatus ∈ [StatusCode.gatewayTimeout, .serviceUnavailable, .badGateway,
      .badRequest] := by
    cases e <;> simp [DnsProxyError.kindStatus]
  have hne : ∀ status ∈ [StatusCode.notFound, .methodNotAllowed, .unsupportedMediaType,
      .payloadTooLarge], status ≠ e.kindStatus := by
    generalize e.kindStatus = kind at hkind
    revert kind
    decide
  have hmarked : Marked e.display ↔ utf8 "request path" <:+: e.display ∨
      utf8 "only supports GET and POST" <:+: e.display ∨ utf8 "Content-Type" <:+: e.display ∨
      utf8 "exceeds" <:+: e.display ∨ utf8 "65535 bytes" <:+: e.display := by
    simp [Marked, classifierTexts]
  simp only [errorStatus, contains, Bool.or_eq_true, decide_eq_true_eq, hmarked]
  split_ifs with h₁ h₂ h₃ h₄
  · exact iff_of_false (hne _ (by simp)) (not_not_intro (.inl h₁))
  · exact iff_of_false (hne _ (by simp)) (not_not_intro (.inr (.inl h₂)))
  · exact iff_of_false (hne _ (by simp)) (not_not_intro (.inr (.inr (.inl h₃))))
  · exact iff_of_false (hne _ (by simp)) (not_not_intro (.inr (.inr (.inr h₄))))
  · refine iff_of_true (by cases e <;> rfl) ?_
    rintro (h | h | h | h)
    · exact h₁ h
    · exact h₂ h
    · exact h₃ h
    · exact h₄ h

variable {s t u : Bytes}

theorem marked_append_of_notFrom (h : ∀ text ∈ classifierTexts, NotFrom text s) :
    Marked (s ++ t) ↔ Marked t :=
  exists_congr fun text => and_congr_right fun ht => infix_append_of_notFrom (h text ht)

theorem marked_append_of_notInto (h : ∀ text ∈ classifierTexts, NotInto text s) :
    Marked (t ++ (s ++ u)) ↔ Marked t ∨ Marked (s ++ u) := by
  unfold Marked
  rw [← exists_or]
  refine exists_congr fun text => ?_
  rw [← and_or_left]
  exact and_congr_right fun ht => infix_append_of_notInto (h text ht)

/-! ### The verdicts of DoH and DoH3 -/

/-- The DoH3 error of this fault is misread, or has another status than that of DoH. -/
def Fault.Misread (req : Request) : Fault → Prop
  | .missingHost => Marked req.method.display ∨ Marked req.uri.text
  | .unmatched host => Marked host
  | .failed reason => Marked reason
  | .querySize | .bodySize | .stalled => True
  | _ => False

/-- **The two status codes of a fault** are equal unless it is misread. -/
theorem status_eq_iff (requestPath : Bytes) (req : Request) (fault : Fault) :
    errorStatus (fault.doh3 requestPath req) = (dohErrorResponse fault.doh).status ↔
      ¬ fault.Misread req := by
  cases fault with
  | wrongPath =>
      refine iff_of_true ?_ id
      have hpath : utf8 "request path" <:+:
          (DnsProxyError.invalidInput (utf8 "DoH3 request path must be " ++ requestPath)).display :=
        List.infix_append_of_infix_right (List.infix_append_of_infix_left (by decide))
      simp only [Fault.doh3, errorStatus, contains, hpath, decide_true, if_true]
      rfl
  | missingHost =>
      refine errorStatus_eq_kindStatus_iff.trans (not_congr ?_)
      simp only [Fault.doh3, DnsProxyError.display, List.append_assoc]
      rw [marked_append_of_notFrom (by decide), marked_append_of_notFrom (by decide),
        marked_append_of_notInto (by decide), marked_append_of_notFrom (by decide)]
      rfl
  | unmatched host =>
      refine errorStatus_eq_kindStatus_iff.trans (not_congr ?_)
      simp only [Fault.doh3, DnsProxyError.display, SniRewriteError.display]
      rw [marked_append_of_notFrom (by decide), marked_append_of_notFrom (by decide)]
      rfl
  | failed reason =>
      refine errorStatus_eq_kindStatus_iff.trans (not_congr ?_)
      simp only [Fault.doh3, DnsProxyError.display]
      rw [marked_append_of_notFrom (by decide), marked_append_of_notFrom (by decide)]
      rfl
  | invalidHost | wrongHost | missingParameter | notBase64 =>
      refine iff_of_true ?_ id
      simp only [Fault.doh3, Fault.doh]
      decide +kernel
  | querySize | bodySize | stalled =>
      refine iff_of_false ?_ (not_not_intro trivial)
      simp only [Fault.doh3, Fault.doh]
      decide +kernel
  | wrongMethod | wrongMediaType | tooLarge =>
      refine iff_of_true ?_ id
      simp only [Fault.doh3, Fault.doh]
      decide +kernel

section
variable (crates : HttpCrates) (rewriter : BaseSniRewriter) (requestPath sni : Bytes)
  (req : Request) (body : Bytes)

/-- The request is for the path and the server name of the listener. -/
def Addressed : Prop :=
  req.uri.path = requestPath ∧
    ∃ authority, req.host crates = some authority ∧ normalizeHostname crates authority = some sni

/-- The requests whose rejection DoH and DoH3 report with different status codes. -/
inductive Misread : Prop
  /-- there is no host, and the error repeats method and URI -/
  | host : req.uri.path = requestPath → req.host crates = none →
      Marked req.method.display ∨ Marked req.uri.text → Misread
  /-- the error names the largest size, although the size may be too small -/
  | query {query parameter message : Bytes} : Addressed crates requestPath sni req →
      req.method = .get → req.uri.query = some query → dnsParameter query = some parameter →
      parameter ≠ [] → crates.base64Decode parameter = some message → ¬ IsMessage message → Misread
  /-- no base domain, and the error repeats the name -/
  | name : Addressed crates requestPath sni req → req.method = .get ∨ req.method = .post →
      validateMessage crates req = .ok () → rewriter.rewrite sni = none → Marked sni → Misread
  | body {r : RewriteResult} : Addressed crates requestPath sni req → req.method = .post →
      isDnsMessageContentType (req.contentType crates) = true → rewriter.rewrite sni = some r →
      body.length < 12 → Misread

end

variable {crates : HttpCrates} {rewriter : BaseSniRewriter} {requestPath sni : Bytes}
  {req : Request} {body : Bytes} {fault : Fault} {received : ReceivedBody}

theorem validateQuery_querySize {uri : Uri} (h : validateQuery crates uri = .error .querySize) :
    ∃ query parameter message, uri.query = some query ∧ dnsParameter query = some parameter ∧
      parameter ≠ [] ∧ crates.base64Decode parameter = some message ∧ ¬ IsMessage message := by
  unfold validateQuery at h
  split at h
  · cases h
  · cases h
  · next parameter hne hp =>
      obtain ⟨query, hquery, hp⟩ := Option.bind_eq_some_iff.mp hp
      split at h
      · cases h
      · next message hmessage =>
          split at h
          · cases h
          · next hm => exact ⟨query, parameter, message, hquery, hp, hne, hmessage, hm⟩

theorem validateRequest_addressed (haddressed : Addressed crates requestPath sni req)
    (hmethod : req.method = .get ∨ req.method = .post) :
    validateRequest crates rewriter requestPath sni req received =
      validateContent crates rewriter req sni received := by
  obtain ⟨hpath, authority, hhost, hnorm⟩ := haddressed
  have hmethod' : ¬ (req.method ≠ .get ∧ req.method ≠ .post) := by tauto
  unfold validateRequest
  simp only [hpath, hhost, hnorm, hmethod', ne_eq, not_true, if_false]

theorem Misread.exists_fault (h : Misread crates rewriter requestPath sni req body) :
    ∃ fault, validateRequest crates rewriter requestPath sni req (.delivered body) =
      .error fault ∧ fault.Misread req := by
  cases h with
  | host hpath hhost hmarked =>
      refine ⟨.missingHost, ?_, hmarked⟩
      simp only [validateRequest, hpath, hhost, ne_eq, not_true, if_false]
  | @query query parameter message haddressed hget hquery hparameter hne hmessage hm =>
      refine ⟨.querySize, ?_, trivial⟩
      have hq : validateQuery crates req.uri = .error .querySize := by
        rw [validateQuery, hquery, Option.bind_some, hparameter]
        cases parameter with
        | nil => exact absurd rfl hne
        | cons b parameter => simp only [hmessage, hm, if_false]
      rw [validateRequest_addressed haddressed (.inl hget), validateContent, validateMessage,
        if_pos hget, hq]
  | name haddressed hmethod hmessage hrewrite hmarked =>
      refine ⟨.unmatched sni, ?_, hmarked⟩
      rw [validateRequest_addressed haddressed hmethod, validateContent, hmessage]
      simp only [hrewrite]
  | @body r haddressed hpost hmedia hrewrite hshort =>
      refine ⟨.bodySize, ?_, trivial⟩
      have hmessage : validateMessage crates req = .ok () := by
        simp [validateMessage, hpost, hmedia]
      have hbody : validateBody req (.delivered body) = .error .bodySize := by
        have hmax : ¬ maxDnsMessageSize < body.length := by
          unfold maxDnsMessageSize
          omega
        have hm : ¬ IsMessage body := fun hm => by
          have := hm.1
          omega
        simp only [validateBody, hpost, if_true, ReceivedBody.delivered, hmax, hm, if_false]
      rw [validateRequest_addressed haddressed (.inr hpost), validateContent, hmessage]
      simp only [hrewrite, hbody]

/-- A body that has arrived is too long or too short. -/
theorem validateBody_delivered (h : validateBody req (.delivered body) = .error fault) :
    req.method = .post ∧ (fault = .tooLarge ∨ fault = .bodySize ∧ body.length < 12) := by
  unfold validateBody ReceivedBody.delivered at h
  split at h
  · next hpost =>
      refine ⟨hpost, ?_⟩
      by_cases hmax : maxDnsMessageSize < body.length
      · simp only [hmax, if_true] at h
        cases h
        exact .inl rfl
      · simp only [hmax, if_false] at h
        split at h
        · cases h
        · next hm =>
            cases h
            refine .inr ⟨rfl, Nat.lt_of_not_le fun hle => hm ⟨hle, Nat.not_lt.mp hmax⟩⟩
  · cases h

theorem misread_of_validateContent (haddressed : Addressed crates requestPath sni req)
    (hmethod : req.method = .get ∨ req.method = .post)
    (h : validateContent crates rewriter req sni (.delivered body) = .error fault)
    (hmisread : fault.Misread req) : Misread crates rewriter requestPath sni req body := by
  unfold validateContent at h
  split at h
  · next hmessage =>
      cases h
      unfold validateMessage at hmessage
      split at hmessage
      · next hget =>
          rcases validateQuery_error hmessage with rfl | rfl | rfl
          · cases hmisread
          · cases hmisread
          · obtain ⟨query, parameter, message, hquery, hp, hne, hm, hsize⟩ :=
              validateQuery_querySize hmessage
            exact .query haddressed hget hquery hp hne hm hsize
      · split at hmessage <;> cases hmessage
        cases hmisread
  · next hmessage =>
      split at h
      · next hrewrite =>
          cases h
          exact .name haddressed hmethod hmessage hrewrite hmisread
      · next r hrewrite =>
          split at h
          · next hbody =>
              cases h
              obtain ⟨hpost, rfl | ⟨rfl, hshort⟩⟩ := validateBody_delivered hbody
              · cases hmisread
              · refine .body haddressed hpost ?_ hrewrite hshort
                simpa [validateMessage, hpost] using hmessage
          · cases h

theorem misread_of_fault
    (h : validateRequest crates rewriter requestPath sni req (.delivered body) = .error fault)
    (hmisread : fault.Misread req) : Misread crates rewriter requestPath sni req body := by
  unfold validateRequest at h
  split at h
  · cases h
    cases hmisread
  · next hpath =>
      split at h
      · next hhost =>
          cases h
          exact .host (not_not.mp hpath) hhost hmisread
      · next authority hhost =>
          split at h
          · cases h
            cases hmisread
          · next host hnorm =>
              split at h
              · cases h
                cases hmisread
              · next hsni =>
                  split at h
                  · cases h
                    cases hmisread
                  · next hmethod =>
                      rw [not_not.mp hsni] at hnorm h
                      exact misread_of_validateContent
                        ⟨not_not.mp hpath, authority, hhost, hnorm⟩ (by tauto) h hmisread

/-- DoH and DoH3 accept a request or reject it, and then with the same status. -/
structure SameVerdict (doh : Except DohHttpError ForwardCall)
    (doh3 : Except DnsProxyError (Option ForwardCall)) : Prop where
  rejects : (∃ e, doh = .error e) ↔ ∃ e, doh3 = .error e
  status : ∀ e e₃, doh = .error e → doh3 = .error e₃ →
    (sendErrorResponse e₃).status = (dohErrorResponse e).status

/-- **DoH and DoH3 give the same verdict** if and only if the request is not misread. -/
theorem sameVerdict_iff (crates : HttpCrates) (config : AppConfig) (sni : Bytes) (req : Request)
    (hpath : config.servers.doh.path = config.servers.doh3.path) (frames : List Frame)
    (chunks : List Buf) (hbody : frames.flatMap Frame.bytes = chunks.flatMap List.flatten) :
    SameVerdict
        (handleHttpRequestInner crates (createRewriter config.rewrite) config.upstream.doh
          config.servers.doh.path (toAsciiLowercase sni) req (collectRequestBody frames .complete))
        (processRequest crates (createRewriter config.rewrite) config.upstream.doh3
          config.servers.doh3.path sni req (some (recvRequestBody .complete [] chunks))) ↔
      ¬ Misread crates (createRewriter config.rewrite) config.servers.doh.path
        (toAsciiLowercase sni) req (frames.flatMap Frame.bytes) := by
  rw [collectRequestBody_complete, recvRequestBody_complete, ← hbody, ← hpath,
    handleHttpRequestInner_eq, processRequest_eq]
  cases hv : validateRequest crates (createRewriter config.rewrite) config.servers.doh.path
      (toAsciiLowercase sni) req (.delivered (frames.flatMap Frame.bytes)) with
  | ok x =>
      refine iff_of_true ⟨by simp [Except.mapError, Except.map], by rintro _ _ ⟨⟩⟩ fun h => ?_
      obtain ⟨fault, hfault, -⟩ := h.exists_fault
      cases hv.symm.trans hfault
  | error fault =>
      have hstatus := status_eq_iff config.servers.doh.path req fault
      constructor
      · intro h hmisread
        obtain ⟨fault', hfault, hmisread'⟩ := hmisread.exists_fault
        cases hv.symm.trans hfault
        exact hstatus.mp (h.status _ _ rfl rfl) hmisread'
      · intro h
        refine ⟨iff_of_true ⟨_, rfl⟩ ⟨_, rfl⟩, ?_⟩
        rintro e e₃ ⟨⟩ ⟨⟩
        exact hstatus.mpr fun hmisread => h (misread_of_fault hv hmisread)

/-- A request for another path. -/
def otherPathRequest : Request :=
  { mixedCaseRequest with uri := ⟨utf8 "/resolve", utf8 "/resolve", none, none⟩ }

theorem sameVerdict_iff_otherPath :
    SameVerdict
      (handleHttpRequestInner plainCrates (createRewriter certifiedConfig.rewrite)
        certifiedConfig.upstream.doh certifiedConfig.servers.doh.path
        (toAsciiLowercase (utf8 "home.example.com")) otherPathRequest
        (collectRequestBody [.data [0], .trailers] .complete))
      (processRequest plainCrates (createRewriter certifiedConfig.rewrite)
        certifiedConfig.upstream.doh3 certifiedConfig.servers.doh3.path (utf8 "home.example.com")
        otherPathRequest (some (recvRequestBody .complete [] [[[0]]]))) := by
  have hpath : otherPathRequest.uri.path ≠ certifiedConfig.servers.doh.path := by decide
  refine (sameVerdict_iff plainCrates certifiedConfig _ otherPathRequest rfl [.data [0], .trailers]
    [[[0]]] rfl).mpr fun h => ?_
  cases h with
  | host h _ _ => exact hpath h
  | query h _ _ _ _ _ _ => exact hpath h.1
  | name h _ _ _ _ => exact hpath h.1
  | body h _ _ _ _ => exact hpath h.1

/-- A body of five bytes is a bad request over DoH, and too large over DoH3. -/
theorem not_sameVerdict :
    ¬ ∀ (crates : HttpCrates) (config : AppConfig) (sni : Bytes) (req : Request)
      (frames : List Frame) (chunks : List Buf),
      config.servers.doh.path = config.servers.doh3.path →
      frames.flatMap Frame.bytes = chunks.flatMap List.flatten →
      SameVerdict
        (handleHttpRequestInner crates (createRewriter config.rewrite) config.upstream.doh
          config.servers.doh.path (toAsciiLowercase sni) req (collectRequestBody frames .complete))
        (processRequest crates (createRewriter config.rewrite) config.upstream.doh3
          config.servers.doh3.path sni req (some (recvRequestBody .complete [] chunks))) := by
  intro h
  have hverdict := h plainCrates certifiedConfig (utf8 "home.example.com") mixedCaseRequest
    [.data [0, 0, 0, 0, 0]] [[[0, 0, 0, 0, 0]]] rfl rfl
  have hstatus := hverdict.status .badRequest
    (.invalidInput (utf8 "DoH3 POST body must contain one DNS message between 12 and 65535 bytes"))
    rfl rfl
  exact absurd hstatus (by decide +kernel)

/-! ### Failures of the upstream -/

/-- The status that reports an upstream failure by its kind. -/
def reportedStatus : DnsProxyError → StatusCode
  | .timeout _ => .gatewayTimeout
  | .overloaded _ _ => .serviceUnavailable
  | _ => .badGateway

/-- A failure of another kind, with nothing in its text or its URI that is misread. -/
structure PlainFailure (upstreamUri : Bytes) (e : DnsProxyError) : Prop where
  notTimeout : ∀ upstream, e ≠ .timeout upstream
  notOverloaded : ∀ upstream protocol, e ≠ .overloaded upstream protocol
  uri : ¬ Marked upstreamUri
  text : ¬ Marked e.display

variable {e : DnsProxyError}

theorem marked_requestFailed {upstream reason : Bytes} :
    Marked (DnsProxyError.upstream (.requestFailed upstream reason)).display ↔
      Marked upstream ∨ Marked reason := by
  simp only [DnsProxyError.display, UpstreamError.display, List.append_assoc]
  rw [marked_append_of_notFrom (by decide), marked_append_of_notFrom (by decide),
    marked_append_of_notInto (by decide), marked_append_of_notFrom (by decide)]

/-- A wrapped failure is never reported as a timeout or an overload. -/
theorem errorStatus_upstream_ne (u : UpstreamError) :
    errorStatus (.upstream u) ≠ .gatewayTimeout ∧
      errorStatus (.upstream u) ≠ .serviceUnavailable := by
  simp only [errorStatus]
  split_ifs <;> decide

/-- A wrapped failure has the status of its kind if it is plain. -/
theorem errorStatus_requestFailed {upstream : Bytes} :
    errorStatus (.upstream (.requestFailed upstream e.display)) = reportedStatus e ↔
      PlainFailure upstream e := by
  have hstatus : errorStatus (.upstream (.requestFailed upstream e.display)) = .badGateway ↔
      ¬ (Marked upstream ∨ Marked e.display) :=
    errorStatus_eq_kindStatus_iff.trans (not_congr marked_requestFailed)
  have hne := errorStatus_upstream_ne (.requestFailed upstream e.display)
  constructor
  · intro h
    have htimeout : ∀ u, e ≠ .timeout u := by
      rintro u rfl
      exact hne.1 h
    have hoverloaded : ∀ u p, e ≠ .overloaded u p := by
      rintro u p rfl
      exact hne.2 h
    have hreported : reportedStatus e = .badGateway := by
      unfold reportedStatus
      split
      · exact absurd rfl (htimeout _)
      · exact absurd rfl (hoverloaded _ _)
      · rfl
    obtain ⟨huri, htext⟩ := not_or.mp (hstatus.mp (h.trans hreported))
    exact ⟨htimeout, hoverloaded, huri, htext⟩
  · rintro ⟨htimeout, hoverloaded, huri, htext⟩
    rw [hstatus.mpr (not_or.mpr ⟨huri, htext⟩)]
    unfold reportedStatus
    split
    · exact absurd rfl (htimeout _)
    · exact absurd rfl (hoverloaded _ _)
    · rfl

/-- **DoH3 reports an upstream failure by its kind** if and only if it is plain. -/
theorem upstreamStatus_iff {endpoint : HttpUpstreamConfig} {tlsSni : Bytes}
    {received : Option ReceivedBody} {call : ForwardCall} {exchange : Http3Exchange}
    (hcall : processRequest crates rewriter endpoint requestPath tlsSni req received =
      .ok (some call))
    (hforward : forwardHttp3 crates call endpoint.port exchange = .error e) :
    (handleRequest crates rewriter endpoint requestPath tlsSni req received
        (some exchange)).map Response.status = some (reportedStatus e) ↔
      PlainFailure call.upstreamUri e := by
  have hclient : handleRequest crates rewriter endpoint requestPath tlsSni req received
      (some exchange) =
        some (sendErrorResponse (.upstream (.requestFailed call.upstreamUri e.display))) := by
    simp only [handleRequest, hcall, Option.map_some, hforward]
  rw [hclient, Option.map_some, Option.some_inj]
  exact errorStatus_requestFailed

/-- The upstream resets the stream of the request. -/
def resetExchange : Http3Exchange := { twoChunks with recvResponse := .error (utf8 "reset") }

theorem upstreamStatus_iff_reset :
    (handleRequest plainCrates (createRewriter certifiedConfig.rewrite)
      certifiedConfig.upstream.doh3 (utf8 "/dns-query") (utf8 "home.example.com")
      mixedCaseRequest (some (.complete (List.replicate 12 0)))
      (some resetExchange)).map Response.status = some .badGateway := by
  obtain ⟨call, hcall, huri⟩ : ∃ call, processRequest plainCrates
      (createRewriter certifiedConfig.rewrite) certifiedConfig.upstream.doh3 (utf8 "/dns-query")
      (utf8 "home.example.com") mixedCaseRequest (some (.complete (List.replicate 12 0))) =
        .ok (some call) ∧ call.upstreamUri = utf8 "https://home.example.cn:443/dns-query" :=
    ⟨_, rfl, rfl⟩
  have hforward : forwardHttp3 plainCrates call certifiedConfig.upstream.doh3.port resetExchange =
      .error (.protocol (utf8 "reset")) := by
    cases hcall
    rfl
  refine (upstreamStatus_iff hcall hforward).mpr
    ⟨by rintro _ ⟨⟩, by rintro _ _ ⟨⟩, ?_, by decide⟩
  rw [huri]
  decide

/-- A timeout of the upstream is reported as a bad gateway. -/
theorem not_upstreamStatus :
    ¬ ∀ (crates : HttpCrates) (rewriter : BaseSniRewriter) (endpoint : HttpUpstreamConfig)
      (requestPath tlsSni : Bytes) (req : Request) (received : Option ReceivedBody)
      (call : ForwardCall) (exchange : Http3Exchange) (e : DnsProxyError),
      processRequest crates rewriter endpoint requestPath tlsSni req received = .ok (some call) →
      forwardHttp3 crates call endpoint.port exchange = .error e →
      (handleRequest crates rewriter endpoint requestPath tlsSni req received
        (some exchange)).map Response.status = some (reportedStatus e) := by
  intro h
  have hstatus := h plainCrates (createRewriter certifiedConfig.rewrite)
    certifiedConfig.upstream.doh3 (utf8 "/dns-query") (utf8 "home.example.com") mixedCaseRequest
    (some (.complete (List.replicate 12 0))) _ { twoChunks with get := .elapsed }
    (.timeout (utf8 "home.example.cn:443")) rfl rfl
  revert hstatus
  decide +kernel

end DnsIngress
