import DnsIngress.Doh3Stream
import DnsIngress.DohValidation
import DnsIngress.Metrics

/-! # What the HTTP handlers record

`handle_http_request_inner` and `process_request` record the rewrite of the server name, and then
the request with what has become of it.  The two do so at the same places, so there is one
definition, `handleRecorded`: the handler up to its response, with the calls of `Metrics` it makes.

* DoH returns the response, and DoH3 sends it, when the request has been recorded.  What a handler
  does otherwise is what it does without its records: `handleHttpRequestRecorded_fst`,
  `handleRequestRecorded_fst`.
* Nothing is recorded of a request that is given up before it has a response, except a rewrite that
  has been made.
* `Accurate` is what the records say of the response, `records_accurate` that they do. -/

namespace DnsIngress

open Ascii

section
variable (crates : HttpCrates) (rewriter : BaseSniRewriter) (endpoint : HttpUpstreamConfig)
  (requestPath tlsSni : Bytes) (req : Request)

/-- The checks before `record_sni_rewrite`, and the target. -/
def validateTarget : Except Fault Bytes :=
  if req.uri.path ≠ requestPath then .error .wrongPath
  else
    match req.host crates with
    | none => .error .missingHost
    | some authority =>
        match normalizeHostname crates authority with
        | none => .error .invalidHost
        | some host =>
            if host ≠ tlsSni then .error .wrongHost
            else if req.method ≠ .get ∧ req.method ≠ .post then .error .wrongMethod
            else
              match validateMessage crates req with
              | .error fault => .error fault
              | .ok () =>
                  match rewriter.rewrite host with
                  | none => .error (.unmatched host)
                  | some r => .ok r.targetHostname

/-- The body of a request; `none` if it is given up while it arrives. -/
def receiveBody (received : Option ReceivedBody) : Option (Except Fault Bytes) :=
  if req.method = .post then received.map (validateBody req) else some (.ok [])

/-- `record_request`, and `record_upstream_error` after a failure. -/
def recordForward (body : Bytes) (duration : ℕ) : Option Response → List Record
  | some response =>
      .request response.status.isSuccess (.ofNat body.length) (.ofNat response.body.length)
          duration ::
        if response.status.isSuccess then [] else [.upstreamError]
  | none => [.request false (.ofNat body.length) 0 duration, .upstreamError]

/-- A handler from its first check to its response, with what it records. -/
def handleRecorded {ε : Type} (reject : Fault → ε)
    (forward : ForwardCall → Option (Except ε Response)) (received : Option ReceivedBody)
    (duration : ℕ) : Option (Except ε Response) × List Record :=
  match validateTarget crates rewriter requestPath tlsSni req with
  | .error fault => (some (.error (reject fault)), [])
  | .ok target =>
      match receiveBody req received with
      | none => (none, [.sniRewrite])
      | some (.error fault) => (some (.error (reject fault)), [.sniRewrite])
      | some (.ok body) =>
          match forward (forwardCall endpoint req target body) with
          | none => (none, [.sniRewrite])
          | some result => (some result, .sniRewrite :: recordForward body duration result.toOption)

/-- The call upstream of `handle_http_request_inner`. -/
def forwardDoh (timeoutSeconds : UInt64) (exchange : Option HttpExchange) (call : ForwardCall) :
    Option (Except DohHttpError Response) :=
  exchange.map fun exchange =>
    match forwardHttp crates call timeoutSeconds exchange with
    | .ok response => .ok response
    | .error (.body (.stalled _)) => .error .gatewayTimeout
    | .error _ => .error .badGateway

/-- The end of `handle_http_request`. -/
def dohResponse : Except DohHttpError Response → Response
  | .ok response => response
  | .error error => dohErrorResponse error

/-- `handle_http_request`; the body or the exchange is `none` if the future is dropped then. -/
def handleHttpRequestRecorded (received : Option ReceivedBody) (timeoutSeconds : UInt64)
    (exchange : Option HttpExchange) (duration : ℕ) : Option Response × List Record :=
  match handleRecorded crates rewriter endpoint requestPath tlsSni req Fault.doh
    (forwardDoh crates timeoutSeconds exchange) received duration with
  | (result, records) => (result.map dohResponse, records)

/-- The call upstream of `process_request`. -/
def forwardDoh3 (exchange : Option Http3Exchange) (call : ForwardCall) :
    Option (Except DnsProxyError Response) :=
  exchange.map fun exchange =>
    match forwardHttp3 crates call endpoint.port exchange with
    | .ok response => .ok response
    | .error e => .error (.upstream (.requestFailed call.upstreamUri e.display))

/-- `process_request`, up to the response of the upstream; the body or the exchange is `none` if
the request is given up then. -/
def processResponseRecorded (received : Option ReceivedBody) (exchange : Option Http3Exchange)
    (duration : ℕ) : Option (Except DnsProxyError Response) × List Record :=
  handleRecorded crates rewriter endpoint requestPath (toAsciiLowercase tlsSni) req
    (Fault.doh3 requestPath req) (forwardDoh3 crates endpoint exchange) received duration

/-- `DoH3Server::handle_request`: the request has been recorded before anything is written. -/
def handleRequestRecorded (received : Option ReceivedBody) (exchange : Option Http3Exchange)
    (duration : ℕ) (stream : RequestStream) :
    (Option (Except DnsProxyError Unit) × RequestStream) × List Record :=
  match processResponseRecorded crates rewriter endpoint requestPath tlsSni req received exchange
    duration with
  | (result, records) => (answerError (sendUpstreamResponse stream result), records)

end

variable {crates : HttpCrates} {rewriter : BaseSniRewriter} {endpoint : HttpUpstreamConfig}
  {requestPath tlsSni : Bytes} {req : Request}

/-! ### The handlers again -/

theorem validateRequest_eq (received : ReceivedBody) :
    validateRequest crates rewriter requestPath tlsSni req received =
      match validateTarget crates rewriter requestPath tlsSni req with
      | .error fault => .error fault
      | .ok target => (validateBody req received).map fun body => (target, body) := by
  unfold validateRequest validateTarget validateContent
  split
  · rfl
  · cases req.host crates with
    | none => rfl
    | some authority =>
        cases hnorm : normalizeHostname crates authority with
        | none => simp only [hnorm]
        | some host =>
            simp only [hnorm]
            split
            · rfl
            · split
              · rfl
              · cases validateMessage crates req with
                | error fault => rfl
                | ok _ =>
                    cases rewriter.rewrite host with
                    | none => rfl
                    | some r => cases validateBody req received <;> rfl

theorem receiveBody_some (received : ReceivedBody) :
    receiveBody req (some received) = some (validateBody req received) := by
  unfold receiveBody
  split
  · rfl
  · next hpost =>
    unfold validateBody
    rw [if_neg hpost]

theorem collectDoh3Body_receiveBody (requestPath : Bytes) (received : Option ReceivedBody) :
    collectDoh3Body req received =
      match receiveBody req received with
      | none => .ok none
      | some (.error fault) => .error (fault.doh3 requestPath req)
      | some (.ok body) => .ok (some body) := by
  cases received with
  | some received =>
      rw [receiveBody_some, collectDoh3Body_eq requestPath]
      cases validateBody req received <;> rfl
  | none =>
      unfold collectDoh3Body receiveBody
      split <;> rfl

theorem processRequest_target (received : Option ReceivedBody) :
    processRequest crates rewriter endpoint requestPath tlsSni req received =
      match validateTarget crates rewriter requestPath (toAsciiLowercase tlsSni) req with
      | .error fault => .error (fault.doh3 requestPath req)
      | .ok target =>
          match receiveBody req received with
          | none => .ok none
          | some (.error fault) => .error (fault.doh3 requestPath req)
          | some (.ok body) => .ok (some (forwardCall endpoint req target body)) := by
  unfold processRequest validateTarget
  rw [checkDoh3Message_eq crates requestPath, collectDoh3Body_receiveBody requestPath]
  split
  · rfl
  · cases req.host crates with
    | none => rfl
    | some authority =>
        cases hnorm : normalizeHostname crates authority with
        | none => simp only [hnorm]; rfl
        | some host =>
            simp only [hnorm]
            split
            · rfl
            · split
              · rfl
              · cases validateMessage crates req with
                | error fault => rfl
                | ok _ =>
                    simp only [Except.mapError]
                    cases rewriter.rewrite host with
                    | none => rfl
                    | some r =>
                        cases receiveBody req received with
                        | none => rfl
                        | some result => cases result <;> rfl

/-- **The records do not change what DoH returns.** -/
theorem handleHttpRequestRecorded_fst (received : ReceivedBody) (timeoutSeconds : UInt64)
    (exchange : HttpExchange) (duration : ℕ) :
    (handleHttpRequestRecorded crates rewriter endpoint requestPath tlsSni req (some received)
      timeoutSeconds (some exchange) duration).1 =
      some (handleHttpRequest crates rewriter endpoint requestPath tlsSni req received
        timeoutSeconds exchange) := by
  unfold handleHttpRequestRecorded handleRecorded handleHttpRequest
  rw [handleHttpRequestInner_eq, validateRequest_eq, receiveBody_some]
  cases validateTarget crates rewriter requestPath tlsSni req with
  | error fault => rfl
  | ok target =>
      cases validateBody req received with
      | error fault => rfl
      | ok body =>
          simp only [Except.map, Except.mapError, forwardDoh, Option.map_some]
          split <;> simp_all [dohResponse]

theorem processResponseRecorded_fst (received : Option ReceivedBody)
    (exchange : Option Http3Exchange) (duration : ℕ) :
    (processResponseRecorded crates rewriter endpoint requestPath tlsSni req received exchange
      duration).1 =
      processResponse crates rewriter endpoint requestPath tlsSni req received exchange := by
  unfold processResponseRecorded handleRecorded processResponse
  rw [processRequest_target]
  cases validateTarget crates rewriter requestPath (toAsciiLowercase tlsSni) req with
  | error fault => rfl
  | ok target =>
      match receiveBody req received, exchange with
      | none, _ => rfl
      | some (.error _), _ => rfl
      | some (.ok _), none => rfl
      | some (.ok _), some _ => rfl

/-- **The records do not change what DoH3 returns and writes.** -/
theorem handleRequestRecorded_fst (received : Option ReceivedBody)
    (exchange : Option Http3Exchange) (duration : ℕ) (stream : RequestStream) :
    (handleRequestRecorded crates rewriter endpoint requestPath tlsSni req received exchange
      duration stream).1 =
      handleRequestOn crates rewriter endpoint requestPath tlsSni req received exchange stream := by
  rw [handleRequestOn, ← processResponseRecorded_fst received exchange duration]
  rfl

/-! ### What the records say -/

/-- What is recorded of a request with this response. -/
structure Accurate (client : Option Response) (records : List Record) : Prop where
  success : requests true records = 1 ↔ ∃ r, client = some r ∧ r.status.isSuccess = true
  once : requests true records + requests false records ≤ rewrites records
  rewrites : rewrites records ≤ 1
  failures : errors records = requests false records
  /-- a request without a response is not recorded -/
  dropped : client = none → requests true records + requests false records = 0

/-- What is recorded of a request that is sent upstream: its own length and the response's. -/
structure Recorded (body : Bytes) (client : Option Response) (records : List Record) : Prop where
  request : requests true records + requests false records = 1
  success : ∀ r, client = some r → r.status.isSuccess = true → ∃ duration,
    records = [.sniRewrite, .request true (.ofNat body.length) (.ofNat r.body.length) duration]

/-- What a DoH3 client gets of a response that has been recorded before. -/
structure Delivered (client : Option Response) (records : List Record) (stream : RequestStream)
    (frames : List H3Frame) : Prop where
  /-- of a success, though only in part -/
  recorded : ∀ status headers, .headers status headers ∈ frames → status.isSuccess = true →
    requests true records = 1
  /-- from a stream that takes everything -/
  complete : stream.Open → ∃ origin, frames = client.elim [] (Response.frames origin)

/-- A result of the upstream is the client's, and an error is no success. -/
structure Answers {ε : Type} (respond : Except ε Response → Response) : Prop where
  ok : ∀ r, respond (.ok r) = r
  error : ∀ e, (respond (.error e)).status.isSuccess = false

theorem answers_doh : Answers dohResponse := ⟨fun _ => rfl, isSuccess_dohErrorResponse⟩

theorem answers_doh3 : Answers clientResponse := ⟨fun _ => rfl, isSuccess_sendErrorResponse⟩

section
variable {ε : Type} {respond : Except ε Response → Response} {reject : Fault → ε}
  {forward : ForwardCall → Option (Except ε Response)} {received : Option ReceivedBody}
  {duration : ℕ}

theorem accurate_rejected {client : Option Response} (records : List Record)
    (hrecords : records = [] ∨ records = [.sniRewrite])
    (hclient : ∀ r, client = some r → r.status.isSuccess = false) : Accurate client records := by
  have hno : ¬ ∃ r, client = some r ∧ r.status.isSuccess = true := by
    rintro ⟨r, hr, hs⟩
    rw [hclient r hr] at hs
    cases hs
  rcases hrecords with rfl | rfl
  all_goals exact ⟨iff_of_false (by decide) hno, by decide, by decide, by decide, fun _ => rfl⟩

theorem accurate_forwarded (hrespond : Answers respond) (result : Except ε Response)
    (body : Bytes) (duration : ℕ) :
    Accurate (some (respond result))
        (.sniRewrite :: recordForward body duration result.toOption) ∧
      Recorded body (some (respond result))
        (.sniRewrite :: recordForward body duration result.toOption) := by
  have hfailed (sent : UInt64) (client : Response) (hclient : client.status.isSuccess = false) :
      Accurate (some client)
          [.sniRewrite, .request false (.ofNat body.length) sent duration, .upstreamError] ∧
        Recorded body (some client)
          [.sniRewrite, .request false (.ofNat body.length) sent duration, .upstreamError] := by
    have hno : ¬ ∃ r, some client = some r ∧ r.status.isSuccess = true := by
      rintro ⟨r, ⟨⟩, hr⟩
      rw [hclient] at hr
      cases hr
    refine ⟨⟨iff_of_false nofun hno, ?_, ?_, rfl, nofun⟩, rfl, ?_⟩
    · exact Nat.le_refl 1
    · exact Nat.le_refl 1
    · intro r hr hsuccess
      exact absurd ⟨r, hr, hsuccess⟩ hno
  cases result with
  | error e => exact hfailed 0 _ (hrespond.error e)
  | ok client =>
      rw [hrespond.ok]
      cases hs : client.status.isSuccess with
      | false =>
          have hrecords : recordForward body duration (some client) =
              [.request false (.ofNat body.length) (.ofNat client.body.length) duration,
                .upstreamError] := by
            simp only [recordForward, hs, Bool.false_eq_true, if_false]
          rw [Except.toOption, hrecords]
          exact hfailed _ client hs
      | true =>
          have hrecords : recordForward body duration (some client) =
              [.request true (.ofNat body.length) (.ofNat client.body.length) duration] := by
            simp only [recordForward, hs, if_true]
          rw [Except.toOption, hrecords]
          refine ⟨⟨iff_of_true rfl ⟨client, rfl, hs⟩, ?_, ?_, rfl, nofun⟩, rfl, ?_⟩
          · exact Nat.le_refl 1
          · exact Nat.le_refl 1
          · rintro r ⟨⟩ -
            exact ⟨duration, rfl⟩

/-- The request is valid, so it is sent upstream with this body. -/
def Sent (crates : HttpCrates) (rewriter : BaseSniRewriter) (requestPath sni : Bytes)
    (req : Request) (received : Option ReceivedBody) (body : Bytes) : Prop :=
  (∃ target, validateTarget crates rewriter requestPath sni req = .ok target) ∧
    receiveBody req received = some (.ok body)

/-- The records of either handler, for any response of the upstream. -/
theorem handleRecorded_accurate (hrespond : Answers respond)
    {result : Option (Except ε Response)} {records : List Record}
    (h : handleRecorded crates rewriter endpoint requestPath tlsSni req reject forward received
      duration = (result, records)) :
    Accurate (result.map respond) records ∧
      ∀ body, (∀ call, forward call ≠ none) →
        Sent crates rewriter requestPath tlsSni req received body →
          Recorded body (result.map respond) records := by
  have hrejected (fault : Fault) :
      ∀ r, some (respond (.error (reject fault))) = some r → r.status.isSuccess = false := by
    rintro r ⟨⟩
    exact hrespond.error _
  unfold handleRecorded at h
  split at h
  · next fault ht =>
    cases h
    refine ⟨accurate_rejected _ (.inl rfl) (hrejected fault), ?_⟩
    rintro body - ⟨⟨target, hok⟩, -⟩
    rw [ht] at hok
    cases hok
  · split at h
    · next hb =>
      cases h
      refine ⟨accurate_rejected _ (.inr rfl) nofun, ?_⟩
      rintro body - ⟨-, hok⟩
      rw [hb] at hok
      cases hok
    · next fault hb =>
      cases h
      refine ⟨accurate_rejected _ (.inr rfl) (hrejected fault), ?_⟩
      rintro body - ⟨-, hok⟩
      rw [hb] at hok
      cases hok
    · next body hb =>
      split at h
      · next hf =>
        cases h
        exact ⟨accurate_rejected _ (.inr rfl) nofun, fun _ hsome _ => absurd hf (hsome _)⟩
      · next result hf =>
        cases h
        have hrecorded := accurate_forwarded hrespond result body duration
        refine ⟨hrecorded.1, ?_⟩
        rintro body' - ⟨-, hok⟩
        cases hb.symm.trans hok
        exact hrecorded.2

end

/-- What is sent of a response that has been recorded. -/
theorem delivered {processed : Option (Except DnsProxyError Response)} {records : List Record}
    (h : Accurate (processed.map clientResponse) records) (stream : RequestStream) :
    ∃ frames, (answerError (sendUpstreamResponse stream processed)).2.frames =
        stream.frames ++ frames ∧
      Delivered (processed.map clientResponse) records stream frames := by
  obtain ⟨frames, origin, response, hframes, hprefix, hresponse⟩ :=
    handler_frames stream processed
  refine ⟨frames, hframes, fun status headers hmem hsuccess => ?_, fun hopen => ?_⟩
  · have hstatus : response.status = status := by
      have hmem := hprefix.subset hmem
      simp only [Response.frames, List.mem_cons, H3Frame.headers.injEq, reduceCtorEq, or_false,
        List.not_mem_nil] at hmem
      exact hmem.1.symm
    rcases hresponse with rfl | hno
    · exact h.success.mpr ⟨response, rfl, hstatus ▸ hsuccess⟩
    · rw [hstatus, hsuccess] at hno
      cases hno
  · obtain ⟨origin, hopened⟩ := handler_frames_open hopen processed
    refine ⟨origin, ?_⟩
    rw [hframes] at hopened
    rw [List.append_cancel_left hopened]
    cases processed <;> rfl

/-- **What DoH and DoH3 record is what they have for the client**: for every request, and whatever
its body, the upstream and the client's stream do. -/
theorem records_accurate (crates : HttpCrates) (rewriter : BaseSniRewriter)
    (endpoint : HttpUpstreamConfig) (requestPath tlsSni : Bytes) (req : Request)
    (received : Option ReceivedBody) (duration : ℕ) :
    (∀ timeoutSeconds exchange client records,
      handleHttpRequestRecorded crates rewriter endpoint requestPath tlsSni req received
        timeoutSeconds exchange duration = (client, records) →
      Accurate client records ∧ ∀ body, exchange ≠ none →
        Sent crates rewriter requestPath tlsSni req received body →
          Recorded body client records) ∧
    ∀ exchange stream result stream' records,
      handleRequestRecorded crates rewriter endpoint requestPath tlsSni req received exchange
        duration stream = ((result, stream'), records) →
      ∃ client frames, client = handleRequest crates rewriter endpoint requestPath tlsSni req
          received exchange ∧
        stream'.frames = stream.frames ++ frames ∧ Delivered client records stream frames ∧
        Accurate client records ∧ ∀ body, exchange ≠ none →
          Sent crates rewriter requestPath (toAsciiLowercase tlsSni) req received body →
            Recorded body client records := by
  constructor
  · intro timeoutSeconds exchange client records h
    cases h
    obtain ⟨haccurate, hsent⟩ := handleRecorded_accurate answers_doh rfl
    refine ⟨haccurate, fun body he => hsent body fun call => ?_⟩
    simpa [forwardDoh] using he
  · intro exchange stream result stream' records h
    have hclient := (handleRequest_eq crates rewriter endpoint requestPath tlsSni req received
      exchange).symm
    rw [← processResponseRecorded_fst received exchange duration] at hclient
    obtain ⟨hrun, rfl⟩ := Prod.mk.inj h
    obtain ⟨haccurate, hsent⟩ := handleRecorded_accurate answers_doh3 rfl
    obtain ⟨frames, hframes, hdelivered⟩ := delivered haccurate stream
    rw [show answerError _ = (result, stream') from hrun] at hframes
    refine ⟨_, frames, hclient, hframes, hdelivered, haccurate, fun body he => ?_⟩
    refine hsent body fun call => ?_
    simpa [forwardDoh3] using he

/-- The DNS answer in two chunks, of fourteen bytes, to a query of twelve; the client does not take
all of it. -/
theorem records_accurate_twoChunks :
    ∃ result stream records, handleRequestRecorded plainCrates
        (createRewriter certifiedConfig.rewrite) certifiedConfig.upstream.doh3
        (utf8 "/dns-query") (utf8 "hOmE.example.COM") mixedCaseRequest
        (some (.complete (List.replicate 12 0))) (some twoChunks) 1500 stalledStream =
          ((result, stream), records) ∧
      ∃ client, Delivered client records stalledStream stream.frames ∧
        Accurate client records ∧ Recorded (List.replicate 12 0) client records := by
  refine ⟨_, _, _, rfl, ?_⟩
  obtain ⟨client, frames, -, hframes, hdelivered, haccurate, hrecorded⟩ :=
    (records_accurate plainCrates (createRewriter certifiedConfig.rewrite)
      certifiedConfig.upstream.doh3 (utf8 "/dns-query") (utf8 "hOmE.example.COM") mixedCaseRequest
      (some (.complete (List.replicate 12 0))) 1500).2 (some twoChunks) stalledStream _ _ _ rfl
  rw [hframes]
  exact ⟨client, hdelivered, haccurate,
    hrecorded _ nofun ⟨⟨utf8 "home.example.cn", rfl⟩, rfl⟩⟩

end DnsIngress
