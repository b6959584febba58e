import DnsIngress.DohStatus
import DnsIngress.UpstreamHeaders
import DnsIngress.UpstreamUri

/-! # The DNS message of a request

What DoH is for is that a DNS message gets from the client to the upstream.  `carriedMessage` is the
message that an HTTP request carries, read off the request as any DoH server reads it: the client's
request and the upstream request, taken apart from its URI, are read alike.

An upstream request is what `forward_http_request` and `forward_http3_request` put together and hand
to the HTTP client of the pool; what the client then does with it is not modelled.

`forwards_message`: where the configured upstream paths are paths, the two listeners put a request
together for those requests for them that carry a message, and for no others, and it carries the
same message, except for a POST whose last content type, which is the one that is forwarded, is
another than the first, which is checked. -/

namespace DnsIngress

open Ascii

section
variable (crates : HttpCrates)

/-- The first parameter `dns` of a GET request, the body of a POST request. -/
def carriedMessage (method : Method) (query contentType : Option Bytes) (body : Bytes) :
    Option Bytes :=
  match method with
  | .get =>
      match query.bind dnsParameter with
      | none | some [] => none
      | some parameter => (crates.base64Decode parameter).filter (IsMessage ·)
  | .post => if isDnsMessageContentType contentType ∧ IsMessage body then some body else none
  | .other _ => none

/-- The body of a POST request, if it arrives; no other body is read. -/
def ReceivedBody.bytes? : Method → ReceivedBody → Option Bytes
  | .post, .complete body => some body
  | .post, _ => none
  | _, _ => some []

/-- The message of a client. -/
def Request.message (req : Request) (received : ReceivedBody) : Option Bytes :=
  (received.bytes? req.method).bind
    (carriedMessage crates req.method req.uri.query (req.contentType crates))

/-- The message of an upstream request. -/
def UpstreamRequest.message {κ : Type} (u : UpstreamRequest κ) : Option Bytes :=
  carriedMessage crates u.method (queryComponent u.uri)
    ((u.headers.lookup (utf8 "content-type")).bind crates.toStr) u.body

/-- The content type that is forwarded. -/
def Request.lastContentType (req : Request) : Option Bytes :=
  (req.headers.getAll (utf8 "content-type")).getLast?.bind crates.toStr

end

variable {crates : HttpCrates} {rewriter : BaseSniRewriter} {requestPath sni target body message :
  Bytes} {req : Request} {received : ReceivedBody} {endpoint : HttpUpstreamConfig}

/-! ### What is accepted -/

theorem carriedMessage_get_isSome (uri : Uri) (contentType : Option Bytes) (body : Bytes) :
    (carriedMessage crates .get uri.query contentType body).isSome = true ↔
      validateQuery crates uri = .ok () := by
  unfold carriedMessage validateQuery
  cases uri.query.bind dnsParameter with
  | none => simp
  | some parameter =>
      cases parameter with
      | nil => simp
      | cons b parameter =>
          dsimp only
          cases crates.base64Decode (b :: parameter) with
          | none => simp
          | some message => by_cases hm : IsMessage message <;> simp [hm]

theorem message_isSome_iff (hmethod : req.method = .get ∨ req.method = .post) :
    (req.message crates received).isSome = true ∧ received.bytes? req.method = some body ↔
      validateMessage crates req = .ok () ∧ validateBody req received = .ok body := by
  unfold Request.message validateMessage validateBody
  rcases hmethod with hget | hpost
  · have hbytes : received.bytes? .get = some [] := by cases received <;> rfl
    simp only [hget, hbytes, Option.bind_some, if_true, reduceCtorEq, if_false,
      carriedMessage_get_isSome, Option.some.injEq, Except.ok.injEq]
  · cases received with
    | complete bytes =>
        by_cases hm : IsMessage bytes
        · by_cases ht : isDnsMessageContentType (req.contentType crates) = true <;>
            simp [hpost, ReceivedBody.bytes?, carriedMessage, hm, ht]
        · simp [hpost, ReceivedBody.bytes?, carriedMessage, hm]
    | stalled | tooLarge | failed => simp [hpost, ReceivedBody.bytes?]

theorem method_of_message (h : (req.message crates received).isSome = true) :
    req.method = .get ∨ req.method = .post := by
  unfold Request.message carriedMessage at h
  cases hmethod : req.method with
  | get => exact .inl rfl
  | post => exact .inr rfl
  | other name => simp [hmethod, ReceivedBody.bytes?] at h

/-- **A request is accepted if it is for this listener, carries a message, and its name is
rewritten**, and only then. -/
theorem validateRequest_ok_iff :
    validateRequest crates rewriter requestPath sni req received = .ok (target, body) ↔
      Addressed crates requestPath sni req ∧
        ((req.message crates received).isSome = true ∧
          received.bytes? req.method = some body) ∧
        ∃ r, rewriter.rewrite sni = some r ∧ target = r.targetHostname := by
  constructor
  · intro h
    obtain ⟨hmethod, hmessage, hrewrite, hbody⟩ := validateRequest_ok h
    refine ⟨?_, (message_isSome_iff hmethod).mpr ⟨hmessage, hbody⟩, hrewrite⟩
    unfold validateRequest at h
    repeat' split at h
    all_goals try cases h
    next hpath _ authority hhost _ host hnorm hsni _ =>
      exact ⟨not_not.mp hpath, authority, hhost, by rw [hnorm, not_not.mp hsni]⟩
  · rintro ⟨haddressed, hcontent, r, hr, rfl⟩
    have hmethod := method_of_message hcontent.1
    obtain ⟨hmessage, hbody⟩ := (message_isSome_iff hmethod).mp hcontent
    rw [validateRequest_addressed haddressed hmethod, validateContent, hmessage, hr]
    simp only [hbody]

/-! ### The message of the upstream request -/

theorem lookup_eq_head? (headers : HeaderMap) (name : Bytes) :
    headers.lookup name = (headers.getAll name).head? := by
  induction headers with
  | nil => rfl
  | cons field headers ih =>
      obtain ⟨name', value⟩ := field
      by_cases h : name = name'
      · subst h
        simp [HeaderMap.getAll]
      · have hne : (name == name') = false := by simpa using h
        rw [List.lookup_cons, hne, ih]
        simp [HeaderMap.getAll, Ne.symm h]

theorem lookup_contentType (headers : HeaderMap) (target : Bytes) :
    ((forwardedHeaders headers).insert (utf8 "host") target).lookup (utf8 "content-type") =
      (headers.getAll (utf8 "content-type")).getLast? := by
  have hne : utf8 "content-type" ≠ utf8 "host" := by decide
  have hallowed : utf8 "content-type" ∈ allowedHeaders := by decide
  rw [lookup_eq_head?, getAll_insert_of_ne hne, getAll_forwardedHeaders, if_pos hallowed]
  cases (headers.getAll (utf8 "content-type")).getLast? <;> rfl

theorem message_request {κ : Type} (poolKey : κ)
    (htarget : ∀ b ∈ target, isHostByte b = true) (hslash : startsWith endpoint.path 47 = true)
    (hpath : IsPath endpoint.path) (hquery : ∀ q, req.uri.query = some q → 35 ∉ q) :
    ((forwardCall endpoint req target body).request poolKey).message crates =
      carriedMessage crates req.method req.uri.query (req.lastContentType crates) body := by
  have hsplit := (splitsInto_upstreamUri htarget hslash hquery).mpr hpath
  simp only [UpstreamRequest.message, ForwardCall.request, forwardCall, lookup_contentType,
    hsplit.2, Request.lastContentType]

/-- The message stays the same unless the content type changes. -/
theorem carriedMessage_iff (hmessage : req.message crates received = some message)
    (hbody : received.bytes? req.method = some body) :
    carriedMessage crates req.method req.uri.query (req.lastContentType crates) body =
        some message ↔
      (req.method = .post → isDnsMessageContentType (req.lastContentType crates) = true) := by
  rw [Request.message, hbody, Option.bind_some] at hmessage
  cases hmethod : req.method with
  | get =>
      rw [hmethod] at hmessage
      exact iff_of_true hmessage nofun
  | post =>
      rw [hmethod] at hmessage
      simp only [carriedMessage] at hmessage ⊢
      split at hmessage
      · next h =>
        cases hmessage
        simp [h.2]
      · cases hmessage
  | other name =>
      rw [hmethod] at hmessage
      cases hmessage

/-! ### The two listeners -/

/-- The `http` crate builds the request of this call. -/
def ForwardCall.Buildable (crates : HttpCrates) (call : ForwardCall) : Prop :=
  crates.uriError call.upstreamUri = none ∧ crates.headerValueError call.targetHostname = none

theorem forwardHttpRequest_ok_iff {call : ForwardCall} {u : UpstreamRequest Bytes} :
    forwardHttpRequest crates call = .ok u ↔
      call.Buildable crates ∧ u = call.request call.targetHostname := by
  refine ⟨fun h => ⟨?_, forwardHttpRequest_request h⟩, ?_⟩
  · unfold forwardHttpRequest at h
    split at h
    · cases h
    · next huri =>
        split at h
        · cases h
        · next hheader => exact ⟨huri, hheader⟩
  · rintro ⟨⟨huri, hheader⟩, rfl⟩
    simp only [forwardHttpRequest, huri, hheader]
    rfl

theorem forwardHttp3Request_ok_iff {call : ForwardCall} {port : UInt16}
    {u : UpstreamRequest (Bytes × UInt16)} :
    forwardHttp3Request crates call port = .ok u ↔
      call.Buildable crates ∧ u = call.request (call.targetHostname, port) := by
  refine ⟨fun h => ⟨?_, forwardHttp3Request_request h⟩, ?_⟩
  · unfold forwardHttp3Request at h
    split at h
    · cases h
    · next huri =>
        split at h
        · cases h
        · next hheader => exact ⟨huri, hheader⟩
  · rintro ⟨⟨huri, hheader⟩, rfl⟩
    simp only [forwardHttp3Request, huri, hheader]
    rfl

variable {config : AppConfig}

/-- The upstream request that is put together for one that has been validated. -/
def Sends {κ : Type} (crates : HttpCrates) (config : AppConfig) (endpoint : HttpUpstreamConfig)
    (requestPath sni : Bytes) (req : Request) (received : ReceivedBody) (poolKey : Bytes → κ)
    (u : UpstreamRequest κ) : Prop :=
  ∃ target body, validateRequest crates (createRewriter config.rewrite) requestPath
      (toAsciiLowercase sni) req received = .ok (target, body) ∧
    (forwardCall endpoint req target body).Buildable crates ∧
      u = (forwardCall endpoint req target body).request (poolKey target)

theorem DoHServer.forwards_iff {u : UpstreamRequest Bytes} :
    DoHServer.forwards crates config (some sni) req received = some u ↔
      Sends crates config config.upstream.doh config.servers.doh.path sni req received id u := by
  constructor
  · intro h
    obtain ⟨r, body, -, hv, hu⟩ := DoHServer.forwards_validated h
    exact ⟨r.targetHostname, body, hv, forwardHttpRequest_ok_iff.mp hu⟩
  · rintro ⟨target, body, hv, hu⟩
    have hu := forwardHttpRequest_ok_iff.mpr hu
    simp only [DoHServer.forwards, handleHttpRequestInner_eq, hv, Except.mapError, Except.map, hu]
    rfl

theorem processRequest_none {rewriter : BaseSniRewriter} (hpost : req.method ≠ .post) :
    processRequest crates rewriter endpoint requestPath sni req none =
      processRequest crates rewriter endpoint requestPath sni req (some .stalled) := by
  unfold processRequest
  simp only [collectDoh3Body, if_neg hpost]

/-- A body that is given up because the listener stops forwards as little as one that stalls. -/
theorem DoH3Server.forwards_iff {received : Option ReceivedBody}
    {u : UpstreamRequest (Bytes × UInt16)} :
    DoH3Server.forwards crates config (some sni) req received = some u ↔
      Sends crates config config.upstream.doh3 config.servers.doh3.path sni req
        (received.getD .stalled) (·, config.upstream.doh3.port) u := by
  constructor
  · intro h
    obtain ⟨r, body, -, hv, hu⟩ := DoH3Server.forwards_validated h
    exact ⟨r.targetHostname, body, hv, forwardHttp3Request_ok_iff.mp hu⟩
  · rintro ⟨target, body, hv, hu⟩
    have hu := forwardHttp3Request_ok_iff.mpr hu
    have hcall : processRequest crates (createRewriter config.rewrite) config.upstream.doh3
        config.servers.doh3.path sni req (some (received.getD .stalled)) =
          .ok (some (forwardCall config.upstream.doh3 req target body)) := by
      rw [processRequest_eq, hv]
      rfl
    have hreceived : processRequest crates (createRewriter config.rewrite) config.upstream.doh3
        config.servers.doh3.path sni req received =
          .ok (some (forwardCall config.upstream.doh3 req target body)) := by
      cases received with
      | some received => exact hcall
      | none =>
          obtain ⟨-, -, -, hbody⟩ := validateRequest_ok hv
          rw [processRequest_none, ← hcall]
          · rfl
          · intro hpost
            simp [validateBody, hpost] at hbody
    simp only [DoH3Server.forwards, hreceived, hu]
    rfl

/-! ### Transparency -/

/-- A listener puts an upstream request together for the requests that are for it and carry a
message, with this message. -/
structure Transparent {κ : Type} (crates : HttpCrates) (config : AppConfig)
    (endpoint : HttpUpstreamConfig) (requestPath sni : Bytes) (req : Request)
    (received : ReceivedBody) (forwarded : Option (UpstreamRequest κ)) : Prop where
  accepted : (∃ u, forwarded = some u) ↔
    Addressed crates requestPath (toAsciiLowercase sni) req ∧
      (∃ message, req.message crates received = some message) ∧
        ∃ r, (createRewriter config.rewrite).rewrite sni = some r ∧
          crates.uriError (upstreamUri r.targetHostname endpoint req.uri.query) = none ∧
          crates.headerValueError r.targetHostname = none
  message : ∀ u, forwarded = some u → ∃ message, req.message crates received = some message ∧
    (u.message crates = some message ↔
      (req.method = .post → isDnsMessageContentType (req.lastContentType crates) = true))

theorem transparent_of_sends {κ : Type} {poolKey : Bytes → κ}
    {forwarded : Option (UpstreamRequest κ)} (hconfig : config.rewrite.check = .ok ())
    (hslash : startsWith endpoint.path 47 = true) (hpath : IsPath endpoint.path)
    (hquery : ∀ q, req.uri.query = some q → 35 ∉ q)
    (h : ∀ u, forwarded = some u ↔
      Sends crates config endpoint requestPath sni req received poolKey u) :
    Transparent crates config endpoint requestPath sni req received forwarded := by
  constructor
  · simp only [h, Sends, validateRequest_ok_iff, rewrite_toAsciiLowercase]
    constructor
    · rintro ⟨u, target, body, ⟨haddressed, ⟨hmessage, -⟩, r, hr, rfl⟩, hbuild, -⟩
      exact ⟨haddressed, Option.isSome_iff_exists.mp hmessage, r, hr, hbuild⟩
    · rintro ⟨haddressed, ⟨message, hmessage⟩, r, hr, hbuild⟩
      obtain ⟨body, hbody, -⟩ := Option.bind_eq_some_iff.mp hmessage
      exact ⟨_, r.targetHostname, body,
        ⟨haddressed, ⟨Option.isSome_iff_exists.mpr ⟨message, hmessage⟩, hbody⟩, r, hr, rfl⟩,
        hbuild, rfl⟩
  · intro u hu
    obtain ⟨target, body, hv, -, rfl⟩ := (h u).mp hu
    obtain ⟨-, ⟨hcarries, hbody⟩, r, hr, rfl⟩ := validateRequest_ok_iff.mp hv
    obtain ⟨message, hmessage⟩ := Option.isSome_iff_exists.mp hcarries
    obtain ⟨-, -, htarget⟩ := rewrite_some hconfig hr
    refine ⟨message, hmessage, ?_⟩
    rw [message_request (poolKey r.targetHostname) htarget hslash hpath hquery]
    exact carriedMessage_iff hmessage hbody

/-- **Both listeners are transparent.** -/
theorem forwards_message {env : Environment} (hvalid : config.validate env = .ok ())
    (hdoh : IsPath config.upstream.doh.path) (hdoh3 : IsPath config.upstream.doh3.path)
    (crates : HttpCrates) (sni : Bytes) (req : Request)
    (hquery : ∀ q, req.uri.query = some q → 35 ∉ q) :
    (∀ received, Transparent crates config config.upstream.doh config.servers.doh.path sni req
      received (DoHServer.forwards crates config (some sni) req received)) ∧
    ∀ received, Transparent crates config config.upstream.doh3 config.servers.doh3.path sni req
      (received.getD .stalled) (DoH3Server.forwards crates config (some sni) req received) := by
  have hconfig := AppConfig.validate_ok hvalid
  exact ⟨fun _ => transparent_of_sends hconfig.rewrite hconfig.dohUpstreamPath hdoh hquery
      fun _ => DoHServer.forwards_iff,
    fun _ => transparent_of_sends hconfig.rewrite hconfig.doh3UpstreamPath hdoh3 hquery
      fun _ => DoH3Server.forwards_iff⟩

/-- A message with two content types. -/
def twoTypesRequest : Request where
  method := .post
  uri := ⟨utf8 "/dns-query", utf8 "/dns-query", none, none⟩
  headers := [(utf8 "host", utf8 "home.example.com"),
    (utf8 "content-type", utf8 "application/dns-message"),
    (utf8 "content-type", utf8 "text/plain")]

/-- The upstream request has the message of a GET request, but not that of a POST request of which
the second content type is another. -/
theorem forwards_message_twoTypes :
    (∃ u, DoHServer.forwards decodingCrates certifiedConfig (some (utf8 "home.example.com"))
        (getRequest (utf8 "dns=AAAAAAAAAAAAAAAA")) .stalled = some u ∧
      u.message decodingCrates = some (List.replicate 12 0)) ∧
    ∃ u, DoH3Server.forwards decodingCrates certifiedConfig (some (utf8 "home.example.com"))
        twoTypesRequest (some (.complete (List.replicate 12 0))) = some u ∧
      u.message decodingCrates ≠ some (List.replicate 12 0) := by
  have hvalid : certifiedConfig.validate readyEnvironment = .ok () := by rfl
  have hpath : IsPath (utf8 "/dns-query") := by decide
  have hquery : ∀ q, (getRequest (utf8 "dns=AAAAAAAAAAAAAAAA")).uri.query = some q → 35 ∉ q := by
    rintro q ⟨⟩
    decide
  obtain ⟨u, hu⟩ : ∃ u, DoHServer.forwards decodingCrates certifiedConfig
      (some (utf8 "home.example.com")) (getRequest (utf8 "dns=AAAAAAAAAAAAAAAA")) .stalled =
        some u := ⟨_, rfl⟩
  obtain ⟨u₃, hu₃⟩ : ∃ u, DoH3Server.forwards decodingCrates certifiedConfig
      (some (utf8 "home.example.com")) twoTypesRequest
        (some (.complete (List.replicate 12 0))) = some u := ⟨_, rfl⟩
  obtain ⟨message, hmessage, hsent⟩ :=
    ((forwards_message hvalid hpath hpath decodingCrates _ _ hquery).1 .stalled).message u hu
  have hnoQuery : ∀ q, twoTypesRequest.uri.query = some q → 35 ∉ q := by simp [twoTypesRequest]
  obtain ⟨message₃, hmessage₃, hsent₃⟩ :=
    ((forwards_message hvalid hpath hpath decodingCrates _ _ hnoQuery).2 _).message u₃ hu₃
  refine ⟨⟨u, hu, ?_⟩, u₃, hu₃, fun h => ?_⟩
  · have hzero : message = List.replicate 12 0 := by
      have : some message = some (List.replicate 12 0) := by
        rw [← hmessage]
        decide +kernel
      exact Option.some.inj this
    rw [← hzero]
    exact hsent.mpr (by simp [getRequest])
  · have hzero : message₃ = List.replicate 12 0 := by
      have : some message₃ = some (List.replicate 12 0) := by
        rw [← hmessage₃]
        decide +kernel
      exact Option.some.inj this
    rw [← hzero] at h
    have htype := hsent₃.mp h rfl
    revert htype
    decide +kernel

end DnsIngress
