import DnsIngress.DohValidation

/-! # What an upstream request depends on

The upstream request of DoH or DoH3 depends on the server name and on the method, the query, the
body and the accept and content-type fields of the client's request, and on nothing else
(`noClientState`).  Two `HeaderMap`s are the same if they have the same values under every name;
they are equal as lists, too, if the client has sent the fields in the same order. -/

namespace DnsIngress

open Ascii

/-- `get_all`. -/
def HeaderMap.getAll (headers : HeaderMap) (name : Bytes) : List Bytes :=
  (headers.filter (·.1 = name)).map Prod.snd

/-- `HeaderMap` equality. -/
def HeaderMap.Same (headers headers' : HeaderMap) : Prop :=
  ∀ name, headers.getAll name = headers'.getAll name

/-- Header fields that agree on content negotiation. -/
structure HeaderMap.Agrees (headers headers' : HeaderMap) : Prop where
  accept : headers.getAll (utf8 "accept") = headers'.getAll (utf8 "accept")
  contentType : headers.getAll (utf8 "content-type") = headers'.getAll (utf8 "content-type")

/-- The fields of content negotiation are in the same order. -/
def HeaderMap.SameOrder (headers headers' : HeaderMap) : Prop :=
  headers.filter (allowedHeaders.contains ·.1) = headers'.filter (allowedHeaders.contains ·.1)

/-- Two requests that differ in their other fields only. -/
structure Request.Agrees (req req' : Request) : Prop where
  method : req.method = req'.method
  query : req.uri.query = req'.uri.query
  headers : req.headers.Agrees req'.headers

structure ForwardCall.Agrees (call call' : ForwardCall) : Prop where
  upstreamUri : call.upstreamUri = call'.upstreamUri
  targetHostname : call.targetHostname = call'.targetHostname
  method : call.method = call'.method
  headers : call.headers.Agrees call'.headers
  body : call.body = call'.body

/-- The two requests are the same. -/
structure UpstreamRequest.Same {κ : Type} (u u' : UpstreamRequest κ) : Prop where
  poolKey : u.poolKey = u'.poolKey
  method : u.method = u'.method
  uri : u.uri = u'.uri
  headers : u.headers.Same u'.headers
  body : u.body = u'.body

/-- The same request or the same error. -/
def SameResult {ε κ : Type} : Except ε (UpstreamRequest κ) → Except ε (UpstreamRequest κ) → Prop
  | .ok u, .ok u' => u.Same u'
  | .error e, .error e' => e = e'
  | .ok _, .error _ => False
  | .error _, .ok _ => False

/-- The header fields of an upstream request: content negotiation, and the target as its only
host. -/
structure OnlyNegotiation (headers : HeaderMap) (target : Bytes) : Prop where
  names : ∀ field ∈ headers,
    field.1 ∈ [utf8 "accept", utf8 "content-type", utf8 "host"]
  host : headers.getAll (utf8 "host") = [target]

variable {headers headers' : HeaderMap} {name value target : Bytes}

/-! ### The loop over the header fields -/

@[simp] theorem getAll_insert_self (headers : HeaderMap) (name value : Bytes) :
    (headers.insert name value).getAll name = [value] := by
  rw [HeaderMap.getAll, HeaderMap.filter_insert]
  rfl

theorem getAll_insert_of_ne {name' : Bytes} (h : name' ≠ name) :
    (headers.insert name value).getAll name' = headers.getAll name' := by
  have hfilter : (headers.filter (·.1 ≠ name)).filter (·.1 = name') =
      headers.filter (·.1 = name') := by
    rw [List.filter_filter]
    apply List.filter_congr
    intro field _
    by_cases hfield : field.1 = name'
    · simp [hfield, h]
    · simp [hfield]
  rw [HeaderMap.getAll, HeaderMap.insert, List.filter_append, hfilter,
    List.filter_cons_of_neg (by simpa using Ne.symm h), List.filter_nil, List.append_nil]
  rfl

theorem forwardedHeaders_append (headers : HeaderMap) (field : Bytes × Bytes) :
    forwardedHeaders (headers ++ [field]) =
      if field.1 ∈ allowedHeaders then (forwardedHeaders headers).insert field.1 field.2
      else forwardedHeaders headers := by
  rw [forwardedHeaders, List.foldl_append]
  rfl

theorem getAll_append (headers : HeaderMap) (field : Bytes × Bytes) :
    HeaderMap.getAll (headers ++ [field]) name =
      if field.1 = name then headers.getAll name ++ [field.2] else headers.getAll name := by
  simp only [HeaderMap.getAll, List.filter_append, List.map_append]
  by_cases h : field.1 = name
  · rw [if_pos h, List.filter_cons_of_pos (by simpa using h)]
    rfl
  · rw [if_neg h, List.filter_cons_of_neg (by simpa using h), List.filter_nil, List.map_nil,
      List.append_nil]

/-- **The loop keeps the last value** of each allowed name. -/
theorem getAll_forwardedHeaders (headers : HeaderMap) (name : Bytes) :
    (forwardedHeaders headers).getAll name =
      if name ∈ allowedHeaders then (headers.getAll name).getLast?.toList else [] := by
  induction headers using List.reverseRecOn with
  | nil => split <;> rfl
  | append_singleton headers field ih =>
      rw [forwardedHeaders_append, getAll_append]
      by_cases hname : field.1 = name
      · subst hname
        by_cases hallowed : field.1 ∈ allowedHeaders
        · simp only [hallowed, if_true, getAll_insert_self, List.getLast?_concat,
            Option.toList_some]
        · simp only [hallowed, if_false, ih]
      · rw [if_neg hname, ← ih]
        by_cases hallowed : field.1 ∈ allowedHeaders
        · rw [if_pos hallowed, getAll_insert_of_ne (Ne.symm hname)]
        · rw [if_neg hallowed]

theorem forwardedHeaders_filter (headers : HeaderMap) :
    forwardedHeaders (headers.filter (allowedHeaders.contains ·.1)) =
      forwardedHeaders headers := by
  simp only [forwardedHeaders, List.foldl_filter, List.contains_iff_mem]
  refine List.foldl_ext _ _ _ fun out field _ => ?_
  split <;> rfl

theorem mem_forwardedHeaders {field : Bytes × Bytes} (h : field ∈ forwardedHeaders headers) :
    field.1 ∈ allowedHeaders := by
  induction headers using List.reverseRecOn with
  | nil => cases h
  | append_singleton headers field' ih =>
      rw [forwardedHeaders_append] at h
      split at h
      · next hallowed =>
          rw [HeaderMap.insert, List.mem_append, List.mem_singleton] at h
          rcases h with h | rfl
          · exact ih (List.mem_of_mem_filter h)
          · exact hallowed
      · exact ih h

theorem onlyNegotiation_insert (headers : HeaderMap) (target : Bytes) :
    OnlyNegotiation ((forwardedHeaders headers).insert (utf8 "host") target) target := by
  constructor
  · intro field hfield
    rw [HeaderMap.insert, List.mem_append, List.mem_singleton] at hfield
    rcases hfield with hfield | rfl
    · have hallowed := mem_forwardedHeaders (List.mem_of_mem_filter hfield)
      rcases List.mem_pair.mp hallowed with h | h
      · simp [h]
      · simp [h]
    · simp
  · exact getAll_insert_self _ _ _

theorem same_insert (h : headers.Agrees headers') (target : Bytes) :
    HeaderMap.Same ((forwardedHeaders headers).insert (utf8 "host") target)
      ((forwardedHeaders headers').insert (utf8 "host") target) := by
  intro name
  by_cases hhost : name = utf8 "host"
  · rw [hhost, getAll_insert_self, getAll_insert_self]
  · rw [getAll_insert_of_ne hhost, getAll_insert_of_ne hhost, getAll_forwardedHeaders,
      getAll_forwardedHeaders]
    by_cases hallowed : name ∈ allowedHeaders
    · rw [if_pos hallowed, if_pos hallowed]
      rcases List.mem_pair.mp hallowed with rfl | rfl
      · rw [h.accept]
      · rw [h.contentType]
    · rw [if_neg hallowed, if_neg hallowed]

theorem HeaderMap.SameOrder.insert (h : headers.SameOrder headers') (target : Bytes) :
    HeaderMap.insert (forwardedHeaders headers) (utf8 "host") target =
      HeaderMap.insert (forwardedHeaders headers') (utf8 "host") target := by
  rw [← forwardedHeaders_filter headers, ← forwardedHeaders_filter headers', h]

/-! ### Two requests -/

variable {crates : HttpCrates} {rewriter : BaseSniRewriter} {requestPath sni : Bytes}
  {req req' : Request} {received : ReceivedBody} {call call' : ForwardCall}

/-- The request that both functions build, each with its own key. -/
def ForwardCall.request {κ : Type} (call : ForwardCall) (poolKey : κ) : UpstreamRequest κ where
  poolKey := poolKey
  method := call.method
  uri := call.upstreamUri
  headers := (forwardedHeaders call.headers).insert (utf8 "host") call.targetHostname
  body := call.body

theorem forwardHttpRequest_request {u : UpstreamRequest Bytes}
    (h : forwardHttpRequest crates call = .ok u) : u = call.request call.targetHostname := by
  unfold forwardHttpRequest at h
  repeat' split at h
  all_goals cases h
  rfl

theorem forwardHttp3Request_request {port : UInt16} {u : UpstreamRequest (Bytes × UInt16)}
    (h : forwardHttp3Request crates call port = .ok u) :
    u = call.request (call.targetHostname, port) := by
  unfold forwardHttp3Request at h
  repeat' split at h
  all_goals cases h
  rfl

theorem ForwardCall.Agrees.request {κ : Type} (h : call.Agrees call') (poolKey : κ) :
    (call.request poolKey).Same (call'.request poolKey) where
  poolKey := rfl
  method := h.method
  uri := h.upstreamUri
  headers := by
    simp only [ForwardCall.request, ← h.targetHostname]
    exact same_insert h.headers call.targetHostname
  body := h.body

theorem ForwardCall.Agrees.request_eq {κ : Type} (h : call.Agrees call')
    (horder : call.headers.SameOrder call'.headers) (poolKey : κ) :
    call.request poolKey = call'.request poolKey := by
  have hheaders := horder.insert call.targetHostname
  simp only [ForwardCall.request, ← h.targetHostname, ← h.method, ← h.upstreamUri, ← h.body,
    hheaders]

theorem sameResult_forwardHttpRequest (h : call.Agrees call') :
    SameResult (forwardHttpRequest crates call) (forwardHttpRequest crates call') := by
  unfold forwardHttpRequest
  rw [← h.upstreamUri, ← h.targetHostname, ← h.method]
  cases crates.uriError call.upstreamUri with
  | some _ => rfl
  | none =>
      cases crates.headerValueError call.targetHostname with
      | some _ => rfl
      | none => exact ⟨rfl, rfl, rfl, same_insert h.headers _, h.body⟩

theorem sameResult_forwardHttp3Request (h : call.Agrees call') (port : UInt16) :
    SameResult (forwardHttp3Request crates call port)
      (forwardHttp3Request crates call' port) := by
  unfold forwardHttp3Request
  rw [← h.upstreamUri, ← h.targetHostname]
  cases crates.uriError call.upstreamUri with
  | some _ => rfl
  | none =>
      cases crates.headerValueError call.targetHostname with
      | some _ => rfl
      | none => exact ⟨rfl, h.method, rfl, same_insert h.headers _, h.body⟩

/-- The other fields decide whether a request is forwarded, but not its target or its body. -/
theorem validateRequest_agrees (h : req.Agrees req') {validated validated' : Bytes × Bytes}
    (hv : validateRequest crates rewriter requestPath sni req received = .ok validated)
    (hv' : validateRequest crates rewriter requestPath sni req' received = .ok validated') :
    validated = validated' := by
  obtain ⟨target, body⟩ := validated
  obtain ⟨target', body'⟩ := validated'
  obtain ⟨-, -, ⟨r, hr, rfl⟩, hbody⟩ := validateRequest_ok hv
  obtain ⟨-, -, ⟨r', hr', rfl⟩, hbody'⟩ := validateRequest_ok hv'
  have hrr : r = r' := Option.some_inj.mp (hr.symm.trans hr')
  have hbb : validateBody req received = validateBody req' received := by
    unfold validateBody
    rw [h.method]
  rw [hbb, hbody'] at hbody
  rw [hrr, Except.ok.inj hbody]

theorem agrees_forwardCall (h : req.Agrees req') (endpoint : HttpUpstreamConfig)
    (target body : Bytes) :
    (forwardCall endpoint req target body).Agrees (forwardCall endpoint req' target body) where
  upstreamUri := by rw [forwardCall, forwardCall, h.query]
  targetHostname := rfl
  method := h.method
  headers := h.headers
  body := rfl

/-- **No client state crosses to the upstream.** -/
theorem noClientState (crates : HttpCrates) (config : AppConfig) (sni : Bytes) :
    (∀ call call' : ForwardCall, call.Agrees call' →
      SameResult (forwardHttpRequest crates call) (forwardHttpRequest crates call') ∧
      ∀ port, SameResult (forwardHttp3Request crates call port)
        (forwardHttp3Request crates call' port)) ∧
    (∀ req req' : Request, req.Agrees req' →
      (∀ received u u', DoHServer.forwards crates config (some sni) req received = some u →
        DoHServer.forwards crates config (some sni) req' received = some u' →
        u.Same u' ∧ (req.headers.SameOrder req'.headers → u = u')) ∧
      ∀ received u u', DoH3Server.forwards crates config (some sni) req received = some u →
        DoH3Server.forwards crates config (some sni) req' received = some u' →
        u.Same u' ∧ (req.headers.SameOrder req'.headers → u = u')) ∧
    ∀ req : Request,
      (∀ received u, DoHServer.forwards crates config (some sni) req received = some u →
        ∃ r, (createRewriter config.rewrite).rewrite sni = some r ∧
          OnlyNegotiation u.headers r.targetHostname) ∧
      ∀ received u, DoH3Server.forwards crates config (some sni) req received = some u →
        ∃ r, (createRewriter config.rewrite).rewrite sni = some r ∧
          OnlyNegotiation u.headers r.targetHostname := by
  refine ⟨fun call call' h => ⟨sameResult_forwardHttpRequest h,
    sameResult_forwardHttp3Request h⟩, fun req req' h => ⟨?_, ?_⟩, fun req => ⟨?_, ?_⟩⟩
  · intro received u u' hu hu'
    obtain ⟨r, body, -, hv, hu⟩ := DoHServer.forwards_validated hu
    obtain ⟨r', body', -, hv', hu'⟩ := DoHServer.forwards_validated hu'
    obtain ⟨htarget, rfl⟩ := Prod.mk.inj (validateRequest_agrees h hv hv')
    have hcalls := agrees_forwardCall h config.upstream.doh r.targetHostname body
    rw [forwardHttpRequest_request hu, forwardHttpRequest_request hu', ← htarget]
    exact ⟨hcalls.request _, fun horder => hcalls.request_eq horder _⟩
  · intro received u u' hu hu'
    obtain ⟨r, body, -, hv, hu⟩ := DoH3Server.forwards_validated hu
    obtain ⟨r', body', -, hv', hu'⟩ := DoH3Server.forwards_validated hu'
    obtain ⟨htarget, rfl⟩ := Prod.mk.inj (validateRequest_agrees h hv hv')
    have hcalls := agrees_forwardCall h config.upstream.doh3 r.targetHostname body
    rw [forwardHttp3Request_request hu, forwardHttp3Request_request hu', ← htarget]
    exact ⟨hcalls.request _, fun horder => hcalls.request_eq horder _⟩
  · intro received u hu
    obtain ⟨r, body, hr, -, hu⟩ := DoHServer.forwards_validated hu
    rw [forwardHttpRequest_request hu]
    exact ⟨r, hr, onlyNegotiation_insert _ _⟩
  · intro received u hu
    obtain ⟨r, body, hr, -, hu⟩ := DoH3Server.forwards_validated hu
    rw [forwardHttp3Request_request hu]
    exact ⟨r, hr, onlyNegotiation_insert _ _⟩

/-- The request in mixed case, with credentials, a cookie and another spelling of the host. -/
def cookieRequest : Request where
  method := .post
  uri := ⟨utf8 "/dns-query", utf8 "/dns-query", none, none⟩
  headers := [(utf8 "authorization", utf8 "Basic Og=="), (utf8 "host", utf8 "home.example.com"),
    (utf8 "cookie", utf8 "a=1"), (utf8 "content-type", utf8 "application/dns-message"),
    (utf8 "cookie", utf8 "b=2"), (utf8 "connection", utf8 "close")]

theorem noClientState_cookie :
    ∃ u, DoHServer.forwards plainCrates certifiedConfig (some (utf8 "hOmE.example.COM"))
        mixedCaseRequest (.complete (List.replicate 12 0)) = some u ∧
      DoHServer.forwards plainCrates certifiedConfig (some (utf8 "hOmE.example.COM"))
        cookieRequest (.complete (List.replicate 12 0)) = some u := by
  obtain ⟨u, hu⟩ : ∃ u, DoHServer.forwards plainCrates certifiedConfig
      (some (utf8 "hOmE.example.COM")) mixedCaseRequest (.complete (List.replicate 12 0)) =
        some u := ⟨_, rfl⟩
  obtain ⟨u', hu'⟩ : ∃ u', DoHServer.forwards plainCrates certifiedConfig
      (some (utf8 "hOmE.example.COM")) cookieRequest (.complete (List.replicate 12 0)) =
        some u' := ⟨_, rfl⟩
  have hagrees : mixedCaseRequest.Agrees cookieRequest := ⟨rfl, rfl, ⟨rfl, rfl⟩⟩
  have hsame := ((noClientState plainCrates certifiedConfig _).2.1 _ _ hagrees).1 _ _ _ hu hu'
  exact ⟨u, hu, by rw [hu', hsame.2 rfl]⟩

end DnsIngress
