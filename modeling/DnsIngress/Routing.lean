import DnsIngress.Doh

/-! # Routing

All four listeners route a connection by its TLS server name.  DoT and DoQ rewrite it as it comes;
DoH and DoH3 rewrite the host of the request, once it has been found equal to the server name.

`routed_by_sni` puts the four together: whatever a client writes into its requests, an upstream
request goes to the rewritten server name, as do the DoT and DoQ connections with this name. -/

namespace DnsIngress

open Ascii

/-- The target of a connection that is routed without looking at its data. -/
def connectionTarget (missingSni : Bytes) (rewriter : BaseSniRewriter)
    (serverName : Option Bytes) : Except DnsProxyError Bytes :=
  match serverName with
  | none => .error (.invalidInput missingSni)
  | some sourceHostname =>
      match rewriter.rewrite sourceHostname with
      | none => .error (.sniRewrite (.noMatchingBaseDomain sourceHostname))
      | some r => .ok r.targetHostname

/-- The target in `DoTServer::handle_connection`. -/
def DoTServer.target : BaseSniRewriter → Option Bytes → Except DnsProxyError Bytes :=
  connectionTarget (utf8 "DoT requires a TLS SNI hostname")

/-- The target in `DoQServer::handle_connection`. -/
def DoQServer.target : BaseSniRewriter → Option Bytes → Except DnsProxyError Bytes :=
  connectionTarget (utf8 "DoQ requires TLS SNI hostname")

theorem connectionTarget_ok {missingSni target : Bytes} {rewriter : BaseSniRewriter}
    {serverName : Option Bytes}
    (h : connectionTarget missingSni rewriter serverName = .ok target) :
    ∃ sni r, serverName = some sni ∧ rewriter.rewrite sni = some r ∧ target = r.targetHostname := by
  unfold connectionTarget at h
  split at h
  · cases h
  · next sni =>
    split at h
    · cases h
    · next r hr =>
      cases h
      exact ⟨sni, r, rfl, hr, rfl⟩

section
variable (crates : HttpCrates) (config : AppConfig) (serverName : Option Bytes) (req : Request)

/-- The request that a DoH listener sends upstream for a request on a connection. -/
def DoHServer.forwards (received : ReceivedBody) : Option (UpstreamRequest Bytes) :=
  match serverName with
  | none => none
  | some sni =>
      match handleHttpRequestInner crates (createRewriter config.rewrite) config.upstream.doh
        config.servers.doh.path (toAsciiLowercase sni) req received with
      | .error _ => none
      | .ok call => (forwardHttpRequest crates call).toOption

/-- The request that a DoH3 listener sends upstream for a request on a connection. -/
def DoH3Server.forwards (received : Option ReceivedBody) :
    Option (UpstreamRequest (Bytes × UInt16)) :=
  match serverName with
  | none => none
  | some sni =>
      match processRequest crates (createRewriter config.rewrite) config.upstream.doh3
        config.servers.doh3.path sni req received with
      | .error _ => none
      | .ok none => none
      | .ok (some call) => (forwardHttp3Request crates call config.upstream.doh3.port).toOption

end

/-- An upstream request goes to the rewritten server name. -/
structure Routed {κ : Type} (config : AppConfig) (endpoint : HttpUpstreamConfig) (sni : Bytes)
    (query : Option Bytes) (poolHostname : κ → Bytes) (u : UpstreamRequest κ) (r : RewriteResult) :
    Prop where
  rewritten : (createRewriter config.rewrite).rewrite sni = some r
  dot : DoTServer.target (createRewriter config.rewrite) (some sni) = .ok r.targetHostname
  doq : DoQServer.target (createRewriter config.rewrite) (some sni) = .ok r.targetHostname
  poolKey : poolHostname u.poolKey = r.targetHostname
  host : u.headers.filter (·.1 = utf8 "host") = [(utf8 "host", r.targetHostname)]
  uri : u.uri = upstreamUri r.targetHostname endpoint query
  authority : authorityComponent u.uri =
    r.targetHostname ++ utf8 ":" ++ decimal endpoint.port.toNat
  nonemptyPrefix : r.hostPrefix ≠ []
  target : r.targetHostname = r.hostPrefix ++ config.rewrite.targetSuffix
  canonical : ∀ b ∈ r.targetHostname, isHostByte b = true

variable {env : Environment} {crates : HttpCrates} {config : AppConfig} {sni : Bytes}
  {req : Request} {endpoint : HttpUpstreamConfig} {r : RewriteResult}

theorem forwardHttpRequest_ok {call : ForwardCall} {u : UpstreamRequest Bytes}
    (h : (forwardHttpRequest crates call).toOption = some u) :
    u.poolKey = call.targetHostname ∧ u.uri = call.upstreamUri ∧
      u.headers.filter (·.1 = utf8 "host") = [(utf8 "host", call.targetHostname)] := by
  unfold forwardHttpRequest at h
  repeat' split at h
  all_goals cases h
  exact ⟨rfl, rfl, HeaderMap.filter_insert _ _ _⟩

theorem forwardHttp3Request_ok {call : ForwardCall} {port : UInt16}
    {u : UpstreamRequest (Bytes × UInt16)}
    (h : (forwardHttp3Request crates call port).toOption = some u) :
    u.poolKey = (call.targetHostname, port) ∧ u.uri = call.upstreamUri ∧
      u.headers.filter (·.1 = utf8 "host") = [(utf8 "host", call.targetHostname)] := by
  unfold forwardHttp3Request at h
  repeat' split at h
  all_goals cases h
  exact ⟨rfl, rfl, HeaderMap.filter_insert _ _ _⟩

theorem routed_of_rewrite {κ : Type} {poolHostname : κ → Bytes} {u : UpstreamRequest κ}
    {body : Bytes} (hconfig : config.rewrite.check = .ok ())
    (hpath : startsWith endpoint.path 47 = true)
    (hr : (createRewriter config.rewrite).rewrite sni = some r)
    (hkey :
      poolHostname u.poolKey = (forwardCall endpoint req r.targetHostname body).targetHostname)
    (huri : u.uri = (forwardCall endpoint req r.targetHostname body).upstreamUri)
    (hhost : u.headers.filter (·.1 = utf8 "host") =
      [(utf8 "host", (forwardCall endpoint req r.targetHostname body).targetHostname)]) :
    Routed config endpoint sni req.uri.query poolHostname u r := by
  obtain ⟨hne, htarget, hbytes⟩ := rewrite_some hconfig hr
  exact
    { rewritten := hr
      dot := by simp only [DoTServer.target, connectionTarget, hr]
      doq := by simp only [DoQServer.target, connectionTarget, hr]
      poolKey := hkey
      host := hhost
      uri := huri
      authority := by
        rw [huri]
        exact authorityComponent_upstreamUri req.uri.query hbytes hpath
      nonemptyPrefix := hne
      target := htarget
      canonical := hbytes }

/-- **Routing is decided by the TLS server name alone**, in all four protocols. -/
theorem routed_by_sni (hvalid : config.validate env = .ok ()) (sni : Bytes) (req : Request) :
    (∀ received u, DoHServer.forwards crates config (some sni) req received = some u →
      ∃ r, Routed config config.upstream.doh sni req.uri.query id u r) ∧
    ∀ received u, DoH3Server.forwards crates config (some sni) req received = some u →
      ∃ r, Routed config config.upstream.doh3 sni req.uri.query Prod.fst u r := by
  have hconfig := AppConfig.validate_ok hvalid
  constructor
  · intro received u h
    simp only [DoHServer.forwards] at h
    split at h
    · cases h
    · next call hcall =>
        obtain ⟨r, body, hr, rfl⟩ := handleHttpRequestInner_ok hcall
        rw [rewrite_toAsciiLowercase] at hr
        obtain ⟨hkey, huri, hhost⟩ := forwardHttpRequest_ok h
        exact ⟨r, routed_of_rewrite hconfig.rewrite hconfig.dohUpstreamPath hr hkey huri hhost⟩
  · intro received u h
    simp only [DoH3Server.forwards] at h
    split at h
    · cases h
    · cases h
    · next call hcall =>
        obtain ⟨r, body, hr, rfl⟩ := processRequest_ok hcall
        obtain ⟨hkey, huri, hhost⟩ := forwardHttp3Request_ok h
        exact ⟨r, routed_of_rewrite hconfig.rewrite hconfig.doh3UpstreamPath hr (by rw [hkey])
          huri hhost⟩

/-! ### A request in mixed case -/

/-- A value without userinfo: the host is what stands before the port. -/
def plainCrates : HttpCrates where
  authorityHost := fun authority => some (authority.takeWhile (· != 58))
  toStr := some
  uriError := fun _ => none
  headerValueError := fun _ => none
  base64Decode := fun _ => none

/-- A POST with a port and a trailing dot in its Host header. -/
def mixedCaseRequest : Request where
  method := .post
  uri := ⟨utf8 "/dns-query", utf8 "/dns-query", none, none⟩
  headers := [(utf8 "host", utf8 "Home.EXAMPLE.com.:443"),
    (utf8 "content-type", utf8 "application/dns-message")]

theorem routed_by_sni_mixedCase :
    ∃ u, DoHServer.forwards plainCrates certifiedConfig (some (utf8 "hOmE.example.COM"))
        mixedCaseRequest (.complete (List.replicate 12 0)) = some u ∧
      authorityComponent u.uri = utf8 "home.example.cn:443" := by
  have hvalid : certifiedConfig.validate readyEnvironment = .ok () := by rfl
  have hrewrite : (createRewriter certifiedConfig.rewrite).rewrite (utf8 "hOmE.example.COM") =
      some ⟨utf8 "home.example.com", utf8 "home", utf8 "home.example.cn"⟩ := by rfl
  obtain ⟨u, hu⟩ : ∃ u, DoHServer.forwards plainCrates certifiedConfig
      (some (utf8 "hOmE.example.COM")) mixedCaseRequest (.complete (List.replicate 12 0)) =
        some u := ⟨_, rfl⟩
  obtain ⟨r, h⟩ := (routed_by_sni hvalid _ mixedCaseRequest).1 _ u hu
  have hr := h.rewritten
  rw [hrewrite] at hr
  cases hr
  exact ⟨u, hu, h.authority⟩

end DnsIngress
