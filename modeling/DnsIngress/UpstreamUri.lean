import DnsIngress.Base64
import DnsIngress.DohValidation

/-! # The path and the query of the upstream URI

The upstream URI is put together from the target, the port, the configured path and the client's
query.  `pathComponent` and `queryComponent` take it apart again, as the grammar of URIs does: the
path ends at the first question mark or number sign, the query at the first number sign.

`upstreamUri_components`: they give back what was configured and asked iff the configured path is a
path. -/

namespace DnsIngress

open Ascii

/-- A question mark or a number sign. -/
def endsPath (b : UInt8) : Bool := b == 63 || b == 35

/-- The part of a URI that follows its authority. -/
def afterAuthority (uri : Bytes) : Bytes :=
  (afterDoubleSlash uri).dropWhile fun b => !endsAuthority b

def pathComponent (uri : Bytes) : Bytes := (afterAuthority uri).takeWhile fun b => !endsPath b

def queryComponent (uri : Bytes) : Option Bytes :=
  match (afterAuthority uri).dropWhile fun b => !endsPath b with
  | 63 :: rest => some (rest.takeWhile (· != 35))
  | _ => none

/-- The path and the query of a URI. -/
def SplitsInto (uri path : Bytes) (query : Option Bytes) : Prop :=
  pathComponent uri = path ∧ queryComponent uri = query

/-- A path that no query or fragment follows. -/
def IsPath (path : Bytes) : Prop := path.all (fun b => !endsPath b) = true

instance (path : Bytes) : Decidable (IsPath path) := inferInstanceAs (Decidable (_ = true))

/-! ### Splitting what has been put together -/

theorem takeWhile_append_eq_iff {α : Type} {p : α → Bool} {l tail : List α}
    (htail : tail.takeWhile p = []) :
    (l ++ tail).takeWhile p = l ↔ ∀ a ∈ l, p a = true := by
  constructor
  · intro h a ha
    rw [← h] at ha
    exact List.mem_takeWhile_imp ha
  · intro h
    rw [List.takeWhile_append_of_pos h, htail, List.append_nil]

theorem afterAuthority_https {host rest : Bytes}
    (hhost : ∀ b ∈ host, endsAuthority b = false) (hrest : startsWith rest 47 = true) :
    afterAuthority (utf8 "https://" ++ (host ++ rest)) = rest := by
  rw [afterAuthority, afterDoubleSlash_https,
    List.dropWhile_append_of_pos fun b hb => by rw [hhost b hb]; rfl]
  cases rest with
  | nil => simp [startsWith] at hrest
  | cons b rest =>
      have hb : b = 47 := by simpa [startsWith] using hrest
      rw [hb, List.dropWhile_cons_of_neg (by decide)]

theorem afterAuthority_upstreamUri {target : Bytes} {endpoint : HttpUpstreamConfig}
    (query : Option Bytes) (htarget : ∀ b ∈ target, isHostByte b = true)
    (hpath : startsWith endpoint.path 47 = true) :
    afterAuthority (upstreamUri target endpoint query) = pathAndQuery endpoint query := by
  rw [upstreamUri_eq]
  exact afterAuthority_https (endsAuthority_origin htarget endpoint.port)
    (startsWith_pathAndQuery hpath query)

/-- **The pieces of an upstream URI come back iff the path is one.** -/
theorem splitsInto_upstreamUri {target : Bytes} {endpoint : HttpUpstreamConfig}
    {query : Option Bytes} (htarget : ∀ b ∈ target, isHostByte b = true)
    (hpath : startsWith endpoint.path 47 = true) (hquery : ∀ q, query = some q → 35 ∉ q) :
    SplitsInto (upstreamUri target endpoint query) endpoint.path query ↔ IsPath endpoint.path := by
  have htail : (query.elim [] (utf8 "?" ++ ·)).takeWhile (fun b => !endsPath b) = [] := by
    cases query <;> rfl
  have hiff : pathComponent (upstreamUri target endpoint query) = endpoint.path ↔
      IsPath endpoint.path := by
    rw [pathComponent, afterAuthority_upstreamUri query htarget hpath, pathAndQuery,
      takeWhile_append_eq_iff htail, IsPath, List.all_eq_true]
  refine ⟨fun h => hiff.mp h.1, fun h => ⟨hiff.mpr h, ?_⟩⟩
  have hdrop : ∀ b ∈ endpoint.path, (!endsPath b) = true := List.all_eq_true.mp h
  rw [queryComponent, afterAuthority_upstreamUri query htarget hpath, pathAndQuery,
    List.dropWhile_append_of_pos hdrop]
  cases query with
  | none => rfl
  | some q =>
      have hq : q.takeWhile (· != 35) = q := by
        rw [List.takeWhile_eq_self_iff]
        intro b hb
        simp only [bne_iff_ne, ne_eq]
        rintro rfl
        exact hquery q rfl hb
      show some (q.takeWhile (· != 35)) = some q
      rw [hq]

/-! ### What the listeners forward -/

variable {env : Environment} {crates : HttpCrates} {config : AppConfig} {req : Request}

/-- **The upstream is asked for the configured path and the client's query iff the configured path
is a path**, over DoH and over DoH3. -/
theorem upstreamUri_components (hvalid : config.validate env = .ok ()) (sni : Bytes)
    (hquery : ∀ q, req.uri.query = some q → 35 ∉ q) :
    (∀ received u, DoHServer.forwards crates config (some sni) req received = some u →
      (SplitsInto u.uri config.upstream.doh.path req.uri.query ↔
        IsPath config.upstream.doh.path)) ∧
    ∀ received u, DoH3Server.forwards crates config (some sni) req received = some u →
      (SplitsInto u.uri config.upstream.doh3.path req.uri.query ↔
        IsPath config.upstream.doh3.path) := by
  have hconfig := AppConfig.validate_ok hvalid
  constructor
  · intro received u hu
    obtain ⟨r, body, hr, -, hu⟩ := DoHServer.forwards_validated hu
    obtain ⟨-, huri, -⟩ := forwardHttpRequest_ok (congrArg Except.toOption hu)
    obtain ⟨-, -, hbytes⟩ := rewrite_some hconfig.rewrite hr
    rw [huri]
    exact splitsInto_upstreamUri hbytes hconfig.dohUpstreamPath hquery
  · intro received u hu
    obtain ⟨r, body, hr, -, hu⟩ := DoH3Server.forwards_validated hu
    obtain ⟨-, huri, -⟩ := forwardHttp3Request_ok (congrArg Except.toOption hu)
    obtain ⟨-, -, hbytes⟩ := rewrite_some hconfig.rewrite hr
    rw [huri]
    exact splitsInto_upstreamUri hbytes hconfig.doh3UpstreamPath hquery

/-- A `base64` crate that keeps its promise. -/
def decodingCrates : HttpCrates where
  __ := plainCrates
  base64Decode := Base64.urlSafe.decode

/-- A GET request with this query. -/
def getRequest (query : Bytes) : Request where
  method := .get
  uri := ⟨utf8 "/dns-query?" ++ query, utf8 "/dns-query", some query, none⟩
  headers := [(utf8 "host", utf8 "home.example.com")]

theorem upstreamUri_components_get :
    ∃ u, DoHServer.forwards decodingCrates certifiedConfig (some (utf8 "home.example.com"))
        (getRequest (utf8 "dns=AAAAAAAAAAAAAAAA")) .stalled = some u ∧
      SplitsInto u.uri (utf8 "/dns-query") (some (utf8 "dns=AAAAAAAAAAAAAAAA")) := by
  have hvalid : certifiedConfig.validate readyEnvironment = .ok () := by rfl
  have hquery : ∀ q, (getRequest (utf8 "dns=AAAAAAAAAAAAAAAA")).uri.query = some q → 35 ∉ q := by
    rintro q ⟨⟩
    decide
  obtain ⟨u, hu⟩ : ∃ u, DoHServer.forwards decodingCrates certifiedConfig
      (some (utf8 "home.example.com")) (getRequest (utf8 "dns=AAAAAAAAAAAAAAAA")) .stalled =
        some u := ⟨_, rfl⟩
  exact ⟨u, hu, ((upstreamUri_components hvalid _ hquery).1 _ u hu).mpr (by decide +kernel)⟩

/-- An upstream path with a parameter of its own. -/
def parameterConfig : AppConfig :=
  { certifiedConfig with
    upstream :=
      { certifiedConfig.upstream with
        doh := ⟨443, utf8 "/dns-query?ct=1"⟩
        doh3 := ⟨443, utf8 "/dns-query?ct=1"⟩ } }

/-- It is accepted, and the upstream is asked for another path and another query. -/
theorem not_splitsInto_parameterConfig :
    parameterConfig.validate readyEnvironment = .ok () ∧
    (∃ u, DoHServer.forwards decodingCrates parameterConfig (some (utf8 "home.example.com"))
        (getRequest (utf8 "dns=AAAAAAAAAAAAAAAA")) .stalled = some u ∧
      pathComponent u.uri = utf8 "/dns-query" ∧
      queryComponent u.uri = some (utf8 "ct=1?dns=AAAAAAAAAAAAAAAA") ∧
      ¬ SplitsInto u.uri parameterConfig.upstream.doh.path (some (utf8 "dns=AAAAAAAAAAAAAAAA"))) ∧
    ∃ u, DoH3Server.forwards decodingCrates parameterConfig (some (utf8 "home.example.com"))
        (getRequest (utf8 "dns=AAAAAAAAAAAAAAAA")) none = some u ∧
      ¬ SplitsInto u.uri parameterConfig.upstream.doh3.path
        (some (utf8 "dns=AAAAAAAAAAAAAAAA")) := by
  refine ⟨by rfl, ⟨_, rfl, by decide +kernel, by decide +kernel, ?_⟩, ⟨_, rfl, ?_⟩⟩
  · rintro ⟨hpath, -⟩
    exact absurd hpath (by decide +kernel)
  · rintro ⟨hpath, -⟩
    exact absurd hpath (by decide +kernel)

end DnsIngress
