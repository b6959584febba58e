import DnsIngress.Rewriter

/-! # HTTP requests (`proxy/http.rs`, `readers/doh3.rs`, `upstream/`)

What DoH and DoH3 share: the request, its checks, and the request that is sent upstream.

* `HttpCrates` is what the code calls of the `http` and `base64` crates; nothing is assumed of it.
* A `HeaderMap` is the list of its fields, in the order of insertion within a name.
* `ReceivedBody` is what reading the client's body gives.
* `ForwardCall` is the arguments of `forward_http_request` and `forward_http3_request`, and
  `UpstreamRequest` the request that these build. -/

namespace DnsIngress

open Ascii

structure HttpCrates where
  /-- `host()` of a value that parses as an `Authority` -/
  authorityHost : Bytes → Option Bytes
  /-- `HeaderValue::to_str` -/
  toStr : Bytes → Option Bytes
  /-- the error of `uri(..)` in a request builder -/
  uriError : Bytes → Option Bytes
  /-- the error of `parse::<HeaderValue>()` -/
  headerValueError : Bytes → Option Bytes
  /-- `URL_SAFE_NO_PAD.decode` -/
  base64Decode : Bytes → Option Bytes

inductive Method
  | get
  | post
  | other (name : Bytes)
deriving DecidableEq

def Method.display : Method → Bytes
  | .get => utf8 "GET"
  | .post => utf8 "POST"
  | .other name => name

structure Uri where
  text : Bytes
  path : Bytes
  query : Option Bytes
  authority : Option Bytes

abbrev HeaderMap := List (Bytes × Bytes)

/-- `insert` replaces the values of a name. -/
def HeaderMap.insert (headers : HeaderMap) (name value : Bytes) : HeaderMap :=
  headers.filter (·.1 ≠ name) ++ [(name, value)]

structure Request where
  method : Method
  uri : Uri
  headers : HeaderMap

inductive ReceivedBody
  | complete (body : Bytes)
  | stalled
  | tooLarge
  | failed (reason : Bytes)

/-- `normalize_hostname`. -/
def normalizeHostname (crates : HttpCrates) (authority : Bytes) : Option Bytes :=
  match crates.authorityHost authority with
  | none => none
  | some host =>
      let host := toAsciiLowercase (trimEndMatches dot host)
      if host ≠ [] ∧ host.all (fun b => isAsciiAlphanumeric b || b == dot || b == 45) then some host
      else none

/-- The Host header of a request, or else the authority of its URI. -/
def Request.host (crates : HttpCrates) (req : Request) : Option Bytes :=
  ((req.headers.lookup (utf8 "host")).bind crates.toStr).or req.uri.authority

def Request.contentType (crates : HttpCrates) (req : Request) : Option Bytes :=
  (req.headers.lookup (utf8 "content-type")).bind crates.toStr

def maxDnsMessageSize : ℕ := 65535

def validateDnsMessage (message context : Bytes) : Except Bytes Unit :=
  if 12 ≤ message.length ∧ message.length ≤ maxDnsMessageSize then .ok ()
  else .error (context ++ utf8 " must contain one DNS message between 12 and 65535 bytes")

def isDnsMessageContentType (value : Option Bytes) : Bool :=
  value.any fun value =>
    eqIgnoreAsciiCase (trim (value.takeWhile (· != 59))) (utf8 "application/dns-message")

/-- The first parameter named `dns`. -/
def dnsParameter (query : Bytes) : Option Bytes :=
  (query.splitOn 38).findSome? fun parameter =>
    (splitOnce 61 parameter).bind fun (name, value) =>
      if name = utf8 "dns" then some value else none

def validateDohGetQuery (crates : HttpCrates) (uri : Uri) (protocol : Bytes) :
    Except Bytes Unit :=
  match uri.query.bind dnsParameter with
  | none => .error (protocol ++ utf8 " GET requests require a non-empty dns query parameter")
  | some [] => .error (protocol ++ utf8 " dns query parameter must be unpadded base64url")
  | some parameter =>
      match crates.base64Decode parameter with
      | none => .error (protocol ++ utf8 " dns query parameter must be unpadded base64url")
      | some message => validateDnsMessage message (protocol ++ utf8 " GET dns query parameter")

/-! ### The upstream request -/

/-- `format!("https://{}:{}{}{}", target, endpoint.port, endpoint.path, query)`. -/
def upstreamUri (target : Bytes) (endpoint : HttpUpstreamConfig) (query : Option Bytes) : Bytes :=
  utf8 "https://" ++ target ++ utf8 ":" ++ decimal endpoint.port.toNat ++ endpoint.path ++
    query.elim [] (utf8 "?" ++ ·)

structure ForwardCall where
  upstreamUri : Bytes
  targetHostname : Bytes
  method : Method
  headers : HeaderMap
  body : Bytes

structure UpstreamRequest (κ : Type) where
  /-- the key its connection is taken from the pool with -/
  poolKey : κ
  method : Method
  uri : Bytes
  headers : HeaderMap
  body : Bytes

def allowedHeaders : List Bytes := [utf8 "accept", utf8 "content-type"]

/-- The loop over the client's header fields. -/
def forwardedHeaders (headers : HeaderMap) : HeaderMap :=
  headers.foldl
    (fun out field => if field.1 ∈ allowedHeaders then out.insert field.1 field.2 else out) []

/-- The request of `forward_http_request`. -/
def forwardHttpRequest (crates : HttpCrates) (call : ForwardCall) :
    Except Bytes (UpstreamRequest Bytes) :=
  match crates.uriError call.upstreamUri with
  | some _ =>
      .error (utf8 "Failed to build HTTP request: " ++ call.method.display ++ utf8 " " ++
        call.upstreamUri ++ utf8 " (target: " ++ call.targetHostname ++ utf8 ")")
  | none =>
      match crates.headerValueError call.targetHostname with
      | some _ => .error (utf8 "Invalid target hostname: " ++ call.targetHostname)
      | none =>
          .ok
            { poolKey := call.targetHostname
              method := call.method
              uri := call.upstreamUri
              headers := (forwardedHeaders call.headers).insert (utf8 "host") call.targetHostname
              body := call.body }

/-- The request of `forward_http3_request`. -/
def forwardHttp3Request (crates : HttpCrates) (call : ForwardCall) (port : UInt16) :
    Except DnsProxyError (UpstreamRequest (Bytes × UInt16)) :=
  match crates.uriError call.upstreamUri with
  | some error => .error (.protocol (utf8 "Invalid HTTP/3 request: " ++ error))
  | none =>
      match crates.headerValueError call.targetHostname with
      | some error => .error (.protocol (utf8 "Invalid upstream Host header: " ++ error))
      | none =>
          .ok
            { poolKey := (call.targetHostname, port)
              method := call.method
              uri := call.upstreamUri
              headers := (forwardedHeaders call.headers).insert (utf8 "host") call.targetHostname
              body := call.body }

/-- The bytes after the first `//`. -/
def afterDoubleSlash : Bytes → Bytes
  | 47 :: 47 :: rest => rest
  | _ :: rest => afterDoubleSlash rest
  | [] => []

/-- A slash, a question mark or a number sign. -/
def endsAuthority (b : UInt8) : Bool := b == 47 || b == 63 || b == 35

/-- The authority component of a URI. -/
def authorityComponent (uri : Bytes) : Bytes :=
  (afterDoubleSlash uri).takeWhile fun b => !endsAuthority b

/-! ### The authority of the upstream URI -/

theorem isAsciiDigit_decimal (n : ℕ) : ∀ b ∈ decimal n, isAsciiDigit b = true := by
  have hbytes : decimal n = (Nat.toDigits 10 n).flatMap String.utf8EncodeChar := by
    simp [decimal, utf8, List.utf8Encode, Nat.repr]
  intro b hb
  rw [hbytes, List.mem_flatMap] at hb
  obtain ⟨c, hc, hb⟩ := hb
  have hdigit := Nat.isDigit_of_mem_toDigits (by decide) (by decide) hc
  simp only [Char.isDigit, Bool.and_eq_true, decide_eq_true_eq, ge_iff_le,
    UInt32.le_iff_toNat_le] at hdigit
  have hlow : 48 ≤ c.val.toNat := hdigit.1
  have hhigh : c.val.toNat ≤ 57 := hdigit.2
  have hsize : c.utf8Size = 1 := by
    rw [Char.utf8Size, if_pos]
    rw [UInt32.le_iff_toNat_le]
    exact hhigh.trans (by decide)
  rw [String.utf8EncodeChar_eq_singleton hsize, List.mem_singleton] at hb
  have hnat : b.toNat = c.val.toNat := by
    rw [hb, UInt32.toNat_toUInt8]
    omega
  simp only [isAsciiDigit, Bool.and_eq_true, decide_eq_true_eq, UInt8.le_iff_toNat_le, hnat]
  exact ⟨hlow, hhigh⟩

theorem afterDoubleSlash_https (rest : Bytes) : afterDoubleSlash (utf8 "https://" ++ rest) = rest :=
  rfl

theorem endsAuthority_cases {b : UInt8} (h : endsAuthority b = true) :
    isHostByte b = false ∧ isAsciiDigit b = false ∧ b ≠ 58 := by
  simp only [endsAuthority, Bool.or_eq_true, beq_iff_eq] at h
  rcases h with (rfl | rfl) | rfl <;> decide

/-- No byte of the first part ends an authority component, the first byte of the rest does. -/
theorem authorityComponent_https {host rest : Bytes}
    (hhost : ∀ b ∈ host, endsAuthority b = false)
    (hrest : startsWith rest 47 = true) :
    authorityComponent (utf8 "https://" ++ (host ++ rest)) = host := by
  rw [authorityComponent, afterDoubleSlash_https,
    List.takeWhile_append_of_pos fun b hb => by rw [hhost b hb]; rfl]
  cases rest with
  | nil => simp [startsWith] at hrest
  | cons b rest =>
      have hb : b = 47 := by simpa [startsWith] using hrest
      rw [hb, List.takeWhile_cons_of_neg (by decide), List.append_nil]

theorem endsAuthority_origin {target : Bytes} (htarget : ∀ b ∈ target, isHostByte b = true)
    (port : UInt16) :
    ∀ b ∈ target ++ utf8 ":" ++ decimal port.toNat, endsAuthority b = false := by
  intro b hb
  rw [Bool.eq_false_iff]
  intro hend
  obtain ⟨hhost, hdigit, hcolon⟩ := endsAuthority_cases hend
  rcases List.mem_append.mp hb with hb | hb
  · rcases List.mem_append.mp hb with hb | hb
    · exact Bool.false_ne_true (hhost.symm.trans (htarget b hb))
    · exact hcolon (List.mem_singleton.mp hb)
  · exact Bool.false_ne_true (hdigit.symm.trans (isAsciiDigit_decimal _ b hb))

/-- The path and the query, as they follow the authority. -/
def pathAndQuery (endpoint : HttpUpstreamConfig) (query : Option Bytes) : Bytes :=
  endpoint.path ++ query.elim [] (utf8 "?" ++ ·)

theorem upstreamUri_eq (target : Bytes) (endpoint : HttpUpstreamConfig) (query : Option Bytes) :
    upstreamUri target endpoint query = utf8 "https://" ++
      ((target ++ utf8 ":" ++ decimal endpoint.port.toNat) ++ pathAndQuery endpoint query) := by
  simp [upstreamUri, pathAndQuery]

theorem startsWith_pathAndQuery {endpoint : HttpUpstreamConfig}
    (hpath : startsWith endpoint.path 47 = true) (query : Option Bytes) :
    startsWith (pathAndQuery endpoint query) 47 = true := by
  rw [pathAndQuery]
  cases hp : endpoint.path with
  | nil => simp [hp, startsWith] at hpath
  | cons b path => simpa [hp, startsWith] using hpath

/-- **The authority of an upstream URI** is the target and the port. -/
theorem authorityComponent_upstreamUri {target : Bytes} {endpoint : HttpUpstreamConfig}
    (query : Option Bytes) (htarget : ∀ b ∈ target, isHostByte b = true)
    (hpath : startsWith endpoint.path 47 = true) :
    authorityComponent (upstreamUri target endpoint query) =
      target ++ utf8 ":" ++ decimal endpoint.port.toNat := by
  rw [upstreamUri_eq]
  exact authorityComponent_https (endsAuthority_origin htarget endpoint.port)
    (startsWith_pathAndQuery hpath query)

theorem HeaderMap.filter_insert (headers : HeaderMap) (name value : Bytes) :
    (headers.insert name value).filter (·.1 = name) = [(name, value)] := by
  simp [HeaderMap.insert, List.filter_append, List.filter_filter]

end DnsIngress
