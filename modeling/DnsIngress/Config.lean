import DnsIngress.Ascii
import DnsIngress.Error
import Mathlib.Data.List.AList
import Mathlib.Tactic.Tauto

/-! # The configuration (`config.rs`)

`AppConfig.validate` is `validate_structure` and the load of the outbound trust store.  What it
asks of the operating system is in `Environment`: the socket addresses that parse, the files that
exist, and the trust store a CA file gives.  An error is the text of its outermost context.

The logging section has no check and is left out; `tls.certs` is the map in one of its iteration
orders. -/

namespace DnsIngress

open Ascii

inductive IpAddr
  | v4 (bits : BitVec 32)
  | v6 (bits : BitVec 128)
deriving DecidableEq

structure SocketAddr where
  ip : IpAddr
  port : UInt16
deriving DecidableEq

structure RewriteConfig where
  baseDomains : List Bytes
  targetSuffix : Bytes

structure ServerPortConfig where
  enabled : Bool
  bindAddress : Bytes
  port : UInt16
  path : Bytes

structure HealthcheckConfig where
  enabled : Bool
  bindAddress : Bytes
  port : UInt16
  path : Bytes

structure ServersConfig where
  dot : ServerPortConfig
  doh : ServerPortConfig
  doq : ServerPortConfig
  doh3 : ServerPortConfig
  healthcheck : HealthcheckConfig

structure DnsUpstreamConfig where
  port : UInt16

structure HttpUpstreamConfig where
  port : UInt16
  path : Bytes

structure UpstreamConfig where
  dot : DnsUpstreamConfig
  doh : HttpUpstreamConfig
  doq : DnsUpstreamConfig
  doh3 : HttpUpstreamConfig

structure CertificateConfig where
  certFile : Bytes
  keyFile : Bytes

structure TlsConfig where
  default : Option CertificateConfig
  certs : AList fun _ : Bytes => CertificateConfig
  upstreamCaFile : Option Bytes

structure LimitsConfig where
  maxConnectionsPerListener : UInt64
  maxInflightRequestsPerConnection : UInt64
  maxUpstreamPoolEntries : UInt64
  transactionTimeoutSeconds : UInt64

structure AppConfig where
  rewrite : RewriteConfig
  servers : ServersConfig
  upstream : UpstreamConfig
  tls : TlsConfig
  limits : LimitsConfig

/-! ### Defaults -/

def defaultDohPath : Bytes := utf8 "/dns-query"

def defaultDnsPort : UInt16 := 853

def defaultHttpsPort : UInt16 := 443

def HealthcheckConfig.default : HealthcheckConfig where
  enabled := true
  bindAddress := utf8 "0.0.0.0"
  port := 8080
  path := utf8 "/health"

def LimitsConfig.default : LimitsConfig where
  maxConnectionsPerListener := 1024
  maxInflightRequestsPerConnection := 64
  maxUpstreamPoolEntries := 256
  transactionTimeoutSeconds := 30

/-- A listener of the default configuration. -/
def defaultServer (enabled : Bool) (port : UInt16) : ServerPortConfig where
  enabled := enabled
  bindAddress := utf8 "0.0.0.0"
  port := port
  path := defaultDohPath

def AppConfig.default : AppConfig where
  rewrite :=
    { baseDomains := [utf8 "example.com", utf8 "example.org"], targetSuffix := utf8 ".example.cn" }
  servers :=
    { dot := defaultServer true 853
      doh := defaultServer true 443
      doq := defaultServer true 853
      doh3 := defaultServer false 443
      healthcheck := .default }
  upstream :=
    { dot := ⟨defaultDnsPort⟩
      doh := ⟨defaultHttpsPort, defaultDohPath⟩
      doq := ⟨defaultDnsPort⟩
      doh3 := ⟨defaultHttpsPort, defaultDohPath⟩ }
  tls := { default := none, certs := ∅, upstreamCaFile := none }
  limits := .default

/-! ### Validation -/

/-- What `validate` asks of the standard library and the system. -/
structure Environment where
  /-- `addr.parse::<SocketAddr>()` -/
  parseSocketAddr : Bytes → Option SocketAddr
  /-- `std::fs::metadata(path)` succeeds -/
  fileExists : Bytes → Bool
  /-- `load_upstream_root_store(upstream_ca_file)`, if it fails -/
  rootStoreError : Option Bytes → Option DnsProxyError

inductive Transport
  | tcp | udp
deriving DecidableEq

def dot : UInt8 := 46

def startsWith (s : Bytes) (b : UInt8) : Bool := s.head? == some b

/-- A label of `is_ascii_dns_name`. -/
def isAsciiDnsLabel (label : Bytes) : Bool :=
  label != [] && label.length ≤ 63 && label.head?.any isAsciiAlphanumeric &&
    label.getLast?.any isAsciiAlphanumeric &&
    label.all fun b => isAsciiLowercase b || isAsciiDigit b || b == 45

def isAsciiDnsName (name : Bytes) : Bool :=
  name != [] && name.length ≤ 253 && (name.splitOn dot).all isAsciiDnsLabel

def isAsciiDnsSuffix (suffix : Bytes) : Bool :=
  startsWith suffix dot && isAsciiDnsName (suffix.drop 1)

abbrev Ports := List (Transport × IpAddr × UInt16)

/-- One listener of the port check. -/
def claimPort (env : Environment) (name : Bytes) (transport : Transport) (bindAddress : Bytes)
    (port : UInt16) (ports : Ports) : Except Bytes Ports :=
  let addr := bindAddress ++ utf8 ":" ++ decimal port.toNat
  match env.parseSocketAddr addr with
  | none => .error (utf8 "Invalid bind address for " ++ name ++ utf8 ": " ++ addr)
  | some socketAddr =>
      if (transport, socketAddr.ip, socketAddr.port) ∈ ports then
        .error (utf8 "Port conflict: " ++ decimal socketAddr.port.toNat ++
          utf8 " is already used by another server")
      else .ok ((transport, socketAddr.ip, socketAddr.port) :: ports)

def claimServer (env : Environment) (ports : Ports) :
    Bytes × Transport × ServerPortConfig → Except Bytes Ports
  | (name, transport, config) =>
      if config.enabled then claimPort env name transport config.bindAddress config.port ports
      else .ok ports

def AppConfig.standardServers (config : AppConfig) :
    List (Bytes × Transport × ServerPortConfig) :=
  [(utf8 "dot", .tcp, config.servers.dot), (utf8 "doh", .tcp, config.servers.doh),
    (utf8 "doq", .udp, config.servers.doq), (utf8 "doh3", .udp, config.servers.doh3)]

def AppConfig.checkPorts (env : Environment) (config : AppConfig) : Except Bytes Unit := do
  let ports ← config.standardServers.foldlM (claimServer env) []
  if config.servers.healthcheck.enabled then
    let _ ← claimPort env (utf8 "healthcheck") .tcp config.servers.healthcheck.bindAddress
      config.servers.healthcheck.port ports

def checkFile (env : Environment) (context path : Bytes) : Except Bytes Unit :=
  if env.fileExists path then .ok () else .error (context ++ path)

def AppConfig.checkFiles (env : Environment) (config : AppConfig) : Except Bytes Unit := do
  match config.tls.default with
  | none => pure ()
  | some cert =>
      checkFile env (utf8 "Default certificate file not found: ") cert.certFile
      checkFile env (utf8 "Default key file not found: ") cert.keyFile
  config.tls.certs.entries.forM fun ⟨domain, cert⟩ => do
    checkFile env (utf8 "Certificate file not found for " ++ domain ++ utf8 ": ") cert.certFile
    checkFile env (utf8 "Key file not found for " ++ domain ++ utf8 ": ") cert.keyFile
  match config.tls.upstreamCaFile with
  | none => pure ()
  | some path => checkFile env (utf8 "Upstream CA certificate file not found: ") path

def RewriteConfig.check (config : RewriteConfig) : Except Bytes Unit :=
  if config.baseDomains = [] then
    .error (utf8 "At least one base domain must be configured for SNI rewriting")
  else if !startsWith config.targetSuffix dot then
    .error (utf8 "Target suffix must start with '.' (e.g., '.example.cn')")
  else if config.baseDomains.any (fun domain => !isAsciiDnsName domain) ||
      !isAsciiDnsSuffix config.targetSuffix then
    .error (utf8 "Rewrite domains must be lowercase ASCII DNS names")
  else .ok ()

def LimitsConfig.check (config : LimitsConfig) : Except Bytes Unit :=
  if config.maxConnectionsPerListener = 0 ∨ config.maxInflightRequestsPerConnection = 0 ∨
      config.maxUpstreamPoolEntries = 0 ∨ config.transactionTimeoutSeconds = 0 then
    .error (utf8 "All resource limits must be greater than zero")
  else .ok ()

def AppConfig.checkCertificates (config : AppConfig) : Except Bytes Unit :=
  if (config.servers.dot.enabled || config.servers.doh.enabled || config.servers.doq.enabled ||
      config.servers.doh3.enabled) &&
      config.tls.default.isNone && config.tls.certs.entries = [] then
    .error (utf8
      "At least one TLS certificate is required when a DNS ingress listener is enabled")
  else .ok ()

/-- The path of an endpoint, upstream or listener. -/
def checkPath (protocol kind path : Bytes) : Except Bytes Unit :=
  if startsWith path 47 then .ok ()
  else .error (protocol ++ utf8 " " ++ kind ++ utf8 " path must start with '/'")

/-- `validate_structure`. -/
def AppConfig.validateStructure (env : Environment) (config : AppConfig) : Except Bytes Unit := do
  config.checkPorts env
  config.checkFiles env
  config.rewrite.check
  config.limits.check
  config.checkCertificates
  checkPath (utf8 "doh") (utf8 "upstream") config.upstream.doh.path
  checkPath (utf8 "doh3") (utf8 "upstream") config.upstream.doh3.path
  checkPath (utf8 "doh") (utf8 "listener") config.servers.doh.path
  checkPath (utf8 "doh3") (utf8 "listener") config.servers.doh3.path

/-- `validate`. -/
def AppConfig.validate (env : Environment) (config : AppConfig) : Except Bytes Unit := do
  config.validateStructure env
  match env.rootStoreError config.tls.upstreamCaFile with
  | some error => .error (utf8 "Invalid upstream CA certificate bundle: " ++ error.display)
  | none => pure ()

/-! ### What an accepted configuration satisfies -/

/-- The checks of an accepted configuration. -/
structure AppConfig.Validated (env : Environment) (config : AppConfig) : Prop where
  ports : config.checkPorts env = .ok ()
  files : config.checkFiles env = .ok ()
  rewrite : config.rewrite.check = .ok ()
  limits : config.limits.check = .ok ()
  certificates : config.checkCertificates = .ok ()
  dohUpstreamPath : startsWith config.upstream.doh.path 47 = true
  doh3UpstreamPath : startsWith config.upstream.doh3.path 47 = true
  dohListenerPath : startsWith config.servers.doh.path 47 = true
  doh3ListenerPath : startsWith config.servers.doh3.path 47 = true

variable {env : Environment} {config : AppConfig}

theorem bind_eq_ok {ε α β : Type} {x : Except ε α} {f : α → Except ε β} {b : β} :
    (x >>= f) = .ok b ↔ ∃ a, x = .ok a ∧ f a = .ok b := by
  cases x with
  | ok a => exact ⟨fun h => ⟨a, rfl, h⟩, by rintro ⟨_, ⟨⟩, h⟩; exact h⟩
  | error _ =>
      constructor
      · rintro ⟨⟩
      · rintro ⟨_, ⟨⟩, -⟩

theorem seq_ok {x : Except Bytes Unit} {rest : Unit → Except Bytes Unit} :
    (x >>= rest) = .ok () ↔ x = .ok () ∧ rest () = .ok () := by
  rw [bind_eq_ok]
  exact ⟨fun ⟨_, h⟩ => h, fun h => ⟨(), h⟩⟩

theorem checkPath_ok {protocol kind path : Bytes} :
    checkPath protocol kind path = .ok () ↔ startsWith path 47 = true := by
  unfold checkPath
  split <;> simp_all

theorem AppConfig.validate_ok (h : config.validate env = .ok ()) : config.Validated env := by
  simp only [AppConfig.validate, AppConfig.validateStructure, seq_ok, checkPath_ok] at h
  obtain ⟨⟨hports, hfiles, hrewrite, hlimits, hcerts, h₁, h₂, h₃, h₄⟩, -⟩ := h
  exact ⟨hports, hfiles, hrewrite, hlimits, hcerts, h₁, h₂, h₃, h₄⟩

theorem RewriteConfig.check_ok {config : RewriteConfig} :
    config.check = .ok () ↔ config.baseDomains ≠ [] ∧
      (∀ domain ∈ config.baseDomains, isAsciiDnsName domain = true) ∧
      isAsciiDnsSuffix config.targetSuffix = true := by
  unfold RewriteConfig.check
  constructor
  · intro h
    split at h
    · cases h
    · next hne =>
        split at h
        · cases h
        · split at h
          · cases h
          · next hnames =>
              simp only [Bool.or_eq_true, not_or, List.any_eq_true, not_exists] at hnames
              exact ⟨hne, by simpa using hnames.1, by simpa using hnames.2⟩
  · rintro ⟨hne, hnames, hsuffix⟩
    have hdot : startsWith config.targetSuffix dot = true := by
      simp only [isAsciiDnsSuffix, Bool.and_eq_true] at hsuffix
      exact hsuffix.1
    have hany : config.baseDomains.any (fun domain => !isAsciiDnsName domain) = false := by
      simpa using hnames
    simp only [hne, hdot, hany, hsuffix, if_false, Bool.not_true, Bool.or_self, Bool.false_eq_true]

/-- A byte of a canonical DNS name. -/
def isHostByte (b : UInt8) : Bool := isAsciiLowercase b || isAsciiDigit b || b == dot || b == 45

theorem isHostByte_of_isAsciiDnsName {name : Bytes} (h : isAsciiDnsName name = true) :
    ∀ b ∈ name, isHostByte b = true := by
  intro b hb
  simp only [isAsciiDnsName, Bool.and_eq_true, List.all_eq_true] at h
  rcases mem_splitOn_or (c := dot) hb with rfl | ⟨label, hlabel, hb⟩
  · rfl
  · have hl := h.2 label hlabel
    simp only [isAsciiDnsLabel, Bool.and_eq_true, List.all_eq_true] at hl
    have := hl.2 b hb
    simp only [isHostByte, Bool.or_eq_true] at this ⊢
    tauto

theorem ne_nil_of_isAsciiDnsName {x y : Bytes} (h : isAsciiDnsName (x ++ dot :: y) = true) :
    x ≠ [] ∧ y ≠ [] := by
  simp only [isAsciiDnsName, Bool.and_eq_true, List.all_eq_true,
    List.splitOn_append_cons_self] at h
  constructor
  · rintro rfl
    cases h.2 [] (by simp)
  · rintro rfl
    cases h.2 [] (by simp)

theorem trimEndMatches_append_of_isAsciiDnsName {name : Bytes} (s : Bytes)
    (h : isAsciiDnsName name = true) : trimEndMatches dot (s ++ name) = s ++ name := by
  have hne : name ≠ [] := by
    rintro rfl
    cases h
  refine List.rdropWhile_eq_self_iff.mpr fun _ hlast => ?_
  rw [List.getLast_append_of_ne_nil _ hne, beq_iff_eq] at hlast
  rw [← List.dropLast_append_getLast hne, hlast] at h
  exact (ne_nil_of_isAsciiDnsName h).2 rfl

theorem trimEndMatches_of_isAsciiDnsName {name : Bytes} (h : isAsciiDnsName name = true) :
    trimEndMatches dot name = name :=
  trimEndMatches_append_of_isAsciiDnsName [] h

theorem isHostByte_of_isAsciiDnsSuffix {suffix : Bytes} (h : isAsciiDnsSuffix suffix = true) :
    ∀ b ∈ suffix, isHostByte b = true := by
  simp only [isAsciiDnsSuffix, Bool.and_eq_true] at h
  cases suffix with
  | nil => simp
  | cons a suffix =>
      have ha : a = dot := by simpa [startsWith] using h.1
      intro b hb
      rcases List.mem_cons.mp hb with rfl | hb
      · rw [ha]
        rfl
      · exact isHostByte_of_isAsciiDnsName h.2 b hb

/-- The addresses of the default listeners parse, and all files are there. -/
def readyEnvironment : Environment where
  parseSocketAddr := fun addr =>
    ([853, 443, 8080].find? fun port : UInt16 =>
      addr = utf8 "0.0.0.0:" ++ decimal port.toNat).map fun port => ⟨.v4 0, port⟩
  fileExists := fun _ => true
  rootStoreError := fun _ => none

/-- The default configuration with a certificate. -/
def certifiedConfig : AppConfig :=
  { AppConfig.default with
    tls := { AppConfig.default.tls with default := some ⟨utf8 "cert.pem", utf8 "key.pem"⟩ } }

end DnsIngress
