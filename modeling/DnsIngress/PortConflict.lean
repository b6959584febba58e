import DnsIngress.Config

/-! # The port check and the endpoints that overlap

The check of `validate_structure` claims the endpoint of every enabled listener in a set, and fails
on the first that is there already (`claims_of_endpoints`).  Two listeners of one transport get in
each other's way also when one of them is bound to every address of a family (`Overlaps`);
`portCheck_exact` says for which configurations that makes a difference. -/

namespace DnsIngress

open Ascii

/-- An enabled listener, as the port check sees it. -/
structure BindConfig where
  name : Bytes
  transport : Transport
  bindAddress : Bytes
  port : UInt16

/-- What a listener claims. -/
abbrev Endpoint := Transport × IpAddr × UInt16

section
variable (env : Environment)

def BindConfig.endpoint (b : BindConfig) : Option Endpoint :=
  (env.parseSocketAddr (b.bindAddress ++ utf8 ":" ++ decimal b.port.toNat)).map
    fun addr => (b.transport, addr.ip, addr.port)

def BindConfig.claim (ports : Ports) (b : BindConfig) : Except Bytes Ports :=
  claimPort env b.name b.transport b.bindAddress b.port ports

/-- The enabled listeners, in the order of the check. -/
def AppConfig.enabledListeners (config : AppConfig) : List BindConfig :=
  (config.standardServers.filterMap fun (name, transport, server) =>
    if server.enabled then some ⟨name, transport, server.bindAddress, server.port⟩ else none) ++
  if config.servers.healthcheck.enabled then
    [⟨utf8 "healthcheck", .tcp, config.servers.healthcheck.bindAddress,
      config.servers.healthcheck.port⟩]
  else []

/-- The endpoints of the enabled listeners, if every address parses. -/
def AppConfig.endpoints (config : AppConfig) : Option (List Endpoint) :=
  config.enabledListeners.mapM (BindConfig.endpoint env)

end

/-- The text of a port conflict. -/
def portConflict (port : UInt16) : Bytes :=
  utf8 "Port conflict: " ++ decimal port.toNat ++ utf8 " is already used by another server"

variable {env : Environment} {config : AppConfig}

/-! ### The check as a set of claims -/

theorem claim_of_endpoint {b : BindConfig} {e : Endpoint} (h : b.endpoint env = some e)
    (ports : Ports) :
    b.claim env ports = if e ∈ ports then .error (portConflict e.2.2) else .ok (e :: ports) := by
  obtain ⟨addr, haddr, rfl⟩ := Option.map_eq_some_iff.mp h
  simp only [BindConfig.claim, claimPort, haddr, portConflict]

theorem claim_of_unparsed {b : BindConfig} (h : b.endpoint env = none) (ports : Ports) :
    ∃ e, b.claim env ports = .error e := by
  have haddr := Option.map_eq_none_iff.mp h
  simp only [BindConfig.claim, claimPort, haddr]
  exact ⟨_, rfl⟩

/-- **The claims of a list of listeners**: they all succeed iff no endpoint is claimed twice, and
the first that is makes the check fail. -/
theorem claims_of_endpoints {ls : List BindConfig} {eps : List Endpoint}
    (h : ls.mapM (BindConfig.endpoint env) = some eps) {ports : Ports} (hports : ports.Nodup) :
    ((eps ++ ports).Nodup ∧ ∃ ports', ls.foldlM (BindConfig.claim env) ports = .ok ports') ∨
    (¬ (eps ++ ports).Nodup ∧
      ∃ port, ls.foldlM (BindConfig.claim env) ports = .error (portConflict port)) := by
  induction ls generalizing eps ports with
  | nil =>
      rw [List.mapM_nil] at h
      cases h
      exact .inl ⟨hports, ports, rfl⟩
  | cons b ls ih =>
      rw [List.mapM_cons] at h
      obtain ⟨e, he, h⟩ := Option.bind_eq_some_iff.mp h
      obtain ⟨eps', heps, h⟩ := Option.bind_eq_some_iff.mp h
      cases h
      rw [List.foldlM_cons, claim_of_endpoint he]
      by_cases hmem : e ∈ ports
      · refine .inr ⟨?_, e.2.2, by rw [if_pos hmem]; rfl⟩
        intro hnodup
        rw [List.cons_append, List.nodup_cons] at hnodup
        exact hnodup.1 (List.mem_append_right _ hmem)
      · rw [if_neg hmem]
        have hperm : (e :: eps' ++ ports).Nodup ↔ (eps' ++ e :: ports).Nodup :=
          List.perm_middle.symm.nodup_iff
        rw [hperm]
        exact ih heps (List.nodup_cons.mpr ⟨hmem, hports⟩)

theorem claims_of_unparsed {ls : List BindConfig}
    (h : ls.mapM (BindConfig.endpoint env) = none) (ports : Ports) :
    ∃ e, ls.foldlM (BindConfig.claim env) ports = .error e := by
  induction ls generalizing ports with
  | nil => cases h
  | cons b ls ih =>
      rw [List.foldlM_cons]
      cases he : b.endpoint env with
      | none =>
          obtain ⟨e, hclaim⟩ := claim_of_unparsed he ports
          exact ⟨e, by rw [hclaim]; rfl⟩
      | some e =>
          have hls : ls.mapM (BindConfig.endpoint env) = none := by
            rw [List.mapM_cons, he] at h
            cases hls : ls.mapM (BindConfig.endpoint env) with
            | none => rfl
            | some eps => rw [hls] at h; cases h
          rw [claim_of_endpoint he]
          by_cases hmem : e ∈ ports
          · exact ⟨_, by rw [if_pos hmem]; rfl⟩
          · rw [if_neg hmem]
            exact ih hls _

/-- **The port check claims the endpoints of the enabled listeners.** -/
theorem checkPorts_eq (env : Environment) (config : AppConfig) :
    config.checkPorts env =
      (config.enabledListeners.foldlM (BindConfig.claim env) []).map fun _ => () := by
  have hservers : config.standardServers.foldlM (claimServer env) [] =
      (config.standardServers.filterMap fun (name, transport, server) =>
        if server.enabled then some (BindConfig.mk name transport server.bindAddress server.port)
        else none).foldlM (BindConfig.claim env) [] := by
    rw [List.foldlM_filterMap]
    congr 1
    funext ports ⟨name, transport, server⟩
    cases hen : server.enabled
    · simp only [claimServer, hen]
      rfl
    · simp only [claimServer, hen]
      rfl
  rw [AppConfig.checkPorts, AppConfig.enabledListeners, List.foldlM_append, hservers]
  cases List.foldlM (BindConfig.claim env) [] _ with
  | error e => rfl
  | ok ports =>
      cases hen : config.servers.healthcheck.enabled with
      | false => rfl
      | true =>
          simp only [if_true, List.foldlM_cons, List.foldlM_nil, bind_pure]
          show (claimPort _ _ _ _ _ _ >>= _) = (BindConfig.claim _ _ _).map _
          unfold BindConfig.claim
          cases claimPort env (utf8 "healthcheck") .tcp config.servers.healthcheck.bindAddress
            config.servers.healthcheck.port ports <;> rfl

theorem checkPorts_of_endpoints {eps : List Endpoint} (h : config.endpoints env = some eps) :
    (eps.Nodup ∧ config.checkPorts env = .ok ()) ∨
    (¬ eps.Nodup ∧ ∃ port, config.checkPorts env = .error (portConflict port)) := by
  have hclaims := claims_of_endpoints h List.nodup_nil
  rw [List.append_nil] at hclaims
  rcases hclaims with ⟨hnodup, ports, hok⟩ | ⟨hdup, port, herr⟩
  · exact .inl ⟨hnodup, by rw [checkPorts_eq, hok]; rfl⟩
  · exact .inr ⟨hdup, port, by rw [checkPorts_eq, herr]; rfl⟩

theorem endpoints_of_checkPorts (h : config.checkPorts env = .ok ()) :
    ∃ eps, config.endpoints env = some eps ∧ eps.Nodup := by
  cases heps : config.endpoints env with
  | none =>
      obtain ⟨e, herr⟩ := claims_of_unparsed heps []
      rw [checkPorts_eq, herr] at h
      cases h
  | some eps =>
      rcases checkPorts_of_endpoints heps with ⟨hnodup, -⟩ | ⟨-, port, herr⟩
      · exact ⟨eps, rfl, hnodup⟩
      · rw [herr] at h
        cases h

/-! ### No other check fails with a port conflict -/

def NoPortConflict (x : Except Bytes Unit) : Prop := ∀ port, x ≠ .error (portConflict port)

theorem noPortConflict_ok : NoPortConflict (.ok ()) := by
  rintro port ⟨⟩

theorem noPortConflict_error {b : UInt8} {text : Bytes} (hb : b ≠ 80) :
    NoPortConflict (.error (b :: text)) := by
  intro port h
  exact hb (List.cons.inj (Except.error.inj h)).1

theorem NoPortConflict.seq {x : Except Bytes Unit} {rest : Unit → Except Bytes Unit}
    (hx : NoPortConflict x) (hrest : NoPortConflict (rest ())) : NoPortConflict (x >>= rest) := by
  cases x with
  | ok _ => exact hrest
  | error e => exact hx

theorem noPortConflict_checkFile {b : UInt8} {text : Bytes} (hb : b ≠ 80) (path : Bytes) :
    NoPortConflict (checkFile env (b :: text) path) := by
  unfold checkFile
  split_ifs
  · exact noPortConflict_ok
  · exact noPortConflict_error hb

theorem noPortConflict_checkFiles : NoPortConflict (config.checkFiles env) := by
  have hrest : NoPortConflict (AppConfig.checkFiles env
      { config with tls := { config.tls with default := none } }) := by
    refine .seq ?_ ?_
    · induction config.tls.certs.entries with
      | nil => exact noPortConflict_ok
      | cons cert certs ih =>
          exact .seq (.seq (noPortConflict_checkFile (by decide) _)
            (noPortConflict_checkFile (by decide) _)) ih
    · simp only
      cases config.tls.upstreamCaFile with
      | none => exact noPortConflict_ok
      | some path => exact noPortConflict_checkFile (by decide) path
  unfold AppConfig.checkFiles
  cases config.tls.default with
  | none => exact hrest
  | some cert =>
      refine .seq (noPortConflict_checkFile (by decide) _) ?_
      exact .seq (noPortConflict_checkFile (by decide) _) hrest

theorem noPortConflict_rewrite (rewrite : RewriteConfig) : NoPortConflict rewrite.check := by
  unfold RewriteConfig.check
  split_ifs
  · exact noPortConflict_error (by decide)
  · exact noPortConflict_error (by decide)
  · exact noPortConflict_error (by decide)
  · exact noPortConflict_ok

theorem noPortConflict_limits (limits : LimitsConfig) : NoPortConflict limits.check := by
  unfold LimitsConfig.check
  split_ifs
  · exact noPortConflict_error (by decide)
  · exact noPortConflict_ok

theorem noPortConflict_certificates : NoPortConflict config.checkCertificates := by
  unfold AppConfig.checkCertificates
  split_ifs
  · exact noPortConflict_error (by decide)
  · exact noPortConflict_ok

theorem noPortConflict_checkPath {b : UInt8} {protocol : Bytes} (hb : b ≠ 80) (kind path : Bytes) :
    NoPortConflict (checkPath (b :: protocol) kind path) := by
  unfold checkPath
  split_ifs
  · exact noPortConflict_ok
  · exact noPortConflict_error hb

/-- A configuration that passes the port check is not rejected with a port conflict. -/
theorem noPortConflict_validateStructure (h : config.checkPorts env = .ok ()) :
    NoPortConflict (config.validateStructure env) := by
  have hpath (b : UInt8) (protocol kind path : Bytes) (hb : b ≠ 80) :
      NoPortConflict (checkPath (b :: protocol) kind path) := noPortConflict_checkPath hb kind path
  unfold AppConfig.validateStructure
  rw [h]
  refine .seq noPortConflict_ok ?_
  refine .seq noPortConflict_checkFiles ?_
  refine .seq (noPortConflict_rewrite _) ?_
  refine .seq (noPortConflict_limits _) ?_
  refine .seq noPortConflict_certificates ?_
  refine .seq (hpath 100 _ _ _ (by decide)) ?_
  refine .seq (hpath 100 _ _ _ (by decide)) ?_
  refine .seq (hpath 100 _ _ _ (by decide)) ?_
  exact hpath 100 _ _ _ (by decide)

/-! ### Endpoints that overlap -/

/-- `0.0.0.0` and `[::]`. -/
def IpAddr.isUnspecified : IpAddr → Bool
  | .v4 bits => bits = 0
  | .v6 bits => bits = 0

def IpAddr.isV4 : IpAddr → Bool
  | .v4 _ => true
  | .v6 _ => false

/-- Two listeners that cannot both be bound: one transport, one port that is not left to the system,
and one address of a family, or an address of the family and all of them. -/
def Overlaps (a b : Endpoint) : Prop :=
  a.1 = b.1 ∧ a.2.2 = b.2.2 ∧ a.2.2 ≠ 0 ∧ a.2.1.isV4 = b.2.1.isV4 ∧
    (a.2.1 = b.2.1 ∨ a.2.1.isUnspecified = true ∨ b.2.1.isUnspecified = true)

/-- The overlaps of two different endpoints: one of them has all the addresses of the family. -/
def WildcardClash (a b : Endpoint) : Prop :=
  a.1 = b.1 ∧ a.2.2 = b.2.2 ∧ a.2.2 ≠ 0 ∧ a.2.1.isV4 = b.2.1.isV4 ∧ a.2.1 ≠ b.2.1 ∧
    (a.2.1.isUnspecified = true ∨ b.2.1.isUnspecified = true)

/-- Two listeners that leave the port of one address to the system. -/
def SharePortZero (a b : Endpoint) : Prop :=
  a.1 = b.1 ∧ a.2.1 = b.2.1 ∧ a.2.2 = 0 ∧ b.2.2 = 0

theorem overlaps_iff_of_ne {a b : Endpoint} (h : a ≠ b) : Overlaps a b ↔ WildcardClash a b := by
  constructor
  · rintro ⟨ht, hp, hz, hf, hip⟩
    have hne : a.2.1 ≠ b.2.1 := fun hi => h (Prod.ext ht (Prod.ext hi hp))
    exact ⟨ht, hp, hz, hf, hne, hip.resolve_left hne⟩
  · rintro ⟨ht, hp, hz, hf, -, hip⟩
    exact ⟨ht, hp, hz, hf, .inr hip⟩

theorem ne_iff_of_not_overlaps {a b : Endpoint} (h : ¬ Overlaps a b) :
    a ≠ b ↔ ¬ SharePortZero a b := by
  constructor
  · rintro hne ⟨ht, hi, hz, hz'⟩
    exact hne (Prod.ext ht (Prod.ext hi (hz.trans hz'.symm)))
  · rintro hshare rfl
    by_cases hz : a.2.2 = 0
    · exact hshare ⟨rfl, rfl, hz, hz⟩
    · exact h ⟨rfl, rfl, hz, rfl, .inl rfl⟩

theorem pairwise_iff_of {α : Type} {r p q : α → α → Prop} (h : ∀ a b, r a b → (p a b ↔ q a b))
    {l : List α} (hl : l.Pairwise r) : l.Pairwise p ↔ l.Pairwise q := by
  constructor
  · intro hp
    exact hl.imp₂ (fun a b hr hpq => (h a b hr).mp hpq) hp
  · intro hq
    exact hl.imp₂ (fun a b hr hpq => (h a b hr).mpr hpq) hq

/-- No two enabled listeners overlap. -/
def NoOverlap (eps : List Endpoint) : Prop := eps.Pairwise fun a b => ¬ Overlaps a b

/-- **When the port check finds what overlaps, and only that.**  The listeners of an accepted
configuration do not overlap iff none of them has all the addresses of another; and a configuration
whose listeners do not overlap is not rejected with a port conflict iff no two of them share the
port zero of an address. -/
theorem portCheck_exact (env : Environment) (config : AppConfig) :
    (config.validateStructure env = .ok () → ∃ eps, config.endpoints env = some eps ∧
      (NoOverlap eps ↔ eps.Pairwise fun a b => ¬ WildcardClash a b)) ∧
    ∀ eps, config.endpoints env = some eps → NoOverlap eps →
      ((∀ port, config.validateStructure env ≠ .error (portConflict port)) ↔
        eps.Pairwise fun a b => ¬ SharePortZero a b) := by
  constructor
  · intro h
    simp only [AppConfig.validateStructure, seq_ok] at h
    obtain ⟨eps, heps, hnodup⟩ := endpoints_of_checkPorts h.1
    exact ⟨eps, heps, pairwise_iff_of (fun a b hne => not_congr (overlaps_iff_of_ne hne)) hnodup⟩
  · intro eps heps hover
    have hnodup : eps.Nodup ↔ eps.Pairwise fun a b => ¬ SharePortZero a b :=
      pairwise_iff_of (fun a b => ne_iff_of_not_overlaps) hover
    rw [← hnodup]
    rcases checkPorts_of_endpoints heps with ⟨hn, hok⟩ | ⟨hn, port, herr⟩
    · exact iff_of_true (noPortConflict_validateStructure hok) hn
    · refine iff_of_false (fun h => h port ?_) hn
      rw [AppConfig.validateStructure, herr]
      rfl

/-- The addresses of two listeners that parse, one of all addresses and one of the loopback. -/
def loopbackEnvironment : Environment where
  parseSocketAddr := fun addr =>
    if addr = utf8 "0.0.0.0:853" then some ⟨.v4 0, 853⟩
    else if addr = utf8 "127.0.0.1:853" then some ⟨.v4 0x7f000001, 853⟩
    else if addr = utf8 "127.0.0.1:0" then some ⟨.v4 0x7f000001, 0⟩
    else none
  fileExists := fun _ => true
  rootStoreError := fun _ => none

/-- A DoT and a DoH listener, and no other. -/
def twoListeners (dot doh : Bytes) (port : UInt16) : AppConfig :=
  { certifiedConfig with
    servers :=
      { dot := ⟨true, dot, port, defaultDohPath⟩
        doh := ⟨true, doh, port, defaultDohPath⟩
        doq := defaultServer false 853
        doh3 := defaultServer false 443
        healthcheck := { HealthcheckConfig.default with enabled := false } } }

/-- The port check accepts DoT on all addresses and DoH on one of them, and rejects two listeners
that both leave their port to the system. -/
theorem portCheck_exact_loopback :
    ((twoListeners (utf8 "0.0.0.0") (utf8 "127.0.0.1") 853).validateStructure loopbackEnvironment =
        .ok () ∧
      (twoListeners (utf8 "0.0.0.0") (utf8 "127.0.0.1") 853).endpoints loopbackEnvironment =
        some [(.tcp, .v4 0, 853), (.tcp, .v4 0x7f000001, 853)] ∧
      ¬ NoOverlap [(.tcp, .v4 0, 853), (.tcp, .v4 0x7f000001, 853)]) ∧
    (twoListeners (utf8 "127.0.0.1") (utf8 "127.0.0.1") 0).validateStructure loopbackEnvironment =
        .error (portConflict 0) ∧
      (twoListeners (utf8 "127.0.0.1") (utf8 "127.0.0.1") 0).endpoints loopbackEnvironment =
        some [(.tcp, .v4 0x7f000001, 0), (.tcp, .v4 0x7f000001, 0)] ∧
      NoOverlap [(.tcp, .v4 0x7f000001, 0), (.tcp, .v4 0x7f000001, 0)] := by
  refine ⟨⟨by decide +kernel, by decide +kernel, ?_⟩, by decide +kernel, by decide +kernel, ?_⟩
  · intro h
    have hne := List.rel_of_pairwise_cons h (List.mem_singleton_self _)
    exact hne ⟨rfl, rfl, by decide, rfl, .inr (.inl rfl)⟩
  · refine List.pairwise_pair.mpr ?_
    rintro ⟨-, -, hz, -⟩
    exact hz rfl

end DnsIngress
