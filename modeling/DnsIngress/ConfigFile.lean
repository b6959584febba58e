import DnsIngress.Config
import DnsIngress.Toml

/-! # The configuration file (`config.rs`)

The derived `Deserialize` of the configuration types, as codecs of TOML records: their fields in
the order of the source, with the defaults of their attributes, and `deny_unknown_fields` on all of
them.  `fromFile` parses a file twice: as a `toml::Value`, to look for fields that version 1 had,
and then as an `AppConfig`.

* The text of a document goes through the TOML grammar first, which is a parameter.
* `DescribedBy` is what a document has to say for a configuration, section by section: the fields
  that have to be there, the defaults of the others, the ranges of the integers, and no other key.
* `fromFile_exact`: a file is accepted if it describes a configuration in 64-bit integers, and the
  look for removed fields changes the text of an error, and not which files are accepted. -/

namespace DnsIngress

open Toml Toml.Fields

structure LoggingConfig where
  level : Bytes
  file : Option Bytes
  json : Bool
  rotation : Bool
  maxFileSize : UInt64
  maxFiles : UInt64

/-- `LoggingConfig::default`. -/
def LoggingConfig.default : LoggingConfig where
  level := utf8 "info"
  file := none
  json := false
  rotation := true
  maxFileSize := 10 * 1024 * 1024
  maxFiles := 5

/-- `TlsConfig::default`. -/
def TlsConfig.empty : TlsConfig where
  default := none
  certs := ∅
  upstreamCaFile := none

/-- An `AppConfig` with its logging section. -/
structure ConfigFile extends AppConfig where
  logging : LoggingConfig

/-! ### The records -/

def RewriteConfig.fields : Fields RewriteConfig :=
  (field (utf8 "base_domains") (list string) |>.pair <|
    field (utf8 "target_suffix") string).iso
    (fun (baseDomains, targetSuffix) => ⟨baseDomains, targetSuffix⟩)
    (fun c => (c.baseDomains, c.targetSuffix)) fun _ => rfl

def RewriteConfig.record : Codec RewriteConfig := RewriteConfig.fields.record (by decide)

def ServerPortConfig.fields : Fields ServerPortConfig :=
  (field (utf8 "enabled") boolean |>.pair <|
    field (utf8 "bind_address") string |>.pair <|
    field (utf8 "port") uint16 |>.pair <|
    fieldOr (utf8 "path") defaultDohPath string).iso
    (fun (enabled, bindAddress, port, path) => ⟨enabled, bindAddress, port, path⟩)
    (fun c => (c.enabled, c.bindAddress, c.port, c.path)) fun _ => rfl

def ServerPortConfig.record : Codec ServerPortConfig :=
  ServerPortConfig.fields.record (by decide)

def HealthcheckConfig.fields : Fields HealthcheckConfig :=
  (field (utf8 "enabled") boolean |>.pair <|
    field (utf8 "bind_address") string |>.pair <|
    field (utf8 "port") uint16 |>.pair <|
    field (utf8 "path") string).iso
    (fun (enabled, bindAddress, port, path) => ⟨enabled, bindAddress, port, path⟩)
    (fun c => (c.enabled, c.bindAddress, c.port, c.path)) fun _ => rfl

def HealthcheckConfig.record : Codec HealthcheckConfig :=
  HealthcheckConfig.fields.record (by decide)

def ServersConfig.fields : Fields ServersConfig :=
  (field (utf8 "dot") ServerPortConfig.record |>.pair <|
    field (utf8 "doh") ServerPortConfig.record |>.pair <|
    field (utf8 "doq") ServerPortConfig.record |>.pair <|
    field (utf8 "doh3") ServerPortConfig.record |>.pair <|
    fieldOr (utf8 "healthcheck") .default HealthcheckConfig.record).iso
    (fun (dot, doh, doq, doh3, healthcheck) => ⟨dot, doh, doq, doh3, healthcheck⟩)
    (fun c => (c.dot, c.doh, c.doq, c.doh3, c.healthcheck)) fun _ => rfl

def ServersConfig.record : Codec ServersConfig := ServersConfig.fields.record (by decide)

def DnsUpstreamConfig.fields : Fields DnsUpstreamConfig :=
  (fieldOr (utf8 "port") defaultDnsPort uint16).iso DnsUpstreamConfig.mk DnsUpstreamConfig.port
    fun _ => rfl

def DnsUpstreamConfig.record : Codec DnsUpstreamConfig :=
  DnsUpstreamConfig.fields.record (by decide)

def HttpUpstreamConfig.fields : Fields HttpUpstreamConfig :=
  (fieldOr (utf8 "port") defaultHttpsPort uint16 |>.pair <|
    fieldOr (utf8 "path") defaultDohPath string).iso
    (fun (port, path) => ⟨port, path⟩) (fun c => (c.port, c.path)) fun _ => rfl

def HttpUpstreamConfig.record : Codec HttpUpstreamConfig :=
  HttpUpstreamConfig.fields.record (by decide)

def UpstreamConfig.fields : Fields UpstreamConfig :=
  (field (utf8 "dot") DnsUpstreamConfig.record |>.pair <|
    field (utf8 "doh") HttpUpstreamConfig.record |>.pair <|
    field (utf8 "doq") DnsUpstreamConfig.record |>.pair <|
    field (utf8 "doh3") HttpUpstreamConfig.record).iso
    (fun (dot, doh, doq, doh3) => ⟨dot, doh, doq, doh3⟩)
    (fun c => (c.dot, c.doh, c.doq, c.doh3)) fun _ => rfl

def UpstreamConfig.record : Codec UpstreamConfig := UpstreamConfig.fields.record (by decide)

def CertificateConfig.fields : Fields CertificateConfig :=
  (field (utf8 "cert_file") string |>.pair <|
    field (utf8 "key_file") string).iso
    (fun (certFile, keyFile) => ⟨certFile, keyFile⟩) (fun c => (c.certFile, c.keyFile))
    fun _ => rfl

def CertificateConfig.record : Codec CertificateConfig :=
  CertificateConfig.fields.record (by decide)

def TlsConfig.fields : Fields TlsConfig :=
  (Fields.optional (utf8 "default") CertificateConfig.record |>.pair <|
    fieldOr (utf8 "certs") ∅ (map CertificateConfig.record) |>.pair <|
    Fields.optional (utf8 "upstream_ca_file") string).iso
    (fun (default, certs, upstreamCaFile) => ⟨default, certs, upstreamCaFile⟩)
    (fun c => (c.default, c.certs, c.upstreamCaFile)) fun _ => rfl

def TlsConfig.record : Codec TlsConfig := TlsConfig.fields.record (by decide)

def LoggingConfig.fields : Fields LoggingConfig :=
  (fieldOr (utf8 "level") LoggingConfig.default.level string |>.pair <|
    Fields.optional (utf8 "file") string |>.pair <|
    fieldOr (utf8 "json") false boolean |>.pair <|
    fieldOr (utf8 "rotation") LoggingConfig.default.rotation boolean |>.pair <|
    fieldOr (utf8 "max_file_size") LoggingConfig.default.maxFileSize uint64 |>.pair <|
    fieldOr (utf8 "max_files") LoggingConfig.default.maxFiles uint64).iso
    (fun (level, file, json, rotation, maxFileSize, maxFiles) =>
      ⟨level, file, json, rotation, maxFileSize, maxFiles⟩)
    (fun c => (c.level, c.file, c.json, c.rotation, c.maxFileSize, c.maxFiles)) fun _ => rfl

def LoggingConfig.record : Codec LoggingConfig := LoggingConfig.fields.record (by decide)

def LimitsConfig.fields : Fields LimitsConfig :=
  (fieldOr (utf8 "max_connections_per_listener")
      LimitsConfig.default.maxConnectionsPerListener uint64 |>.pair <|
    fieldOr (utf8 "max_inflight_requests_per_connection")
      LimitsConfig.default.maxInflightRequestsPerConnection uint64 |>.pair <|
    fieldOr (utf8 "max_upstream_pool_entries")
      LimitsConfig.default.maxUpstreamPoolEntries uint64 |>.pair <|
    fieldOr (utf8 "transaction_timeout_seconds")
      LimitsConfig.default.transactionTimeoutSeconds uint64).iso
    (fun (connections, requests, entries, seconds) => ⟨connections, requests, entries, seconds⟩)
    (fun c => (c.maxConnectionsPerListener, c.maxInflightRequestsPerConnection,
      c.maxUpstreamPoolEntries, c.transactionTimeoutSeconds)) fun _ => rfl

def LimitsConfig.record : Codec LimitsConfig := LimitsConfig.fields.record (by decide)

def ConfigFile.fields : Fields ConfigFile :=
  (field (utf8 "rewrite") RewriteConfig.record |>.pair <|
    field (utf8 "servers") ServersConfig.record |>.pair <|
    field (utf8 "upstream") UpstreamConfig.record |>.pair <|
    fieldOr (utf8 "tls") .empty TlsConfig.record |>.pair <|
    fieldOr (utf8 "logging") .default LoggingConfig.record |>.pair <|
    fieldOr (utf8 "limits") .default LimitsConfig.record).iso
    (fun (rewrite, servers, upstream, tls, logging, limits) =>
      ⟨⟨rewrite, servers, upstream, tls, limits⟩, logging⟩)
    (fun c => (c.rewrite, c.servers, c.upstream, c.tls, c.logging, c.limits)) fun _ => rfl

def ConfigFile.record : Codec ConfigFile := ConfigFile.fields.record (by decide)

/-! ### What a document has to say -/

def RewriteConfig.DescribedBy (v : Value) (c : RewriteConfig) : Prop :=
  ∃ f, IsRecord [utf8 "base_domains", utf8 "target_suffix"] v f ∧
    Required (utf8 "base_domains") (IsList IsString) f c.baseDomains ∧
    Required (utf8 "target_suffix") IsString f c.targetSuffix

/-- A number of a `u16`. -/
def IsPort : Value → UInt16 → Prop := IsUnsigned (2 ^ 16) UInt16.toNat

/-- A number of a `u64` or a `usize`. -/
def IsSize : Value → UInt64 → Prop := IsUnsigned (2 ^ 64) UInt64.toNat

def ServerPortConfig.DescribedBy (v : Value) (c : ServerPortConfig) : Prop :=
  ∃ f, IsRecord [utf8 "enabled", utf8 "bind_address", utf8 "port", utf8 "path"] v f ∧
    Required (utf8 "enabled") IsBoolean f c.enabled ∧
    Required (utf8 "bind_address") IsString f c.bindAddress ∧
    Required (utf8 "port") IsPort f c.port ∧
    Defaulted (utf8 "path") (utf8 "/dns-query") IsString f c.path

def HealthcheckConfig.DescribedBy (v : Value) (c : HealthcheckConfig) : Prop :=
  ∃ f, IsRecord [utf8 "enabled", utf8 "bind_address", utf8 "port", utf8 "path"] v f ∧
    Required (utf8 "enabled") IsBoolean f c.enabled ∧
    Required (utf8 "bind_address") IsString f c.bindAddress ∧
    Required (utf8 "port") IsPort f c.port ∧
    Required (utf8 "path") IsString f c.path

def ServersConfig.DescribedBy (v : Value) (c : ServersConfig) : Prop :=
  ∃ f, IsRecord [utf8 "dot", utf8 "doh", utf8 "doq", utf8 "doh3", utf8 "healthcheck"] v f ∧
    Required (utf8 "dot") ServerPortConfig.DescribedBy f c.dot ∧
    Required (utf8 "doh") ServerPortConfig.DescribedBy f c.doh ∧
    Required (utf8 "doq") ServerPortConfig.DescribedBy f c.doq ∧
    Required (utf8 "doh3") ServerPortConfig.DescribedBy f c.doh3 ∧
    Defaulted (utf8 "healthcheck") .default HealthcheckConfig.DescribedBy f c.healthcheck

def DnsUpstreamConfig.DescribedBy (v : Value) (c : DnsUpstreamConfig) : Prop :=
  ∃ f, IsRecord [utf8 "port"] v f ∧ Defaulted (utf8 "port") 853 IsPort f c.port

def HttpUpstreamConfig.DescribedBy (v : Value) (c : HttpUpstreamConfig) : Prop :=
  ∃ f, IsRecord [utf8 "port", utf8 "path"] v f ∧
    Defaulted (utf8 "port") 443 IsPort f c.port ∧
    Defaulted (utf8 "path") (utf8 "/dns-query") IsString f c.path

def UpstreamConfig.DescribedBy (v : Value) (c : UpstreamConfig) : Prop :=
  ∃ f, IsRecord [utf8 "dot", utf8 "doh", utf8 "doq", utf8 "doh3"] v f ∧
    Required (utf8 "dot") DnsUpstreamConfig.DescribedBy f c.dot ∧
    Required (utf8 "doh") HttpUpstreamConfig.DescribedBy f c.doh ∧
    Required (utf8 "doq") DnsUpstreamConfig.DescribedBy f c.doq ∧
    Required (utf8 "doh3") HttpUpstreamConfig.DescribedBy f c.doh3

def CertificateConfig.DescribedBy (v : Value) (c : CertificateConfig) : Prop :=
  ∃ f, IsRecord [utf8 "cert_file", utf8 "key_file"] v f ∧
    Required (utf8 "cert_file") IsString f c.certFile ∧
    Required (utf8 "key_file") IsString f c.keyFile

def TlsConfig.DescribedBy (v : Value) (c : TlsConfig) : Prop :=
  ∃ f, IsRecord [utf8 "default", utf8 "certs", utf8 "upstream_ca_file"] v f ∧
    Optional (utf8 "default") CertificateConfig.DescribedBy f c.default ∧
    Defaulted (utf8 "certs") ∅ (IsMap CertificateConfig.DescribedBy) f c.certs ∧
    Optional (utf8 "upstream_ca_file") IsString f c.upstreamCaFile

def LoggingConfig.DescribedBy (v : Value) (c : LoggingConfig) : Prop :=
  ∃ f, IsRecord [utf8 "level", utf8 "file", utf8 "json", utf8 "rotation", utf8 "max_file_size",
      utf8 "max_files"] v f ∧
    Defaulted (utf8 "level") (utf8 "info") IsString f c.level ∧
    Optional (utf8 "file") IsString f c.file ∧
    Defaulted (utf8 "json") false IsBoolean f c.json ∧
    Defaulted (utf8 "rotation") true IsBoolean f c.rotation ∧
    Defaulted (utf8 "max_file_size") 10485760 IsSize f c.maxFileSize ∧
    Defaulted (utf8 "max_files") 5 IsSize f c.maxFiles

def LimitsConfig.DescribedBy (v : Value) (c : LimitsConfig) : Prop :=
  ∃ f, IsRecord [utf8 "max_connections_per_listener",
      utf8 "max_inflight_requests_per_connection", utf8 "max_upstream_pool_entries",
      utf8 "transaction_timeout_seconds"] v f ∧
    Defaulted (utf8 "max_connections_per_listener") 1024 IsSize f c.maxConnectionsPerListener ∧
    Defaulted (utf8 "max_inflight_requests_per_connection") 64 IsSize f
      c.maxInflightRequestsPerConnection ∧
    Defaulted (utf8 "max_upstream_pool_entries") 256 IsSize f c.maxUpstreamPoolEntries ∧
    Defaulted (utf8 "transaction_timeout_seconds") 30 IsSize f c.transactionTimeoutSeconds

def ConfigFile.DescribedBy (v : Value) (c : ConfigFile) : Prop :=
  ∃ f, IsRecord [utf8 "rewrite", utf8 "servers", utf8 "upstream", utf8 "tls", utf8 "logging",
      utf8 "limits"] v f ∧
    Required (utf8 "rewrite") RewriteConfig.DescribedBy f c.rewrite ∧
    Required (utf8 "servers") ServersConfig.DescribedBy f c.servers ∧
    Required (utf8 "upstream") UpstreamConfig.DescribedBy f c.upstream ∧
    Defaulted (utf8 "tls") .empty TlsConfig.DescribedBy f c.tls ∧
    Defaulted (utf8 "logging") .default LoggingConfig.DescribedBy f c.logging ∧
    Defaulted (utf8 "limits") .default LimitsConfig.DescribedBy f c.limits

theorem RewriteConfig.record_reads : RewriteConfig.record.Reads RewriteConfig.DescribedBy :=
  Fields.record_reads <| iso_reads (pair_reads (field_reads _ (list_reads string_reads)) <|
    field_reads _ string_reads) fun _ => rfl

theorem ServerPortConfig.record_reads :
    ServerPortConfig.record.Reads ServerPortConfig.DescribedBy :=
  Fields.record_reads <| iso_reads (pair_reads (field_reads _ boolean_reads) <|
    pair_reads (field_reads _ string_reads) <| pair_reads (field_reads _ uint16_reads) <|
    fieldOr_reads _ _ string_reads) fun _ => rfl

theorem HealthcheckConfig.record_reads :
    HealthcheckConfig.record.Reads HealthcheckConfig.DescribedBy :=
  Fields.record_reads <| iso_reads (pair_reads (field_reads _ boolean_reads) <|
    pair_reads (field_reads _ string_reads) <| pair_reads (field_reads _ uint16_reads) <|
    field_reads _ string_reads) fun _ => rfl

theorem ServersConfig.record_reads : ServersConfig.record.Reads ServersConfig.DescribedBy :=
  Fields.record_reads <| iso_reads (pair_reads (field_reads _ ServerPortConfig.record_reads) <|
    pair_reads (field_reads _ ServerPortConfig.record_reads) <|
    pair_reads (field_reads _ ServerPortConfig.record_reads) <|
    pair_reads (field_reads _ ServerPortConfig.record_reads) <|
    fieldOr_reads _ _ HealthcheckConfig.record_reads) fun _ => rfl

theorem DnsUpstreamConfig.record_reads :
    DnsUpstreamConfig.record.Reads DnsUpstreamConfig.DescribedBy :=
  Fields.record_reads <| iso_reads (fieldOr_reads _ _ uint16_reads) fun _ => rfl

theorem HttpUpstreamConfig.record_reads :
    HttpUpstreamConfig.record.Reads HttpUpstreamConfig.DescribedBy :=
  Fields.record_reads <| iso_reads (pair_reads (fieldOr_reads _ _ uint16_reads) <|
    fieldOr_reads _ _ string_reads) fun _ => rfl

theorem UpstreamConfig.record_reads : UpstreamConfig.record.Reads UpstreamConfig.DescribedBy :=
  Fields.record_reads <| iso_reads (pair_reads (field_reads _ DnsUpstreamConfig.record_reads) <|
    pair_reads (field_reads _ HttpUpstreamConfig.record_reads) <|
    pair_reads (field_reads _ DnsUpstreamConfig.record_reads) <|
    field_reads _ HttpUpstreamConfig.record_reads) fun _ => rfl

theorem CertificateConfig.record_reads :
    CertificateConfig.record.Reads CertificateConfig.DescribedBy :=
  Fields.record_reads <| iso_reads (pair_reads (field_reads _ string_reads) <|
    field_reads _ string_reads) fun _ => rfl

theorem TlsConfig.record_reads : TlsConfig.record.Reads TlsConfig.DescribedBy :=
  Fields.record_reads <| iso_reads
    (pair_reads (optional_reads _ CertificateConfig.record_reads) <|
      pair_reads (fieldOr_reads _ _ (map_reads CertificateConfig.record_reads)) <|
      optional_reads _ string_reads) fun _ => rfl

theorem LoggingConfig.record_reads : LoggingConfig.record.Reads LoggingConfig.DescribedBy :=
  Fields.record_reads <| iso_reads (pair_reads (fieldOr_reads _ _ string_reads) <|
    pair_reads (optional_reads _ string_reads) <| pair_reads (fieldOr_reads _ _ boolean_reads) <|
    pair_reads (fieldOr_reads _ _ boolean_reads) <| pair_reads (fieldOr_reads _ _ uint64_reads) <|
    fieldOr_reads _ _ uint64_reads) fun _ => rfl

theorem LimitsConfig.record_reads : LimitsConfig.record.Reads LimitsConfig.DescribedBy :=
  Fields.record_reads <| iso_reads (pair_reads (fieldOr_reads _ _ uint64_reads) <|
    pair_reads (fieldOr_reads _ _ uint64_reads) <| pair_reads (fieldOr_reads _ _ uint64_reads) <|
    fieldOr_reads _ _ uint64_reads) fun _ => rfl

/-- **The decoder reads what the document says.** -/
theorem ConfigFile.record_reads : ConfigFile.record.Reads ConfigFile.DescribedBy :=
  Fields.record_reads <| iso_reads (pair_reads (field_reads _ RewriteConfig.record_reads) <|
    pair_reads (field_reads _ ServersConfig.record_reads) <|
    pair_reads (field_reads _ UpstreamConfig.record_reads) <|
    pair_reads (fieldOr_reads _ _ TlsConfig.record_reads) <|
    pair_reads (fieldOr_reads _ _ LoggingConfig.record_reads) <|
    fieldOr_reads _ _ LimitsConfig.record_reads) fun _ => rfl

/-! ### Reading a file -/

/-- The fields that version 2 has removed, each with its section and the end of its error. -/
def removedFields : List (Key × Key × Bytes) :=
  [(utf8 "rewrite", utf8 "rewrite_failure_strategy", utf8 "unmatched domains are always rejected"),
    (utf8 "upstream", utf8 "default",
      utf8 "upstream hostnames are always derived from rewrite")] ++
  [utf8 "ca_file", utf8 "require_client_cert", utf8 "client_cert_file",
    utf8 "client_key_file"].map fun key =>
      (utf8 "tls", key, utf8 "inbound mTLS is not supported")

/-- `value.get(section)`, if it is a table. -/
def section? (doc : Value) (name : Key) : Option (List (Key × Value)) :=
  match doc with
  | .table entries =>
      match entries.lookup name with
      | some (.table fields) => some fields
      | _ => none
  | _ => none

def hasKey (doc : Value) (name key : Key) : Bool :=
  (section? doc name).any fun entries => (entries.lookup key).isSome

def removedText (name key reason : Bytes) : Bytes :=
  name ++ utf8 "." ++ key ++ utf8 " was removed in v2; " ++ reason

/-- The first field of version 1 that a document has. -/
def removedField? (doc : Value) : Option (Key × Key × Bytes) :=
  removedFields.find? fun removed => hasKey doc removed.1 removed.2.1

section
variable (parse : Bytes → Option Value)

/-- `toml::from_str::<toml::Value>`: an integer of a `toml::Value` is an `i64`. -/
def valueFromStr (content : Bytes) : Option Value := (parse content).filter Value.fits

/-- `toml::from_str::<AppConfig>`. -/
def configFromStr (content : Bytes) : Option ConfigFile :=
  (parse content).bind ConfigFile.record.decode

/-- `reject_removed_v1_fields`. -/
def rejectRemovedV1Fields (content : Bytes) : Except Bytes Unit :=
  match valueFromStr parse content with
  | none => .error (utf8 "Failed to parse config file")
  | some doc =>
      match removedField? doc with
      | some (name, key, reason) => .error (removedText name key reason)
      | none => .ok ()

/-- `AppConfig::from_file`, of a file with this content, if it can be read; `parse` is the grammar
of TOML, and `path` the path as `{:?}` shows it. -/
def fromFile (path : Bytes) (content : Option Bytes) : Except Bytes ConfigFile :=
  match content with
  | none => .error (utf8 "Failed to read config file: " ++ path)
  | some content => do
      rejectRemovedV1Fields parse content
      match configFromStr parse content with
      | none => .error (utf8 "Failed to parse config file")
      | some config => .ok config

end

/-! ### Removed fields -/

variable {doc : Value} {name key : Key} {entries fields : List (Key × Value)} {config : ConfigFile}

theorem sections_of_decode (h : ConfigFile.record.decode (.table entries) = some config) :
    (∀ v, entries.lookup (utf8 "rewrite") = some v → RewriteConfig.record.decode v ≠ none) ∧
    (∀ v, entries.lookup (utf8 "upstream") = some v → UpstreamConfig.record.decode v ≠ none) ∧
    (∀ v, entries.lookup (utf8 "tls") = some v → TlsConfig.record.decode v ≠ none) := by
  obtain ⟨r, hr, -⟩ := Option.map_eq_some_iff.mp (decode_table h)
  obtain ⟨hrewrite, hr⟩ := read_pair hr
  obtain ⟨-, hr⟩ := read_pair hr
  obtain ⟨hupstream, hr⟩ := read_pair hr
  obtain ⟨htls, -⟩ := read_pair hr
  refine ⟨fun v hv hnone => ?_, fun v hv hnone => ?_, fun v hv hnone => ?_⟩
  · simp only [field, hv, Option.bind_some, hnone] at hrewrite
    cases hrewrite
  · simp only [field, hv, Option.bind_some, hnone] at hupstream
    cases hupstream
  · simp only [fieldOr, hv, Option.elim_some, hnone] at htls
    cases htls

theorem section_of_hasKey (h : hasKey doc name key = true) : ∃ entries fields v,
    doc = .table entries ∧ entries.lookup name = some (.table fields) ∧ (key, v) ∈ fields := by
  unfold hasKey at h
  cases hsec : section? doc name with
  | none =>
      rw [hsec] at h
      cases h
  | some fields =>
  rw [hsec, Option.any_some] at h
  obtain ⟨v, hv⟩ := Option.isSome_iff_exists.mp h
  unfold section? at hsec
  split at hsec
  · next entries =>
    split at hsec
    · next hlook =>
      cases hsec
      obtain ⟨before, after, hfields, -⟩ := List.lookup_eq_some_iff.mp hv
      refine ⟨entries, fields, v, rfl, hlook, ?_⟩
      rw [hfields]
      exact List.mem_append_right _ List.mem_cons_self
    · cases hsec
  · cases hsec

theorem unknown_of_removed {reason : Bytes} (h : (name, key, reason) ∈ removedFields) :
    name = utf8 "rewrite" ∧ key ∉ RewriteConfig.fields.names ∨
      name = utf8 "upstream" ∧ key ∉ UpstreamConfig.fields.names ∨
      name = utf8 "tls" ∧ key ∉ TlsConfig.fields.names := by
  simp only [removedFields, List.map_cons, List.map_nil, List.cons_append, List.nil_append,
    List.mem_cons, List.not_mem_nil, or_false, Prod.mk.injEq] at h
  obtain ⟨rfl, rfl, -⟩ | ⟨rfl, rfl, -⟩ | ⟨rfl, rfl, -⟩ | ⟨rfl, rfl, -⟩ | ⟨rfl, rfl, -⟩ |
    ⟨rfl, rfl, -⟩ := h
  · exact .inl ⟨rfl, by decide⟩
  · exact .inr (.inl ⟨rfl, by decide⟩)
  · exact .inr (.inr ⟨rfl, by decide⟩)
  · exact .inr (.inr ⟨rfl, by decide⟩)
  · exact .inr (.inr ⟨rfl, by decide⟩)
  · exact .inr (.inr ⟨rfl, by decide⟩)

theorem decode_of_removed {reason : Bytes} (hmem : (name, key, reason) ∈ removedFields)
    (hkey : hasKey doc name key = true) : ConfigFile.record.decode doc = none := by
  by_contra hne
  obtain ⟨config, hd⟩ := Option.ne_none_iff_exists'.mp hne
  obtain ⟨entries, fields, v, rfl, hlook, hv⟩ := section_of_hasKey hkey
  obtain ⟨hrewrite, hupstream, htls⟩ := sections_of_decode hd
  obtain ⟨rfl, hunknown⟩ | ⟨rfl, hunknown⟩ | ⟨rfl, hunknown⟩ := unknown_of_removed hmem
  · exact hrewrite _ hlook (decode_unknown hv hunknown)
  · exact hupstream _ hlook (decode_unknown hv hunknown)
  · exact htls _ hlook (decode_unknown hv hunknown)

/-- A document that describes a configuration has no removed field. -/
theorem removedField?_of_describedBy (h : config.DescribedBy doc) : removedField? doc = none := by
  rw [← ConfigFile.record_reads] at h
  cases hfind : removedField? doc with
  | none => rfl
  | some removed =>
      have hkey := List.find?_some hfind
      rw [decode_of_removed (List.mem_of_find?_eq_some hfind) hkey] at h
      cases h

/-- The sizes of a configuration are those of an `i64`. -/
structure ConfigFile.Fits (c : ConfigFile) : Prop where
  maxFileSize : c.logging.maxFileSize.toNat < 2 ^ 63
  maxFiles : c.logging.maxFiles.toNat < 2 ^ 63
  maxConnections : c.limits.maxConnectionsPerListener.toNat < 2 ^ 63
  maxInflightRequests : c.limits.maxInflightRequestsPerConnection.toNat < 2 ^ 63
  maxPoolEntries : c.limits.maxUpstreamPoolEntries.toNat < 2 ^ 63
  transactionTimeout : c.limits.transactionTimeoutSeconds.toNat < 2 ^ 63

theorem fits_encode : (ConfigFile.record.encode config).fits = true ↔ config.Fits := by
  have hrewrite (c) : (RewriteConfig.record.encode c).fits = true := by
    simp [RewriteConfig.record, RewriteConfig.fields]
  have hserver (c) : (ServerPortConfig.record.encode c).fits = true := by
    simp [ServerPortConfig.record, ServerPortConfig.fields]
  have hhealthcheck (c) : (HealthcheckConfig.record.encode c).fits = true := by
    simp [HealthcheckConfig.record, HealthcheckConfig.fields]
  have hservers (c) : (ServersConfig.record.encode c).fits = true := by
    simp [ServersConfig.record, ServersConfig.fields, hserver, hhealthcheck]
  have hdns (c) : (DnsUpstreamConfig.record.encode c).fits = true := by
    simp [DnsUpstreamConfig.record, DnsUpstreamConfig.fields]
  have hhttp (c) : (HttpUpstreamConfig.record.encode c).fits = true := by
    simp [HttpUpstreamConfig.record, HttpUpstreamConfig.fields]
  have hupstream (c) : (UpstreamConfig.record.encode c).fits = true := by
    simp [UpstreamConfig.record, UpstreamConfig.fields, hdns, hhttp]
  have hcertificate (c) : (CertificateConfig.record.encode c).fits = true := by
    simp [CertificateConfig.record, CertificateConfig.fields]
  have htls (c) : (TlsConfig.record.encode c).fits = true := by
    simp [TlsConfig.record, TlsConfig.fields, hcertificate]
  simp only [ConfigFile.record, ConfigFile.fields, Fields.fits_record, Fields.fits_iso,
    Fields.fits_pair, Fields.fits_field, Fields.fits_fieldOr, hrewrite, hservers, hupstream, htls,
    LoggingConfig.record, LoggingConfig.fields, LimitsConfig.record, LimitsConfig.fields]
  have hfile (file : Option Bytes) :
      fitsEntries ((Fields.optional (utf8 "file") string).write file) = true := by
    rw [fits_optional]
    cases file <;> rfl
  simp only [fits_string, fits_boolean, fits_uint64, hfile, Bool.true_and, Bool.and_eq_true,
    decide_eq_true_eq]
  constructor
  · rintro ⟨⟨hfileSize, hfiles⟩, hconnections, hrequests, hentries, htimeout⟩
    exact ⟨hfileSize, hfiles, hconnections, hrequests, hentries, htimeout⟩
  · intro h
    exact ⟨⟨h.maxFileSize, h.maxFiles⟩, h.maxConnections, h.maxInflightRequests, h.maxPoolEntries,
      h.transactionTimeout⟩

/-! ### What is accepted -/

/-- **The configuration file**: it is accepted if and only if it is a TOML document of 64-bit
integers that describes a configuration, so the look for removed fields rejects no other file; a
document with removed fields is rejected with the name of one of them; and a document that spells
out a configuration is read as this configuration, if its sizes are those of an `i64`. -/
theorem fromFile_exact (parse : Bytes → Option Value) (path : Bytes) (content : Option Bytes) :
    (∀ config, fromFile parse path content = .ok config ↔
      ∃ text doc, content = some text ∧ parse text = some doc ∧ doc.fits = true ∧
        config.DescribedBy doc) ∧
    (∀ text doc, content = some text → parse text = some doc → doc.fits = true →
      (∃ removed ∈ removedFields, hasKey doc removed.1 removed.2.1 = true) →
      ∃ name key reason, (name, key, reason) ∈ removedFields ∧ hasKey doc name key = true ∧
        fromFile parse path content = .error (removedText name key reason)) ∧
    ∀ text config, content = some text → parse text = some (ConfigFile.record.encode config) →
      (fromFile parse path content = .ok config ↔ config.Fits) := by
  have hiff : ∀ config, fromFile parse path content = .ok config ↔
      ∃ text doc, content = some text ∧ parse text = some doc ∧ doc.fits = true ∧
        config.DescribedBy doc := by
    intro config
    constructor
    · intro h
      unfold fromFile at h
      split at h
      · cases h
      · next text =>
        obtain ⟨_, hremoved, h⟩ := bind_eq_ok.mp h
        unfold rejectRemovedV1Fields at hremoved
        split at hremoved
        · cases hremoved
        · next doc hdoc =>
          obtain ⟨hparse, hfits⟩ := Option.filter_eq_some_iff.mp hdoc
          refine ⟨text, doc, rfl, hparse, hfits, ?_⟩
          split at h
          · cases h
          · next hconfig =>
            cases h
            rw [configFromStr, hparse, Option.bind_some] at hconfig
            exact (ConfigFile.record_reads doc config).mp hconfig
    · rintro ⟨text, doc, rfl, hparse, hfits, hdescribed⟩
      have hdecode := (ConfigFile.record_reads doc config).mpr hdescribed
      simp only [fromFile, rejectRemovedV1Fields, valueFromStr, configFromStr, hparse,
        Option.filter_some, hfits, if_true, removedField?_of_describedBy hdescribed,
        Option.bind_some, hdecode]
      rfl
  refine ⟨hiff, ?_, ?_⟩
  · rintro text doc rfl hparse hfits ⟨removed, hmem, hkey⟩
    have hsome : (removedField? doc).isSome = true :=
      List.find?_isSome.mpr ⟨removed, hmem, hkey⟩
    obtain ⟨⟨name, key, reason⟩, hfind⟩ := Option.isSome_iff_exists.mp hsome
    have hfound := List.find?_some hfind
    refine ⟨name, key, reason, List.mem_of_find?_eq_some hfind, hfound, ?_⟩
    simp only [fromFile, rejectRemovedV1Fields, valueFromStr, hparse, Option.filter_some, hfits,
      if_true, hfind]
    rfl
  · intro text config hcontent hparse
    rw [hiff, ← fits_encode]
    constructor
    · rintro ⟨text', doc, htext, hdoc, hfits, -⟩
      rw [hcontent] at htext
      cases htext
      cases hparse.symm.trans hdoc
      exact hfits
    · intro hfits
      exact ⟨text, _, hcontent, hparse, hfits,
        (ConfigFile.record_reads _ _).mp (ConfigFile.record.decode_encode config)⟩

/-- The default configuration with a certificate, written out; with room for 2⁶³ files it is
rejected. -/
theorem fromFile_exact_certified :
    fromFile (fun _ => some (ConfigFile.record.encode ⟨certifiedConfig, .default⟩))
        (utf8 "\"config.toml\"") (some []) = .ok ⟨certifiedConfig, .default⟩ ∧
      ∀ config : ConfigFile, config.logging.maxFiles = .ofNat (2 ^ 63) →
        fromFile (fun _ => some (ConfigFile.record.encode config)) (utf8 "\"config.toml\"")
          (some []) ≠ .ok config := by
  constructor
  · refine ((fromFile_exact _ _ _).2.2 [] _ rfl rfl).mpr ?_
    exact ⟨by decide, by decide, by decide, by decide, by decide, by decide⟩
  · intro config hfiles h
    have hfits := ((fromFile_exact _ _ _).2.2 [] config rfl rfl).mp h
    have hlt := hfits.maxFiles
    rw [hfiles, UInt64.toNat_ofNat_of_lt' (by decide)] at hlt
    exact Nat.lt_irrefl _ hlt

end DnsIngress
