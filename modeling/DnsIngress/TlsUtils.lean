import DnsIngress.Rewriter
import Mathlib.Data.List.MinMax

/-! # Certificate selection (`tls_utils.rs`)

`CertificateResolver.new` loads every configured certificate under its name in lower case, and
`getCertForDomain` selects the one of the name itself, or of the longest name that covers it.  The
load of one certificate (`load_certificate`: files, PEM and the crypto provider) is a parameter.

The rewriter matches the same names against its own list of base domains.  `getCertForDomain_ok`
says that every name it rewrites has a certificate if its base domains do, and `agree_iff` for which
configurations the certificate is that of the base domain that was matched. -/

namespace DnsIngress

open Ascii

/-- `Iterator::max_by_key`: the last of the maximal elements. -/
def maxByKey {α : Type} (key : α → ℕ) (l : List α) : Option α := l.reverse.argmax key

structure CertificateResolver (κ : Type) where
  certs : AList fun _ : Bytes => κ
  default : Option κ

/-- The filter of `get_cert_for_domain`. -/
def covers (domain base : Bytes) : Bool :=
  base.isSuffixOf domain && base.length < domain.length &&
    domain[domain.length - base.length - 1]? == some dot

section
variable {κ : Type}

/-- One iteration of the loop of `new`. -/
def loadInto (load : CertificateConfig → Except DnsProxyError κ)
    (certs : AList fun _ : Bytes => κ) :
    (_ : Bytes) × CertificateConfig → Except DnsProxyError (AList fun _ : Bytes => κ)
  | ⟨domain, cert⟩ => do
      let cert ← load cert
      pure (certs.insert (toAsciiLowercase domain) cert)

def CertificateResolver.new (load : CertificateConfig → Except DnsProxyError κ)
    (config : AppConfig) : Except DnsProxyError (CertificateResolver κ) := do
  let default ← config.tls.default.mapM load
  let certs ← config.tls.certs.entries.foldlM (loadInto load) ∅
  pure { certs := certs, default := default }

def CertificateResolver.getCertForDomain (resolver : CertificateResolver κ) (domain : Bytes) :
    Except DnsProxyError κ :=
  let domain := toAsciiLowercase (trimEndMatches dot domain)
  match resolver.certs.lookup domain with
  | some cert => .ok cert
  | none =>
      match maxByKey (·.1.length) (resolver.certs.entries.filter fun e => covers domain e.1) with
      | some ⟨_, cert⟩ => .ok cert
      | none =>
          match resolver.default with
          | some cert => .ok cert
          | none => .error (.certificate (.notConfigured domain))

end

/-! ### Parent domains -/

/-- A name is its own ancestor, and so are its parent domains. -/
def IsAncestor (base domain : Bytes) : Prop := base = domain ∨ dot :: base <:+ domain

variable {domain base base' name : Bytes}

theorem covers_iff : covers domain base = true ↔ dot :: base <:+ domain := by
  simp only [covers, Bool.and_eq_true, List.isSuffixOf_iff_suffix, decide_eq_true_eq, beq_iff_eq]
  constructor
  · rintro ⟨⟨⟨rest, rfl⟩, hlen⟩, hdot⟩
    have hne : rest ≠ [] := by
      rintro rfl
      simp at hlen
    have hpos := List.length_pos_iff.mpr hne
    have hlast : rest.getLast hne = dot := by
      rw [List.length_append, Nat.add_sub_cancel, List.getElem?_append_left (by omega),
        List.getElem?_eq_getElem (by omega)] at hdot
      rw [List.getLast_eq_getElem]
      exact Option.some.inj hdot
    refine ⟨rest.dropLast, ?_⟩
    rw [List.append_cons, ← hlast, List.dropLast_append_getLast]
  · rintro ⟨rest, rfl⟩
    refine ⟨⟨⟨rest ++ [dot], by simp⟩, by simp; omega⟩, ?_⟩
    rw [List.length_append, List.length_cons]
    simp [show rest.length + (base.length + 1) - base.length - 1 = rest.length by omega]

theorem IsAncestor.suffix (h : IsAncestor base domain) : base <:+ domain := by
  rcases h with rfl | h
  · exact List.suffix_rfl
  · exact (List.suffix_cons dot base).trans h

theorem IsAncestor.length_le (h : IsAncestor base domain) : base.length ≤ domain.length :=
  h.suffix.length_le

theorem IsAncestor.trans (h : IsAncestor base base') (h' : IsAncestor base' domain) :
    IsAncestor base domain := by
  rcases h with rfl | h
  · exact h'
  · rcases h' with rfl | h'
    · exact .inr h
    · exact .inr (h.trans ((List.suffix_cons dot base').trans h'))

theorem suffix_tail {l s : Bytes} (h : l <:+ s) (hlt : l.length < s.length) : l <:+ s.tail := by
  obtain ⟨p, rfl⟩ := h
  cases p with
  | nil => simp at hlt
  | cons a p => exact List.suffix_append p l

theorem IsAncestor.of_length_le (h : IsAncestor base domain) (h' : IsAncestor base' domain)
    (hle : base.length ≤ base'.length) : IsAncestor base base' := by
  rcases h' with rfl | h'
  · exact h
  · rcases h with rfl | h
    · have := h'.length_le
      simp only [List.length_cons] at this
      omega
    · have hs : dot :: base <:+ dot :: base' :=
        List.suffix_of_suffix_length_le h h' (by simpa using hle)
      rcases List.suffix_cons_iff.mp hs with he | hs
      · exact .inl (List.cons.inj he).2
      · exact .inr hs

theorem prefixOf_isSome_iff :
    (prefixOf name base).isSome = true ↔ covers name.tail base = true := by
  rw [covers_iff, Option.isSome_iff_exists]
  constructor
  · rintro ⟨p, hp⟩
    obtain ⟨hne, rfl⟩ := prefixOf_eq_some.mp hp
    obtain ⟨a, p, rfl⟩ := List.exists_cons_of_ne_nil hne
    exact ⟨p, by simp⟩
  · rintro ⟨p, hp⟩
    cases name with
    | nil => simp at hp
    | cons a rest =>
        rw [List.tail_cons] at hp
        exact ⟨a :: p, prefixOf_eq_some.mpr ⟨List.cons_ne_nil _ _, by simp [← hp]⟩⟩

theorem findSome?_prefixOf {bases : List Bytes} {p : Bytes} :
    bases.findSome? (prefixOf name) = some p ↔
      ∃ base, bases.find? (covers name.tail) = some base ∧ prefixOf name base = some p := by
  induction bases with
  | nil => simp
  | cons base bases ih =>
      cases hp : prefixOf name base with
      | none =>
          have hc : covers name.tail base = false := by
            rw [← Bool.not_eq_true, ← prefixOf_isSome_iff, hp]
            simp
          rw [List.findSome?_cons_of_isNone (by simp [hp]), ih,
            List.find?_cons_of_neg (by simp [hc])]
      | some q =>
          have hc : covers name.tail base = true := prefixOf_isSome_iff.mp (by simp [hp])
          simp [hp, hc]

/-! ### What a resolver has loaded -/

/-- Every certificate is loaded under its name in lower case. -/
structure CertificateResolver.Loaded {κ : Type}
    (load : CertificateConfig → Except DnsProxyError κ) (config : AppConfig)
    (resolver : CertificateResolver κ) : Prop where
  mem : ∀ d, d ∈ resolver.certs ↔ ∃ key ∈ config.tls.certs, toAsciiLowercase key = d
  lookup : ∀ d cert, resolver.certs.lookup d = some cert →
    ∃ key c, config.tls.certs.lookup key = some c ∧ toAsciiLowercase key = d ∧ load c = .ok cert

section
variable {κ : Type} {load : CertificateConfig → Except DnsProxyError κ} {config : AppConfig}
  {resolver : CertificateResolver κ} {certs certs' : AList fun _ : Bytes => κ}
  {es : List ((_ : Bytes) × CertificateConfig)}

theorem loadInto_ok (h : es.foldlM (loadInto load) certs = .ok certs') :
    (∀ d, d ∈ certs' ↔ d ∈ certs ∨ ∃ e ∈ es, toAsciiLowercase e.1 = d) ∧
      ∀ d cert, certs'.lookup d = some cert → certs.lookup d = some cert ∨
        ∃ e ∈ es, toAsciiLowercase e.1 = d ∧ load e.2 = .ok cert := by
  induction es generalizing certs with
  | nil =>
      cases h
      simp
  | cons e es ih =>
      obtain ⟨certs₁, hinto, h'⟩ := bind_eq_ok.mp (List.foldlM_cons.symm.trans h)
      obtain ⟨cert, hload, he⟩ := bind_eq_ok.mp hinto
      cases he
      obtain ⟨hmem, hlookup⟩ := ih h'
      refine ⟨fun d => ?_, fun d cert' hd => ?_⟩
      · rw [hmem, AList.mem_insert, List.exists_mem_cons_iff, eq_comm, or_assoc, or_left_comm]
      · rcases hlookup d cert' hd with hl | ⟨e', he', hd'⟩
        · by_cases hde : d = toAsciiLowercase e.1
          · subst hde
            rw [AList.lookup_insert] at hl
            cases hl
            exact .inr ⟨e, List.mem_cons_self, rfl, hload⟩
          · rw [AList.lookup_insert_ne hde] at hl
            exact .inl hl
        · exact .inr ⟨e', List.mem_cons_of_mem _ he', hd'⟩

theorem CertificateResolver.loaded (h : CertificateResolver.new load config = .ok resolver) :
    resolver.Loaded load config := by
  have hcerts : config.tls.certs.entries.foldlM (loadInto load) ∅ = .ok resolver.certs := by
    obtain ⟨default, -, h⟩ := bind_eq_ok.mp h
    obtain ⟨certs, hcerts, h⟩ := bind_eq_ok.mp h
    cases h
    exact hcerts
  obtain ⟨hmem, hlookup⟩ := loadInto_ok hcerts
  constructor
  · intro d
    rw [hmem]
    simp only [AList.notMem_empty, false_or]
    constructor
    · rintro ⟨⟨key, c⟩, he, hd⟩
      exact ⟨key, AList.mem_keys.mpr (List.mem_map_of_mem he), hd⟩
    · rintro ⟨key, hkey, hd⟩
      obtain ⟨c, hc⟩ := Option.isSome_iff_exists.mp (AList.lookup_isSome.mpr hkey)
      exact ⟨⟨key, c⟩, AList.mem_lookup_iff.mp hc, hd⟩
  · intro d cert hd
    rcases hlookup d cert hd with hl | ⟨⟨key, c⟩, he, hk⟩
    · cases hl
    · exact ⟨key, c, AList.mem_lookup_iff.mpr he, hk⟩

/-! ### The selected certificate -/

theorem maxByKey_eq_none {α : Type} {key : α → ℕ} {l : List α} :
    maxByKey key l = none ↔ l = [] := by
  simp [maxByKey]

theorem maxByKey_eq_some {α : Type} {key : α → ℕ} {l : List α} {m : α}
    (h : maxByKey key l = some m) : m ∈ l ∧ ∀ a ∈ l, key a ≤ key m :=
  ⟨List.mem_reverse.mp (List.argmax_mem h),
    fun _ ha => List.le_of_mem_argmax (List.mem_reverse.mpr ha) h⟩

variable {domain base : Bytes}

/-- **The longest ancestor** that has a certificate is selected. -/
theorem getCertForDomain_ancestor
    (hbase : base ∈ resolver.certs)
    (ha : IsAncestor base (toAsciiLowercase (trimEndMatches dot domain))) :
    ∃ longest cert, resolver.certs.lookup longest = some cert ∧
      resolver.getCertForDomain domain = .ok cert ∧
      IsAncestor longest (toAsciiLowercase (trimEndMatches dot domain)) ∧
      ∀ b ∈ resolver.certs, IsAncestor b (toAsciiLowercase (trimEndMatches dot domain)) →
        b.length ≤ longest.length := by
  simp only [CertificateResolver.getCertForDomain]
  generalize toAsciiLowercase (trimEndMatches dot domain) = name at ha ⊢
  cases hname : resolver.certs.lookup name with
  | some cert => exact ⟨name, cert, hname, rfl, .inl rfl, fun b _ hb => hb.length_le⟩
  | none =>
      have hparent : ∀ b ∈ resolver.certs, IsAncestor b name →
          ∃ cert, ⟨b, cert⟩ ∈ resolver.certs.entries.filter fun e => covers name e.1 := by
        intro b hb hab
        rcases hab with rfl | hab
        · exact absurd hb (AList.lookup_eq_none.mp hname)
        · obtain ⟨cert, hcert⟩ := Option.isSome_iff_exists.mp (AList.lookup_isSome.mpr hb)
          exact ⟨cert, List.mem_filter.mpr ⟨AList.mem_lookup_iff.mp hcert, covers_iff.mpr hab⟩⟩
      obtain ⟨cert, hcert⟩ := hparent base hbase ha
      cases hmax : maxByKey (·.1.length)
          (resolver.certs.entries.filter fun e => covers name e.1) with
      | none => cases maxByKey_eq_none.mp hmax ▸ hcert
      | some e =>
          obtain ⟨hmem, hle⟩ := maxByKey_eq_some hmax
          obtain ⟨hmem, hcov⟩ := List.mem_filter.mp hmem
          refine ⟨e.1, e.2, AList.mem_lookup_iff.mpr hmem, rfl, .inr (covers_iff.mp hcov), ?_⟩
          intro b hb hab
          obtain ⟨cert, hcert⟩ := hparent b hb hab
          exact hle _ hcert

/-- Every base domain has a certificate of its own or of one of its parent domains. -/
def Certified (config : AppConfig) : Prop :=
  ∀ base ∈ config.rewrite.baseDomains, ∃ parent, IsAncestor parent base ∧
    ∃ key ∈ config.tls.certs, eqIgnoreAsciiCase key parent = true

variable {env : Environment} {sni : Bytes} {r : RewriteResult}

theorem isAncestor_of_rewrite (hconfig : config.rewrite.check = .ok ())
    (h : (createRewriter config.rewrite).rewrite sni = some r) :
    ∃ base ∈ config.rewrite.baseDomains,
      IsAncestor base (toAsciiLowercase (trimEndMatches dot sni)) := by
  obtain ⟨-, horig, hfound, -⟩ := (rewrite_eq_some_iff hconfig).mp h
  obtain ⟨base, hmem, hp⟩ := List.exists_of_findSome?_eq_some hfound
  refine ⟨base, hmem, .inr ⟨r.hostPrefix, ?_⟩⟩
  rw [← horig, (prefixOf_eq_some.mp hp).2, List.append_cons]

/-- **Every rewritten name has a certificate** if every base domain has one. -/
theorem getCertForDomain_ok (hvalid : config.validate env = .ok ()) (hcertified : Certified config)
    (hnew : CertificateResolver.new load config = .ok resolver)
    (h : (createRewriter config.rewrite).rewrite sni = some r) :
    ∃ cert, resolver.getCertForDomain sni = .ok cert := by
  have hconfig := (AppConfig.validate_ok hvalid).rewrite
  obtain ⟨base, hmem, hbase⟩ := isAncestor_of_rewrite hconfig h
  obtain ⟨parent, hparent, key, hkey, hcase⟩ := hcertified base hmem
  have hlower : toAsciiLowercase parent = parent := by
    refine toAsciiLowercase_of_isHostByte fun b hb => ?_
    exact isHostByte_of_isAsciiDnsName ((RewriteConfig.check_ok.mp hconfig).2.1 base hmem) b
      (hparent.suffix.subset hb)
  have hcert : parent ∈ resolver.certs :=
    ((CertificateResolver.loaded hnew).mem parent).mpr
      ⟨key, hkey, (beq_iff_eq.mp hcase).trans hlower⟩
  obtain ⟨-, cert, -, hok, -⟩ := getCertForDomain_ancestor hcert (hparent.trans hbase)
  exact ⟨cert, hok⟩

/-- The default configuration with other base domains and certificates. -/
def withCertificates (bases : List Bytes) (certs : List (Bytes × CertificateConfig)) : AppConfig :=
  { AppConfig.default with
    rewrite := { AppConfig.default.rewrite with baseDomains := bases }
    tls :=
      { AppConfig.default.tls with
        certs := certs.foldr (fun (domain, cert) certs => certs.insert domain cert) ∅ } }

/-- A certificate of a base domain in upper case, and one of a parent domain. -/
def parentConfig : AppConfig :=
  withCertificates [utf8 "example.com", utf8 "example.org"]
    [(utf8 "EXAMPLE.com", ⟨utf8 "com.pem", utf8 "com.key"⟩),
      (utf8 "Org", ⟨utf8 "org.pem", utf8 "org.key"⟩)]

theorem getCertForDomain_ok_mixedCase :
    ∃ resolver : CertificateResolver CertificateConfig,
      CertificateResolver.new .ok parentConfig = .ok resolver ∧
      ∃ cert, resolver.getCertForDomain (utf8 "Host.Example.ORG..") = .ok cert := by
  have hvalid : parentConfig.validate readyEnvironment = .ok () := by rfl
  have hcertified : Certified parentConfig := by
    intro base hbase
    rcases List.mem_pair.mp hbase with rfl | rfl
    · exact ⟨_, .inl rfl, utf8 "EXAMPLE.com", by decide, by decide⟩
    · exact ⟨utf8 "org", .inr (by decide), utf8 "Org", by decide, by decide⟩
  obtain ⟨resolver, hnew⟩ : ∃ resolver : CertificateResolver CertificateConfig,
      CertificateResolver.new .ok parentConfig = .ok resolver := ⟨_, rfl⟩
  obtain ⟨r, hr⟩ : ∃ r, (createRewriter parentConfig.rewrite).rewrite
      (utf8 "Host.Example.ORG..") = some r := ⟨_, rfl⟩
  exact ⟨resolver, hnew, getCertForDomain_ok hvalid hcertified hnew hr⟩

/-! ### Overlapping base domains -/

/-- For every name that is rewritten and not a key itself, the certificate is the one configured for
the base domain that the rewriter has found. -/
def Agree (load : CertificateConfig → Except DnsProxyError κ) (config : AppConfig)
    (resolver : CertificateResolver κ) : Prop :=
  ∀ sni r, (createRewriter config.rewrite).rewrite sni = some r → sni ∉ config.tls.certs →
    ∃ base ∈ config.rewrite.baseDomains,
      toAsciiLowercase (trimEndMatches dot sni) = r.hostPrefix ++ [dot] ++ base ∧
      ∃ cert, config.tls.certs.lookup base = some cert ∧
        resolver.getCertForDomain sni = load cert

/-- The first base domain of the list that is a parent of another one has its certificate. -/
def ParentsShare (load : CertificateConfig → Except DnsProxyError κ) (config : AppConfig) : Prop :=
  ∀ base ∈ config.rewrite.baseDomains, ∀ parent,
    config.rewrite.baseDomains.find? (covers base) = some parent →
    (config.tls.certs.lookup parent).map load = (config.tls.certs.lookup base).map load

/-- The keys of the certificates are the base domains. -/
def KeysAreBases (config : AppConfig) : Prop :=
  ∀ d, d ∈ config.tls.certs ↔ d ∈ config.rewrite.baseDomains

/-- Names in lower case keep their certificates. -/
theorem CertificateResolver.Loaded.keys (hl : resolver.Loaded load config)
    (hconfig : config.rewrite.check = .ok ()) (hkeys : KeysAreBases config) :
    (∀ d, d ∈ resolver.certs ↔ d ∈ config.rewrite.baseDomains) ∧
      ∀ d cert, resolver.certs.lookup d = some cert →
        (config.tls.certs.lookup d).map load = some (.ok cert) := by
  have hlower : ∀ key ∈ config.tls.certs, toAsciiLowercase key = key := by
    intro key hkey
    exact toAsciiLowercase_of_isHostByte (isHostByte_of_isAsciiDnsName
      ((RewriteConfig.check_ok.mp hconfig).2.1 key ((hkeys key).mp hkey)))
  constructor
  · intro d
    rw [hl.mem, ← hkeys]
    constructor
    · rintro ⟨key, hkey, rfl⟩
      rwa [hlower key hkey]
    · intro hd
      exact ⟨d, hd, hlower d hd⟩
  · intro d cert hd
    obtain ⟨key, c, hc, rfl, hload⟩ := hl.lookup d cert hd
    have hkey : key ∈ config.tls.certs := AList.lookup_isSome.mp (by rw [hc]; rfl)
    rw [hlower key hkey, hc, Option.map_some, hload]

/-- The first parent domain of a name is the longest one, or the first parent of the longest one. -/
theorem find?_covers_longest {bases : List Bytes} {name first longest : Bytes}
    (hnames : ∀ b ∈ bases, isAsciiDnsName b = true) (hmem : longest ∈ bases)
    (hfirst : bases.find? (covers name.tail) = some first) (hanc : IsAncestor longest name)
    (hlongest : ∀ b ∈ bases, IsAncestor b name → b.length ≤ longest.length) :
    first = longest ∨ bases.find? (covers longest) = some first := by
  obtain ⟨hcov, l₁, l₂, rfl, hbefore⟩ := List.find?_eq_some_iff_append.mp hfirst
  have htail : name.tail <:+ name := List.tail_suffix name
  have hfirst : IsAncestor first name := .inr ((covers_iff.mp hcov).trans htail)
  rcases hfirst.of_length_le hanc (hlongest first (by simp) hfirst) with rfl | hlt
  · exact .inl rfl
  · refine .inr (List.find?_eq_some_iff_append.mpr
      ⟨covers_iff.mpr hlt, l₁, l₂, rfl, fun b hb => ?_⟩)
    have hnot := hbefore b hb
    simp only [Bool.not_eq_true', Bool.eq_false_iff, ne_eq, covers_iff] at hnot ⊢
    intro hb'
    obtain ⟨q, rfl⟩ := hb'
    have hq : 0 < q.length :=
      List.length_pos_iff.mpr (ne_nil_of_isAsciiDnsName (hnames _ hmem)).1
    refine hnot (suffix_tail ((List.suffix_append q (dot :: b)).trans hanc.suffix) ?_)
    have := hanc.length_le
    rw [List.length_append] at this
    omega

theorem agree_of_parentsShare (hconfig : config.rewrite.check = .ok ())
    (hkeys : KeysAreBases config) (hl : resolver.Loaded load config)
    (hshare : ParentsShare load config) : Agree load config resolver := by
  have hnames := (RewriteConfig.check_ok.mp hconfig).2.1
  obtain ⟨hmem, hlookup⟩ := hl.keys hconfig hkeys
  intro sni r hr _
  obtain ⟨-, horig, hfound, -⟩ := (rewrite_eq_some_iff hconfig).mp hr
  obtain ⟨first, hfind, hp⟩ := findSome?_prefixOf.mp hfound
  have hfirst := List.mem_of_find?_eq_some hfind
  have hanc : IsAncestor first r.original :=
    .inr ((covers_iff.mp (List.find?_some hfind)).trans (List.tail_suffix _))
  refine ⟨first, hfirst, horig ▸ (prefixOf_eq_some.mp hp).2, ?_⟩
  obtain ⟨longest, cert, hlongest, hget, hlanc, hmax⟩ :=
    getCertForDomain_ancestor ((hmem first).mpr hfirst) (horig ▸ hanc)
  rw [← horig] at hlanc hmax
  have hbase : longest ∈ config.rewrite.baseDomains :=
    (hmem longest).mp (AList.lookup_isSome.mp (by rw [hlongest]; rfl))
  have hcert : (config.tls.certs.lookup first).map load = some (.ok cert) := by
    rcases find?_covers_longest hnames hbase hfind hlanc
      (fun b hb => hmax b ((hmem b).mpr hb)) with rfl | hf
    · exact hlookup _ _ hlongest
    · exact (hshare longest hbase first hf).trans (hlookup _ _ hlongest)
  obtain ⟨c, hc, hload⟩ := Option.map_eq_some_iff.mp hcert
  exact ⟨c, hc, hget.trans hload.symm⟩

/-- The name that tells a base domain from its parent is the base domain with a dot before it. -/
theorem parentsShare_of_agree (hconfig : config.rewrite.check = .ok ())
    (hkeys : KeysAreBases config) (hl : resolver.Loaded load config)
    (hagree : Agree load config resolver) : ParentsShare load config := by
  have hnames := (RewriteConfig.check_ok.mp hconfig).2.1
  obtain ⟨hmem, hlookup⟩ := hl.keys hconfig hkeys
  intro base hbase parent hfind
  have hbytes : ∀ b ∈ dot :: base, isHostByte b = true := by
    intro b hb
    rcases List.mem_cons.mp hb with rfl | hb
    · rfl
    · exact isHostByte_of_isAsciiDnsName (hnames base hbase) b hb
  have hnorm : toAsciiLowercase (trimEndMatches dot (dot :: base)) = dot :: base := by
    rw [← List.singleton_append,
      trimEndMatches_append_of_isAsciiDnsName [dot] (hnames base hbase)]
    exact toAsciiLowercase_of_isHostByte hbytes
  have hnot : dot :: base ∉ config.rewrite.baseDomains := fun h =>
    (ne_nil_of_isAsciiDnsName (x := []) (hnames _ h)).1 rfl
  obtain ⟨p, hp⟩ : ∃ p, prefixOf (dot :: base) parent = some p :=
    Option.isSome_iff_exists.mp (prefixOf_isSome_iff.mpr (List.find?_some hfind))
  have hr : (createRewriter config.rewrite).rewrite (dot :: base) =
      some ⟨dot :: base, p, p ++ config.rewrite.targetSuffix⟩ :=
    (rewrite_eq_some_iff hconfig).mpr
      ⟨hbytes, hnorm.symm, findSome?_prefixOf.mpr ⟨parent, hfind, hp⟩, rfl⟩
  obtain ⟨b, -, heq, c, hc, hget⟩ := hagree _ _ hr fun h => hnot ((hkeys _).mp h)
  rw [hnorm, (prefixOf_eq_some.mp hp).2] at heq
  obtain rfl := List.append_cancel_left heq
  have hanc : IsAncestor base (dot :: base) := .inr List.suffix_rfl
  obtain ⟨longest, cert, hlongest, hget', hlanc, hmax⟩ :=
    getCertForDomain_ancestor ((hmem base).mpr hbase) (hnorm.symm ▸ hanc)
  rw [hnorm] at hlanc hmax
  have hself : base = longest := by
    rcases hanc.of_length_le hlanc (hmax base ((hmem base).mpr hbase) hanc) with he | hs
    · exact he
    · have he : dot :: base = longest := hs.eq_of_length_le hlanc.length_le
      rw [he] at hnot
      exact absurd ((hmem longest).mp (AList.lookup_isSome.mp (by rw [hlongest]; rfl))) hnot
  rw [hc, Option.map_some, ← hget, hget', hself, hlookup longest cert hlongest]

/-- **Routing and certificate selection agree on the base domain** if and only if every base domain
has the certificate of the first of its parents in the list. -/
theorem agree_iff (hvalid : config.validate env = .ok ()) (hkeys : KeysAreBases config)
    (hnew : CertificateResolver.new load config = .ok resolver) :
    Agree load config resolver ↔ ParentsShare load config := by
  have hconfig := (AppConfig.validate_ok hvalid).rewrite
  have hl := CertificateResolver.loaded hnew
  exact ⟨parentsShare_of_agree hconfig hkeys hl, agree_of_parentsShare hconfig hkeys hl⟩

/-- A base domain under another one, with a certificate of its own or with the same. -/
def nestedConfig (cert : CertificateConfig) : AppConfig :=
  withCertificates [utf8 "example.com", utf8 "a.example.com"]
    [(utf8 "example.com", ⟨utf8 "com.pem", utf8 "com.key"⟩), (utf8 "a.example.com", cert)]

theorem keysAreBases_nestedConfig (cert : CertificateConfig) :
    KeysAreBases (nestedConfig cert) := by
  intro d
  simp only [nestedConfig, withCertificates, List.foldr_cons, List.foldr_nil, AList.mem_insert,
    AList.notMem_empty, or_false, List.mem_pair]

theorem agree_iff_nested :
    ∃ resolver : CertificateResolver CertificateConfig,
      CertificateResolver.new .ok (nestedConfig ⟨utf8 "com.pem", utf8 "com.key"⟩) = .ok resolver ∧
      Agree .ok (nestedConfig ⟨utf8 "com.pem", utf8 "com.key"⟩) resolver := by
  have hvalid : (nestedConfig ⟨utf8 "com.pem", utf8 "com.key"⟩).validate readyEnvironment =
      .ok () := by rfl
  obtain ⟨resolver, hnew⟩ : ∃ resolver : CertificateResolver CertificateConfig,
      CertificateResolver.new .ok (nestedConfig ⟨utf8 "com.pem", utf8 "com.key"⟩) =
        .ok resolver := ⟨_, rfl⟩
  refine ⟨resolver, hnew, (agree_iff hvalid (keysAreBases_nestedConfig _) hnew).mpr ?_⟩
  intro base hbase parent hfind
  rcases List.mem_pair.mp hbase with rfl | rfl
  · cases hfind
  · cases hfind
    rfl

/-- A name under both base domains gets the certificate of the longer one, and the prefix of the
first one. -/
theorem not_agree :
    ¬ ∀ (env : Environment) (config : AppConfig) (resolver : CertificateResolver CertificateConfig),
      config.validate env = .ok () → KeysAreBases config →
      CertificateResolver.new .ok config = .ok resolver → Agree .ok config resolver := by
  intro h
  obtain ⟨resolver, hnew, hget⟩ : ∃ resolver : CertificateResolver CertificateConfig,
      CertificateResolver.new .ok (nestedConfig ⟨utf8 "a.pem", utf8 "a.key"⟩) = .ok resolver ∧
      resolver.getCertForDomain (utf8 "x.a.example.com") = .ok ⟨utf8 "a.pem", utf8 "a.key"⟩ :=
    ⟨_, rfl, rfl⟩
  have hr : (createRewriter (nestedConfig ⟨utf8 "a.pem", utf8 "a.key"⟩).rewrite).rewrite
      (utf8 "x.a.example.com") =
        some ⟨utf8 "x.a.example.com", utf8 "x.a", utf8 "x.a.example.cn"⟩ := by rfl
  obtain ⟨base, -, heq, cert, hcert, hload⟩ := h readyEnvironment _ resolver (by rfl)
    (keysAreBases_nestedConfig _) hnew _ _ hr (by decide)
  have hbase : utf8 "x.a" ++ [dot] ++ utf8 "example.com" = utf8 "x.a" ++ [dot] ++ base := heq
  rw [← List.append_cancel_left hbase] at hcert
  cases hcert
  cases hget.symm.trans hload

end

end DnsIngress
