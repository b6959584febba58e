import DnsIngress.RewrittenNames
import DnsIngress.TlsUtils

/-! # The answers of the certificate resolver

`getCertForDomain_longestSuffix`: the resolver answers with the certificate of the longest key that
is the name or one of its parent domains, in whatever order it visits its keys, and no index that it
computes is out of range.

The loader lowers the case of a key and the lookup also trims its dots.  `servesOwn_iff` says for
which configurations every key still gets its own certificate. -/

namespace DnsIngress

open Ascii

/-- `a - b` of two `usize`; `none` is a panic. -/
def checkedSub (a b : ℕ) : Option ℕ := if b ≤ a then some (a - b) else none

/-- The filter of `get_cert_for_domain` with its conjuncts in their order; `none` is a panic. -/
def coversChecked (domain base : Bytes) : Option Bool :=
  if !base.isSuffixOf domain then some false
  else if !(base.length < domain.length) then some false
  else do
    let n ← checkedSub domain.length base.length
    let i ← checkedSub n 1
    let b ← domain[i]?
    pure (b == dot)

section
variable {κ : Type}

/-- The longest key that is a parent domain of the name. -/
def IsLongestParent (certs : AList fun _ : Bytes => κ) (name key : Bytes) : Prop :=
  key ∈ certs ∧ dot :: key <:+ name ∧
    ∀ key' ∈ certs, dot :: key' <:+ name → key'.length ≤ key.length

/-- What `get_cert_for_domain` answers. -/
structure LongestSuffix (resolver : CertificateResolver κ) (domain : Bytes) : Prop where
  exact : ∀ cert, resolver.certs.lookup (normalizedName domain) = some cert →
    resolver.getCertForDomain domain = .ok cert
  parent : normalizedName domain ∉ resolver.certs →
    ∀ key cert, IsLongestParent resolver.certs (normalizedName domain) key →
      resolver.certs.lookup key = some cert → resolver.getCertForDomain domain = .ok cert
  uniqueParent : (∃ key ∈ resolver.certs, dot :: key <:+ normalizedName domain) →
    ∃! key, IsLongestParent resolver.certs (normalizedName domain) key
  default : normalizedName domain ∉ resolver.certs →
    (∀ key ∈ resolver.certs, ¬ dot :: key <:+ normalizedName domain) →
    ∀ cert, resolver.default = some cert → resolver.getCertForDomain domain = .ok cert
  notConfigured : normalizedName domain ∉ resolver.certs →
    (∀ key ∈ resolver.certs, ¬ dot :: key <:+ normalizedName domain) →
    resolver.default = none →
    resolver.getCertForDomain domain =
      .error (.certificate (.notConfigured (normalizedName domain)))
  /-- the iteration order of the map does not matter -/
  anyOrder : ∀ resolver' : CertificateResolver κ,
    resolver'.certs.entries.Perm resolver.certs.entries → resolver'.default = resolver.default →
    resolver'.getCertForDomain domain = resolver.getCertForDomain domain
  /-- the index of the label boundary is in range -/
  inRange : ∀ base, coversChecked (normalizedName domain) base =
    some (covers (normalizedName domain) base)

variable {resolver resolver' : CertificateResolver κ} {certs : AList fun _ : Bytes => κ}
  {domain name key key' base : Bytes} {cert : κ}

/-! ### The selected key -/

theorem coversChecked_eq (domain base : Bytes) :
    coversChecked domain base = some (covers domain base) := by
  unfold coversChecked covers
  by_cases hs : base.isSuffixOf domain = true
  · by_cases hlt : base.length < domain.length
    · have hi : domain.length - base.length - 1 < domain.length := by omega
      have h₁ : base.length ≤ domain.length := by omega
      have h₂ : 1 ≤ domain.length - base.length := by omega
      simp [hs, hlt, checkedSub, h₁, h₂, List.getElem?_eq_getElem hi]
    · simp [hs, hlt]
  · simp [hs]

theorem IsLongestParent.unique (h : IsLongestParent certs name key)
    (h' : IsLongestParent certs name key') : key = key' := by
  obtain ⟨hmem, hs, hle⟩ := h
  obtain ⟨hmem', hs', hle'⟩ := h'
  have hlen : key.length = key'.length := Nat.le_antisymm (hle' key hmem hs) (hle key' hmem' hs')
  have hsuf : key <:+ key' := List.suffix_of_suffix_length_le
    ((List.suffix_cons dot key).trans hs) ((List.suffix_cons dot key').trans hs') hlen.le
  exact hsuf.eq_of_length hlen

theorem existsUnique_longestParent (hkey : key ∈ certs) (hs : dot :: key <:+ name) :
    ∃! longest, IsLongestParent certs name longest := by
  have hparent : ∀ k, k ∈ certs.keys.filter (covers name) ↔ k ∈ certs ∧ dot :: k <:+ name := by
    intro k
    rw [List.mem_filter, covers_iff, AList.mem_keys]
  cases hmax : maxByKey List.length (certs.keys.filter (covers name)) with
  | none =>
      have hnone := maxByKey_eq_none.mp hmax
      exact absurd ((hparent key).mpr ⟨hkey, hs⟩) (by rw [hnone]; exact List.not_mem_nil)
  | some longest =>
      obtain ⟨hmem, hle⟩ := maxByKey_eq_some hmax
      obtain ⟨hl, hls⟩ := (hparent longest).mp hmem
      have hlongest : IsLongestParent certs name longest :=
        ⟨hl, hls, fun k hk hks => hle k ((hparent k).mpr ⟨hk, hks⟩)⟩
      exact ⟨longest, hlongest, fun _ h => h.unique hlongest⟩

/-- A name without a certificate of its own gets that of its longest parent domain. -/
theorem getCertForDomain_parent (hnot : normalizedName domain ∉ resolver.certs)
    (hkey : key ∈ resolver.certs) (hs : dot :: key <:+ normalizedName domain) :
    ∃ longest cert, IsLongestParent resolver.certs (normalizedName domain) longest ∧
      resolver.certs.lookup longest = some cert ∧ resolver.getCertForDomain domain = .ok cert := by
  obtain ⟨longest, cert, hlookup, hget, hanc, hmax⟩ := getCertForDomain_ancestor hkey (.inr hs)
  have hmem : longest ∈ resolver.certs := AList.lookup_isSome.mp (by rw [hlookup]; rfl)
  refine ⟨longest, cert, ⟨hmem, ?_, fun k hk hks => hmax k hk (.inr hks)⟩, hlookup, hget⟩
  rcases hanc with rfl | hanc
  · exact absurd hmem hnot
  · exact hanc

theorem getCertForDomain_default (hnot : normalizedName domain ∉ resolver.certs)
    (hparent : ∀ key ∈ resolver.certs, ¬ dot :: key <:+ normalizedName domain) :
    resolver.getCertForDomain domain =
      match resolver.default with
      | some cert => .ok cert
      | none => .error (.certificate (.notConfigured (normalizedName domain))) := by
  have hfilter :
      resolver.certs.entries.filter (fun e => covers (normalizedName domain) e.1) = [] := by
    rw [List.filter_eq_nil_iff]
    intro e he
    rw [covers_iff]
    exact hparent e.1 (AList.mem_keys.mpr (List.mem_map_of_mem he))
  have hmax : maxByKey (·.1.length)
      (resolver.certs.entries.filter fun e => covers (normalizedName domain) e.1) = none :=
    maxByKey_eq_none.mpr hfilter
  unfold CertificateResolver.getCertForDomain
  dsimp only
  rw [← normalizedName, AList.lookup_eq_none.mpr hnot]
  cases resolver.default with
  | some cert => simp only [hmax]
  | none => simp only [hmax]

theorem getCertForDomain_exact
    (h : resolver.certs.lookup (normalizedName domain) = some cert) :
    resolver.getCertForDomain domain = .ok cert := by
  unfold CertificateResolver.getCertForDomain
  dsimp only
  rw [← normalizedName, h]

theorem getCertForDomain_longestParent (hnot : normalizedName domain ∉ resolver.certs)
    (hkey : IsLongestParent resolver.certs (normalizedName domain) key)
    (h : resolver.certs.lookup key = some cert) : resolver.getCertForDomain domain = .ok cert := by
  obtain ⟨longest, cert', hlongest, hlookup, hget⟩ :=
    getCertForDomain_parent hnot hkey.1 hkey.2.1
  rw [hlongest.unique hkey, h] at hlookup
  cases hlookup
  exact hget

/-- The answer is determined by the map, not by its order. -/
theorem getCertForDomain_perm (hperm : resolver'.certs.entries.Perm resolver.certs.entries)
    (hdefault : resolver'.default = resolver.default) :
    resolver'.getCertForDomain domain = resolver.getCertForDomain domain := by
  have hmem : ∀ k, k ∈ resolver'.certs ↔ k ∈ resolver.certs := fun k => AList.mem_of_perm hperm
  have hlookup : ∀ k, resolver'.certs.lookup k = resolver.certs.lookup k :=
    fun k => AList.perm_lookup hperm
  by_cases hname : normalizedName domain ∈ resolver.certs
  · obtain ⟨cert, hcert⟩ := Option.isSome_iff_exists.mp (AList.lookup_isSome.mpr hname)
    rw [getCertForDomain_exact hcert, getCertForDomain_exact ((hlookup _).trans hcert)]
  · have hname' : normalizedName domain ∉ resolver'.certs := fun h => hname ((hmem _).mp h)
    by_cases hparent : ∃ key ∈ resolver.certs, dot :: key <:+ normalizedName domain
    · obtain ⟨key, hkey, hs⟩ := hparent
      obtain ⟨longest, cert, ⟨hl, hls, hle⟩, hcert, hget⟩ :=
        getCertForDomain_parent hname hkey hs
      have hlongest : IsLongestParent resolver'.certs (normalizedName domain) longest :=
        ⟨(hmem _).mpr hl, hls, fun k hk => hle k ((hmem _).mp hk)⟩
      rw [hget, getCertForDomain_longestParent hname' hlongest ((hlookup _).trans hcert)]
    · have hnone : ∀ key ∈ resolver.certs, ¬ dot :: key <:+ normalizedName domain :=
        fun key hkey hs => hparent ⟨key, hkey, hs⟩
      rw [getCertForDomain_default hname hnone,
        getCertForDomain_default hname' fun key hkey => hnone key ((hmem _).mp hkey), hdefault]

/-- **The longest key that is the name or a parent domain of it** decides. -/
theorem getCertForDomain_longestSuffix (resolver : CertificateResolver κ) (domain : Bytes) :
    LongestSuffix resolver domain where
  exact _ h := getCertForDomain_exact h
  parent hnot _ _ hkey h := getCertForDomain_longestParent hnot hkey h
  uniqueParent := fun ⟨_, hkey, hs⟩ => existsUnique_longestParent hkey hs
  default hnot hnone cert h := by rw [getCertForDomain_default hnot hnone, h]
  notConfigured hnot hnone h := by rw [getCertForDomain_default hnot hnone, h]
  anyOrder _ hperm hdefault := getCertForDomain_perm hperm hdefault
  inRange base := coversChecked_eq _ base

/-! ### The certificates of the keys themselves -/

/-- The certificate of a key that is the name in some case. -/
def Named (tls : TlsConfig) (name : Bytes) (c : CertificateConfig) : Prop :=
  ∃ key, tls.certs.lookup key = some c ∧ toAsciiLowercase key = name

/-- The longest parent domain that is a key in some case. -/
def IsLongestNamed (tls : TlsConfig) (name parent : Bytes) : Prop :=
  dot :: parent <:+ name ∧ (∃ c, Named tls parent c) ∧
    ∀ parent' c, dot :: parent' <:+ name → Named tls parent' c → parent'.length ≤ parent.length

/-- A certificate that a name in lower case can be given, in some order of the keys. -/
inductive Candidate (tls : TlsConfig) (name : Bytes) (c : CertificateConfig) : Prop
  | own : Named tls name c → Candidate tls name c
  | parent (parent : Bytes) : (∀ c', ¬ Named tls name c') → IsLongestNamed tls name parent →
      Named tls parent c → Candidate tls name c
  | default : (∀ c', ¬ Named tls name c') →
      (∀ parent c', dot :: parent <:+ name → ¬ Named tls parent c') → tls.default = some c →
      Candidate tls name c

/-- Every key can be given its own certificate only. -/
def OwnCertificates (load : CertificateConfig → Except DnsProxyError κ) (tls : TlsConfig) : Prop :=
  ∀ key c, tls.certs.lookup key = some c →
    (∃ c', Candidate tls (normalizedName key) c') ∧
      ∀ c', Candidate tls (normalizedName key) c' → load c' = load c

/-- The configuration with the certificates in another order. -/
def AppConfig.withOrder (config : AppConfig) (certs : AList fun _ : Bytes => CertificateConfig) :
    AppConfig :=
  { config with tls := { config.tls with certs := certs } }

/-- In every iteration order of `tls.certs`, every key is given its own certificate. -/
def ServesOwn (load : CertificateConfig → Except DnsProxyError κ) (config : AppConfig) : Prop :=
  ∀ certs, certs.entries.Perm config.tls.certs.entries →
    ∀ resolver, CertificateResolver.new load (config.withOrder certs) = .ok resolver →
      ∀ key c, config.tls.certs.lookup key = some c → resolver.getCertForDomain key = load c

variable {load : CertificateConfig → Except DnsProxyError κ} {config : AppConfig}
  {tls tls' : TlsConfig} {c c' : CertificateConfig}
  {es : List ((_ : Bytes) × CertificateConfig)} {certs' : AList fun _ : Bytes => κ}

theorem Candidate.of_perm (hperm : tls'.certs.entries.Perm tls.certs.entries)
    (hdefault : tls'.default = tls.default) (h : Candidate tls' name c) : Candidate tls name c := by
  have hnamed : Named tls' = Named tls := by
    funext name c
    simp only [Named, AList.perm_lookup hperm]
  cases h with
  | own h => exact .own (hnamed ▸ h)
  | parent parent hnot hlongest h =>
      rw [hnamed] at hnot h
      rw [IsLongestNamed, hnamed] at hlongest
      exact .parent parent hnot hlongest h
  | default hnot hparent h =>
      rw [hnamed] at hnot hparent
      exact .default hnot hparent (hdefault.symm.trans h)

theorem load_ok_of_loadInto (h : es.foldlM (loadInto load) certs = .ok certs') :
    ∀ e ∈ es, ∃ cert, load e.2 = .ok cert := by
  induction es generalizing certs with
  | nil => simp
  | cons e es ih =>
      obtain ⟨certs₁, hinto, h'⟩ := bind_eq_ok.mp (List.foldlM_cons.symm.trans h)
      obtain ⟨cert, hload, -⟩ := bind_eq_ok.mp hinto
      intro e' he'
      rcases List.mem_cons.mp he' with rfl | he'
      · exact ⟨cert, hload⟩
      · exact ih h' e' he'

theorem load_ok (hnew : CertificateResolver.new load config = .ok resolver)
    (hc : config.tls.certs.lookup key = some c) : ∃ cert, load c = .ok cert := by
  obtain ⟨_, -, h⟩ := bind_eq_ok.mp hnew
  obtain ⟨_, hcerts, -⟩ := bind_eq_ok.mp h
  exact load_ok_of_loadInto hcerts ⟨key, c⟩ (AList.mem_lookup_iff.mp hc)

theorem default_of_new (hnew : CertificateResolver.new load config = .ok resolver) :
    (config.tls.default = none ∧ resolver.default = none) ∨
      ∃ c cert, config.tls.default = some c ∧ resolver.default = some cert ∧
        load c = .ok cert := by
  obtain ⟨default, hdefault, h⟩ := bind_eq_ok.mp hnew
  obtain ⟨_, -, h⟩ := bind_eq_ok.mp h
  cases h
  cases hd : config.tls.default with
  | none =>
      rw [hd] at hdefault
      cases hdefault
      exact .inl ⟨rfl, rfl⟩
  | some c =>
      rw [hd] at hdefault
      obtain ⟨cert, hload, h⟩ := bind_eq_ok.mp hdefault
      cases h
      exact .inr ⟨c, cert, rfl, rfl, hload⟩

theorem mem_certs_iff (hl : resolver.Loaded load config) :
    name ∈ resolver.certs ↔ ∃ c, Named config.tls name c := by
  rw [hl.mem]
  constructor
  · rintro ⟨key, hkey, hname⟩
    obtain ⟨c, hc⟩ := Option.isSome_iff_exists.mp (AList.lookup_isSome.mpr hkey)
    exact ⟨c, key, hc, hname⟩
  · rintro ⟨c, key, hc, hname⟩
    exact ⟨key, AList.lookup_isSome.mp (by rw [hc]; rfl), hname⟩

theorem isLongestParent_iff (hl : resolver.Loaded load config) :
    IsLongestParent resolver.certs name key ↔ IsLongestNamed config.tls name key := by
  simp only [IsLongestParent, IsLongestNamed, mem_certs_iff hl]
  constructor
  · rintro ⟨hmem, hs, hle⟩
    exact ⟨hs, hmem, fun parent c hp hc => hle parent ⟨c, hc⟩ hp⟩
  · rintro ⟨hs, hmem, hle⟩
    exact ⟨hmem, hs, fun parent ⟨c, hc⟩ hp => hle parent c hp hc⟩

/-- **The answer for a name is one of its candidates**, or there is none. -/
theorem getCertForDomain_candidate (hnew : CertificateResolver.new load config = .ok resolver)
    (domain : Bytes) :
    (∃ c, Candidate config.tls (normalizedName domain) c ∧
        resolver.getCertForDomain domain = load c) ∨
      (∀ c, ¬ Candidate config.tls (normalizedName domain) c) ∧
        ∃ e, resolver.getCertForDomain domain = .error e := by
  have hl := CertificateResolver.loaded hnew
  by_cases hname : normalizedName domain ∈ resolver.certs
  · obtain ⟨cert, hcert⟩ := Option.isSome_iff_exists.mp (AList.lookup_isSome.mpr hname)
    obtain ⟨key, c, hc, hkey, hload⟩ := hl.lookup _ _ hcert
    exact .inl ⟨c, .own ⟨key, hc, hkey⟩, (getCertForDomain_exact hcert).trans hload.symm⟩
  · have hnot : ∀ c, ¬ Named config.tls (normalizedName domain) c :=
      fun c hc => hname ((mem_certs_iff hl).mpr ⟨c, hc⟩)
    by_cases hparent : ∃ key ∈ resolver.certs, dot :: key <:+ normalizedName domain
    · obtain ⟨key, hkey, hs⟩ := hparent
      obtain ⟨longest, cert, hlongest, hcert, hget⟩ := getCertForDomain_parent hname hkey hs
      obtain ⟨key', c, hc, hkey', hload⟩ := hl.lookup _ _ hcert
      exact .inl ⟨c, .parent longest hnot ((isLongestParent_iff hl).mp hlongest) ⟨key', hc, hkey'⟩,
        hget.trans hload.symm⟩
    · have hnone : ∀ key ∈ resolver.certs, ¬ dot :: key <:+ normalizedName domain :=
        fun key hkey hs => hparent ⟨key, hkey, hs⟩
      have hget := getCertForDomain_default hname hnone
      have hnone' : ∀ parent c', dot :: parent <:+ normalizedName domain →
          ¬ Named config.tls parent c' :=
        fun parent c' hs hc' => hnone parent ((mem_certs_iff hl).mpr ⟨c', hc'⟩) hs
      rcases default_of_new hnew with ⟨hd, hd'⟩ | ⟨c, cert, hd, hd', hload⟩
      · rw [hd'] at hget
        refine .inr ⟨fun c hc => ?_, _, hget⟩
        cases hc with
        | own h => exact hnot c h
        | parent parent _ hlongest h => exact hnone' parent c hlongest.1 h
        | default _ _ h => cases hd.symm.trans h
      · rw [hd'] at hget
        exact .inl ⟨c, .default hnot hnone' hd, hget.trans hload.symm⟩

/-! ### When every key gets its own -/

theorem trimEndMatches_normalizedName (s : Bytes) :
    trimEndMatches dot (normalizedName s) = normalizedName s := by
  rw [normalizedName, trimEndMatches_toAsciiLowercase_dot]
  congr 1
  exact List.rdropWhile_idempotent _ _

theorem trimEndMatches_parent {parent : Bytes} (hs : dot :: parent <:+ name)
    (hname : trimEndMatches dot name = name) : trimEndMatches dot parent = parent := by
  refine List.rdropWhile_eq_self_iff.mpr fun hne => ?_
  obtain ⟨p, rfl⟩ := hs
  have hlast := List.rdropWhile_eq_self_iff.mp hname (by simp)
  rwa [List.getLast_append_of_ne_nil _ (List.cons_ne_nil _ _), List.getLast_cons hne] at hlast

/-- A name without trailing dots is found under the certificates of all keys that name it. -/
theorem lookup_of_named (hl : resolver.Loaded load config)
    (hown : ∀ key c, config.tls.certs.lookup key = some c →
      resolver.getCertForDomain key = load c)
    (hname : trimEndMatches dot name = name) (h : Named config.tls name c) :
    ∃ cert, resolver.certs.lookup name = some cert ∧ load c = .ok cert := by
  obtain ⟨key, hc, hkey⟩ := h
  obtain ⟨cert, hcert⟩ := Option.isSome_iff_exists.mp
    (AList.lookup_isSome.mpr ((mem_certs_iff hl).mpr ⟨c, key, hc, hkey⟩))
  have hnorm : normalizedName key = name := by
    rw [normalizedName, ← trimEndMatches_toAsciiLowercase_dot, hkey, hname]
  refine ⟨cert, hcert, (hown key c hc).symm.trans (getCertForDomain_exact ?_)⟩
  rw [hnorm, hcert]

theorem ownCertificates_of_servesOwn
    (hnew : CertificateResolver.new load config = .ok resolver)
    (hserves : ServesOwn load config) : OwnCertificates load config.tls := by
  have hl := CertificateResolver.loaded hnew
  have hown := hserves config.tls.certs (.refl _) resolver hnew
  intro key c hc
  have hget := hown key c hc
  obtain ⟨cert, hload⟩ := load_ok hnew hc
  have hfix := trimEndMatches_normalizedName key
  constructor
  · rcases getCertForDomain_candidate hnew key with ⟨c', hc', -⟩ | ⟨-, e, he⟩
    · exact ⟨c', hc'⟩
    · cases (he.symm.trans hget).trans hload
  · intro c' hc'
    rw [← hget]
    cases hc' with
    | own h =>
        obtain ⟨cert', hcert', hload'⟩ := lookup_of_named hl hown hfix h
        rw [hload', getCertForDomain_exact hcert']
    | parent parent hnot hlongest h =>
        obtain ⟨cert', hcert', hload'⟩ :=
          lookup_of_named hl hown (trimEndMatches_parent hlongest.1 hfix) h
        have hname : normalizedName key ∉ resolver.certs :=
          fun hmem => ((mem_certs_iff hl).mp hmem).elim hnot
        rw [hload', getCertForDomain_longestParent hname ((isLongestParent_iff hl).mpr hlongest)
          hcert']
    | default hnot hnone h =>
        have hname : normalizedName key ∉ resolver.certs :=
          fun hmem => ((mem_certs_iff hl).mp hmem).elim hnot
        have hparent : ∀ k ∈ resolver.certs, ¬ dot :: k <:+ normalizedName key :=
          fun k hk hs => ((mem_certs_iff hl).mp hk).elim fun c => hnone k c hs
        rcases default_of_new hnew with ⟨hd, -⟩ | ⟨d, cert', hd, hd', hload'⟩
        · cases hd.symm.trans h
        · cases hd.symm.trans h
          rw [hload', getCertForDomain_default hname hparent, hd']

/-- **Every key is given its own certificate** if and only if it has no other candidate. -/
theorem servesOwn_iff (hnew : CertificateResolver.new load config = .ok resolver) :
    ServesOwn load config ↔ OwnCertificates load config.tls := by
  refine ⟨ownCertificates_of_servesOwn hnew, fun hown certs hperm resolver' hnew' key c hc => ?_⟩
  have horder : (config.withOrder certs).tls.certs.entries.Perm config.tls.certs.entries := hperm
  obtain ⟨⟨c₁, hc₁⟩, hall⟩ := hown key c hc
  rcases getCertForDomain_candidate hnew' key with ⟨c', hc', hget⟩ | ⟨hnone, -⟩
  · rw [hget]
    exact hall c' (Candidate.of_perm horder rfl hc')
  · exact absurd (Candidate.of_perm horder.symm rfl hc₁) (hnone c₁)

/-- No key ends in a dot, and keys that differ in their case have one certificate. -/
theorem ownCertificates_of_canonical
    (hdots : ∀ key ∈ tls.certs, trimEndMatches dot key = key)
    (hcase : ∀ key key' c c', tls.certs.lookup key = some c → tls.certs.lookup key' = some c' →
      toAsciiLowercase key = toAsciiLowercase key' → load c = load c') :
    OwnCertificates load tls := by
  intro key c hc
  have hkey : key ∈ tls.certs := AList.lookup_isSome.mp (by rw [hc]; rfl)
  have hname : normalizedName key = toAsciiLowercase key := by
    rw [normalizedName, hdots key hkey]
  have hnamed : Named tls (normalizedName key) c := ⟨key, hc, hname.symm⟩
  refine ⟨⟨c, .own hnamed⟩, fun c' hc' => ?_⟩
  cases hc' with
  | own h =>
      obtain ⟨key', hc', heq⟩ := h
      exact hcase key' key c' c hc' hc (heq.trans hname)
  | parent _ hnot _ _ | default hnot _ _ => exact absurd hnamed (hnot c)

end

theorem servesOwn_iff_parent : ServesOwn .ok parentConfig := by
  obtain ⟨resolver, hnew⟩ : ∃ resolver : CertificateResolver CertificateConfig,
      CertificateResolver.new .ok parentConfig = .ok resolver := ⟨_, rfl⟩
  have hkeys : ∀ key c, parentConfig.tls.certs.lookup key = some c →
      key = utf8 "EXAMPLE.com" ∨ key = utf8 "Org" := by
    intro key c hc
    have hkey : key ∈ parentConfig.tls.certs := AList.lookup_isSome.mp (by rw [hc]; rfl)
    exact List.mem_pair.mp (AList.mem_keys.mp hkey)
  refine (servesOwn_iff hnew).mpr (ownCertificates_of_canonical ?_ ?_)
  · intro key hkey
    rcases List.mem_pair.mp (AList.mem_keys.mp hkey) with rfl | rfl <;> rfl
  · intro key key' c c' hc hc' heq
    have : key = key' := by
      rcases hkeys key c hc with rfl | rfl <;> rcases hkeys key' c' hc' with rfl | rfl
      · rfl
      · exact absurd heq (by decide)
      · exact absurd heq (by decide)
      · rfl
    rw [this, hc'] at hc
    cases hc
    rfl

/-- The certificate of a key with a trailing dot is not found, and of two keys that differ in their
case one loses its certificate. -/
theorem not_servesOwn :
    ¬ ServesOwn .ok (withCertificates [utf8 "example.com"]
        [(utf8 "example.com.", ⟨utf8 "com.pem", utf8 "com.key"⟩)]) ∧
      ¬ ServesOwn .ok (withCertificates [utf8 "example.com"]
        [(utf8 "example.com", ⟨utf8 "a.pem", utf8 "a.key"⟩),
          (utf8 "Example.com", ⟨utf8 "b.pem", utf8 "b.key"⟩)]) := by
  constructor
  · intro h
    cases h _ (.refl _) _ rfl (utf8 "example.com.") _ rfl
  · intro h
    have h₁ := h _ (.refl _) _ rfl (utf8 "example.com") _ rfl
    have h₂ := h _ (.refl _) _ rfl (utf8 "Example.com") _ rfl
    cases h₁.symm.trans h₂

end DnsIngress
