import DnsIngress.Rewriter

/-! # Rewritten names

What `rewrite` returns, said without its loop and its guards, and what it does to DNS names.

`rewrite_exact`: the rewriter of an accepted configuration looks for the first base domain that a
name has at a label boundary, and for nothing else.  `isAsciiDnsName_target`: the target of a DNS
name has valid labels, and is a DNS name unless it has grown too long.  The rewriter checks no
length, as neither the tests of the source ask it to. -/

namespace DnsIngress

open Ascii

/-- A server name without trailing dots and in lower case. -/
def normalizedName (sni : Bytes) : Bytes := toAsciiLowercase (trimEndMatches dot sni)

/-- The name is a non-empty prefix, a dot and the base domain. -/
def Splits (name hostPrefix base : Bytes) : Prop :=
  hostPrefix ≠ [] ∧ name = hostPrefix ++ [dot] ++ base

/-- The prefix before the first base domain, in the order of the list, that splits the name. -/
def FirstSplit (bases : List Bytes) (name hostPrefix : Bytes) : Prop :=
  ∃ before base after, bases = before ++ base :: after ∧ Splits name hostPrefix base ∧
    ∀ b ∈ before, ∀ p, ¬ Splits name p b

/-- What `rewrite` means. -/
structure ExactRewrite (config : RewriteConfig) : Prop where
  defined : ∀ sni, ((createRewriter config).rewrite sni).isSome = true ↔
    (∀ b ∈ normalizedName sni, isHostByte b = true) ∧
      ∃ base ∈ config.baseDomains, ∃ p, Splits (normalizedName sni) p base
  result : ∀ sni r, (createRewriter config).rewrite sni = some r →
    r.original = normalizedName sni ∧
      FirstSplit config.baseDomains (normalizedName sni) r.hostPrefix ∧
      r.targetHostname = r.hostPrefix ++ config.targetSuffix
  /-- neither the case nor trailing dots matter -/
  spelling : ∀ sni sni' n n', eqIgnoreAsciiCase sni sni' = true →
    (createRewriter config).rewrite (sni ++ List.replicate n dot) =
      (createRewriter config).rewrite (sni' ++ List.replicate n' dot)
  /-- a base domain that ends the name, but not after a dot, does not match -/
  boundary : ∀ sni,
    (∀ base ∈ config.baseDomains, base <:+ normalizedName sni →
      ¬ dot :: base <:+ normalizedName sni) →
    (createRewriter config).rewrite sni = none
  target : ∀ sni sni' r r', (createRewriter config).rewrite sni = some r →
    (createRewriter config).rewrite sni' = some r' →
    (r.targetHostname = r'.targetHostname ↔ r.hostPrefix = r'.hostPrefix)

variable {env : Environment} {config : AppConfig} {rewriteConfig : RewriteConfig}
  {sni sni' name p base : Bytes} {bases : List Bytes} {r : RewriteResult}

/-! ### The first base domain that matches -/

theorem findSome?_prefixOf_eq_some :
    bases.findSome? (prefixOf name) = some p ↔ FirstSplit bases name p := by
  have hnone : ∀ b, prefixOf name b = none ↔ ∀ p, ¬ Splits name p b := by
    intro b
    rw [Option.eq_none_iff_forall_ne_some]
    exact forall_congr' fun p => not_congr prefixOf_eq_some
  rw [List.findSome?_eq_some_iff]
  constructor
  · rintro ⟨before, base, after, hbases, hp, hbefore⟩
    exact ⟨before, base, after, hbases, prefixOf_eq_some.mp hp,
      fun b hb => (hnone b).mp (hbefore b hb)⟩
  · rintro ⟨before, base, after, hbases, hp, hbefore⟩
    exact ⟨before, base, after, hbases, prefixOf_eq_some.mpr hp,
      fun b hb => (hnone b).mpr (hbefore b hb)⟩

theorem exists_firstSplit :
    (∃ p, FirstSplit bases name p) ↔ ∃ base ∈ bases, ∃ p, Splits name p base := by
  constructor
  · rintro ⟨p, before, base, after, rfl, hp, -⟩
    exact ⟨base, by simp, p, hp⟩
  · rintro ⟨base, hbase, p, hp⟩
    have hsome : (bases.findSome? (prefixOf name)).isSome = true := by
      rw [List.findSome?_isSome_iff]
      exact ⟨base, hbase, Option.isSome_iff_exists.mpr ⟨p, prefixOf_eq_some.mpr hp⟩⟩
    obtain ⟨p, hp⟩ := Option.isSome_iff_exists.mp hsome
    exact ⟨p, findSome?_prefixOf_eq_some.mp hp⟩

theorem rewrite_eq_some_iff_firstSplit (hconfig : rewriteConfig.check = .ok ()) :
    (createRewriter rewriteConfig).rewrite sni = some r ↔
      (∀ b ∈ normalizedName sni, isHostByte b = true) ∧ r.original = normalizedName sni ∧
        FirstSplit rewriteConfig.baseDomains (normalizedName sni) r.hostPrefix ∧
        r.targetHostname = r.hostPrefix ++ rewriteConfig.targetSuffix := by
  rw [rewrite_eq_some_iff hconfig, findSome?_prefixOf_eq_some]
  constructor
  · rintro ⟨hbytes, horig, hfirst, htarget⟩
    rw [horig] at hbytes hfirst
    exact ⟨hbytes, horig, hfirst, htarget⟩
  · rintro ⟨hbytes, horig, hfirst, htarget⟩
    rw [← horig] at hbytes hfirst
    exact ⟨hbytes, horig, hfirst, htarget⟩

/-! ### Spellings of a name -/

theorem trimEndMatches_append_replicate (s : Bytes) (n : ℕ) :
    trimEndMatches dot (s ++ List.replicate n dot) = trimEndMatches dot s := by
  induction n with
  | zero => simp
  | succ n ih =>
      rw [List.replicate_succ', ← List.append_assoc, trimEndMatches, List.rdropWhile_concat_pos]
      · exact ih
      · rfl

theorem normalizedName_eq (h : eqIgnoreAsciiCase sni sni' = true) (n n' : ℕ) :
    normalizedName (sni ++ List.replicate n dot) =
      normalizedName (sni' ++ List.replicate n' dot) := by
  rw [eqIgnoreAsciiCase, beq_iff_eq] at h
  simp only [normalizedName, trimEndMatches_append_replicate,
    ← trimEndMatches_toAsciiLowercase_dot, h]

theorem rewrite_congr (hconfig : rewriteConfig.check = .ok ())
    (h : normalizedName sni = normalizedName sni') :
    (createRewriter rewriteConfig).rewrite sni = (createRewriter rewriteConfig).rewrite sni' := by
  apply Option.ext
  intro r
  rw [rewrite_eq_some_iff_firstSplit hconfig, rewrite_eq_some_iff_firstSplit hconfig, h]

theorem isSome_rewrite (hconfig : rewriteConfig.check = .ok ()) :
    ((createRewriter rewriteConfig).rewrite sni).isSome = true ↔
      (∀ b ∈ normalizedName sni, isHostByte b = true) ∧
        ∃ base ∈ rewriteConfig.baseDomains, ∃ p, Splits (normalizedName sni) p base := by
  rw [Option.isSome_iff_exists, ← exists_firstSplit]
  constructor
  · rintro ⟨r, hr⟩
    obtain ⟨hbytes, -, hfirst, -⟩ := (rewrite_eq_some_iff_firstSplit hconfig).mp hr
    exact ⟨hbytes, r.hostPrefix, hfirst⟩
  · rintro ⟨hbytes, p, hfirst⟩
    exact ⟨⟨normalizedName sni, p, p ++ rewriteConfig.targetSuffix⟩,
      (rewrite_eq_some_iff_firstSplit hconfig).mpr ⟨hbytes, rfl, hfirst, rfl⟩⟩

/-- **What `rewrite` means**, under an accepted configuration. -/
theorem rewrite_exact (hvalid : config.validate env = .ok ()) : ExactRewrite config.rewrite := by
  have hconfig := (AppConfig.validate_ok hvalid).rewrite
  refine ⟨fun sni => isSome_rewrite hconfig, ?_, ?_, ?_, ?_⟩
  · intro sni r hr
    exact ((rewrite_eq_some_iff_firstSplit hconfig).mp hr).2
  · intro sni sni' n n' hcase
    exact rewrite_congr hconfig (normalizedName_eq hcase n n')
  · intro sni hboundary
    rw [← Option.not_isSome_iff_eq_none, isSome_rewrite hconfig]
    rintro ⟨-, base, hbase, p, -, hname⟩
    have hdot : dot :: base <:+ normalizedName sni := ⟨p, by rw [hname, ← List.append_cons]⟩
    exact hboundary base hbase ((List.suffix_cons dot base).trans hdot) hdot
  · intro sni sni' r r' hr hr'
    obtain ⟨-, -, -, htarget⟩ := (rewrite_eq_some_iff_firstSplit hconfig).mp hr
    obtain ⟨-, -, -, htarget'⟩ := (rewrite_eq_some_iff_firstSplit hconfig).mp hr'
    rw [htarget, htarget', List.append_cancel_right_eq]

/-- Two base domains, the longer one first, and a longer suffix. -/
def longSuffixConfig : AppConfig :=
  { certifiedConfig with
    rewrite :=
      { baseDomains := [utf8 "b.example.cn", utf8 "example.cn"]
        targetSuffix := utf8 ".upstream.example.com" } }

theorem rewrite_exact_longSuffix :
    ExactRewrite longSuffixConfig.rewrite ∧
      (createRewriter longSuffixConfig.rewrite).rewrite (utf8 "evilexample.cn") = none := by
  have hvalid : longSuffixConfig.validate readyEnvironment = .ok () := by rfl
  refine ⟨rewrite_exact hvalid, (rewrite_exact hvalid).boundary _ ?_⟩
  intro base hbase
  rcases List.mem_pair.mp hbase with rfl | rfl <;> decide

/-! ### DNS names -/

/-- A DNS name is made of valid labels, and is not too long. -/
theorem isAsciiDnsName_iff :
    isAsciiDnsName name = true ↔
      name.length ≤ 253 ∧ ∀ label ∈ name.splitOn dot, isAsciiDnsLabel label = true := by
  simp only [isAsciiDnsName, Bool.and_eq_true, List.all_eq_true, bne_iff_ne, ne_eq,
    decide_eq_true_eq]
  constructor
  · rintro ⟨⟨-, hlen⟩, hlabels⟩
    exact ⟨hlen, hlabels⟩
  · rintro ⟨hlen, hlabels⟩
    refine ⟨⟨?_, hlen⟩, hlabels⟩
    rintro rfl
    cases hlabels [] (by simp)

theorem labels_target (hconfig : rewriteConfig.check = .ok ())
    (hname : isAsciiDnsName (normalizedName sni) = true)
    (hr : (createRewriter rewriteConfig).rewrite sni = some r) :
    ∀ label ∈ r.targetHostname.splitOn dot, isAsciiDnsLabel label = true := by
  obtain ⟨-, -, ⟨_, base, _, -, ⟨-, hsplit⟩, -⟩, htarget⟩ :=
    (rewrite_eq_some_iff_firstSplit hconfig).mp hr
  have hsuffix := (RewriteConfig.check_ok.mp hconfig).2.2
  simp only [isAsciiDnsSuffix, Bool.and_eq_true] at hsuffix
  obtain ⟨suffix, hs⟩ : ∃ suffix, rewriteConfig.targetSuffix = dot :: suffix := by
    cases h : rewriteConfig.targetSuffix with
    | nil => simp [h, startsWith] at hsuffix
    | cons b suffix => exact ⟨suffix, by simpa [h, startsWith] using hsuffix.1⟩
  rw [hs, List.drop_one, List.tail_cons] at hsuffix
  rw [hsplit, ← List.append_cons, isAsciiDnsName_iff, List.splitOn_append_cons_self] at hname
  rw [htarget, hs, List.splitOn_append_cons_self]
  intro label hlabel
  rcases List.mem_append.mp hlabel with hl | hl
  · exact hname.2 label (List.mem_append_left _ hl)
  · exact (isAsciiDnsName_iff.mp hsuffix.2).2 label hl

/-- **The target of a DNS name** has valid labels; it is a DNS name if and only if prefix and suffix
are not too long together. -/
theorem isAsciiDnsName_target (hvalid : config.validate env = .ok ())
    (hname : isAsciiDnsName (normalizedName sni) = true)
    (hr : (createRewriter config.rewrite).rewrite sni = some r) :
    (∀ label ∈ r.targetHostname.splitOn dot, isAsciiDnsLabel label = true) ∧
      (isAsciiDnsName r.targetHostname = true ↔
        r.hostPrefix.length + config.rewrite.targetSuffix.length ≤ 253) := by
  have hconfig := (AppConfig.validate_ok hvalid).rewrite
  have hlabels := labels_target hconfig hname hr
  obtain ⟨-, -, -, htarget⟩ := (rewrite_eq_some_iff_firstSplit hconfig).mp hr
  refine ⟨hlabels, ?_⟩
  rw [isAsciiDnsName_iff, and_iff_left hlabels, htarget, List.length_append]

theorem isAsciiDnsName_target_longSuffix :
    isAsciiDnsName (utf8 "a.upstream.example.com") = true := by
  have hvalid : longSuffixConfig.validate readyEnvironment = .ok () := by rfl
  have hr : (createRewriter longSuffixConfig.rewrite).rewrite (utf8 "A.b.example.CN.") =
      some ⟨utf8 "a.b.example.cn", utf8 "a", utf8 "a.upstream.example.com"⟩ := by rfl
  exact (isAsciiDnsName_target hvalid (by decide) hr).2.mpr (by decide)

/-- Four labels, 242 bytes together. -/
def longPrefix : Bytes :=
  List.replicate 63 97 ++ [dot] ++ List.replicate 63 97 ++ [dot] ++ List.replicate 63 97 ++ [dot] ++
    List.replicate 50 97

/-- A DNS name of 253 bytes is rewritten to a name of 263 bytes. -/
theorem not_isAsciiDnsName_target :
    ¬ ∀ (env : Environment) (config : AppConfig) (sni : Bytes) (r : RewriteResult),
      config.validate env = .ok () → isAsciiDnsName (normalizedName sni) = true →
      (createRewriter config.rewrite).rewrite sni = some r →
      isAsciiDnsName r.targetHostname = true := by
  intro h
  have hr : (createRewriter longSuffixConfig.rewrite).rewrite (longPrefix ++ utf8 ".example.cn") =
      some ⟨longPrefix ++ utf8 ".example.cn", longPrefix,
        longPrefix ++ utf8 ".upstream.example.com"⟩ := by decide +kernel
  have htarget := h readyEnvironment longSuffixConfig _ _ (by rfl) (by decide +kernel) hr
  exact absurd (isAsciiDnsName_iff.mp htarget).1 (by decide +kernel)

end DnsIngress
