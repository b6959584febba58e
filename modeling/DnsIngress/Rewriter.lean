import DnsIngress.Config

/-! # The SNI rewriter (`rewriters/base.rs`)

`BaseSniRewriter.new` canonicalises the configuration once, `rewrite` canonicalises each server
name and replaces the first base domain that matches it by the target suffix.

`rewrite_some` says what a rewritten name looks like under an accepted configuration, and
`rewrite_toAsciiLowercase` that the case of the server name does not matter. -/

namespace DnsIngress

open Ascii

structure RewriteResult where
  original : Bytes
  hostPrefix : Bytes
  targetHostname : Bytes
deriving DecidableEq

structure BaseSniRewriter where
  config : RewriteConfig

def BaseSniRewriter.new (config : RewriteConfig) : BaseSniRewriter where
  config :=
    { baseDomains := config.baseDomains.map fun domain =>
        toAsciiLowercase (trimEndMatches dot domain)
      targetSuffix := toAsciiLowercase config.targetSuffix }

/-- One base domain of `extract_prefix`. -/
def prefixOf (sni baseDomain : Bytes) : Option Bytes :=
  match sni.dropSuffix? baseDomain with
  | none => none
  | some rest =>
      if rest ≠ [] ∧ rest.getLast? = some dot then
        let hostPrefix := (rest.dropSuffix? [dot]).getD rest
        if hostPrefix = [] then none else some hostPrefix
      else none

def BaseSniRewriter.extractPrefix (rewriter : BaseSniRewriter) (sni : Bytes) : Option Bytes :=
  rewriter.config.baseDomains.findSome? (prefixOf sni)

def BaseSniRewriter.buildTargetHostname (rewriter : BaseSniRewriter) (hostPrefix : Bytes) : Bytes :=
  hostPrefix ++ rewriter.config.targetSuffix

def BaseSniRewriter.rewrite (rewriter : BaseSniRewriter) (sni : Bytes) : Option RewriteResult :=
  if sni = [] then none
  else if rewriter.config.baseDomains = [] then none
  else if !startsWith rewriter.config.targetSuffix dot then none
  else
    let normalized := toAsciiLowercase (trimEndMatches dot sni)
    if !normalized.all isHostByte then none
    else
      match rewriter.extractPrefix normalized with
      | none => none
      | some hostPrefix =>
          some
            { original := normalized
              hostPrefix := hostPrefix
              targetHostname := rewriter.buildTargetHostname hostPrefix }

/-- `create_rewriter`. -/
def createRewriter (config : RewriteConfig) : BaseSniRewriter := .new config

variable {rewriter : BaseSniRewriter} {config : RewriteConfig} {sni : Bytes} {r : RewriteResult}

/-- A base domain matches at a label boundary, after a non-empty prefix. -/
theorem prefixOf_eq_some {baseDomain hostPrefix : Bytes} :
    prefixOf sni baseDomain = some hostPrefix ↔
      hostPrefix ≠ [] ∧ sni = hostPrefix ++ [dot] ++ baseDomain := by
  unfold prefixOf
  constructor
  · intro h
    split at h
    · cases h
    · next rest hrest =>
        rw [stripSuffix_eq_some] at hrest
        split at h
        · next hlast =>
            obtain ⟨init, rfl⟩ : ∃ init, rest = init ++ [dot] :=
              List.getLast?_eq_some_iff.mp hlast.2
            have hinit : (init ++ [dot]).dropSuffix? [dot] = some init :=
              stripSuffix_eq_some.mpr rfl
            simp only [hinit, Option.getD_some] at h
            split at h
            · cases h
            · next hne =>
                cases h
                exact ⟨hne, hrest⟩
        · cases h
  · rintro ⟨hne, rfl⟩
    have hrest : (hostPrefix ++ [dot] ++ baseDomain).dropSuffix? baseDomain =
        some (hostPrefix ++ [dot]) := stripSuffix_eq_some.mpr rfl
    have hinit : (hostPrefix ++ [dot]).dropSuffix? [dot] = some hostPrefix :=
      stripSuffix_eq_some.mpr rfl
    rw [hrest]
    simp [hinit, hne]

theorem rewrite_eq_some :
    rewriter.rewrite sni = some r →
      (∀ b ∈ toAsciiLowercase (trimEndMatches dot sni), isHostByte b = true) ∧
      r.original = toAsciiLowercase (trimEndMatches dot sni) ∧
      (∃ baseDomain ∈ rewriter.config.baseDomains,
        r.original = r.hostPrefix ++ [dot] ++ baseDomain) ∧
      r.hostPrefix ≠ [] ∧ r.targetHostname = r.hostPrefix ++ rewriter.config.targetSuffix := by
  intro h
  unfold BaseSniRewriter.rewrite at h
  dsimp only at h
  split_ifs at h with h₁ h₂ h₃ h₄
  split at h
  · cases h
  · next hostPrefix hfound =>
      cases h
      obtain ⟨baseDomain, hmem, hp⟩ := List.exists_of_findSome?_eq_some hfound
      obtain ⟨hne, heq⟩ := prefixOf_eq_some.mp hp
      exact ⟨by simpa using h₄, rfl, ⟨baseDomain, hmem, heq⟩, hne, rfl⟩

theorem trimEndMatches_toAsciiLowercase_dot (s : Bytes) :
    trimEndMatches dot (toAsciiLowercase s) = toAsciiLowercase (trimEndMatches dot s) :=
  trimEndMatches_toAsciiLowercase rfl

/-- **The case of the server name does not matter.** -/
theorem rewrite_toAsciiLowercase (rewriter : BaseSniRewriter) (sni : Bytes) :
    rewriter.rewrite (toAsciiLowercase sni) = rewriter.rewrite sni := by
  have hnil : toAsciiLowercase sni = [] ↔ sni = [] := List.map_eq_nil_iff
  simp only [BaseSniRewriter.rewrite, hnil, trimEndMatches_toAsciiLowercase_dot,
    toAsciiLowercase_idem]

theorem isAsciiUppercase_of_isHostByte {b : UInt8} (h : isHostByte b = true) :
    isAsciiUppercase b = false := by
  simp only [isHostByte, isAsciiLowercase, isAsciiDigit, isAsciiUppercase, dot] at h ⊢
  grind

theorem toAsciiLowercase_of_isHostByte {s : Bytes} (h : ∀ b ∈ s, isHostByte b = true) :
    toAsciiLowercase s = s :=
  toAsciiLowercase_of_forall fun b hb => isAsciiUppercase_of_isHostByte (h b hb)

theorem targetSuffix_new (h : config.check = .ok ()) :
    (BaseSniRewriter.new config).config.targetSuffix = config.targetSuffix := by
  exact toAsciiLowercase_of_isHostByte
    (isHostByte_of_isAsciiDnsSuffix (RewriteConfig.check_ok.mp h).2.2)

theorem baseDomains_new (h : config.check = .ok ()) :
    (BaseSniRewriter.new config).config.baseDomains = config.baseDomains := by
  have hnames := (RewriteConfig.check_ok.mp h).2.1
  refine (List.map_congr_left fun domain hd => ?_).trans (List.map_id _)
  rw [trimEndMatches_of_isAsciiDnsName (hnames domain hd), id_eq]
  exact toAsciiLowercase_of_isHostByte (isHostByte_of_isAsciiDnsName (hnames domain hd))

/-- The prefix is that of the first base domain that matches. -/
theorem rewrite_eq_some_iff (hconfig : config.check = .ok ()) :
    (createRewriter config).rewrite sni = some r ↔
      (∀ b ∈ r.original, isHostByte b = true) ∧
      r.original = toAsciiLowercase (trimEndMatches dot sni) ∧
      config.baseDomains.findSome? (prefixOf r.original) = some r.hostPrefix ∧
      r.targetHostname = r.hostPrefix ++ config.targetSuffix := by
  have hbases := baseDomains_new hconfig
  have hsuffix := targetSuffix_new hconfig
  constructor
  · intro h
    obtain ⟨hbytes, horig, -, -, htarget⟩ := rewrite_eq_some h
    rw [createRewriter, hsuffix] at htarget
    refine ⟨by rwa [horig], horig, ?_, htarget⟩
    unfold BaseSniRewriter.rewrite at h
    dsimp only at h
    split_ifs at h
    split at h
    · cases h
    · next hostPrefix hfound =>
        cases h
        rwa [BaseSniRewriter.extractPrefix, createRewriter, hbases] at hfound
  · rintro ⟨hbytes, horig, hfound, htarget⟩
    obtain ⟨base, hmem, hp⟩ := List.exists_of_findSome?_eq_some hfound
    have hne : sni ≠ [] := by
      rintro rfl
      have := (prefixOf_eq_some.mp hp).2
      rw [horig] at this
      simp [toAsciiLowercase, trimEndMatches] at this
    have hdot : startsWith config.targetSuffix dot = true := by
      have := (RewriteConfig.check_ok.mp hconfig).2.2
      simp only [isAsciiDnsSuffix, Bool.and_eq_true] at this
      exact this.1
    have hall : r.original.all isHostByte = true := List.all_eq_true.mpr hbytes
    simp only [BaseSniRewriter.rewrite, createRewriter, hne, hbases, List.ne_nil_of_mem hmem,
      hsuffix, hdot, ← horig, hall, Bool.not_true, Bool.false_eq_true, if_false,
      BaseSniRewriter.extractPrefix, hfound, BaseSniRewriter.buildTargetHostname, ← htarget]

/-- **A rewritten name is a non-empty prefix and the configured suffix**, all of it canonical. -/
theorem rewrite_some (hconfig : config.check = .ok ())
    (h : (createRewriter config).rewrite sni = some r) :
    r.hostPrefix ≠ [] ∧ r.targetHostname = r.hostPrefix ++ config.targetSuffix ∧
      ∀ b ∈ r.targetHostname, isHostByte b = true := by
  obtain ⟨hbytes, horig, ⟨baseDomain, -, heq⟩, hne, htarget⟩ := rewrite_eq_some h
  rw [createRewriter, targetSuffix_new hconfig] at htarget
  refine ⟨hne, htarget, fun b hb => ?_⟩
  rw [htarget] at hb
  rcases List.mem_append.mp hb with hb | hb
  · apply hbytes
    rw [← horig, heq]
    simp [hb]
  · exact isHostByte_of_isAsciiDnsSuffix (RewriteConfig.check_ok.mp hconfig).2.2 b hb

end DnsIngress
