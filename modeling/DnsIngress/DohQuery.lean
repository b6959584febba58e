import DnsIngress.UpstreamUri

/-! # The query of a GET request

A GET request carries its DNS message in a parameter of its query.  The validator reads the first
parameter `dns` that has a value; the whole query is put behind the configured path.
`forwardsOnlyDns_iff`: the upstream gets one `dns` parameter, the one that has been validated, as
long as the client does not repeat it and the path is one.

A path that has a query of its own, or a fragment, is accepted, too.  `LeavesOnly` says for every
path what is left of the parameters when the client's query follows it. -/

namespace DnsIngress

open Ascii

/-- What stands before the equals sign. -/
def parameterName (parameter : Bytes) : Bytes := parameter.takeWhile (· != 61)

/-- Those that are named `dns`, with or without a value. -/
def dnsNamed (parameters : List Bytes) : List Bytes :=
  parameters.filter (parameterName · = utf8 "dns")

def dnsParameters (query : Bytes) : List Bytes := dnsNamed (query.splitOn 38)

/-- A `dns` parameter that carries a message. -/
def encodedParameter (message : Bytes) : Bytes :=
  utf8 "dns=" ++ Base64.urlSafe.encode message

/-- The parameter that is validated. -/
def validatedParameter (query : Bytes) : Option Bytes :=
  (dnsParameter query).map (utf8 "dns=" ++ ·)

/-- The query of an upstream request has one `dns` parameter, this one, and it carries a DNS
message. -/
def UpstreamRequest.ForwardsOnlyDns {κ : Type} (u : UpstreamRequest κ) (parameter : Bytes) : Prop :=
  ∃ query message, queryComponent u.uri = some query ∧ IsMessage message ∧
    parameter = encodedParameter message ∧ dnsParameters query = [parameter]

/-- The query that a configured path has of its own, and its fragment. -/
def ownQuery (path : Bytes) : Option Bytes :=
  match path.dropWhile fun b => !endsPath b with
  | 63 :: own => some own
  | _ => none

/-- This one is left of the parameters `dns` if the query follows the path. -/
inductive LeavesOnly (parameter path query : Bytes) : Prop
  | path : IsPath path → (dnsParameters query).length ≤ 1 → LeavesOnly parameter path query
  /-- the last parameter of the path takes in the first one of the query -/
  | joined {own : Bytes} : ownQuery path = some own → 35 ∉ own →
      ¬ (61 ∈ (own.splitOn 38).getLastD [] ∧
        parameterName ((own.splitOn 38).getLastD []) = utf8 "dns") →
      dnsNamed ((own.splitOn 38).dropLast ++ (query.splitOn 38).tail) = [parameter] →
      LeavesOnly parameter path query
  /-- the query is in the fragment -/
  | fragment {own : Bytes} : ownQuery path = some own → 35 ∈ own →
      dnsParameters (own.takeWhile (· != 35)) = [parameter] → LeavesOnly parameter path query

variable {crates : HttpCrates} {endpoint : HttpUpstreamConfig} {req : Request}
  {query parameter value target path own message : Bytes}

/-! ### The parameter that is validated -/

theorem splitOnce_name {name : Bytes} (h : splitOnce 61 parameter = some (name, value)) :
    parameterName parameter = name ∧ parameter = name ++ 61 :: value := by
  unfold splitOnce at h
  split at h
  · next hmem =>
      cases h
      have hne : parameter.dropWhile (· != 61) ≠ [] := by
        simp only [ne_eq, List.dropWhile_eq_nil_iff, not_forall]
        exact ⟨61, hmem, by decide⟩
      have hhead := List.head_dropWhile_not (· != 61) hne
      obtain ⟨b, rest, hrest⟩ := List.exists_cons_of_ne_nil hne
      have hb : b = 61 := by simpa [hrest] using hhead
      refine ⟨rfl, ?_⟩
      calc parameter = parameter.takeWhile (· != 61) ++ parameter.dropWhile (· != 61) :=
            List.takeWhile_append_dropWhile.symm
        _ = parameter.takeWhile (· != 61) ++ 61 :: (parameter.dropWhile (· != 61)).tail := by
            rw [hrest, hb, List.tail_cons]
  · cases h

theorem mem_dnsParameters (h : dnsParameter query = some value) :
    utf8 "dns=" ++ value ∈ dnsParameters query := by
  obtain ⟨parameter, hmem, h⟩ := List.exists_of_findSome?_eq_some h
  obtain ⟨⟨name, value'⟩, hsplit, h⟩ := Option.bind_eq_some_iff.mp h
  obtain ⟨hname, hparameter⟩ := splitOnce_name hsplit
  have h : (if name = utf8 "dns" then some value' else none) = some value := h
  obtain ⟨rfl, h⟩ := Option.ite_none_right_eq_some.mp h
  cases h
  have hp : utf8 "dns=" ++ value = parameter := hparameter ▸ rfl
  rw [hp]
  exact List.mem_filter.mpr ⟨hmem, decide_eq_true hname⟩

theorem exists_validatedParameter
    (hdecode : ∀ text bytes, crates.base64Decode text = some bytes ↔
      Base64.urlSafe.encode bytes = text)
    (h : validateQuery crates req.uri = .ok ()) :
    ∃ query message, req.uri.query = some query ∧ IsMessage message ∧
      validatedParameter query = some (encodedParameter message) ∧
      encodedParameter message ∈ dnsParameters query := by
  obtain ⟨query, value, message, hquery, hvalue, -, hmessage, hsize⟩ := validateQuery_ok.mp h
  have hencode := (hdecode value message).mp hmessage
  refine ⟨query, message, hquery, hsize, ?_, ?_⟩
  · rw [validatedParameter, hvalue, encodedParameter, hencode]
    rfl
  · rw [encodedParameter, hencode]
    exact mem_dnsParameters hvalue

/-! ### The query behind a path -/

theorem splitOn_append_cons {α : Type} [DecidableEq α] {sep x : α} (hx : x ≠ sep)
    (l l' : List α) :
    (l ++ x :: l').splitOn sep = (l.splitOn sep).dropLast ++
      ((l.splitOn sep).getLastD [] ++ x :: (l'.splitOn sep).headD []) ::
        (l'.splitOn sep).tail := by
  induction l with
  | nil =>
      obtain ⟨b, rest, hsplit⟩ := List.exists_cons_of_ne_nil (List.splitOn_ne_nil sep l')
      rw [List.nil_append, List.splitOn_cons_eq_if_modifyHead, hsplit]
      simp [hx]
  | cons y l ih =>
      obtain ⟨b, rest, hsplit⟩ := List.exists_cons_of_ne_nil (List.splitOn_ne_nil sep l)
      rw [List.cons_append, List.splitOn_cons_eq_if_modifyHead,
        List.splitOn_cons_eq_if_modifyHead, ih, hsplit]
      by_cases hy : y = sep
      · simp [hy]
      · cases rest <;> simp [hy]

theorem takeWhile_of_notMem {l : Bytes} {c : UInt8} (h : c ∉ l) : l.takeWhile (· != c) = l := by
  rw [List.takeWhile_eq_self_iff]
  intro b hb
  rw [bne_iff_ne]
  rintro rfl
  exact h hb

theorem takeWhile_append_of_mem {l l' : Bytes} {c : UInt8} (h : c ∈ l) :
    (l ++ l').takeWhile (· != c) = l.takeWhile (· != c) := by
  have hshort : (l.takeWhile (· != c)).length ≠ l.length := by
    intro hlen
    have hself := (List.takeWhile_prefix (· != c)).eq_of_length hlen
    have hc := List.takeWhile_eq_self_iff.mp hself c h
    exact bne_iff_ne.mp hc rfl
  rw [List.takeWhile_append, if_neg hshort]

theorem dnsNamed_append (l l' : List Bytes) : dnsNamed (l ++ l') = dnsNamed l ++ dnsNamed l' :=
  List.filter_append l l'

theorem dnsNamed_cons_of_pos {l : List Bytes} (h : parameterName parameter = utf8 "dns") :
    dnsNamed (parameter :: l) = parameter :: dnsNamed l :=
  List.filter_cons_of_pos (decide_eq_true h)

theorem dnsNamed_cons_of_neg {l : List Bytes} (h : parameterName parameter ≠ utf8 "dns") :
    dnsNamed (parameter :: l) = dnsNamed l :=
  List.filter_cons_of_neg (by simpa using h)

theorem parameterName_joined {a b : Bytes} :
    parameterName (a ++ 63 :: b) = utf8 "dns" ↔ 61 ∈ a ∧ parameterName a = utf8 "dns" := by
  unfold parameterName
  by_cases ha : 61 ∈ a
  · rw [takeWhile_append_of_mem ha, and_iff_right ha]
  · have hself := takeWhile_of_notMem ha
    simp only [ha, false_and, iff_false]
    intro hname
    have hmem : (63 : UInt8) ∈ utf8 "dns" := by
      rw [← hname, List.takeWhile_append, if_pos (congrArg List.length hself)]
      simp
    revert hmem
    decide

theorem not_mem_encodedParameter (message : Bytes) : 63 ∉ encodedParameter message := by
  have hsymbol : ∀ v, Base64.urlSafe.symbol v ≠ 63 := by decide
  simp only [encodedParameter, Base64.Alphabet.encode, List.mem_append, List.mem_map, not_or,
    not_exists, not_and]
  exact ⟨by decide, fun v _ => hsymbol v⟩

/-- The parameters of a query that follows another one. -/
theorem dnsParameters_joined {own query : Bytes} (message : Bytes) :
    dnsParameters (own ++ 63 :: query) = [encodedParameter message] ↔
      ¬ (61 ∈ (own.splitOn 38).getLastD [] ∧
        parameterName ((own.splitOn 38).getLastD []) = utf8 "dns") ∧
      dnsNamed ((own.splitOn 38).dropLast ++ (query.splitOn 38).tail) =
        [encodedParameter message] := by
  rw [dnsParameters, splitOn_append_cons (by decide), dnsNamed_append, dnsNamed_append,
    ← parameterName_joined (b := (query.splitOn 38).headD [])]
  by_cases hnamed : parameterName ((own.splitOn 38).getLastD [] ++
      63 :: (query.splitOn 38).headD []) = utf8 "dns"
  · rw [dnsNamed_cons_of_pos hnamed]
    refine iff_of_false (fun h => ?_) fun h => h.1 hnamed
    have hmem : (own.splitOn 38).getLastD [] ++ 63 :: (query.splitOn 38).headD [] ∈
        [encodedParameter message] := by
      rw [← h]
      exact List.mem_append_right _ List.mem_cons_self
    refine not_mem_encodedParameter message ?_
    rw [← List.mem_singleton.mp hmem]
    exact List.mem_append_right _ List.mem_cons_self
  · rw [dnsNamed_cons_of_neg hnamed, and_iff_right hnamed]

theorem ownQuery_of_isPath (h : IsPath path) : ownQuery (path ++ 63 :: query) = some query := by
  have hdrop : ∀ b ∈ path, (!endsPath b) = true := List.all_eq_true.mp h
  rw [ownQuery, List.dropWhile_append_of_pos hdrop]
  rfl

/-- A path that is none has a query of its own, or a fragment. -/
theorem ownQuery_append (h : ¬ IsPath path) :
    ownQuery (path ++ 63 :: query) = (ownQuery path).map (· ++ 63 :: query) := by
  have hne : path.dropWhile (fun b => !endsPath b) ≠ [] := by
    intro hnil
    exact h (List.all_eq_true.mpr (List.dropWhile_eq_nil_iff.mp hnil))
  obtain ⟨b, own, hdrop⟩ := List.exists_cons_of_ne_nil hne
  have happend : (path ++ 63 :: query).dropWhile (fun b => !endsPath b) =
      b :: (own ++ 63 :: query) := by
    rw [List.dropWhile_append, if_neg (by simpa using hne), hdrop]
    rfl
  unfold ownQuery
  rw [happend, hdrop]
  by_cases hb : b = 63
  · rw [hb]
    rfl
  · simp [hb]

theorem ownQuery_eq_none (h : IsPath path) : ownQuery path = none := by
  have hnil : path.dropWhile (fun b => !endsPath b) = [] :=
    List.dropWhile_eq_nil_iff.mpr (List.all_eq_true.mp h)
  rw [ownQuery, hnil]

/-- What the upstream is asked, of a client's query that follows the configured path. -/
theorem queryComponent_upstreamUri (htarget : ∀ b ∈ target, isHostByte b = true)
    (hslash : startsWith endpoint.path 47 = true) :
    queryComponent (upstreamUri target endpoint (some query)) =
      (ownQuery (endpoint.path ++ 63 :: query)).map (·.takeWhile (· != 35)) := by
  have hafter : afterAuthority (upstreamUri target endpoint (some query)) =
      endpoint.path ++ 63 :: query := afterAuthority_upstreamUri (some query) htarget hslash
  rw [queryComponent, ownQuery, hafter]
  cases (endpoint.path ++ 63 :: query).dropWhile fun b => !endsPath b with
  | nil => rfl
  | cons b own =>
      by_cases hb : b = 63
      · rw [hb]
        rfl
      · simp [hb]

/-- **What is left of the parameters `dns`** of a query that has been validated. -/
theorem forwardsOnlyDns_of_validated {κ : Type} {u : UpstreamRequest κ}
    (hdecode : ∀ text bytes, crates.base64Decode text = some bytes ↔
      Base64.urlSafe.encode bytes = text)
    (hvalid : validateQuery crates req.uri = .ok ())
    (huri : u.uri = upstreamUri target endpoint req.uri.query)
    (htarget : ∀ b ∈ target, isHostByte b = true) (hslash : startsWith endpoint.path 47 = true)
    (hnumber : ∀ q, req.uri.query = some q → 35 ∉ q) :
    ∃ query parameter, req.uri.query = some query ∧ validatedParameter query = some parameter ∧
      (u.ForwardsOnlyDns parameter ↔ LeavesOnly parameter endpoint.path query) := by
  obtain ⟨query, message, hquery, hsize, hparameter, hmem⟩ :=
    exists_validatedParameter hdecode hvalid
  refine ⟨query, encodedParameter message, hquery, hparameter, ?_⟩
  have hnumber := hnumber query hquery
  have hcomponent : queryComponent (upstreamUri target endpoint (some query)) = _ :=
    queryComponent_upstreamUri htarget hslash
  rw [← hquery, ← huri] at hcomponent
  have hforwards : u.ForwardsOnlyDns (encodedParameter message) ↔
      ∃ sent, (ownQuery (endpoint.path ++ 63 :: query)).map (·.takeWhile (· != 35)) = some sent ∧
        dnsParameters sent = [encodedParameter message] := by
    rw [UpstreamRequest.ForwardsOnlyDns, hcomponent]
    constructor
    · rintro ⟨sent, -, hsent, -, -, hone⟩
      exact ⟨sent, hsent, hone⟩
    · rintro ⟨sent, hsent, hone⟩
      exact ⟨sent, message, hsent, hsize, rfl, hone⟩
  rw [hforwards]
  by_cases hpath : IsPath endpoint.path
  · rw [ownQuery_of_isPath hpath, Option.map_some, takeWhile_of_notMem hnumber]
    simp only [Option.some.injEq, exists_eq_left']
    constructor
    · intro hone
      exact .path hpath (by rw [hone]; rfl)
    · intro hleaves
      cases hleaves with
      | path _ hlen =>
          obtain ⟨parameter, hone⟩ := List.length_eq_one_iff.mp
            (Nat.le_antisymm hlen (List.length_pos_of_mem hmem))
          rw [hone, List.mem_singleton] at hmem
          rw [hone, hmem]
      | joined hown => exact absurd (ownQuery_eq_none hpath) (by simp [hown])
      | fragment hown => exact absurd (ownQuery_eq_none hpath) (by simp [hown])
  · rw [ownQuery_append hpath]
    constructor
    · rintro ⟨sent, hsent, hone⟩
      obtain ⟨joined, hjoined, rfl⟩ := Option.map_eq_some_iff.mp hsent
      obtain ⟨own, hown, rfl⟩ := Option.map_eq_some_iff.mp hjoined
      by_cases hfragment : 35 ∈ own
      · rw [takeWhile_append_of_mem hfragment] at hone
        exact .fragment hown hfragment hone
      · rw [takeWhile_of_notMem (by simp [hfragment, hnumber])] at hone
        obtain ⟨hlast, hrest⟩ := (dnsParameters_joined message).mp hone
        exact .joined hown hfragment hlast hrest
    · intro hleaves
      cases hleaves with
      | path hpath' _ => exact absurd hpath' hpath
      | @joined own hown hfragment hlast hrest =>
          refine ⟨own ++ 63 :: query, ?_, (dnsParameters_joined message).mpr ⟨hlast, hrest⟩⟩
          rw [hown, Option.map_some, Option.map_some,
            takeWhile_of_notMem (by simp [hfragment, hnumber])]
      | @fragment own hown hfragment hone =>
          refine ⟨own.takeWhile (· != 35), ?_, hone⟩
          rw [hown, Option.map_some, Option.map_some, takeWhile_append_of_mem hfragment]

/-! ### What the listeners forward -/

variable {env : Environment} {config : AppConfig}

/-- **One `dns` parameter is forwarded, the one that has been validated, if only this one is
left**, over DoH and over DoH3: behind a path, if the client names one. -/
theorem forwardsOnlyDns_iff (hconfig : config.validate env = .ok ()) (sni : Bytes)
    (hdecode : ∀ text bytes, crates.base64Decode text = some bytes ↔
      Base64.urlSafe.encode bytes = text)
    (hnumber : ∀ q, req.uri.query = some q → 35 ∉ q) (hget : req.method = .get) :
    (∀ received u, DoHServer.forwards crates config (some sni) req received = some u →
      ∃ query parameter, req.uri.query = some query ∧ validatedParameter query = some parameter ∧
        (u.ForwardsOnlyDns parameter ↔ LeavesOnly parameter config.upstream.doh.path query)) ∧
    ∀ received u, DoH3Server.forwards crates config (some sni) req received = some u →
      ∃ query parameter, req.uri.query = some query ∧ validatedParameter query = some parameter ∧
        (u.ForwardsOnlyDns parameter ↔ LeavesOnly parameter config.upstream.doh3.path query) := by
  have hconfig := AppConfig.validate_ok hconfig
  constructor
  · intro received u hu
    obtain ⟨r, body, hr, hv, hu⟩ := DoHServer.forwards_validated hu
    obtain ⟨-, hmessage, -, -⟩ := validateRequest_ok hv
    rw [validateMessage, if_pos hget] at hmessage
    obtain ⟨-, huri, -⟩ := forwardHttpRequest_ok (congrArg Except.toOption hu)
    obtain ⟨-, -, htarget⟩ := rewrite_some hconfig.rewrite hr
    exact forwardsOnlyDns_of_validated hdecode hmessage huri htarget hconfig.dohUpstreamPath
      hnumber
  · intro received u hu
    obtain ⟨r, body, hr, hv, hu⟩ := DoH3Server.forwards_validated hu
    obtain ⟨-, hmessage, -, -⟩ := validateRequest_ok hv
    rw [validateMessage, if_pos hget] at hmessage
    obtain ⟨-, huri, -⟩ := forwardHttp3Request_ok (congrArg Except.toOption hu)
    obtain ⟨-, -, htarget⟩ := rewrite_some hconfig.rewrite hr
    exact forwardsOnlyDns_of_validated hdecode hmessage huri htarget hconfig.doh3UpstreamPath
      hnumber

/-- The same parameter is left behind a path, and not behind a path with a query of its own. -/
theorem forwardsOnlyDns_iff_single :
    (∃ u, DoHServer.forwards decodingCrates certifiedConfig (some (utf8 "home.example.com"))
        (getRequest (utf8 "ct&dns=AAAAAAAAAAAAAAAA")) .stalled = some u ∧
      u.ForwardsOnlyDns (utf8 "dns=AAAAAAAAAAAAAAAA")) ∧
    ∃ u, DoHServer.forwards decodingCrates parameterConfig (some (utf8 "home.example.com"))
        (getRequest (utf8 "dns=AAAAAAAAAAAAAAAA")) .stalled = some u ∧
      ¬ u.ForwardsOnlyDns (utf8 "dns=AAAAAAAAAAAAAAAA") := by
  have hdecode : ∀ text bytes, decodingCrates.base64Decode text = some bytes ↔
      Base64.urlSafe.encode bytes = text := fun _ _ => Base64.urlSafe.decode_eq_some_iff
  have hfirst : certifiedConfig.validate readyEnvironment = .ok () := by rfl
  have hsecond : parameterConfig.validate readyEnvironment = .ok () := by rfl
  obtain ⟨u, hu⟩ : ∃ u, DoHServer.forwards decodingCrates certifiedConfig
      (some (utf8 "home.example.com")) (getRequest (utf8 "ct&dns=AAAAAAAAAAAAAAAA")) .stalled =
        some u := ⟨_, rfl⟩
  obtain ⟨u', hu'⟩ : ∃ u, DoHServer.forwards decodingCrates parameterConfig
      (some (utf8 "home.example.com")) (getRequest (utf8 "dns=AAAAAAAAAAAAAAAA")) .stalled =
        some u := ⟨_, rfl⟩
  refine ⟨⟨u, hu, ?_⟩, u', hu', ?_⟩
  · have hnumber : ∀ q, (getRequest (utf8 "ct&dns=AAAAAAAAAAAAAAAA")).uri.query = some q →
        35 ∉ q := by
      rintro q ⟨⟩
      decide
    obtain ⟨_, parameter, ⟨⟩, hparameter, hiff⟩ :=
      (forwardsOnlyDns_iff hfirst _ hdecode hnumber rfl).1 _ u hu
    obtain rfl : utf8 "dns=AAAAAAAAAAAAAAAA" = parameter := Option.some.inj hparameter
    exact hiff.mpr (.path (by decide) (by decide))
  · have hnumber : ∀ q, (getRequest (utf8 "dns=AAAAAAAAAAAAAAAA")).uri.query = some q →
        35 ∉ q := by
      rintro q ⟨⟩
      decide
    obtain ⟨_, parameter, ⟨⟩, hparameter, hiff⟩ :=
      (forwardsOnlyDns_iff hsecond _ hdecode hnumber rfl).1 _ u' hu'
    obtain rfl : utf8 "dns=AAAAAAAAAAAAAAAA" = parameter := Option.some.inj hparameter
    rw [hiff]
    intro hleaves
    cases hleaves with
    | path hpath _ => exact absurd hpath (by decide)
    | @joined own hown _ _ hone =>
        obtain rfl : utf8 "ct=1" = own := Option.some.inj hown
        exact absurd hone (by decide)
    | @fragment own hown hfragment _ =>
        obtain rfl : utf8 "ct=1" = own := Option.some.inj hown
        exact absurd hfragment (by decide)

/-- Twelve zeros, and then another parameter of the same name. -/
def repeatedRequest : Request := getRequest (utf8 "dns=AAAAAAAAAAAAAAAA&dns=evil")

/-- The second parameter reaches the upstream. -/
theorem not_forwardsOnlyDns :
    (∃ u, DoHServer.forwards decodingCrates certifiedConfig (some (utf8 "home.example.com"))
        repeatedRequest .stalled = some u ∧ ∀ parameter, ¬ u.ForwardsOnlyDns parameter) ∧
    ∃ u, DoH3Server.forwards decodingCrates certifiedConfig (some (utf8 "home.example.com"))
        repeatedRequest none = some u ∧ ∀ parameter, ¬ u.ForwardsOnlyDns parameter := by
  have hno {κ : Type} {u : UpstreamRequest κ}
      (huri : queryComponent u.uri = some (utf8 "dns=AAAAAAAAAAAAAAAA&dns=evil"))
      (parameter : Bytes) : ¬ u.ForwardsOnlyDns parameter := by
    rintro ⟨query, message, hquery, -, -, hone⟩
    rw [huri] at hquery
    cases hquery
    have htwo : (dnsParameters (utf8 "dns=AAAAAAAAAAAAAAAA&dns=evil")).length = 2 := by decide
    rw [hone] at htwo
    cases htwo
  exact ⟨⟨_, rfl, hno (by decide +kernel)⟩, ⟨_, rfl, hno (by decide +kernel)⟩⟩

end DnsIngress
