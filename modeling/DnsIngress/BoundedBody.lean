import DnsIngress.DohValidation

/-! # The three readers of a bounded body

`collect_body_with_progress`, the body loop of `DoH3Server::process_request` and the response loop
of `forward_http3_request` read a body chunk by chunk, and stop at the first chunk with which it
would be too long.  They are one loop (`boundedLoop`) with two ways to copy a chunk: the first two
readers copy all of it, the third its first buffer.

`boundedReaders_exact`: the first two deliver what was sent, or say that it is too long, for every
sequence of chunks; and when the third does. -/

namespace DnsIngress

/-! ### The readers -/

/-- A loop that reads the chunks of a body, and the results it may end with. -/
structure BodyReader (ρ : Type) where
  run : BodyEnd → List Buf → ρ
  ok : Bytes → ρ
  tooLarge : ρ

/-- `collect_body_with_progress`; `hyper` delivers a chunk as one buffer. -/
def collectReader (operation : Bytes) : BodyReader (Except BodyCollectionError Bytes) where
  run ending chunks :=
    collectBodyWithProgress operation ending [] (chunks.map fun chunk => .data chunk.flatten)
  ok := .ok
  tooLarge := .error (.tooLarge operation)

/-- The body loop of `process_request`. -/
def requestReader : BodyReader ReceivedBody where
  run ending chunks := recvRequestBody ending [] chunks
  ok := .complete
  tooLarge := .tooLarge

/-- The response loop of `forward_http3_request`. -/
def responseReader (upstreamUri : Bytes) : BodyReader (Except DnsProxyError Bytes) where
  run ending chunks := recvResponseBody upstreamUri ending [] chunks
  ok := .ok
  tooLarge := .error (.upstream (.requestFailed upstreamUri
    (utf8 "HTTP/3 upstream response exceeds DNS message limit")))

/-- All bytes of the chunks. -/
def concat (chunks : List Buf) : Bytes := chunks.flatMap List.flatten

/-- With this chunk the body becomes too long. -/
def Exceeds (before : List Buf) (chunk : Buf) : Prop :=
  (concat before).length ≤ maxDnsMessageSize ∧
    maxDnsMessageSize < (concat before).length + chunk.remaining

/-- A reader of bounded bodies does what it is for.  What it holds after some chunks is what it
returns when the body ends there. -/
structure BodyReader.ReadsBounded {ρ : Type} (reader : BodyReader ρ) (chunks : List Buf) :
    Prop where
  /-- a body within the limit is returned -/
  delivered : (concat chunks).length ≤ maxDnsMessageSize →
    reader.run .complete chunks = reader.ok (concat chunks)
  /-- any other is too large -/
  refused : maxDnsMessageSize < (concat chunks).length →
    reader.run .complete chunks = reader.tooLarge
  /-- the reader stops at the chunk with which it is, whatever is to follow, and not before -/
  stops : ∀ before chunk after, chunks = before ++ chunk :: after → Exceeds before chunk →
    (∀ ending rest, reader.run ending (before ++ chunk :: rest) = reader.tooLarge) ∧
      ∃ body, reader.run .complete before = reader.ok body
  /-- it never holds more than the limit -/
  held : ∀ taken rest body, chunks = taken ++ rest →
    reader.run .complete taken = reader.ok body → body.length ≤ maxDnsMessageSize

/-! ### One loop with two ways to copy a chunk -/

/-- `while chunk.has_remaining() { extend_from_slice(chunk.chunk()); advance(..) }`: each iteration
copies the first buffer and leaves the others. -/
def copyRemaining (body : Bytes) : Buf → Bytes
  | [] => body
  | buffer :: chunk => copyRemaining (body ++ buffer) chunk

theorem copyRemaining_eq (body : Bytes) (chunk : Buf) :
    copyRemaining body chunk = body ++ chunk.flatten := by
  induction chunk generalizing body with
  | nil => simp [copyRemaining]
  | cons buffer chunk ih => rw [copyRemaining, ih, List.flatten_cons, List.append_assoc]

theorem recvRequestBody_cons (ending : BodyEnd) (bodyData : Bytes) (chunk : Buf)
    (chunks : List Buf) :
    recvRequestBody ending bodyData (chunk :: chunks) =
      if maxDnsMessageSize < bodyData.length + chunk.remaining then .tooLarge
      else recvRequestBody ending (copyRemaining bodyData chunk) chunks := by
  rw [recvRequestBody, copyRemaining_eq]

/-- A loop that reads chunks up to the limit; `finish` is what it returns after the last one. -/
def boundedLoop {ρ : Type} (copy : Buf → Bytes) (tooLarge : ρ) (finish : BodyEnd → Bytes → ρ)
    (ending : BodyEnd) (body : Bytes) : List Buf → ρ
  | [] => finish ending body
  | chunk :: chunks =>
      if maxDnsMessageSize < body.length + chunk.remaining then tooLarge
      else boundedLoop copy tooLarge finish ending (body ++ copy chunk) chunks

/-- A reader that is this loop. -/
structure BodyReader.Loops {ρ : Type} (reader : BodyReader ρ) (copy : Buf → Bytes) : Prop where
  loop : ∃ finish : BodyEnd → Bytes → ρ, (∀ body, finish .complete body = reader.ok body) ∧
    ∀ ending chunks,
      reader.run ending chunks = boundedLoop copy reader.tooLarge finish ending [] chunks
  ok_inj : ∀ body body', reader.ok body = reader.ok body' → body = body'
  ok_ne_tooLarge : ∀ body, reader.ok body ≠ reader.tooLarge

theorem collectReader_loops (operation : Bytes) :
    (collectReader operation).Loops List.flatten := by
  refine ⟨⟨fun ending body => collectBodyWithProgress operation ending body [], fun _ => rfl, ?_⟩,
    fun _ _ h => Except.ok.inj h, fun _ h => by cases h⟩
  have hloop (ending : BodyEnd) (chunks : List Buf) (collected : Bytes)
      (hlen : collected.length ≤ maxDnsMessageSize) :
      collectBodyWithProgress operation ending collected
          (chunks.map fun chunk => .data chunk.flatten) =
        boundedLoop List.flatten (.error (.tooLarge operation))
          (fun ending body => collectBodyWithProgress operation ending body []) ending collected
          chunks := by
    induction chunks generalizing collected with
    | nil => rfl
    | cons chunk chunks ih =>
        rw [List.map_cons, collectBodyWithProgress, boundedLoop, Buf.remaining]
        by_cases hroom : maxDnsMessageSize < collected.length + chunk.flatten.length
        · rw [if_pos hroom, if_pos (by omega)]
        · rw [if_neg hroom, if_neg (by omega)]
          refine ih _ ?_
          rw [List.length_append]
          omega
  exact fun ending chunks => hloop ending chunks [] (Nat.zero_le _)

theorem requestReader_loops : requestReader.Loops List.flatten := by
  refine ⟨⟨fun ending body => recvRequestBody ending body [], fun _ => rfl, ?_⟩,
    fun _ _ h => ReceivedBody.complete.inj h, fun _ h => by cases h⟩
  have hloop (ending : BodyEnd) (chunks : List Buf) (bodyData : Bytes) :
      recvRequestBody ending bodyData chunks =
        boundedLoop List.flatten .tooLarge (fun ending body => recvRequestBody ending body [])
          ending bodyData chunks := by
    induction chunks generalizing bodyData with
    | nil => rfl
    | cons chunk chunks ih =>
        rw [recvRequestBody_cons, boundedLoop, copyRemaining_eq, ih]
  exact fun ending chunks => hloop ending chunks []

theorem responseReader_loops (upstreamUri : Bytes) :
    (responseReader upstreamUri).Loops Buf.chunk := by
  refine ⟨⟨fun ending body => recvResponseBody upstreamUri ending body [], fun _ => rfl, ?_⟩,
    fun _ _ h => Except.ok.inj h, fun _ h => by cases h⟩
  have hloop (ending : BodyEnd) (chunks : List Buf) (body : Bytes) :
      recvResponseBody upstreamUri ending body chunks =
        boundedLoop Buf.chunk (responseReader upstreamUri).tooLarge
          (fun ending body => recvResponseBody upstreamUri ending body []) ending body chunks := by
    induction chunks generalizing body with
    | nil => rfl
    | cons chunk chunks ih =>
        rw [recvResponseBody, boundedLoop, ih]
        rfl
  exact fun ending chunks => hloop ending chunks []

/-! ### What the loop returns -/

section
variable {ρ : Type} {copy : Buf → Bytes} {tooLarge : ρ} {finish : BodyEnd → Bytes → ρ}

/-- None of the chunks makes the loop stop. -/
def Fits (copy : Buf → Bytes) (body : Bytes) : List Buf → Prop
  | [] => True
  | chunk :: chunks =>
      body.length + chunk.remaining ≤ maxDnsMessageSize ∧ Fits copy (body ++ copy chunk) chunks

theorem boundedLoop_of_fits {body : Bytes} {taken : List Buf} (h : Fits copy body taken)
    (ending : BodyEnd) (rest : List Buf) :
    boundedLoop copy tooLarge finish ending body (taken ++ rest) =
      boundedLoop copy tooLarge finish ending (body ++ taken.flatMap copy) rest := by
  induction taken generalizing body with
  | nil => rw [List.nil_append, List.flatMap_nil, List.append_nil]
  | cons chunk taken ih =>
      rw [List.cons_append, boundedLoop, if_neg (Nat.not_lt.mpr h.1), ih h.2, List.flatMap_cons,
        List.append_assoc]

theorem boundedLoop_of_not_fits {body : Bytes} {taken : List Buf} (h : ¬ Fits copy body taken)
    (ending : BodyEnd) (rest : List Buf) :
    boundedLoop copy tooLarge finish ending body (taken ++ rest) = tooLarge := by
  induction taken generalizing body with
  | nil => exact absurd trivial h
  | cons chunk taken ih =>
      rw [List.cons_append, boundedLoop]
      by_cases hroom : maxDnsMessageSize < body.length + chunk.remaining
      · rw [if_pos hroom]
      · rw [if_neg hroom]
        exact ih fun hfits => h ⟨Nat.not_lt.mp hroom, hfits⟩

theorem fits_concat {body : Bytes} {before : List Buf} {chunk : Buf} :
    Fits copy body (before ++ [chunk]) ↔ Fits copy body before ∧
      (body ++ before.flatMap copy).length + chunk.remaining ≤ maxDnsMessageSize := by
  induction before generalizing body with
  | nil => simp [Fits]
  | cons c before ih =>
      rw [List.cons_append, Fits, ih, Fits, List.flatMap_cons, List.append_assoc, and_assoc]

variable (hcopy : ∀ chunk : Buf, (copy chunk).length ≤ chunk.remaining)
include hcopy

theorem fits_of_length_le {body : Bytes} {chunks : List Buf}
    (h : body.length + (concat chunks).length ≤ maxDnsMessageSize) : Fits copy body chunks := by
  induction chunks generalizing body with
  | nil => trivial
  | cons chunk chunks ih =>
      have hchunk := hcopy chunk
      rw [concat, List.flatMap_cons, List.length_append] at h
      unfold Buf.remaining at hchunk
      refine ⟨?_, ih ?_⟩
      · unfold Buf.remaining
        omega
      · rw [List.length_append, concat]
        omega

theorem length_le_of_fits {body : Bytes} {taken : List Buf} (h : Fits copy body taken)
    (hbody : body.length ≤ maxDnsMessageSize) :
    (body ++ taken.flatMap copy).length ≤ maxDnsMessageSize := by
  induction taken generalizing body with
  | nil => simpa using hbody
  | cons chunk taken ih =>
      rw [List.flatMap_cons, ← List.append_assoc]
      refine ih h.2 ?_
      have hchunk := hcopy chunk
      have hroom := h.1
      rw [List.length_append]
      omega

end

theorem exists_exceeds {chunks : List Buf} (h : maxDnsMessageSize < (concat chunks).length) :
    ∃ before chunk after, chunks = before ++ chunk :: after ∧ Exceeds before chunk := by
  induction chunks using List.reverseRecOn with
  | nil => exact absurd h (Nat.not_lt_zero _)
  | append_singleton chunks chunk ih =>
      by_cases hchunks : maxDnsMessageSize < (concat chunks).length
      · obtain ⟨before, c, after, rfl, hc⟩ := ih hchunks
        exact ⟨before, c, after ++ [chunk], by simp, hc⟩
      · refine ⟨chunks, chunk, [], rfl, Nat.not_lt.mp hchunks, ?_⟩
        simpa [concat, Buf.remaining] using h

/-- **What a loop with this way to copy a chunk returns.**  It reads as it should iff it delivers
what was sent of every body within the limit, and has copied enough of any other when the chunk
comes that exceeds it. -/
theorem readsBounded_iff {ρ : Type} {reader : BodyReader ρ} {copy : Buf → Bytes}
    (hloops : reader.Loops copy) (hcopy : ∀ chunk : Buf, (copy chunk).length ≤ chunk.remaining)
    (chunks : List Buf) :
    reader.ReadsBounded chunks ↔
      ((concat chunks).length ≤ maxDnsMessageSize → chunks.flatMap copy = concat chunks) ∧
      ∀ before chunk after, chunks = before ++ chunk :: after → Exceeds before chunk →
        maxDnsMessageSize < (before.flatMap copy).length + chunk.remaining := by
  obtain ⟨finish, hfinish, hrun⟩ := hloops.loop
  have hok (taken : List Buf) (h : Fits copy [] taken) :
      reader.run .complete taken = reader.ok (taken.flatMap copy) := by
    have hloop : boundedLoop copy reader.tooLarge finish .complete [] (taken ++ []) =
        finish .complete ([] ++ taken.flatMap copy) := boundedLoop_of_fits h .complete []
    rw [List.append_nil] at hloop
    rw [hrun, hloop, List.nil_append]
    exact hfinish _
  have hrefused (ending : BodyEnd) (taken rest : List Buf) (h : ¬ Fits copy [] taken) :
      reader.run ending (taken ++ rest) = reader.tooLarge := by
    rw [hrun]
    exact boundedLoop_of_not_fits h ending rest
  have hfits (taken : List Buf) (h : (concat taken).length ≤ maxDnsMessageSize) :
      Fits copy [] taken := fits_of_length_le hcopy (by simpa using h)
  have hexceeds (before : List Buf) (chunk : Buf) (h : Exceeds before chunk) :
      ¬ Fits copy [] (before ++ [chunk]) ↔
        maxDnsMessageSize < (before.flatMap copy).length + chunk.remaining := by
    rw [fits_concat, List.nil_append, not_and, Nat.not_le]
    exact ⟨fun hlt => hlt (hfits before h.1), fun hlt _ => hlt⟩
  constructor
  · intro h
    constructor
    · intro hlen
      exact hloops.ok_inj _ _ ((hok chunks (hfits chunks hlen)).symm.trans (h.delivered hlen))
    · intro before chunk after hsplit hchunk
      rw [← hexceeds before chunk hchunk]
      intro hfit
      have hstop := (h.stops before chunk after hsplit hchunk).1 .complete []
      rw [hok _ hfit] at hstop
      exact hloops.ok_ne_tooLarge _ hstop
  · rintro ⟨hcopied, henough⟩
    have hstops (before : List Buf) (chunk : Buf) (after : List Buf)
        (hsplit : chunks = before ++ chunk :: after) (hchunk : Exceeds before chunk)
        (ending : BodyEnd) (rest : List Buf) :
        reader.run ending (before ++ chunk :: rest) = reader.tooLarge := by
      have hnot := (hexceeds before chunk hchunk).mpr (henough before chunk after hsplit hchunk)
      rw [List.append_cons]
      exact hrefused ending _ rest hnot
    refine ⟨?_, ?_, ?_, ?_⟩
    · intro hlen
      rw [hok chunks (hfits chunks hlen), hcopied hlen]
    · intro hlen
      obtain ⟨before, chunk, after, rfl, hchunk⟩ := exists_exceeds hlen
      exact hstops before chunk after rfl hchunk .complete after
    · intro before chunk after hsplit hchunk
      exact ⟨hstops before chunk after hsplit hchunk, _, hok before (hfits before hchunk.1)⟩
    · intro taken rest body _ hbody
      by_cases hfit : Fits copy [] taken
      · rw [hok taken hfit] at hbody
        rw [← hloops.ok_inj _ _ hbody]
        exact length_le_of_fits hcopy hfit (Nat.zero_le _)
      · have hstop := hrefused .complete taken [] hfit
        rw [List.append_nil, hbody] at hstop
        exact absurd hstop (hloops.ok_ne_tooLarge _)

/-! ### The three readers -/

theorem length_chunk_le (chunk : Buf) : chunk.chunk.length ≤ chunk.remaining := by
  cases chunk with
  | nil => exact Nat.zero_le _
  | cons buffer chunk =>
      rw [Buf.remaining, List.flatten_cons, List.length_append]
      exact Nat.le_add_right _ _

theorem length_flatMap_chunk_le (chunks : List Buf) :
    (chunks.flatMap Buf.chunk).length ≤ (concat chunks).length := by
  induction chunks with
  | nil => exact Nat.le_refl _
  | cons chunk chunks ih =>
      have hchunk := length_chunk_le chunk
      unfold Buf.remaining at hchunk
      unfold concat at ih ⊢
      simp only [List.flatMap_cons, List.length_append]
      omega

theorem flatMap_chunk_eq_concat {chunks : List Buf} :
    chunks.flatMap Buf.chunk = concat chunks ↔ ∀ chunk ∈ chunks, chunk.Contiguous := by
  induction chunks with
  | nil => simp [concat]
  | cons chunk chunks ih =>
      rw [List.forall_mem_cons, ← ih, concat, List.flatMap_cons, List.flatMap_cons, ← concat]
      constructor
      · intro h
        have hlen := congrArg List.length h
        have hchunk := length_chunk_le chunk
        have hchunks := length_flatMap_chunk_le chunks
        simp only [List.length_append] at hlen
        unfold Buf.remaining at hchunk
        exact List.append_inj h (by omega)
      · rintro ⟨hchunk, hchunks⟩
        rw [show chunk.chunk = chunk.flatten from hchunk, hchunks]

/-- The first buffers of the chunks are enough: for a body within the limit they are all of it; and
with the chunk that makes a body too long, those before it are too long as well. -/
structure HeadsSuffice (chunks : List Buf) : Prop where
  contiguous : (concat chunks).length ≤ maxDnsMessageSize → ∀ chunk ∈ chunks, chunk.Contiguous
  exceed : ∀ before chunk after, chunks = before ++ chunk :: after → Exceeds before chunk →
    maxDnsMessageSize < (before.flatMap Buf.chunk).length + chunk.remaining

/-- **The three readers of a bounded body**, for every sequence of chunks: the two of requests and
of DoH responses read it, and the one of DoH3 responses does iff the first buffers suffice. -/
theorem boundedReaders_exact (operation upstreamUri : Bytes) (chunks : List Buf) :
    (collectReader operation).ReadsBounded chunks ∧
      requestReader.ReadsBounded chunks ∧
      ((responseReader upstreamUri).ReadsBounded chunks ↔ HeadsSuffice chunks) := by
  have hall : ((concat chunks).length ≤ maxDnsMessageSize →
      chunks.flatMap List.flatten = concat chunks) ∧
      ∀ before chunk after, chunks = before ++ chunk :: after → Exceeds before chunk →
        maxDnsMessageSize < (before.flatMap List.flatten).length + chunk.remaining :=
    ⟨fun _ => rfl, fun _ _ _ _ h => h.2⟩
  refine ⟨?_, ?_, ?_⟩
  · have hloops := collectReader_loops operation
    exact (readsBounded_iff hloops (fun _ => Nat.le_refl _) chunks).mpr hall
  · exact (readsBounded_iff requestReader_loops (fun _ => Nat.le_refl _) chunks).mpr hall
  · rw [readsBounded_iff (responseReader_loops upstreamUri) length_chunk_le,
      flatMap_chunk_eq_concat]
    exact ⟨fun h => ⟨h.1, h.2⟩, fun h => ⟨h.contiguous, h.exceed⟩⟩

/-- A chunk of two buffers: the response loop drops the second. -/
theorem boundedReaders_twoBuffers :
    (collectReader (utf8 "DoH request body")).run .complete [[[1], [2]]] = .ok [1, 2] ∧
      requestReader.run .complete [[[1], [2]]] = .complete [1, 2] ∧
      (responseReader (utf8 "https://home.example.cn:443/dns-query")).run .complete [[[1], [2]]] =
        .ok [1] ∧
      ¬ (responseReader (utf8 "https://home.example.cn:443/dns-query")).ReadsBounded
        [[[1], [2]]] := by
  refine ⟨rfl, rfl, rfl, ?_⟩
  intro h
  have hall := h.delivered (by decide)
  cases hall

end DnsIngress
