import DnsIngress.DoqFraming
import DnsIngress.Timed

/-! # The timeouts of a DoQ frame

`read_doq_frame` over a stream whose bytes arrive one after the other, in any order and at any
time.  Its timeout covers a `read_exact` of two bytes, and then one of the whole message, so a
byte that arrives within such a read does not start it again.

* `TimedStream.readExact` is quinn's `read_exact` with the time it takes, `readDoqFrameTimed` is
  `readDoqFrameOn` over it.
* `readDoqFrameTimed_exact` says for which streams a timeout means that nothing arrives. -/

namespace DnsIngress.Quic

open Framing

/-- The end of a stream. -/
inductive StreamEnd
  /-- it has this many bytes -/
  | fin (length : ℕ)
  | reset (reason : Bytes)

/-- A stream, with the time each of its bytes arrives, and its end. -/
structure TimedStream where
  byte : ℕ → UInt8
  arrives : ℕ → Option ℕ
  ending : Option (ℕ × StreamEnd)

/-- How much of a stream is read, and when. -/
structure Cursor where
  offset : ℕ
  now : ℕ
deriving DecidableEq

namespace TimedStream

/-- When all of the `n` bytes from `offset` on have arrived. -/
def complete (s : TimedStream) (offset : ℕ) : ℕ → Option ℕ
  | 0 => some 0
  | n + 1 =>
      match s.complete offset n, s.arrives (offset + n) with
      | some t, some t' => some (max t t')
      | _, _ => none

def slice (s : TimedStream) (offset n : ℕ) : Bytes :=
  (List.range n).map fun i => s.byte (offset + i)

/-- `recv.read_exact(..)` for `n` bytes.  A FIN leaves the bytes before it readable, a reset does
not. -/
def readExact (s : TimedStream) (c : Cursor) (n : ℕ) : Timed (Except ReadExactError Bytes) :=
  let data := (s.complete c.offset n).map fun t => max t c.now
  match s.ending with
  | none => data.map fun t => (t - c.now, .ok (s.slice c.offset n))
  | some (known, .fin length) =>
      if c.offset + n ≤ length then data.map fun t => (t - c.now, .ok (s.slice c.offset n))
      else
        (s.complete c.offset (length - c.offset)).map fun t =>
          (max t known - c.now, .error (.finishedEarly (length - c.offset)))
  | some (known, .reset reason) =>
      match data with
      | some t =>
          if t ≤ known then some (t - c.now, .ok (s.slice c.offset n))
          else some (known - c.now, .error (.readError reason))
      | none => some (known - c.now, .error (.readError reason))

/-- `timeout(idle_timeout, recv.read_exact(..)).await`. -/
def await (s : TimedStream) (idle : ℕ) (c : Cursor) (n : ℕ) :
    Awaited ReadExactError Bytes × Cursor :=
  match (s.readExact c n).timeout idle with
  | (t, none) => (.elapsed, { c with now := c.now + t })
  | (t, some (.error e)) => (.error e, { c with now := c.now + t })
  | (t, some (.ok bytes)) => (.ok bytes, { offset := c.offset + n, now := c.now + t })

/-- No byte arrives after `a` and up to `b`. -/
def Quiet (s : TimedStream) (a b : ℕ) : Prop :=
  ∀ i t, s.arrives i = some t → ¬ (a < t ∧ t ≤ b)

/-- The frame at `c` is read with a `read_exact` of `n` bytes at this place. -/
inductive Reads (s : TimedStream) (idle : ℕ) (c : Cursor) : Cursor → ℕ → Prop
  | length : Reads s idle c c 2
  | message {t : ℕ} {length : Bytes} : s.readExact c 2 = some (t, .ok length) → t ≤ idle →
      fromBeBytes length ≠ 0 →
      Reads s idle c { offset := c.offset + 2, now := c.now + t } (fromBeBytes length)

/-- Each of the two reads gets what it asks for, or the end of the stream, before the timeout, or
no byte arrives in that time. -/
def SlowOnlyWhenQuiet (s : TimedStream) (idle : ℕ) (c : Cursor) : Prop :=
  ∀ c' n, s.Reads idle c c' n → (s.readExact c' n).Slow idle → s.Quiet c'.now (c'.now + idle)

end TimedStream

section
variable (text : ReadExactError → Bytes) (s : TimedStream) (idle : ℕ) (c : Cursor)

/-- `read_doq_frame`. -/
def readDoqFrameTimed : Except DnsProxyError (Option Bytes) × Cursor :=
  readDoqFrameOn text (s.await idle) c

/-- A timeout means that no byte has arrived for that long. -/
def TimesOutOnlyWhenQuiet : Prop :=
  ∀ upstream c', readDoqFrameTimed text s idle c = (.error (.timeout upstream), c') →
    ∃ a, c.now ≤ a ∧ a + idle ≤ c'.now ∧ s.Quiet a (a + idle)

end

variable {text : ReadExactError → Bytes} {s : TimedStream} {idle n t : ℕ} {c c' : Cursor}
  {bytes : Bytes}

/-! ### One read -/

theorem await_elapsed :
    s.await idle c n = (.elapsed, c') ↔
      (s.readExact c n).Slow idle ∧ c' = { c with now := c.now + idle } := by
  unfold TimedStream.await
  split
  · next t h =>
    obtain ⟨hs, rfl⟩ := Timed.timeout_eq_none.mp h
    simp [hs, eq_comm]
  · next t e h =>
    obtain ⟨hr, ht⟩ := Timed.timeout_eq_some.mp h
    refine ⟨by simp, fun hs => ?_⟩
    exact absurd (hs.1 t _ hr) (Nat.not_lt.mpr ht)
  · next t l h =>
    obtain ⟨hr, ht⟩ := Timed.timeout_eq_some.mp h
    refine ⟨by simp, fun hs => ?_⟩
    exact absurd (hs.1 t _ hr) (Nat.not_lt.mpr ht)

theorem await_ok :
    s.await idle c n = (.ok bytes, c') ↔
      ∃ t ≤ idle, s.readExact c n = some (t, .ok bytes) ∧
        c' = { offset := c.offset + n, now := c.now + t } := by
  unfold TimedStream.await
  split
  · next t h =>
    obtain ⟨hs, -⟩ := Timed.timeout_eq_none.mp h
    refine ⟨by simp, ?_⟩
    rintro ⟨t', ht, hr, -⟩
    exact absurd (hs t' _ hr) (Nat.not_lt.mpr ht)
  · next t e h =>
    obtain ⟨hr, -⟩ := Timed.timeout_eq_some.mp h
    simp [hr]
  · next t l h =>
    obtain ⟨hr, ht⟩ := Timed.timeout_eq_some.mp h
    rw [hr]
    constructor
    · rintro ⟨⟩
      exact ⟨t, ht, rfl, rfl⟩
    · rintro ⟨t', -, ⟨⟩, rfl⟩
      rfl

/-- The last of the bytes arrives when they are complete. -/
theorem exists_arrives {offset d : ℕ} (h : s.complete offset n = some d) (hd : 0 < d) :
    ∃ i, s.arrives i = some d := by
  induction n generalizing d with
  | zero =>
      cases h
      exact absurd hd (Nat.lt_irrefl 0)
  | succ n ih =>
      unfold TimedStream.complete at h
      split at h
      · next t t' ht ht' =>
        cases h
        rcases Nat.le_total t t' with hle | hle
        · exact ⟨_, by rw [Nat.max_eq_right hle]; exact ht'⟩
        · rw [Nat.max_eq_left hle] at hd ⊢
          exact ih ht hd
      · cases h

theorem readExact_cases {r : Except ReadExactError Bytes} (h : s.readExact c n = some (t, r)) :
    (∃ d, s.complete c.offset n = some d ∧ t = max d c.now - c.now ∧ r = .ok (s.slice c.offset n)) ∨
    (∃ length, length < c.offset + n ∧ r = .error (.finishedEarly (length - c.offset))) ∨
    ∃ reason, r = .error (.readError reason) := by
  unfold TimedStream.readExact at h
  dsimp only at h
  have hdata (h : ((s.complete c.offset n).map fun t => max t c.now).map
      (fun t => (t - c.now, .ok (s.slice c.offset n))) = some (t, r)) :
      ∃ d, s.complete c.offset n = some d ∧ t = max d c.now - c.now ∧
        r = .ok (s.slice c.offset n) := by
    obtain ⟨_, hmax, ⟨⟩⟩ := Option.map_eq_some_iff.mp h
    obtain ⟨d, hd, rfl⟩ := Option.map_eq_some_iff.mp hmax
    exact ⟨d, hd, rfl, rfl⟩
  split at h
  · exact .inl (hdata h)
  · next known length _ =>
    split_ifs at h with hle
    · exact .inl (hdata h)
    · obtain ⟨_, -, ⟨⟩⟩ := Option.map_eq_some_iff.mp h
      exact .inr (.inl ⟨length, Nat.not_le.mp hle, rfl⟩)
  · split at h
    · next hmax =>
      obtain ⟨d, hd, rfl⟩ := Option.map_eq_some_iff.mp hmax
      split_ifs at h
      · cases h
        exact .inl ⟨d, hd, rfl, rfl⟩
      · cases h
        exact .inr (.inr ⟨_, rfl⟩)
    · cases h
      exact .inr (.inr ⟨_, rfl⟩)

theorem arrives_of_readExact (h : s.readExact c n = some (t, .ok bytes)) (ht : 0 < t) :
    ∃ i, s.arrives i = some (c.now + t) := by
  rcases readExact_cases h with ⟨d, hd, rfl, -⟩ | ⟨_, -, ⟨⟩⟩ | ⟨_, ⟨⟩⟩
  obtain ⟨i, hi⟩ := exists_arrives hd (by omega)
  refine ⟨i, ?_⟩
  rw [hi, show c.now + (max d c.now - c.now) = d by omega]

/-! ### The frame -/

/-- **A frame times out with the read that is slow**, one timeout after its beginning. -/
theorem timesOut_iff :
    (∃ upstream, readDoqFrameTimed text s idle c = (.error (.timeout upstream), c')) ↔
      ∃ c₁ n, s.Reads idle c c₁ n ∧ (s.readExact c₁ n).Slow idle ∧
        c' = { c₁ with now := c₁.now + idle } := by
  unfold readDoqFrameTimed readDoqFrameOn
  constructor
  · rintro ⟨upstream, h⟩
    split at h
    · next c₁ hlength =>
      cases h
      obtain ⟨hs, rfl⟩ := await_elapsed.mp hlength
      exact ⟨c, 2, .length, hs, rfl⟩
    · cases h
    · cases h
    · next length c₁ hlength =>
      obtain ⟨t, ht, hr, rfl⟩ := await_ok.mp hlength
      by_cases hz : fromBeBytes length = 0
      · rw [if_pos hz] at h
        cases h
      rw [if_neg hz] at h
      split at h
      · next c₂ hmessage =>
        cases h
        obtain ⟨hs, rfl⟩ := await_elapsed.mp hmessage
        exact ⟨_, _, .message hr ht hz, hs, rfl⟩
      · cases h
      · cases h
  · rintro ⟨c₁, n, hreads, hs, rfl⟩
    have helapsed : s.await idle c₁ n = (.elapsed, _) := await_elapsed.mpr ⟨hs, rfl⟩
    cases hreads with
    | length =>
        rw [helapsed]
        exact ⟨_, rfl⟩
    | message hr ht hz =>
        have hlength : s.await idle c 2 = (.ok _, _) := await_ok.mpr ⟨_, ht, hr, rfl⟩
        simp only [hlength, hz, if_false, helapsed]
        exact ⟨_, rfl⟩

/-- **When a timeout means that nothing arrives**: iff a read that is slow is so because of it. -/
theorem readDoqFrameTimed_exact (text : ReadExactError → Bytes) (s : TimedStream) (idle : ℕ)
    (c : Cursor) : TimesOutOnlyWhenQuiet text s idle c ↔ s.SlowOnlyWhenQuiet idle c := by
  constructor
  · intro h c₁ n hreads hs
    obtain ⟨upstream, htimeout⟩ := timesOut_iff.mpr ⟨c₁, n, hreads, hs, rfl⟩
    obtain ⟨a, hfrom, hto, hquiet⟩ := h upstream _ htimeout
    have hle : a ≤ c₁.now := by
      dsimp only at hto
      omega
    cases hreads with
    | length =>
        obtain rfl := Nat.le_antisymm hle hfrom
        exact hquiet
    | @message t length hr ht hz =>
        dsimp only at hle ⊢
        rcases hle.eq_or_lt with rfl | hlt
        · exact hquiet
        · -- the last byte of the length arrives in the quiet time
          obtain ⟨i, hi⟩ := arrives_of_readExact hr (by omega)
          exact absurd ⟨hlt, by omega⟩ (hquiet i _ hi)
  · intro h upstream c' htimeout
    obtain ⟨c₁, n, hreads, hs, rfl⟩ := timesOut_iff.mp ⟨upstream, htimeout⟩
    have hfrom : c.now ≤ c₁.now := by
      cases hreads with
      | length => exact le_rfl
      | message _ _ _ => exact Nat.le_add_right _ _
    exact ⟨c₁.now, hfrom, le_rfl, h c₁ n hreads hs⟩

/-! ### The reader without its times -/

theorem readDoqFrameOn_congr {σ τ : Type} {f : σ → ℕ → Awaited ReadExactError Bytes × σ}
    {g : τ → ℕ → Awaited ReadExactError Bytes × τ} {x : σ} {y : τ}
    (hlength : (f x 2).1 = (g y 2).1)
    (hmessage : ∀ length, (f x 2).1 = .ok length → fromBeBytes length ≠ 0 →
      (f (f x 2).2 (fromBeBytes length)).1 = (g (g y 2).2 (fromBeBytes length)).1) :
    (readDoqFrameOn text f x).1 = (readDoqFrameOn text g y).1 := by
  unfold readDoqFrameOn
  generalize f x 2 = p at hlength hmessage ⊢
  generalize g y 2 = q at hlength hmessage ⊢
  obtain ⟨first, x₁⟩ := p
  obtain ⟨first', y₁⟩ := q
  obtain rfl : first = first' := hlength
  cases first with
  | elapsed => rfl
  | error error =>
      cases error with
      | readError _ => rfl
      | finishedEarly k => cases k <;> rfl
  | ok length =>
      by_cases hz : fromBeBytes length = 0
      · simp only [hz, if_true]
      · have hsecond := hmessage length rfl hz
        dsimp only at hsecond
        simp only [hz, if_false]
        generalize f x₁ (fromBeBytes length) = p at hsecond ⊢
        generalize g y₁ (fromBeBytes length) = q at hsecond ⊢
        obtain ⟨second, x₂⟩ := p
        obtain ⟨second', y₂⟩ := q
        obtain rfl : second = second' := hsecond
        cases second <;> rfl

/-- A stream on which a read yields this. -/
def Awaited.served : Awaited ReadExactError Bytes → RecvStream
  | .ok bytes => ⟨bytes, .stall⟩
  | .error (.finishedEarly read) => ⟨List.replicate read 0, .fin⟩
  | .error (.readError reason) => ⟨[], .reset reason⟩
  | .elapsed => ⟨[], .stall⟩

theorem length_of_readExact (h : s.readExact c n = some (t, .ok bytes)) : bytes.length = n := by
  rcases readExact_cases h with ⟨_, -, -, hslice⟩ | ⟨_, -, ⟨⟩⟩ | ⟨_, ⟨⟩⟩
  cases hslice
  rw [TimedStream.slice, List.length_map, List.length_range]

theorem lt_of_finishedEarly {k : ℕ} (h : s.readExact c n = some (t, .error (.finishedEarly k)))
    (hn : 0 < n) : k < n := by
  rcases readExact_cases h with ⟨_, -, -, ⟨⟩⟩ | ⟨length, hlt, he⟩ | ⟨_, ⟨⟩⟩
  cases he
  omega

theorem readExact_served (hn : 0 < n) :
    ((s.await idle c n).1.served.readExact n).1 = (s.await idle c n).1 := by
  unfold TimedStream.await
  split
  · unfold Awaited.served
    rw [readExact_short hn]
    rfl
  · next t e h =>
    obtain ⟨hr, -⟩ := Timed.timeout_eq_some.mp h
    cases e with
    | readError reason =>
        unfold Awaited.served
        rw [readExact_short hn]
        rfl
    | finishedEarly k =>
        have hk := lt_of_finishedEarly hr hn
        unfold Awaited.served
        rw [readExact_short (by rwa [List.length_replicate])]
        dsimp only [Ending.shortRead]
        rw [List.length_replicate]
  · next t bytes h =>
    obtain ⟨hr, -⟩ := Timed.timeout_eq_some.mp h
    have happend : (RecvStream.mk (bytes ++ []) .stall).readExact bytes.length = _ :=
      readExact_append bytes
    rw [List.append_nil, length_of_readExact hr] at happend
    unfold Awaited.served
    rw [happend]

/-- **What the timed reader returns is what `readDoqFrame` returns** on some stream. -/
theorem readDoqFrameTimed_result (text : ReadExactError → Bytes) (s : TimedStream) (idle : ℕ)
    (c : Cursor) :
    ∃ recv, (readDoqFrameTimed text s idle c).1 = (readDoqFrame text recv).1 := by
  unfold readDoqFrameTimed
  cases hfirst : (s.await idle c 2).1 with
  | ok length =>
      let rest := (s.await idle (s.await idle c 2).2 (fromBeBytes length)).1.served
      have hlength : length.length = 2 := by
        obtain ⟨_, -, hr, -⟩ := await_ok.mp (Prod.ext hfirst rfl)
        exact length_of_readExact hr
      have hread : (RecvStream.mk (length ++ rest.bytes) rest.ending).readExact 2 = _ :=
        hlength ▸ readExact_append length
      refine ⟨⟨length ++ rest.bytes, rest.ending⟩, ?_⟩
      rw [← readDoqFrameOn_readExact]
      refine readDoqFrameOn_congr (by rw [hfirst, hread]) fun length' hok hz => ?_
      cases hfirst.symm.trans hok
      rw [hread]
      exact (readExact_served (Nat.pos_of_ne_zero hz)).symm
  | error error =>
      refine ⟨(s.await idle c 2).1.served, ?_⟩
      rw [← readDoqFrameOn_readExact]
      refine readDoqFrameOn_congr (readExact_served Nat.two_pos).symm fun length hok _ => ?_
      cases hfirst.symm.trans hok
  | elapsed =>
      refine ⟨(s.await idle c 2).1.served, ?_⟩
      rw [← readDoqFrameOn_readExact]
      refine readDoqFrameOn_congr (readExact_served Nat.two_pos).symm fun length hok _ => ?_
      cases hfirst.symm.trans hok

/-! ### A slow sender -/

/-- A message of twelve bytes, of which one arrives every five ticks, and more after it. -/
def steady : TimedStream where
  byte i := if i = 1 then 12 else 0
  arrives i := some (5 * (i - 1))
  ending := none

theorem steady_not_quiet (a : ℕ) : ¬ steady.Quiet a (a + 10) := by
  intro h
  refine h (a / 5 + 2) _ rfl ?_
  omega

/-- The reader gives up after ten ticks, and bytes arrive in any ten. -/
theorem readDoqFrameTimed_exact_steady :
    (∀ a, ¬ steady.Quiet a (a + 10)) ∧ ¬ TimesOutOnlyWhenQuiet (fun _ => []) steady 10 ⟨0, 0⟩ := by
  refine ⟨steady_not_quiet, fun h => ?_⟩
  have htimeout : readDoqFrameTimed (fun _ => []) steady 10 ⟨0, 0⟩ =
      (.error (doqIdleTimeout (utf8 "reading DoQ message")), ⟨2, 10⟩) := by
    decide
  obtain ⟨a, -, -, hquiet⟩ := h _ _ htimeout
  exact steady_not_quiet a hquiet

end DnsIngress.Quic
