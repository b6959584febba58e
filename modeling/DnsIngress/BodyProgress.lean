import DnsIngress.BoundedBody
import DnsIngress.Timed

/-! # When the readers of a request body stall

`collect_body_with_progress` and the body loop of `DoH3Server::process_request` wait for each
frame with a timeout of its own.  Both are one loop (`FrameLoop`), which a frame without payload
takes a step further like any other, so it is the payload that may be missing for longer.

* `BodyPeer` is what the peer does: frames, with the time between them, without end or up to the
  end of the body.
* `FrameLoop.StallsWithoutPayload` is what the timeout is for: the call ends when no payload has
  arrived for the timeout.
* `FrameLoop.stallsWithoutPayload_iff` says for which frames a loop does it.
* What a loop gets is not what the peer sends: `Incoming` and `recv_data` hand over no frame
  without payload, except for the trailers (`HandsOverPayload`).  `bodyLoops_stall`: so they do it
  for every peer. -/

namespace DnsIngress

/-- What a wait for the next frame yields. -/
inductive Received (φ σ : Type)
  | frame (frame : φ)
  | stop (stop : σ)

/-- What a peer sends, each item with the time since the one before. -/
structure BodyPeer (φ σ : Type) where
  next : ℕ → Timed (Received φ σ)
  /-- a finite time has finitely many frames -/
  diverges : ∀ i, ∃ j, i ≤ j ∧ ∀ t r, next j = some (t, r) → 0 < t

/-- A loop that waits for one frame after the other and keeps their payload. -/
structure FrameLoop (φ σ ρ : Type) where
  payload : φ → Bytes
  /-- the body with this frame, unless it is too long -/
  add : Bytes → φ → Option Bytes
  stalled : ρ
  tooLarge : ρ
  finish : σ → Bytes → ρ
  add_eq : ∀ body frame, body.length ≤ maxDnsMessageSize →
    add body frame =
      if body.length + (payload frame).length ≤ maxDnsMessageSize then some (body ++ payload frame)
      else none
  tooLarge_ne : tooLarge ≠ stalled
  finish_ne : ∀ stop body, finish stop body ≠ stalled

namespace FrameLoop

variable {φ σ ρ : Type} (L : FrameLoop φ σ ρ) (timeout : ℕ) (peer : BodyPeer φ σ)

/-- The loop from its `i`-th wait on, which begins at `now`: the time it ends and its result. -/
def run : ℕ → ℕ → ℕ → Bytes → Option (ℕ × ρ)
  | 0, _, _, _ => none
  | fuel + 1, i, now, body =>
      match (peer.next i).timeout timeout with
      | (t, none) => some (now + t, L.stalled)
      | (t, some (.stop stop)) => some (now + t, L.finish stop body)
      | (t, some (.frame frame)) =>
          match L.add body frame with
          | none => some (now + t, L.tooLarge)
          | some body => run fuel (i + 1) (now + t) body

/-- The call ends at `t` with result `r`. -/
def Finishes (t : ℕ) (r : ρ) : Prop := ∃ fuel, L.run timeout peer fuel 0 0 [] = some (t, r)

/-- The peer has sent `i` frames, each in time, the last one at `now`: their payload is this body,
and the last byte of it came at `last`. -/
inductive Reaches : ℕ → ℕ → ℕ → Bytes → Prop
  | start : Reaches 0 0 0 []
  | frame {i now last t : ℕ} {body : Bytes} {frame : φ} : Reaches i now last body →
      peer.next i = some (t, .frame frame) → t ≤ timeout →
      body.length + (L.payload frame).length ≤ maxDnsMessageSize →
      Reaches (i + 1) (now + t) (if L.payload frame = [] then last else now + t)
        (body ++ L.payload frame)

/-- Payload arrives at `τ`. -/
def Delivers (τ : ℕ) : Prop :=
  ∃ i now last body t frame, L.Reaches timeout peer i now last body ∧
    peer.next i = some (t, .frame frame) ∧ t ≤ timeout ∧ L.payload frame ≠ [] ∧ τ = now + t

/-- Payload arrives at `T`, or the call begins. -/
def Progress (T : ℕ) : Prop := T = 0 ∨ L.Delivers timeout peer T

def carriesPayload : Timed (Received φ σ) → Bool
  | some (_, .frame frame) => !(L.payload frame).isEmpty
  | _ => false

/-- How many of the first `n` items are frames that carry payload. -/
def payloadFrames (n : ℕ) : ℕ := (List.range n).countP fun i => L.carriesPayload (peer.next i)

/-- What the timeout is for. -/
structure StallsWithoutPayload : Prop where
  /-- the call ends when no payload has arrived for the timeout, -/
  stalls : ∀ T, L.Progress timeout peer T →
    (∀ τ, L.Delivers timeout peer τ → T < τ → T + timeout < τ) →
    L.Finishes timeout peer (T + timeout) L.stalled ∨
      ∃ t r, t ≤ T + timeout ∧ L.Finishes timeout peer t r ∧ r ≠ L.stalled
  /-- and stalls only then -/
  stalled : ∀ t, L.Finishes timeout peer t L.stalled →
    ∃ T, L.Progress timeout peer T ∧ t = T + timeout ∧ ∀ τ, L.Delivers timeout peer τ → τ ≤ T
  terminates : ∃ t r, L.Finishes timeout peer t r
  /-- the frame it waits for included -/
  bounded : ∀ i now last body, L.Reaches timeout peer i now last body →
    L.payloadFrames peer (i + 1) ≤ 65536

/-- The next item comes by this time. -/
def ArrivesBy (i now bound : ℕ) : Prop := ∃ t r, peer.next i = some (t, r) ∧ now + t ≤ bound

/-- After a frame without payload the next one comes before payload is missing for the timeout. -/
def NoLateEmptyFrame : Prop :=
  ∀ i now last body, L.Reaches timeout peer i now last body →
    now = last ∨ ArrivesBy peer i now (last + timeout)

end FrameLoop

/-- What is handed over of what a peer sends: no frame without payload, but for the trailers, and
the end of the body with them. -/
def HandsOverPayload {φ σ : Type} (payload : φ → Bytes)
    (transport : BodyPeer φ σ → BodyPeer φ σ) : Prop :=
  ∀ sent i t frame, (transport sent).next i = some (t, .frame frame) → payload frame = [] →
    ∃ stop, (transport sent).next (i + 1) = some (0, .stop stop)

/-! ### The two loops -/

/-- How a body ends for `collect_body_with_progress`. -/
inductive BodyStop
  | finished
  | failed (reason : Bytes)

/-- `collected` with a frame. -/
def collectFrame (collected : Bytes) : Frame → Option Bytes
  | .trailers => some collected
  | .data data =>
      let remaining := maxDnsMessageSize - collected.length
      if remaining < data.length then none else some (collected ++ data)

theorem collectFrame_eq (collected : Bytes) (frame : Frame)
    (h : collected.length ≤ maxDnsMessageSize) :
    collectFrame collected frame =
      if collected.length + frame.bytes.length ≤ maxDnsMessageSize then
        some (collected ++ frame.bytes)
      else none := by
  cases frame with
  | trailers => simp [collectFrame, Frame.bytes, h]
  | data data =>
      unfold collectFrame Frame.bytes
      by_cases hroom : maxDnsMessageSize - collected.length < data.length
      · simp only [hroom, if_true]
        rw [if_neg (by omega)]
      · simp only [hroom, if_false]
        rw [if_pos (by omega)]

/-- `collect_body_with_progress`. -/
def collectLoop (operation : Bytes) :
    FrameLoop Frame BodyStop (Except BodyCollectionError Bytes) where
  payload := Frame.bytes
  add := collectFrame
  stalled := .error (.stalled operation)
  tooLarge := .error (.tooLarge operation)
  finish stop collected :=
    match stop with
    | .finished => .ok collected
    | .failed reason => .error (.read operation reason)
  add_eq := collectFrame_eq
  tooLarge_ne := by simp
  finish_ne stop collected := by cases stop <;> simp

/-- How the body of a DoH3 request ends. -/
inductive RequestStop
  | finished
  | failed (reason : Bytes)
  /-- `shutdown.cancelled()` -/
  | cancelled

/-- `body_data` with a chunk. -/
def receiveChunk (bodyData : Bytes) (chunk : Buf) : Option Bytes :=
  if maxDnsMessageSize < bodyData.length + chunk.remaining then none
  else some (copyRemaining bodyData chunk)

theorem receiveChunk_eq (bodyData : Bytes) (chunk : Buf) :
    receiveChunk bodyData chunk =
      if bodyData.length + chunk.flatten.length ≤ maxDnsMessageSize then
        some (bodyData ++ chunk.flatten)
      else none := by
  unfold receiveChunk Buf.remaining
  rw [copyRemaining_eq]
  by_cases hroom : maxDnsMessageSize < bodyData.length + chunk.flatten.length
  · rw [if_pos hroom, if_neg (by omega)]
  · rw [if_neg hroom, if_pos (by omega)]

/-- The body loop of `process_request`. -/
def requestLoop : FrameLoop Buf RequestStop (Option ReceivedBody) where
  payload := List.flatten
  add := receiveChunk
  stalled := some .stalled
  tooLarge := some .tooLarge
  finish stop bodyData :=
    match stop with
    | .finished => some (.complete bodyData)
    | .failed reason => some (.failed reason)
    | .cancelled => none
  add_eq bodyData chunk _ := receiveChunk_eq bodyData chunk
  tooLarge_ne := by simp
  finish_ne stop bodyData := by cases stop <;> simp

/-! ### The waits of a call -/

namespace FrameLoop

variable {φ σ ρ : Type} {L : FrameLoop φ σ ρ} {timeout : ℕ} {peer : BodyPeer φ σ}
  {i j now last t : ℕ} {body : Bytes} {r : ρ}

/-- The call ends with this wait. -/
inductive WaitEnds (L : FrameLoop φ σ ρ) (timeout : ℕ) (peer : BodyPeer φ σ) (i now : ℕ)
    (body : Bytes) : ℕ → ρ → Prop
  | stalled : (peer.next i).Slow timeout →
      WaitEnds L timeout peer i now body (now + timeout) L.stalled
  | stop {t : ℕ} {stop : σ} : peer.next i = some (t, .stop stop) → t ≤ timeout →
      WaitEnds L timeout peer i now body (now + t) (L.finish stop body)
  | tooLarge {t : ℕ} {frame : φ} : peer.next i = some (t, .frame frame) → t ≤ timeout →
      maxDnsMessageSize < body.length + (L.payload frame).length →
      WaitEnds L timeout peer i now body (now + t) L.tooLarge

namespace Reaches

theorem length_le (h : L.Reaches timeout peer i now last body) :
    body.length ≤ maxDnsMessageSize := by
  cases h with
  | start => exact Nat.zero_le _
  | frame _ _ _ hroom => rwa [List.length_append]

theorem last_le (h : L.Reaches timeout peer i now last body) : last ≤ now := by
  induction h with
  | start => exact le_rfl
  | frame _ _ _ _ ih =>
      split_ifs
      · omega
      · exact le_rfl

theorem progress (h : L.Reaches timeout peer i now last body) : L.Progress timeout peer last := by
  induction h with
  | start => exact .inl rfl
  | @frame i now last t body frame h hnext ht _ ih =>
      split_ifs with hp
      · exact ih
      · exact .inr ⟨i, now, last, body, t, frame, h, hnext, ht, hp, rfl⟩

theorem unique {now' last' : ℕ} {body' : Bytes} (h : L.Reaches timeout peer i now last body)
    (h' : L.Reaches timeout peer i now' last' body') :
    now = now' ∧ last = last' ∧ body = body' := by
  induction h generalizing now' last' body' with
  | start =>
      cases h'
      exact ⟨rfl, rfl, rfl⟩
  | frame _ hnext _ _ ih =>
      cases h' with
      | frame h' hnext' _ _ =>
          obtain ⟨rfl, rfl, rfl⟩ := ih h'
          cases hnext.symm.trans hnext'
          exact ⟨rfl, rfl, rfl⟩

theorem before (h : L.Reaches timeout peer i now last body) (hj : j < i) :
    ∃ now' last' body' t frame, L.Reaches timeout peer j now' last' body' ∧
      peer.next j = some (t, .frame frame) ∧ t ≤ timeout ∧
      body'.length + (L.payload frame).length ≤ maxDnsMessageSize ∧ now' + t ≤ now ∧
      (L.payload frame ≠ [] → now' + t ≤ last) := by
  induction h with
  | start => exact absurd hj (Nat.not_lt_zero j)
  | @frame i now last t body frame h hnext ht hroom ih =>
      rcases Nat.lt_succ_iff_lt_or_eq.mp hj with hlt | rfl
      · obtain ⟨now', last', body', t', frame', h', hnext', ht', hroom', hnow, hlast⟩ := ih hlt
        refine ⟨now', last', body', t', frame', h', hnext', ht', hroom', by omega, fun hp => ?_⟩
        have := hlast hp
        split_ifs
        · exact this
        · omega
      · refine ⟨now, last, body, t, frame, h, hnext, ht, hroom, le_rfl, fun hp => ?_⟩
        rw [if_neg hp]

theorem run (h : L.Reaches timeout peer i now last body) (fuel : ℕ) :
    L.run timeout peer (fuel + i) 0 0 [] = L.run timeout peer fuel i now body := by
  induction h generalizing fuel with
  | start => rfl
  | @frame i now last t body frame h hnext ht hroom ih =>
      have hadd := L.add_eq body frame h.length_le
      have hwait : (peer.next i).timeout timeout = (t, some (.frame frame)) :=
        Timed.timeout_eq_some.mpr ⟨hnext, ht⟩
      rw [if_pos hroom] at hadd
      rw [show fuel + (i + 1) = fuel + 1 + i by omega, ih, FrameLoop.run, hwait]
      dsimp only
      rw [hadd]

theorem wait (_h : L.Reaches timeout peer i now last body) :
    (∃ t r, L.WaitEnds timeout peer i now body t r) ∨
      ∃ t frame, peer.next i = some (t, .frame frame) ∧ t ≤ timeout ∧
        body.length + (L.payload frame).length ≤ maxDnsMessageSize := by
  by_cases hs : (peer.next i).Slow timeout
  · exact .inl ⟨_, _, .stalled hs⟩
  · simp only [Timed.Slow, not_forall, Nat.not_lt] at hs
    obtain ⟨t, item, hnext, ht⟩ := hs
    cases item with
    | stop stop => exact .inl ⟨_, _, .stop hnext ht⟩
    | frame frame =>
        by_cases hroom : body.length + (L.payload frame).length ≤ maxDnsMessageSize
        · exact .inr ⟨t, frame, hnext, ht, hroom⟩
        · exact .inl ⟨_, _, .tooLarge hnext ht (by omega)⟩

theorem finishes (h : L.Reaches timeout peer i now last body)
    (he : L.WaitEnds timeout peer i now body t r) : L.Finishes timeout peer t r := by
  refine ⟨1 + i, ?_⟩
  rw [h.run, FrameLoop.run]
  cases he with
  | stalled hs =>
      have hwait : (peer.next i).timeout timeout = (timeout, none) :=
        Timed.timeout_eq_none.mpr ⟨hs, rfl⟩
      rw [hwait]
  | @stop t stop hnext ht =>
      have hwait : (peer.next i).timeout timeout = (t, some (.stop stop)) :=
        Timed.timeout_eq_some.mpr ⟨hnext, ht⟩
      rw [hwait]
  | @tooLarge t frame hnext ht hroom =>
      have hadd := L.add_eq body frame h.length_le
      have hwait : (peer.next i).timeout timeout = (t, some (.frame frame)) :=
        Timed.timeout_eq_some.mpr ⟨hnext, ht⟩
      rw [if_neg (by omega)] at hadd
      rw [hwait]
      dsimp only
      rw [hadd]

theorem waitEnds_of_run {fuel : ℕ} (h : L.Reaches timeout peer i now last body)
    (hrun : L.run timeout peer fuel i now body = some (t, r)) :
    ∃ i now last body, L.Reaches timeout peer i now last body ∧
      L.WaitEnds timeout peer i now body t r := by
  induction fuel generalizing i now last body with
  | zero => cases hrun
  | succ fuel ih =>
      unfold FrameLoop.run at hrun
      split at hrun
      · next t' hwait =>
        cases hrun
        obtain ⟨hs, rfl⟩ := Timed.timeout_eq_none.mp hwait
        exact ⟨i, now, last, body, h, .stalled hs⟩
      · next t' stop hwait =>
        cases hrun
        obtain ⟨hnext, ht⟩ := Timed.timeout_eq_some.mp hwait
        exact ⟨i, now, last, body, h, .stop hnext ht⟩
      · next t' frame hwait =>
        obtain ⟨hnext, ht⟩ := Timed.timeout_eq_some.mp hwait
        have hadd := L.add_eq body frame h.length_le
        by_cases hroom : body.length + (L.payload frame).length ≤ maxDnsMessageSize
        · rw [if_pos hroom] at hadd
          rw [hadd] at hrun
          exact ih (.frame h hnext ht hroom) hrun
        · rw [if_neg hroom] at hadd
          rw [hadd] at hrun
          cases hrun
          exact ⟨i, now, last, body, h, .tooLarge hnext ht (by omega)⟩

end Reaches

/-- **A call ends with the first wait that ends it.** -/
theorem finishes_iff :
    L.Finishes timeout peer t r ↔ ∃ i now last body, L.Reaches timeout peer i now last body ∧
      L.WaitEnds timeout peer i now body t r := by
  constructor
  · rintro ⟨fuel, hrun⟩
    exact Reaches.waitEnds_of_run .start hrun
  · rintro ⟨i, now, last, body, h, he⟩
    exact h.finishes he

theorem WaitEnds.slow (he : L.WaitEnds timeout peer i now body t r) (hr : r = L.stalled) :
    (peer.next i).Slow timeout ∧ t = now + timeout := by
  cases he with
  | stalled hs => exact ⟨hs, rfl⟩
  | stop _ _ => exact absurd hr (L.finish_ne _ _)
  | tooLarge _ _ _ => exact absurd hr L.tooLarge_ne

theorem WaitEnds.le {now' last' : ℕ} {body' : Bytes} (h : L.Reaches timeout peer i now last body)
    (he : L.WaitEnds timeout peer i now body t r)
    (h' : L.Reaches timeout peer j now' last' body') : j ≤ i := by
  by_contra hlt
  obtain ⟨_, _, _, t', frame', h'', hnext', ht', hroom', -, -⟩ := h'.before (Nat.not_le.mp hlt)
  obtain ⟨rfl, -, rfl⟩ := h.unique h''
  cases he with
  | stalled hs => exact absurd (hs t' _ hnext') (Nat.not_lt.mpr ht')
  | stop hnext _ => cases hnext.symm.trans hnext'
  | tooLarge hnext _ hroom =>
      cases hnext.symm.trans hnext'
      omega

/-- While nothing comes at a wait, the last payload is what it was. -/
theorem Delivers.le_or_lt {τ bound : ℕ} (hd : L.Delivers timeout peer τ)
    (h : L.Reaches timeout peer i now last body) (hno : ¬ ArrivesBy peer i now bound) :
    τ ≤ last ∨ bound < τ := by
  obtain ⟨j, now', last', body', t, frame, h', hnext, -, hp, rfl⟩ := hd
  rcases Nat.lt_trichotomy j i with hlt | rfl | hgt
  · obtain ⟨_, _, _, _, _, h'', hnext'', -, -, -, hlast⟩ := h.before hlt
    obtain ⟨rfl, -, -⟩ := h'.unique h''
    cases hnext.symm.trans hnext''
    exact .inl (hlast hp)
  · obtain ⟨rfl, -, -⟩ := h.unique h'
    exact .inr (by
      by_contra hle
      exact hno ⟨t, _, hnext, Nat.not_lt.mp hle⟩)
  · obtain ⟨_, _, _, t'', _, h'', hnext'', -, -, hnow, -⟩ := h'.before hgt
    obtain ⟨rfl, -, -⟩ := h.unique h''
    refine .inr ?_
    by_contra hle
    exact hno ⟨t'', _, hnext'', by omega⟩

theorem Reaches.finishes_after {bound : ℕ} (h : L.Reaches timeout peer i now last body)
    (hno : ¬ ArrivesBy peer i now bound) (hbound : bound < now + timeout)
    (hf : L.Finishes timeout peer t r) : bound < t := by
  obtain ⟨j, now', last', body', h', he⟩ := finishes_iff.mp hf
  by_contra hle
  rcases (he.le h' h).lt_or_eq with hlt | rfl
  · obtain ⟨_, _, _, t'', _, h'', hnext'', -, -, hnow, -⟩ := h'.before hlt
    obtain ⟨rfl, -, -⟩ := h.unique h''
    refine hno ⟨t'', _, hnext'', ?_⟩
    cases he <;> omega
  · obtain ⟨rfl, -, rfl⟩ := h.unique h'
    cases he with
    | stalled hs => omega
    | stop hnext _ => exact hno ⟨_, _, hnext, by omega⟩
    | tooLarge hnext _ _ => exact hno ⟨_, _, hnext, by omega⟩

/-! ### Frames without payload -/

/-- A frame without payload that moves the deadline keeps the call from ending in time. -/
theorem StallsWithoutPayload.noLateEmptyFrame (h : L.StallsWithoutPayload timeout peer) :
    L.NoLateEmptyFrame timeout peer := by
  intro i now last body hr
  by_contra hno
  obtain ⟨hnow, hlate⟩ := not_or.mp hno
  have hlt : last + timeout < now + timeout := by
    have := hr.last_le
    omega
  have hmissing (τ : ℕ) (hd : L.Delivers timeout peer τ) (hτ : last < τ) :
      last + timeout < τ :=
    (hd.le_or_lt hr hlate).resolve_left (by omega)
  rcases h.stalls last hr.progress hmissing with hf | ⟨t, r, ht, hf, -⟩
  · exact absurd (hr.finishes_after hlate hlt hf) (Nat.lt_irrefl _)
  · exact absurd (hr.finishes_after hlate hlt hf) (by omega)

theorem WaitEnds.le_of_arrivesBy {bound : ℕ} (he : L.WaitEnds timeout peer i now body t r)
    (ha : ArrivesBy peer i now bound) : t ≤ bound := by
  obtain ⟨t', item, hnext', hle⟩ := ha
  cases he with
  | stalled hs =>
      have := hs t' item hnext'
      omega
  | stop hnext _ =>
      cases hnext.symm.trans hnext'
      exact hle
  | tooLarge hnext _ _ =>
      cases hnext.symm.trans hnext'
      exact hle

/-- By `bound` the call has ended, or it is in a wait that takes longer; then no payload has come
since `last`, or the body has become longer than this one. -/
def EndsOrWaits (L : FrameLoop φ σ ρ) (timeout : ℕ) (peer : BodyPeer φ σ) (bound last : ℕ)
    (body : Bytes) : Prop :=
  (∃ t r, t ≤ bound ∧ L.Finishes timeout peer t r) ∨
    ∃ i' now' last' body', L.Reaches timeout peer i' now' last' body' ∧ now' ≤ bound ∧
      ¬ ArrivesBy peer i' now' bound ∧ last ≤ last' ∧ body.length ≤ body'.length ∧
      (last' = last ∨ body.length < body'.length)

theorem EndsOrWaits.of_frame {bound : ℕ} {frame : φ} (hlast : last ≤ now)
    (h : L.EndsOrWaits timeout peer bound (if L.payload frame = [] then last else now)
      (body ++ L.payload frame)) : L.EndsOrWaits timeout peer bound last body := by
  rcases h with hf | ⟨i', now', last', body', hr, hnow, hno, hle, hbody, hor⟩
  · exact .inl hf
  · rw [List.length_append] at hbody hor
    refine .inr ⟨i', now', last', body', hr, hnow, hno, ?_, by omega, ?_⟩
    · split_ifs at hle
      · exact hle
      · omega
    · by_cases hp : L.payload frame = []
      · rw [if_pos hp, hp] at hor
        exact hor
      · have := List.length_pos_iff.mpr hp
        exact .inr (by omega)

theorem Reaches.endsOrWaits_step {bound : ℕ} (h : L.Reaches timeout peer i now last body)
    (hnow : now ≤ bound)
    (hnext : ∀ t frame, peer.next i = some (t, .frame frame) → now + t ≤ bound →
      L.Reaches timeout peer (i + 1) (now + t) (if L.payload frame = [] then last else now + t)
        (body ++ L.payload frame) →
      L.EndsOrWaits timeout peer bound (if L.payload frame = [] then last else now + t)
        (body ++ L.payload frame)) :
    L.EndsOrWaits timeout peer bound last body := by
  by_cases ha : ArrivesBy peer i now bound
  · rcases h.wait with ⟨t, r, he⟩ | ⟨t, frame, hframe, ht, hroom⟩
    · exact .inl ⟨t, r, he.le_of_arrivesBy ha, h.finishes he⟩
    · obtain ⟨t', item, hitem, hle⟩ := ha
      cases hframe.symm.trans hitem
      have hlast := h.last_le
      exact .of_frame (by omega) (hnext t frame hframe hle (.frame h hframe ht hroom))
  · exact .inr ⟨i, now, last, body, h, hnow, ha, le_rfl, le_rfl, .inl rfl⟩

theorem Reaches.endsOrWaits {bound : ℕ} (h : L.Reaches timeout peer i now last body)
    (hnow : now ≤ bound) : L.EndsOrWaits timeout peer bound last body := by
  induction hn : bound - now using Nat.strong_induction_on generalizing i now last body with
  | _ n ih =>
      obtain ⟨j, hj, hpos⟩ := peer.diverges i
      obtain ⟨k, rfl⟩ := Nat.exists_eq_add_of_le hj
      clear hj
      induction k generalizing i last body with
      | zero =>
          refine h.endsOrWaits_step hnow fun t frame hnext hle hr => ?_
          have := hpos t _ hnext
          exact ih (bound - (now + t)) (by omega) hr hle rfl
      | succ k ihk =>
          refine h.endsOrWaits_step hnow fun t frame hnext hle hr => ?_
          rcases Nat.eq_zero_or_pos t with rfl | hpost
          · exact ihk hr (by rwa [Nat.add_right_comm])
          · exact ih (bound - (now + t)) (by omega) hr hle rfl

theorem Progress.reaches {T : ℕ} (hT : L.Progress timeout peer T) :
    (∃ r, L.Finishes timeout peer T r ∧ r ≠ L.stalled) ∨
      ∃ i body, L.Reaches timeout peer i T T body := by
  rcases hT with rfl | ⟨i, now, last, body, t, frame, h, hnext, ht, hp, rfl⟩
  · exact .inr ⟨0, [], .start⟩
  · by_cases hroom : body.length + (L.payload frame).length ≤ maxDnsMessageSize
    · have hr := Reaches.frame h hnext ht hroom
      rw [if_neg hp] at hr
      exact .inr ⟨i + 1, _, hr⟩
    · exact .inl ⟨L.tooLarge, h.finishes (.tooLarge hnext ht (by omega)), L.tooLarge_ne⟩

/-! ### When the loop does what its timeout is for -/

section
variable (hno : L.NoLateEmptyFrame timeout peer)
include hno

/-- A wait in which payload stays missing for the timeout ends with it. -/
theorem NoLateEmptyFrame.finishes (h : L.Reaches timeout peer i now last body)
    (hwait : ¬ ArrivesBy peer i now (last + timeout)) :
    L.Finishes timeout peer (last + timeout) L.stalled := by
  obtain rfl := (hno i now last body h).resolve_right hwait
  refine h.finishes (.stalled fun t r hnext => ?_)
  by_contra hle
  exact hwait ⟨t, r, hnext, by omega⟩

theorem NoLateEmptyFrame.now_le (h : L.Reaches timeout peer i now last body) :
    now ≤ last + timeout := by
  rcases hno i now last body h with rfl | ⟨t, r, -, hle⟩
  · exact Nat.le_add_right _ _
  · omega

theorem NoLateEmptyFrame.stalled (hf : L.Finishes timeout peer t L.stalled) :
    ∃ T, L.Progress timeout peer T ∧ t = T + timeout ∧
      ∀ τ, L.Delivers timeout peer τ → τ ≤ T := by
  obtain ⟨i, now, last, body, h, he⟩ := finishes_iff.mp hf
  obtain ⟨hs, rfl⟩ := he.slow rfl
  have hnow : now = last := by
    refine (hno i now last body h).resolve_right ?_
    rintro ⟨t, r, hnext, hle⟩
    have := hs t r hnext
    have := h.last_le
    omega
  refine ⟨last, h.progress, by rw [hnow], fun τ hd => ?_⟩
  obtain ⟨j, now', last', body', t, frame, h', hnext, ht, hp, rfl⟩ := hd
  rcases (he.le h h').lt_or_eq with hlt | rfl
  · obtain ⟨_, _, _, _, _, h'', hnext'', -, -, -, hlast⟩ := h.before hlt
    obtain ⟨rfl, -, -⟩ := h'.unique h''
    cases hnext.symm.trans hnext''
    exact hlast hp
  · have := hs t _ hnext
    omega

/-- The measure is the room that is left for payload. -/
theorem NoLateEmptyFrame.terminates (h : L.Reaches timeout peer i now last body) :
    ∃ t r, L.Finishes timeout peer t r := by
  induction hn : maxDnsMessageSize - body.length using Nat.strong_induction_on
    generalizing i now last body with
  | _ n ih =>
      rcases h.endsOrWaits (hno.now_le h) with ⟨t, r, -, hf⟩ |
        ⟨i', now', last', body', h', hnow, hwait, hle, hbody, hor⟩
      · exact ⟨t, r, hf⟩
      · rcases hor with rfl | hlonger
        · exact ⟨_, _, hno.finishes h' hwait⟩
        · have := h'.length_le
          exact ih (maxDnsMessageSize - body'.length) (by omega) h' rfl

theorem NoLateEmptyFrame.stalls {T : ℕ} (hT : L.Progress timeout peer T)
    (hmissing : ∀ τ, L.Delivers timeout peer τ → T < τ → T + timeout < τ) :
    L.Finishes timeout peer (T + timeout) L.stalled ∨
      ∃ t r, t ≤ T + timeout ∧ L.Finishes timeout peer t r ∧ r ≠ L.stalled := by
  rcases hT.reaches with ⟨r, hf, hr⟩ | ⟨i, body, h⟩
  · exact .inr ⟨T, r, Nat.le_add_right _ _, hf, hr⟩
  · rcases h.endsOrWaits (Nat.le_add_right T timeout) with ⟨t, r, ht, hf⟩ |
      ⟨i', now', last', body', h', hnow, hwait, hle, -, -⟩
    · by_cases hr : r = L.stalled
      · -- it stalls after the last payload, which is `T` or came later
        subst hr
        obtain ⟨T', hT', rfl, hlatest⟩ := hno.stalled hf
        have : T ≤ T' := by
          rcases hT with rfl | hd
          · exact Nat.zero_le _
          · exact hlatest T hd
        obtain rfl : T' = T := by omega
        exact .inl hf
      · exact .inr ⟨t, r, ht, hf, hr⟩
    · have hlast : last' = T := by
        have hlast' := h'.last_le
        rcases h'.progress with rfl | hd
        · omega
        · have := hmissing last' hd
          omega
      subst hlast
      exact .inl (hno.finishes h' hwait)

end

theorem Reaches.payloadFrames_le (h : L.Reaches timeout peer i now last body) :
    L.payloadFrames peer i ≤ body.length := by
  induction h with
  | start => exact le_rfl
  | @frame i now last t body frame h hnext ht hroom ih =>
      unfold payloadFrames at ih ⊢
      rw [List.range_succ, List.countP_append, List.countP_singleton, hnext, List.length_append]
      show _ + (if !(L.payload frame).isEmpty then 1 else 0) ≤ _
      by_cases hp : L.payload frame = []
      · rw [hp]
        exact ih
      · have := List.length_pos_iff.mpr hp
        split_ifs <;> omega

/-- Of all that is read, at most this much carries payload: every such frame but the last takes
up room. -/
theorem Reaches.bounded (h : L.Reaches timeout peer i now last body) :
    L.payloadFrames peer (i + 1) ≤ 65536 := by
  have hle := h.payloadFrames_le
  have hbody : body.length ≤ 65535 := h.length_le
  unfold payloadFrames at hle ⊢
  rw [List.range_succ, List.countP_append, List.countP_singleton]
  split_ifs <;> omega

/-- **When a loop does what its timeout is for.** -/
theorem stallsWithoutPayload_iff :
    L.StallsWithoutPayload timeout peer ↔ L.NoLateEmptyFrame timeout peer := by
  constructor
  · exact StallsWithoutPayload.noLateEmptyFrame
  · intro hno
    exact
      { stalls := fun T hT hmissing => hno.stalls hT hmissing
        stalled := fun t hf => hno.stalled hf
        terminates := hno.terminates .start
        bounded := fun _ _ _ _ h => h.bounded }

end FrameLoop

/-! ### The loops without their times -/

theorem collectLoop_run {operation collected : Bytes} {timeout fuel i now t : ℕ}
    {peer : BodyPeer Frame BodyStop} {r : Except BodyCollectionError Bytes}
    (h : (collectLoop operation).run timeout peer fuel i now collected = some (t, r)) :
    ∃ frames ending, r = collectBodyWithProgress operation ending collected frames := by
  induction fuel generalizing i now collected with
  | zero => cases h
  | succ fuel ih =>
      unfold FrameLoop.run at h
      split at h
      · cases h
        exact ⟨[], .stalled, rfl⟩
      · next stop _ =>
        cases h
        cases stop with
        | finished => exact ⟨[], .complete, rfl⟩
        | failed reason => exact ⟨[], .failed reason, rfl⟩
      · next frame _ =>
        cases frame with
        | trailers =>
            obtain ⟨frames, ending, rfl⟩ := ih h
            exact ⟨.trailers :: frames, ending, rfl⟩
        | data data =>
            have hadd : (collectLoop operation).add collected (.data data) =
              if maxDnsMessageSize - collected.length < data.length then none
              else some (collected ++ data) := rfl
            rw [hadd] at h
            by_cases hroom : maxDnsMessageSize - collected.length < data.length
            · rw [if_pos hroom] at h
              cases h
              refine ⟨[.data data], .complete, ?_⟩
              rw [collectBodyWithProgress, if_pos hroom]
              rfl
            · rw [if_neg hroom] at h
              obtain ⟨frames, ending, rfl⟩ := ih h
              refine ⟨.data data :: frames, ending, ?_⟩
              rw [collectBodyWithProgress, if_neg hroom]

theorem requestLoop_run {bodyData : Bytes} {timeout fuel i now t : ℕ}
    {peer : BodyPeer Buf RequestStop} {r : ReceivedBody}
    (h : requestLoop.run timeout peer fuel i now bodyData = some (t, some r)) :
    ∃ chunks ending, r = recvRequestBody ending bodyData chunks := by
  induction fuel generalizing i now bodyData with
  | zero => cases h
  | succ fuel ih =>
      unfold FrameLoop.run at h
      split at h
      · cases h
        exact ⟨[], .stalled, rfl⟩
      · next stop _ =>
        cases stop with
        | finished =>
            cases h
            exact ⟨[], .complete, rfl⟩
        | failed reason =>
            cases h
            exact ⟨[], .failed reason, rfl⟩
        | cancelled => cases h
      · next chunk _ =>
        have hadd : requestLoop.add bodyData chunk =
          if maxDnsMessageSize < bodyData.length + chunk.remaining then none
          else some (copyRemaining bodyData chunk) := rfl
        rw [hadd] at h
        by_cases hroom : maxDnsMessageSize < bodyData.length + chunk.remaining
        · rw [if_pos hroom] at h
          cases h
          exact ⟨[chunk], .complete, by rw [recvRequestBody_cons, if_pos hroom]⟩
        · rw [if_neg hroom] at h
          obtain ⟨chunks, ending, rfl⟩ := ih h
          exact ⟨chunk :: chunks, ending, by rw [recvRequestBody_cons, if_neg hroom]⟩

namespace FrameLoop

variable {φ σ ρ : Type} {L : FrameLoop φ σ ρ} {timeout : ℕ}
  {transport : BodyPeer φ σ → BodyPeer φ σ} {sent : BodyPeer φ σ} {i now last : ℕ} {body : Bytes}

/-- Payload has come with the last frame, or the end comes next. -/
theorem Reaches.last_or_stop (htransport : HandsOverPayload L.payload transport)
    (h : L.Reaches timeout (transport sent) i now last body) :
    now = last ∨ now ≤ last + timeout ∧ ∃ stop, (transport sent).next i = some (0, .stop stop) := by
  induction h with
  | start => exact .inl rfl
  | @frame i now last t body frame h hnext ht _ ih =>
      split_ifs with hp
      · obtain rfl : now = last := by
          refine ih.resolve_right ?_
          rintro ⟨-, stop, hstop⟩
          cases hnext.symm.trans hstop
        exact .inr ⟨Nat.add_le_add_left ht now, htransport sent i t frame hnext hp⟩
      · exact .inl rfl

/-- **No loop has to wait for payload that is handed over**, longer than for the timeout. -/
theorem noLateEmptyFrame_of_transport (htransport : HandsOverPayload L.payload transport)
    (sent : BodyPeer φ σ) : L.NoLateEmptyFrame timeout (transport sent) := by
  intro i now last body h
  rcases h.last_or_stop htransport with hlast | ⟨hle, stop, hstop⟩
  · exact .inl hlast
  · exact .inr ⟨0, .stop stop, hstop, hle⟩

end FrameLoop

/-- **The two body loops stall when payload is missing**, and end, whatever the peer sends. -/
theorem bodyLoops_stall (timeout : ℕ)
    {incoming : BodyPeer Frame BodyStop → BodyPeer Frame BodyStop}
    {recvData : BodyPeer Buf RequestStop → BodyPeer Buf RequestStop}
    (hincoming : HandsOverPayload Frame.bytes incoming)
    (hrecvData : HandsOverPayload List.flatten recvData) :
    (∀ operation sent, (collectLoop operation).StallsWithoutPayload timeout (incoming sent)) ∧
    ∀ sent, requestLoop.StallsWithoutPayload timeout (recvData sent) :=
  ⟨fun _ sent => FrameLoop.stallsWithoutPayload_iff.mpr
      (FrameLoop.noLateEmptyFrame_of_transport hincoming sent),
    fun sent => FrameLoop.stallsWithoutPayload_iff.mpr
      (FrameLoop.noLateEmptyFrame_of_transport hrecvData sent)⟩

/-- An empty frame every tick, for ever. -/
def emptyFrames {φ σ : Type} (empty : φ) : BodyPeer φ σ where
  next _ := some (1, .frame empty)
  diverges i := ⟨i, le_rfl, fun t r h => by cases h; exact Nat.one_pos⟩

/-- A transport for which an empty frame is the end of the body, as the empty chunk of HTTP/1.1 is,
and the empty DATA of an `h3` stream. -/
def endAtEmpty {φ σ : Type} (payload : φ → Bytes) (finished : σ) (sent : BodyPeer φ σ) :
    BodyPeer φ σ where
  next i :=
    match sent.next i with
    | some (t, .frame frame) =>
        some (t, if payload frame = [] then .stop finished else .frame frame)
    | item => item
  diverges i := by
    obtain ⟨j, hj, hpos⟩ := sent.diverges i
    refine ⟨j, hj, fun t r h => ?_⟩
    split at h
    · next hnext =>
      cases h
      exact hpos _ _ hnext
    · exact hpos t r h

theorem handsOverPayload_endAtEmpty {φ σ : Type} (payload : φ → Bytes) (finished : σ) :
    HandsOverPayload payload (endAtEmpty payload finished) := by
  intro sent i t frame h hp
  simp only [endAtEmpty] at h
  split at h
  · next frame' _ =>
    split_ifs at h with hp'
    · cases h
    · cases h
      exact absurd hp hp'
  · next hno => exact absurd h (hno t frame)

/-- A peer that sends empty frames for ever. -/
theorem bodyLoops_stall_emptyFrames :
    (collectLoop (utf8 "DoH request body")).StallsWithoutPayload 10
        (endAtEmpty Frame.bytes .finished (emptyFrames (.data []))) ∧
      (collectLoop (utf8 "DoH request body")).Finishes 10
        (endAtEmpty Frame.bytes .finished (emptyFrames (.data []))) 1 (.ok []) ∧
      requestLoop.StallsWithoutPayload 10 (endAtEmpty List.flatten .finished (emptyFrames [])) := by
  have h := bodyLoops_stall 10 (handsOverPayload_endAtEmpty Frame.bytes .finished)
    (handsOverPayload_endAtEmpty List.flatten .finished)
  exact ⟨h.1 _ _, ⟨1, rfl⟩, h.2 _⟩

end DnsIngress
