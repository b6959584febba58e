import DnsIngress.Relay
import DnsIngress.Transition
import Mathlib.Data.List.Basic

/-! # What the two halves of a relay pass on

`Relay` has the times of a `relay_direction` loop; here are its bytes.  `Half` is one loop with
the peer it reads from and the writer it feeds, and `Halves` is the session: a step is a step of
either half, so a run is any interleaving of the two loops, of what the peers send and of what the
writers deliver.

* The writer may keep bytes that it has accepted (`buffered`); it delivers them when it likes, and
  all of them before its end reaches the peer.
* `try_join!` returns at the first failure: no loop takes a step after it.
* `relay_transparent` is the result; `Half.finishes` says that a half that has finished returns
  what `relayDirection` returns. -/

namespace DnsIngress.Relay

/-- Where a loop is. -/
inductive Pc
  /-- at `reader.read(&mut buffer)` -/
  | reading
  /-- in `write_all(&buffer[..read])`, with these bytes left to write -/
  | writing (read : ℕ) (rest : Bytes)
  /-- in `writer.shutdown()` -/
  | shuttingDown
  | returned
deriving DecidableEq

/-- The bytes in the loop's buffer that are not written yet. -/
def Pc.rest : Pc → Bytes
  | .writing _ rest => rest
  | _ => []

/-- The bytes read that `total` does not count yet. -/
def Pc.uncounted : Pc → ℕ
  | .writing read _ => read
  | _ => 0

/-- The loop has read the end of the stream. -/
def Pc.pastEof : Pc → Bool
  | .shuttingDown | .returned => true
  | _ => false

/-- One `relay_direction`, the peer it reads from and the writer. -/
structure Half where
  /-- the stream of the peer, as far as it is sent -/
  sent : Bytes := []
  /-- the peer has ended its stream -/
  closed : Bool := false
  /-- sent and not read yet -/
  unread : Bytes := []
  pc : Pc := .reading
  failed : Option DnsProxyError := none
  /-- what each read returned -/
  reads : List Bytes := []
  total : UInt64 := 0
  /-- accepted by the writer and not delivered yet -/
  buffered : Bytes := []
  /-- delivered to the other peer -/
  delivered : Bytes := []
  /-- the calls of `writer.shutdown()` -/
  shutdowns : ℕ := 0
  /-- the end of the stream has reached the other peer -/
  ended : Bool := false
deriving DecidableEq

/-- What happens at one half. -/
inductive Event
  /-- the peer sends bytes, or ends its stream -/
  | send (bytes : Bytes)
  | close
  /-- the writer delivers bytes, or the end of the stream -/
  | deliver (n : ℕ)
  | finish
  /-- the loop reads `n` bytes, or the end of the stream -/
  | read (n : ℕ)
  | eof
  /-- the writer accepts `n` bytes of the buffer -/
  | write (n : ℕ)
  /-- `writer.shutdown()` completes -/
  | shutdown
  /-- the operation the loop is in fails, or is slow -/
  | fail (error : Option Bytes)

/-- Whether this is a step of the loop. -/
def Event.ofLoop : Event → Bool
  | .send _ | .close | .deliver _ | .finish => false
  | _ => true

namespace Half

/-- What the loop returns. -/
def result (h : Half) : Option (Except DnsProxyError UInt64) :=
  match h.failed with
  | some e => some (.error e)
  | none => if h.pc = .returned then some (.ok h.total) else none

/-- `write_all` goes on with what is left, or has written the whole buffer. -/
def wrote (h : Half) (read : ℕ) (rest : Bytes) : Half :=
  if rest = [] then { h with pc := .reading, total := h.total + .ofNat read }
  else { h with pc := .writing read rest }

/-- A step of the loop. -/
def loopStep (upstream : Bytes) (h : Half) : Event → Option Half
  | .read n =>
      if h.pc = .reading ∧ 0 < n ∧ n ≤ 16 * 1024 ∧ n ≤ h.unread.length then
        some { h with
          unread := h.unread.drop n
          reads := h.reads ++ [h.unread.take n]
          pc := .writing n (h.unread.take n) }
      else none
  | .eof =>
      if h.pc = .reading ∧ h.closed = true ∧ h.unread = [] then
        some { h with shutdowns := h.shutdowns + 1, pc := .shuttingDown }
      else none
  | .write n =>
      match h.pc with
      | .writing read rest =>
          if 0 < n ∧ n ≤ rest.length then
            some ({ h with buffered := h.buffered ++ rest.take n }.wrote read (rest.drop n))
          else none
      | _ => none
  | .shutdown =>
      if h.pc = .shuttingDown ∧ h.ended = true then some { h with pc := .returned } else none
  | .fail error =>
      if h.pc = .returned then none
      else some { h with failed := some (error.elim (.timeout upstream) .io) }
  | _ => none

def step (upstream : Bytes) (h : Half) : Event → Option Half
  | .send bytes =>
      if h.closed = true then none
      else some { h with sent := h.sent ++ bytes, unread := h.unread ++ bytes }
  | .close => some { h with closed := true }
  | .deliver n =>
      if n ≤ h.buffered.length then
        some { h with
          delivered := h.delivered ++ h.buffered.take n
          buffered := h.buffered.drop n }
      else none
  | .finish =>
      if h.pc = .shuttingDown ∧ h.buffered = [] then some { h with ended := true } else none
  | event => if h.failed = none then h.loopStep upstream event else none

/-- Events of one half, one after the other. -/
def run (upstream : Bytes) (h : Half) : List Event → Option Half
  | [] => some h
  | e :: es => (h.step upstream e).bind fun h' => h'.run upstream es

end Half

/-- A session. -/
structure Halves where
  client : Half := {}
  upstream : Half := {}
deriving DecidableEq

namespace Halves

def half (s : Halves) : Side → Half
  | .client => s.client
  | .upstream => s.upstream

def set (s : Halves) : Side → Half → Halves
  | .client, h => { s with client := h }
  | .upstream, h => { s with upstream := h }

/-- A loop has failed, so `try_join!` has returned. -/
def Failed (s : Halves) : Prop := s.client.failed ≠ none ∨ s.upstream.failed ≠ none

instance (s : Halves) : Decidable s.Failed := inferInstanceAs (Decidable (_ ∨ _))

def step (upstream : Bytes) (s : Halves) : Side × Event → Option Halves
  | (x, event) =>
      if event.ofLoop = true ∧ s.Failed then none
      else ((s.half x).step upstream event).map (s.set x)

/-- What `try_join!` returns. -/
def joined (s : Halves) : Option (Except DnsProxyError (UInt64 × UInt64)) :=
  match s.client.result, s.upstream.result with
  | some (.error e), _ => some (.error e)
  | _, some (.error e) => some (.error e)
  | some (.ok clientToUpstream), some (.ok upstreamToClient) =>
      some (.ok (clientToUpstream, upstreamToClient))
  | _, _ => none

end Halves

/-- A session, from the time the two streams are split. -/
def relay (upstream : Bytes) : Transition.System Halves (Side × Event) where
  init s := s = {}
  step := Halves.step upstream

/-! ### One half -/

namespace Half

/-- What every step of a half keeps. -/
structure Inv (h : Half) : Prop where
  sent : h.reads.flatten ++ h.unread = h.sent
  passed : h.delivered ++ h.buffered ++ h.pc.rest = h.reads.flatten
  count : h.total + .ofNat h.pc.uncounted = .ofNat h.reads.flatten.length
  chunk : ∀ c ∈ h.reads, 0 < c.length ∧ c.length ≤ 16 * 1024
  eof : h.pc.pastEof = true → h.closed = true ∧ h.unread = []
  shutdowns : h.shutdowns = if h.pc.pastEof then 1 else 0
  ended : h.ended = true → h.pc.pastEof = true ∧ h.buffered = []
  returned : h.pc = .returned → h.ended = true ∧ h.failed = none

variable {upstream : Bytes} {h h' : Half} {e : Event} {n : ℕ}

theorem inv_default : Inv {} := by
  constructor <;> simp [Pc.rest, Pc.uncounted, Pc.pastEof]

/-- The end does not reach the other peer before the loop has read it. -/
theorem Inv.not_ended (hi : h.Inv) (hpc : h.pc.pastEof = false) : ¬ h.ended = true := by
  intro hb
  have he := (hi.ended hb).1
  rw [hpc] at he
  cases he

theorem Inv.read (hi : h.Inv) (hpc : h.pc = .reading) (h0 : 0 < n) (hn : n ≤ 16 * 1024)
    (hle : n ≤ h.unread.length) :
    Inv { h with
      unread := h.unread.drop n
      reads := h.reads ++ [h.unread.take n]
      pc := .writing n (h.unread.take n) } where
  sent := by
    rw [List.flatten_append, List.flatten_singleton, List.append_assoc, List.take_append_drop]
    exact hi.sent
  passed := by
    have hp := hi.passed
    rw [hpc, show Pc.rest .reading = [] from rfl, List.append_nil] at hp
    show h.delivered ++ h.buffered ++ h.unread.take n = _
    rw [hp, List.flatten_append, List.flatten_singleton]
  count := by
    have hc := hi.count
    rw [hpc, show UInt64.ofNat (Pc.uncounted .reading) = 0 from rfl, UInt64.add_zero] at hc
    show h.total + .ofNat n = _
    rw [hc, List.flatten_append, List.flatten_singleton, List.length_append, List.length_take,
      Nat.min_eq_left hle, UInt64.ofNat_add]
  chunk := by
    intro c hc
    rcases List.mem_append.mp hc with hc | hc
    · exact hi.chunk c hc
    · rw [List.mem_singleton.mp hc, List.length_take]
      omega
  eof := by simp [Pc.pastEof]
  shutdowns := by
    have hs := hi.shutdowns
    rw [hpc] at hs
    exact hs
  ended hb := absurd hb (hi.not_ended (by rw [hpc]; rfl))
  returned := by simp

theorem Inv.wrote {read : ℕ} {rest : Bytes} (hi : h.Inv) (hpc : h.pc = .writing read rest) :
    Inv ({ h with buffered := h.buffered ++ rest.take n }.wrote read (rest.drop n)) := by
  have hnot : h.pc.pastEof = false := by rw [hpc]; rfl
  have hp : h.delivered ++ (h.buffered ++ rest.take n) ++ rest.drop n = h.reads.flatten := by
    rw [List.append_assoc, List.append_assoc, List.take_append_drop, ← List.append_assoc,
      ← hi.passed, hpc]
    rfl
  have hc := hi.count
  have hs := hi.shutdowns
  have he := hi.not_ended hnot
  rw [hpc, show Pc.uncounted (.writing read rest) = read from rfl] at hc
  rw [hnot] at hs
  unfold Half.wrote
  split
  · next hrest =>
    rw [hrest] at hp
    exact
      { sent := hi.sent
        passed := hp
        count := (UInt64.add_zero _).trans hc
        chunk := hi.chunk
        eof := by simp [Pc.pastEof]
        shutdowns := hs
        ended := by simp [he]
        returned := by simp }
  · exact
      { sent := hi.sent
        passed := hp
        count := hc
        chunk := hi.chunk
        eof := by simp [Pc.pastEof]
        shutdowns := hs
        ended := by simp [he]
        returned := by simp }

theorem Inv.endOfStream (hi : h.Inv) (hpc : h.pc = .reading) (hclosed : h.closed = true)
    (hunread : h.unread = []) :
    Inv { h with shutdowns := h.shutdowns + 1, pc := .shuttingDown } := by
  have hp := hi.passed
  have hc := hi.count
  have hs := hi.shutdowns
  have he := hi.not_ended (by rw [hpc]; rfl)
  rw [hpc] at hp hc hs
  exact
    { sent := hi.sent
      passed := hp
      count := hc
      chunk := hi.chunk
      eof := fun _ => ⟨hclosed, hunread⟩
      shutdowns := by
        show h.shutdowns + 1 = 1
        rw [hs]
        rfl
      ended := fun hb => absurd hb he
      returned := by simp }

theorem Inv.shutdown (hi : h.Inv) (hpc : h.pc = .shuttingDown) (hended : h.ended = true)
    (hf : h.failed = none) : Inv { h with pc := .returned } := by
  have hp := hi.passed
  have hc := hi.count
  have hs := hi.shutdowns
  have heof := hi.eof
  rw [hpc] at hp hc hs heof
  exact
    { sent := hi.sent
      passed := hp
      count := hc
      chunk := hi.chunk
      eof := heof
      shutdowns := hs
      ended := fun hb => ⟨rfl, (hi.ended hb).2⟩
      returned := fun _ => ⟨hended, hf⟩ }

theorem Inv.loopStep (hi : h.Inv) (hf : h.failed = none)
    (hs : h.loopStep upstream e = some h') : h'.Inv := by
  unfold Half.loopStep at hs
  split at hs
  · -- a read
    split_ifs at hs with hg
    obtain ⟨hpc, h0, hn, hle⟩ := hg
    cases hs
    exact hi.read hpc h0 hn hle
  · -- the end of the stream
    split_ifs at hs with hg
    obtain ⟨hpc, hclosed, hunread⟩ := hg
    cases hs
    exact hi.endOfStream hpc hclosed hunread
  · -- a write
    split at hs
    · next read rest hpc =>
      split_ifs at hs with hg
      cases hs
      exact hi.wrote hpc
    · cases hs
  · -- the shutdown
    split_ifs at hs with hg
    obtain ⟨hpc, hended⟩ := hg
    cases hs
    exact hi.shutdown hpc hended hf
  · -- a failure
    split_ifs at hs with hg
    cases hs
    exact { hi with returned := fun hpc => absurd hpc hg }
  · cases hs

theorem Inv.step (hi : h.Inv) (hs : h.step upstream e = some h') : h'.Inv := by
  unfold Half.step at hs
  split at hs
  · next bytes =>
    split_ifs at hs with hclosed
    cases hs
    exact
      { hi with
        sent := by rw [← List.append_assoc, hi.sent]
        eof := fun hpc => absurd (hi.eof hpc).1 hclosed }
  · cases hs
    exact { hi with eof := fun hpc => ⟨rfl, (hi.eof hpc).2⟩ }
  · next n =>
    split_ifs at hs with hn
    cases hs
    exact
      { hi with
        passed := by
          rw [List.append_assoc h.delivered, List.take_append_drop]
          exact hi.passed
        ended := fun hb => by
          refine ⟨(hi.ended hb).1, ?_⟩
          rw [(hi.ended hb).2]
          exact List.drop_nil }
  · split_ifs at hs with hg
    obtain ⟨hpc, hbuf⟩ := hg
    cases hs
    exact
      { hi with
        ended := fun _ => ⟨by rw [hpc]; rfl, hbuf⟩
        returned := fun hr => by
          rw [hpc] at hr
          cases hr }
  · split_ifs at hs with hf
    exact hi.loopStep hf hs

/-- What a half has read is accepted by its writer, or it is still writing. -/
theorem Inv.accepted (hi : h.Inv) (hpc : h.pc.pastEof = true) :
    h.delivered ++ h.buffered = h.sent := by
  have hp := hi.passed
  have hrest : h.pc.rest = [] := by
    cases hc : h.pc with
    | writing read rest => rw [hc] at hpc; cases hpc
    | _ => rfl
  rw [hrest, List.append_nil] at hp
  rw [hp, ← hi.sent, (hi.eof hpc).2, List.append_nil]

theorem Inv.delivered_le (hi : h.Inv) : h.delivered <+: h.sent :=
  ⟨h.buffered ++ h.pc.rest ++ h.unread, by
    rw [← hi.sent, ← hi.passed]
    simp only [List.append_assoc]⟩

theorem Inv.total_of_returned (hi : h.Inv) (hpc : h.pc = .returned) :
    h.total = .ofNat h.reads.flatten.length := by
  have hc := hi.count
  rw [hpc, show UInt64.ofNat (Pc.uncounted .returned) = 0 from rfl, UInt64.add_zero] at hc
  exact hc

theorem result_ok {total : UInt64} (hr : h.result = some (.ok total)) :
    h.failed = none ∧ h.pc = .returned ∧ total = h.total := by
  unfold result at hr
  split at hr
  · cases hr
  · next hf =>
    split_ifs at hr with hpc
    cases hr
    exact ⟨hf, hpc, rfl⟩

theorem step_ofLoop (ho : e.ofLoop = true) :
    h.step upstream e = if h.failed = none then h.loopStep upstream e else none := by
  cases e with
  | send bytes => cases ho
  | close => cases ho
  | deliver n => cases ho
  | finish => cases ho
  | _ => rfl

theorem not_failed_of_step (ho : e.ofLoop = true) (hs : h.step upstream e = some h') :
    h.failed = none := by
  rw [step_ofLoop ho] at hs
  split_ifs at hs with hf
  exact hf

/-- The whole stream has reached the other peer, and then its end, after one shutdown. -/
structure Complete (h : Half) : Prop where
  closed : h.closed = true
  delivered : h.delivered = h.sent
  shutdowns : h.shutdowns = 1
  ended : h.ended = true

theorem Inv.delivered_of_ended (hi : h.Inv) (he : h.ended = true) : h.delivered = h.sent := by
  have ha := hi.accepted (hi.ended he).1
  rwa [(hi.ended he).2, List.append_nil] at ha

theorem Inv.complete {total : UInt64} (hi : h.Inv) (hr : h.result = some (.ok total)) :
    h.Complete ∧ total = .ofNat h.sent.length := by
  obtain ⟨-, hpc, rfl⟩ := result_ok hr
  have heof : h.pc.pastEof = true := by rw [hpc]; rfl
  have hended := (hi.returned hpc).1
  have hs := hi.shutdowns
  rw [if_pos heof] at hs
  refine ⟨⟨(hi.eof heof).1, hi.delivered_of_ended hended, hs, hended⟩, ?_⟩
  rw [hi.total_of_returned hpc, ← hi.sent, (hi.eof heof).2, List.append_nil]

end Half

/-! ### The session -/

namespace Halves

variable {upstream : Bytes} {s s' : Halves} {x : Side} {e : Event} {h h' : Half}

@[simp] theorem half_set (s : Halves) (x : Side) (h : Half) : (s.set x h).half x = h := by
  cases x <;> rfl

@[simp] theorem half_set_other (s : Halves) (x : Side) (h : Half) :
    (s.set x h).half x.other = s.half x.other := by
  cases x <;> rfl

@[simp] theorem half_other_set (s : Halves) (x : Side) (h : Half) :
    (s.set x.other h).half x = s.half x := by
  cases x <;> rfl

theorem set_half (s : Halves) (x : Side) : s.set x (s.half x) = s := by
  cases x <;> rfl

theorem set_set (s : Halves) (x : Side) (h h' : Half) : (s.set x h).set x h' = s.set x h' := by
  cases x <;> rfl

theorem failed_iff (s : Halves) (x : Side) :
    s.Failed ↔ (s.half x).failed ≠ none ∨ (s.half x.other).failed ≠ none := by
  cases x
  · exact Iff.rfl
  · exact or_comm

/-- A step of a session is a step of one half, and leaves the other alone. -/
theorem step_cases (hs : s.step upstream (x, e) = some s') :
    ∃ h', (s.half x).step upstream e = some h' ∧ s' = s.set x h' := by
  rw [step] at hs
  split_ifs at hs
  obtain ⟨h', hh, rfl⟩ := Option.map_eq_some_iff.mp hs
  exact ⟨h', hh, rfl⟩

theorem step_half (hx : (s.half x).failed = none)
    (hs : (s.half x.other).step upstream e = some h') :
    s.step upstream (x.other, e) = some (s.set x.other h') := by
  have hgo : ¬ (e.ofLoop = true ∧ s.Failed) := by
    rintro ⟨ho, hf⟩
    rcases (s.failed_iff x).mp hf with hf | hf
    · exact hf hx
    · exact hf (Half.not_failed_of_step ho hs)
  rw [step, if_neg hgo, hs]
  rfl

theorem run_half {es : List Event} (hx : (s.half x).failed = none)
    (hs : (s.half x.other).run upstream es = some h') :
    Transition.run (relay upstream) s (es.map fun e => (x.other, e)) =
      some (s.set x.other h') := by
  induction es generalizing s with
  | nil =>
      cases hs
      rw [set_half]
      rfl
  | cons e es ih =>
      obtain ⟨h₁, h₁s, hrun⟩ := Option.bind_eq_some_iff.mp hs
      have hstep : (relay upstream).step s (x.other, e) = _ := step_half hx h₁s
      have hx₁ : ((s.set x.other h₁).half x).failed = none := by rwa [half_other_set]
      have hrun₁ : ((s.set x.other h₁).half x.other).run upstream es = some h' := by
        rwa [half_set]
      rw [List.map_cons, Transition.run_cons hstep, ih hx₁ hrun₁, set_set]

theorem joined_ok {a b : UInt64} (hj : s.joined = some (.ok (a, b))) :
    s.client.result = some (.ok a) ∧ s.upstream.result = some (.ok b) := by
  unfold joined at hj
  split at hj
  · cases hj
  · cases hj
  · next hc hu =>
    cases hj
    exact ⟨hc, hu⟩
  · cases hj

theorem inv_of_reachable (h : Transition.Reachable (relay upstream) s) :
    ∀ x, (s.half x).Inv := by
  refine h.invariant (I := fun s => ∀ x, (s.half x).Inv) ?_ ?_
  · rintro s rfl x
    cases x <;> exact Half.inv_default
  · rintro s ⟨x, e⟩ s' hi - hs y
    obtain ⟨h', hh, rfl⟩ := step_cases hs
    have hx : ((s.set x h').half x).Inv := by
      rw [half_set]
      exact (hi x).step hh
    have hother : ((s.set x h').half x.other).Inv := by
      rw [half_set_other]
      exact hi x.other
    cases x <;> cases y <;> assumption

/-- **The relay is transparent**, in every interleaving of its two halves. -/
theorem relay_transparent (hr : Transition.Reachable (relay upstream) s) :
    (∀ x, (s.half x).delivered <+: (s.half x).sent) ∧
    (∀ x, 0 < (s.half x).shutdowns → (s.half x).closed = true ∧
      (s.half x).reads.flatten = (s.half x).sent ∧
      (s.half x).delivered ++ (s.half x).buffered = (s.half x).reads.flatten) ∧
    (∀ x, (s.half x).ended = true → (s.half x).delivered = (s.half x).sent) ∧
    (∀ x e s', s.step upstream (x, e) = some s' → s'.half x.other = s.half x.other) ∧
    (∀ x es h', (s.half x).failed = none → (s.half x.other).run upstream es = some h' →
      Transition.run (relay upstream) s (es.map fun e => (x.other, e)) =
        some (s.set x.other h')) ∧
    (∀ a b, s.joined = some (.ok (a, b)) → (∀ x, (s.half x).Complete) ∧
      a = .ofNat s.client.sent.length ∧ b = .ofNat s.upstream.sent.length) := by
  have hi := inv_of_reachable hr
  refine ⟨fun x => (hi x).delivered_le, fun x hpos => ?_, fun x => (hi x).delivered_of_ended,
    fun x e s' hs => ?_, fun x es h' hx hs => run_half hx hs, fun a b hj => ?_⟩
  · have hpc : (s.half x).pc.pastEof = true := by
      by_contra hno
      have := (hi x).shutdowns
      rw [if_neg hno] at this
      omega
    have heof := (hi x).eof hpc
    have hread : (s.half x).reads.flatten = (s.half x).sent := by
      rw [← (hi x).sent, heof.2, List.append_nil]
    exact ⟨heof.1, hread, by rw [(hi x).accepted hpc, hread]⟩
  · obtain ⟨h', -, rfl⟩ := step_cases hs
    exact half_set_other s x h'
  · obtain ⟨ha, hb⟩ := joined_ok hj
    have hclient := (hi .client).complete ha
    have hupstream := (hi .upstream).complete hb
    refine ⟨fun x => ?_, hclient.2, hupstream.2⟩
    cases x
    · exact hclient.1
    · exact hupstream.1

/-- The client ends its stream first; the transfer goes on, in two reads and three writes. -/
def halfClosed : List (Side × Event) :=
  [(.client, .send (utf8 "axfr")), (.client, .read 4), (.upstream, .send (utf8 "dns-")),
    (.client, .close), (.client, .write 4), (.upstream, .read 4), (.client, .eof),
    (.client, .deliver 4), (.upstream, .write 1), (.client, .finish), (.upstream, .write 3),
    (.client, .shutdown), (.upstream, .send (utf8 "transfer")), (.upstream, .close),
    (.upstream, .read 8), (.upstream, .deliver 2), (.upstream, .write 8), (.upstream, .eof),
    (.upstream, .deliver 10), (.upstream, .finish), (.upstream, .shutdown)]

def transferred : Halves where
  client :=
    { sent := utf8 "axfr", closed := true, pc := .returned, reads := [utf8 "axfr"], total := 4,
      delivered := utf8 "axfr", shutdowns := 1, ended := true }
  upstream :=
    { sent := utf8 "dns-transfer", closed := true, pc := .returned,
      reads := [utf8 "dns-", utf8 "transfer"], total := 12, delivered := utf8 "dns-transfer",
      shutdowns := 1, ended := true }

theorem run_halfClosed :
    Transition.run (relay (utf8 "upstream.test:853")) {} halfClosed = some transferred := by
  decide

theorem relay_transparent_halfClosed :
    Transition.run (relay (utf8 "upstream.test:853")) {} halfClosed = some transferred ∧
      transferred.joined = some (.ok (4, 12)) ∧ ∀ x, (transferred.half x).Complete :=
  have hr : Transition.Reachable (relay (utf8 "upstream.test:853")) transferred :=
    .of_run halfClosed rfl run_halfClosed
  ⟨run_halfClosed, by decide, ((relay_transparent hr).2.2.2.2.2 4 12 (by decide)).1⟩

end Halves

/-! ### The loop of `Relay` -/

/-- A timed half with these reads and then the end of the stream; every operation is in time. -/
structure Direction.Follows (idle : ℕ) (d : Direction) (reads : List Bytes) : Prop where
  read : ∀ i ≤ reads.length, ∃ t ≤ idle, d.read i = some (t, .ok (reads.getD i []))
  write : ∀ i < reads.length, ∃ t ≤ idle, d.write i = some (t, .ok ())
  shutdown : ∃ t ≤ idle, d.shutdown = some (t, .ok ())

variable {idle : ℕ} {upstream : Bytes} {d : Direction} {reads : List Bytes}

theorem relayDirection_follows (hd : d.Follows idle reads) (hc : ∀ c ∈ reads, 0 < c.length)
    {k i : ℕ} (hi : i + k = reads.length) (now total : ℕ) :
    ∃ t, relayDirection idle upstream d (k + 1) i now total =
      some (t, .ok (total + (reads.drop i).flatten.length)) := by
  induction k generalizing i now total with
  | zero =>
      obtain ⟨t, ht, hread⟩ := hd.read i (by omega)
      obtain ⟨t', ht', hshut⟩ := hd.shutdown
      have hnil : reads.getD i [] = [] := by
        rw [List.getD_eq_getElem?_getD, List.getElem?_eq_none (by omega), Option.getD_none]
      have hr : awaitOp idle upstream (d.read i) = _ := awaitOp_ok.mpr ⟨hread, ht⟩
      have hs : awaitOp idle upstream d.shutdown = _ := awaitOp_ok.mpr ⟨hshut, ht'⟩
      have hdrop : reads.drop i = [] := List.drop_eq_nil_of_le (by omega)
      rw [hnil] at hr
      refine ⟨now + t + t', ?_⟩
      rw [relayDirection, hr]
      dsimp only
      rw [hs, hdrop]
      rfl
  | succ k ih =>
      have hlt : i < reads.length := by omega
      obtain ⟨t, ht, hread⟩ := hd.read i hlt.le
      obtain ⟨t', ht', hwrite⟩ := hd.write i hlt
      have hget : reads.getD i [] = reads[i] := (List.getElem_eq_getD []).symm
      have hr : awaitOp idle upstream (d.read i) = _ := awaitOp_ok.mpr ⟨hread, ht⟩
      have hw : awaitOp idle upstream (d.write i) = _ := awaitOp_ok.mpr ⟨hwrite, ht'⟩
      have hpos := hc reads[i] (List.getElem_mem hlt)
      obtain ⟨b, bytes, hb⟩ := List.exists_cons_of_length_pos hpos
      obtain ⟨t'', hrun⟩ :=
        ih (by omega : i + 1 + k = reads.length) (now + t + t') (total + reads[i].length)
      rw [hget, hb] at hr
      refine ⟨t'', ?_⟩
      rw [relayDirection, hr]
      dsimp only
      rw [hw]
      dsimp only
      rw [← hb, hrun, List.drop_eq_getElem_cons hlt, List.flatten_cons, List.length_append,
        Nat.add_assoc]

/-- **A half that has returned is a loop of `Relay` that returns the same count.** -/
theorem Half.finishes {h : Half} {total : UInt64} (hi : h.Inv)
    (hr : h.result = some (.ok total)) (hd : d.Follows idle h.reads) :
    ∃ t n, Finishes idle upstream d t (.ok n) ∧ total = .ofNat n := by
  have hruns : ∃ t, relayDirection idle upstream d (h.reads.length + 1) 0 0 0 = _ :=
    relayDirection_follows hd (fun c hc => (hi.chunk c hc).1) (Nat.zero_add _) 0 0
  obtain ⟨t, hrun⟩ := hruns
  obtain ⟨-, hpc, rfl⟩ := result_ok hr
  rw [Nat.zero_add, List.drop_zero] at hrun
  exact ⟨t, h.reads.flatten.length, ⟨_, hrun⟩, hi.total_of_returned hpc⟩

end DnsIngress.Relay
