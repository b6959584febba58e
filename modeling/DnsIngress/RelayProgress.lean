import DnsIngress.Progress
import DnsIngress.RelayTransparency
import Mathlib.Tactic.Common

/-! # A relay makes progress

The loops of `relay_direction` never spin and never block each other:

* `operations_le`: in every run the two loops take at most two operations for each byte the
  peers have sent, and two more for the end of each stream; a loop holds at most its buffer.
* `relay_finishes`: once both peers have ended their streams, `try_join!` returns, in every
  execution in which no operation that can complete waits for ever.  No timeout is needed for
  this; `Busy` leaves the failures out. -/

namespace DnsIngress.Relay

/-- The operations of a loop that follow its last write. -/
def Pc.left : Pc → ℕ
  | .reading | .writing _ _ => 2
  | .shuttingDown => 1
  | .returned => 0

namespace Half

variable {upstream : Bytes} {h h' : Half} {e : Event}

/-- The cases of `step`. -/
inductive Move (upstream : Bytes) (h : Half) : Event → Half → Prop
  | sent {bytes} : h.closed = false →
      Move upstream h (.send bytes)
        { h with sent := h.sent ++ bytes, unread := h.unread ++ bytes }
  | closed : Move upstream h .close { h with closed := true }
  | delivered {n} : n ≤ h.buffered.length →
      Move upstream h (.deliver n)
        { h with delivered := h.delivered ++ h.buffered.take n, buffered := h.buffered.drop n }
  | finished : h.pc = .shuttingDown → h.buffered = [] →
      Move upstream h .finish { h with ended := true }
  | read {n} : h.failed = none → h.pc = .reading → 0 < n → n ≤ 16 * 1024 → n ≤ h.unread.length →
      Move upstream h (.read n)
        { h with
          unread := h.unread.drop n
          reads := h.reads ++ [h.unread.take n]
          pc := .writing n (h.unread.take n) }
  | eof : h.failed = none → h.pc = .reading → h.closed = true → h.unread = [] →
      Move upstream h .eof { h with shutdowns := h.shutdowns + 1, pc := .shuttingDown }
  | wrote {n read rest} : h.failed = none → h.pc = .writing read rest → 0 < n → n ≤ rest.length →
      Move upstream h (.write n)
        ({ h with buffered := h.buffered ++ rest.take n }.wrote read (rest.drop n))
  | returned : h.failed = none → h.pc = .shuttingDown → h.ended = true →
      Move upstream h .shutdown { h with pc := .returned }
  | failed {error} : h.failed = none → h.pc ≠ .returned →
      Move upstream h (.fail error)
        { h with failed := some (error.elim (.timeout upstream) .io) }

theorem move_of_loopStep (hf : h.failed = none) (hs : h.loopStep upstream e = some h') :
    Move upstream h e h' := by
  unfold Half.loopStep at hs
  split at hs
  · split_ifs at hs with hg
    cases hs
    exact .read hf hg.1 hg.2.1 hg.2.2.1 hg.2.2.2
  · split_ifs at hs with hg
    cases hs
    exact .eof hf hg.1 hg.2.1 hg.2.2
  · split at hs
    · next read rest hpc =>
      split_ifs at hs with hg
      cases hs
      exact .wrote hf hpc hg.1 hg.2
    · cases hs
  · split_ifs at hs with hg
    cases hs
    exact .returned hf hg.1 hg.2
  · split_ifs at hs with hg
    cases hs
    exact .failed hf hg
  · cases hs

/-- **Every step is one of these.** -/
theorem move_of_step (hs : h.step upstream e = some h') : Move upstream h e h' := by
  unfold Half.step at hs
  split at hs
  · split_ifs at hs with hc
    cases hs
    exact .sent (by simpa using hc)
  · cases hs
    exact .closed
  · split_ifs at hs with hn
    cases hs
    exact .delivered hn
  · split_ifs at hs with hg
    cases hs
    exact .finished hg.1 hg.2
  · split_ifs at hs with hf
    exact move_of_loopStep hf hs

/-! ### How much a loop has left to do -/

/-- At most this many operations: a read and a write for each unread byte, a write for each byte
of the buffer, then the end of the stream and the shutdown. -/
def operations (h : Half) : ℕ :=
  if h.failed = none then 2 * h.unread.length + h.pc.rest.length + h.pc.left else 0

/-- The same with what the writer has left to do. -/
def pending (h : Half) : ℕ :=
  3 * h.unread.length + 2 * h.pc.rest.length + h.buffered.length + h.pc.left +
    (if h.ended then 0 else 1) + if h.failed = none then 1 else 0

/-- `write_all` holds some bytes of the buffer as long as it is not done. -/
def Filled (h : Half) : Prop :=
  ∀ read rest, h.pc = .writing read rest → rest ≠ [] ∧ rest.length ≤ 16 * 1024

theorem filled_wrote {read : ℕ} {rest : Bytes} (hle : rest.length ≤ 16 * 1024) :
    (h.wrote read rest).Filled := by
  unfold Half.wrote
  split
  · intro _ _ hpc
    cases hpc
  · next hne =>
    rintro _ _ ⟨⟩
    exact ⟨hne, hle⟩

theorem Filled.step (hi : h.Filled) (hs : h.step upstream e = some h') : h'.Filled := by
  cases move_of_step hs with
  | sent | closed | delivered | finished | failed => exact hi
  | eof | returned =>
      intro _ _ hpc
      cases hpc
  | @read n _ _ h0 hn hle =>
      rintro _ _ ⟨⟩
      have hlen : (h.unread.take n).length = n := List.length_take_of_le hle
      refine ⟨fun hnil => ?_, by omega⟩
      rw [hnil, List.length_nil] at hlen
      omega
  | @wrote n read rest _ hpc h0 hle =>
      apply filled_wrote
      rw [List.length_drop]
      have := (hi _ _ hpc).2
      omega

theorem Filled.rest_le (hi : h.Filled) : h.pc.rest.length ≤ 16 * 1024 := by
  cases hpc : h.pc with
  | writing read rest => exact (hi read rest hpc).2
  | _ => simp [Pc.rest]

theorem left_wrote (h : Half) (read : ℕ) (rest : Bytes) :
    (h.wrote read rest).operations =
        (if h.failed = none then 2 * h.unread.length + rest.length + 2 else 0) ∧
      (h.wrote read rest).pending =
        3 * h.unread.length + 2 * rest.length + h.buffered.length + 2 +
          (if h.ended then 0 else 1) + (if h.failed = none then 1 else 0) ∧
      (h.wrote read rest).sent = h.sent := by
  unfold Half.wrote
  split
  · next hnil =>
    rw [hnil]
    exact ⟨rfl, rfl, rfl⟩
  · exact ⟨rfl, rfl, rfl⟩

/-- **What an operation costs**: the work left goes down, except by what the peer sends. -/
theorem operations_step (hs : h.step upstream e = some h') :
    (if e.ofLoop then 1 else 0) + h'.operations + 2 * h.sent.length ≤
      h.operations + 2 * h'.sent.length := by
  cases move_of_step hs with
  | @sent bytes =>
      simp only [operations, Event.ofLoop, List.length_append, Bool.false_eq_true, if_false]
      split <;> omega
  | closed | delivered | finished =>
      simp only [operations, Event.ofLoop, Bool.false_eq_true, if_false]
      omega
  | @read n hf hpc h0 hn hle =>
      have htake : (h.unread.take n).length = n := List.length_take_of_le hle
      simp only [operations, Event.ofLoop, if_true, hf, hpc, Pc.rest, Pc.left, List.length_drop,
        htake, List.length_nil]
      omega
  | eof hf hpc hc hu =>
      simp [operations, Event.ofLoop, hf, hpc, Pc.rest, Pc.left]
      omega
  | @wrote n read rest hf hpc h0 hle =>
      obtain ⟨hops, -, hsent⟩ :=
        left_wrote { h with buffered := h.buffered ++ rest.take n } read (rest.drop n)
      rw [hops, hsent]
      simp only [operations, Event.ofLoop, if_true, hf, hpc, Pc.rest, Pc.left, List.length_drop]
      omega
  | returned hf hpc he =>
      simp [operations, Event.ofLoop, hf, hpc, Pc.rest, Pc.left]
      omega
  | failed hf hpc =>
      have hleft : 0 < h.pc.left := by
        cases h₀ : h.pc with
        | returned => exact absurd h₀ hpc
        | _ => simp [Pc.left]
      simp [operations, Event.ofLoop, hf]
      omega

/-- Once the peer has ended its stream, every step lowers what is pending, or does nothing. -/
theorem pending_step (hc : h.closed = true) (hs : h.step upstream e = some h') :
    h' = h ∨ h'.pending < h.pending := by
  cases move_of_step hs with
  | sent ho => rw [hc] at ho; cases ho
  | closed =>
      left
      rw [← hc]
  | @delivered n hn =>
      cases n with
      | zero =>
          left
          rw [List.take_zero, List.append_nil, List.drop_zero]
      | succ n =>
          right
          simp only [pending, List.length_drop]
          omega
  | finished hpc hb =>
      cases he : h.ended with
      | true =>
          left
          rw [← he]
      | false =>
          right
          simp only [pending, he, if_true, Bool.false_eq_true, if_false]
          omega
  | @read n hf hpc h0 hn hle =>
      right
      have htake : (h.unread.take n).length = n := List.length_take_of_le hle
      simp only [pending, hpc, Pc.rest, Pc.left, List.length_drop, htake, List.length_nil]
      omega
  | eof hf hpc _ hu =>
      right
      simp only [pending, hpc, Pc.rest, Pc.left]
      omega
  | @wrote n read rest hf hpc h0 hle =>
      right
      obtain ⟨-, hpend, -⟩ :=
        left_wrote { h with buffered := h.buffered ++ rest.take n } read (rest.drop n)
      have htake : (rest.take n).length = n := List.length_take_of_le hle
      rw [hpend]
      simp only [pending, hpc, Pc.rest, Pc.left, List.length_drop, List.length_append, htake]
      omega
  | returned hf hpc he =>
      right
      simp only [pending, hpc, Pc.rest, Pc.left]
      omega
  | failed hf hpc =>
      right
      simp only [pending, hf, if_true, reduceCtorEq, if_false]
      omega

theorem closed_step (hc : h.closed = true) (hs : h.step upstream e = some h') :
    h'.closed = true := by
  cases move_of_step hs with
  | wrote =>
      unfold Half.wrote
      split <;> exact hc
  | closed => rfl
  | _ => exact hc

/-- Something other than a failure can happen at this half. -/
def Busy (upstream : Bytes) (h : Half) : Prop :=
  ∃ e h', (∀ error, e ≠ .fail error) ∧ h.step upstream e = some h' ∧ h' ≠ h

theorem step_of_loopStep (ho : e.ofLoop = true) (hf : h.failed = none)
    (hs : h.loopStep upstream e = some h') : h.step upstream e = some h' := by
  rw [step_ofLoop ho, if_pos hf, hs]

theorem ne_of_ofLoop (ho : e.ofLoop = true) (hs : h.step upstream e = some h') : h' ≠ h := by
  intro heq
  have hlt := operations_step hs
  rw [heq, if_pos ho] at hlt
  omega

/-- **A half is never stuck**: it reads, it writes, its writer delivers, or it has returned. -/
theorem busy_of_closed (hi : h.Filled) (hc : h.closed = true) (hf : h.failed = none)
    (hpc : h.pc ≠ .returned) : h.Busy upstream := by
  cases hp : h.pc with
  | reading =>
      by_cases hu : h.unread = []
      · have hs : h.step upstream .eof =
            some { h with shutdowns := h.shutdowns + 1, pc := .shuttingDown } :=
          step_of_loopStep rfl hf (if_pos ⟨hp, hc, hu⟩)
        exact ⟨.eof, _, nofun, hs, ne_of_ofLoop rfl hs⟩
      · have hlen : 1 ≤ h.unread.length := List.length_pos_iff.mpr hu
        have hs : h.step upstream (.read 1) =
            some { h with
              unread := h.unread.drop 1
              reads := h.reads ++ [h.unread.take 1]
              pc := .writing 1 (h.unread.take 1) } :=
          step_of_loopStep rfl hf (if_pos ⟨hp, Nat.one_pos, by decide, hlen⟩)
        exact ⟨.read 1, _, nofun, hs, ne_of_ofLoop rfl hs⟩
  | writing read rest =>
      have hlen : 1 ≤ rest.length := List.length_pos_iff.mpr (hi read rest hp).1
      have hs : h.step upstream (.write 1) =
          some ({ h with buffered := h.buffered ++ rest.take 1 }.wrote read (rest.drop 1)) := by
        simp [Half.step, hf, Half.loopStep, hp, hlen]
      exact ⟨.write 1, _, nofun, hs, ne_of_ofLoop rfl hs⟩
  | shuttingDown =>
      by_cases he : h.ended = true
      · have hs : h.step upstream .shutdown = some { h with pc := .returned } :=
          step_of_loopStep rfl hf (if_pos ⟨hp, he⟩)
        exact ⟨.shutdown, _, nofun, hs, ne_of_ofLoop rfl hs⟩
      · by_cases hb : h.buffered = []
        · have hs : h.step upstream .finish = some { h with ended := true } := if_pos ⟨hp, hb⟩
          refine ⟨.finish, _, nofun, hs, fun heq => he ?_⟩
          exact (congrArg ended heq).symm
        · have hlen : 1 ≤ h.buffered.length := List.length_pos_iff.mpr hb
          have hs : h.step upstream (.deliver 1) =
              some { h with
                delivered := h.delivered ++ h.buffered.take 1
                buffered := h.buffered.drop 1 } :=
            if_pos hlen
          refine ⟨.deliver 1, _, nofun, hs, fun heq => ?_⟩
          have hdrop : (h.buffered.drop 1).length = h.buffered.length :=
            congrArg (fun h => h.buffered.length) heq
          rw [List.length_drop] at hdrop
          omega
  | returned => exact absurd hp hpc

end Half

namespace Halves

variable {upstream : Bytes} {s s' : Halves} {x : Side} {e : Event} {n : ℕ}

theorem filled_of_reachable (h : Transition.Reachable (relay upstream) s) :
    ∀ x, (s.half x).Filled := by
  refine h.invariant (I := fun s => ∀ x, (s.half x).Filled) ?_ ?_
  · rintro s rfl x
    cases x <;> exact nofun
  · rintro s ⟨x, e⟩ s' hi - hs y
    obtain ⟨h', hh, rfl⟩ := step_cases hs
    have hx : ((s.set x h').half x).Filled := by
      rw [half_set]
      exact (hi x).step hh
    have hother : ((s.set x h').half x.other).Filled := by
      rw [half_set_other]
      exact hi x.other
    cases x <;> cases y <;> assumption

theorem sum_half (f : Half → ℕ) (s : Halves) (x : Side) :
    f s.client + f s.upstream = f (s.half x) + f (s.half x.other) := by
  cases x
  · rfl
  · exact Nat.add_comm _ _

/-- An operation of a loop costs one. -/
def operationCost (a : Side × Event) : ℕ := if a.2.ofLoop then 1 else 0

/-- **The loops do not spin, and hold at most their buffers**: in any run, at most two operations
for each byte the peers have sent, and two for the end of each stream. -/
theorem operations_le (h : Transition.Spends (relay upstream) operationCost n s) :
    n ≤ 2 * (s.client.sent.length + s.upstream.sent.length) + 4 ∧
      ∀ x, (s.half x).pc.rest.length ≤ 16 * 1024 := by
  refine ⟨?_, fun x => (filled_of_reachable h.reachable x).rest_le⟩
  have hpot := h.le_of_potential (fun s => s.client.operations + s.upstream.operations)
    (fun s => 2 * (s.client.sent.length + s.upstream.sent.length) + 4) ?_ ?_
  · omega
  · rintro s rfl
    decide
  · rintro s ⟨x, e⟩ s' - hs
    obtain ⟨h', hh, rfl⟩ := step_cases hs
    have hcost := Half.operations_step hh
    rw [sum_half Half.operations s x, sum_half Half.operations (s.set x h') x,
      sum_half (fun h => h.sent.length) s x, sum_half (fun h => h.sent.length) (s.set x h') x,
      half_set, half_set_other]
    dsimp only [operationCost]
    omega

/-- Every byte has a read and a write of its own. -/
def byteByByte : List (Side × Event) :=
  [(.client, .send (utf8 "ok")), (.client, .read 1), (.client, .write 1), (.client, .read 1),
    (.client, .write 1), (.client, .close), (.client, .eof), (.client, .deliver 2),
    (.client, .finish), (.client, .shutdown)]

def relayedByteByByte : Halves where
  client :=
    { sent := utf8 "ok", closed := true, pc := .returned, reads := [utf8 "o", utf8 "k"], total := 2,
      delivered := utf8 "ok", shutdowns := 1, ended := true }

theorem operations_le_byteByByte :
    6 ≤ 2 * (relayedByteByByte.client.sent.length + relayedByteByByte.upstream.sent.length) + 4 :=
  have hrun : Transition.run (relay (utf8 "upstream.test:853")) {} byteByByte =
      some relayedByteByByte := by decide
  have hs : Transition.Spends (relay (utf8 "upstream.test:853")) operationCost 6
      relayedByteByByte := .of_run (.init rfl) hrun
  (operations_le hs).1

/-! ### The end of a session -/

/-- Something other than a failure can happen. -/
def Busy (upstream : Bytes) (s : Halves) : Prop :=
  ∃ x e s', (∀ error, e ≠ .fail error) ∧ s.step upstream (x, e) = some s' ∧ s' ≠ s

def pending (s : Halves) : ℕ := s.client.pending + s.upstream.pending

theorem pending_step (hc : ∀ x, (s.half x).closed = true)
    (hs : s.step upstream (x, e) = some s') : s' = s ∨ s'.pending < s.pending := by
  obtain ⟨h', hh, rfl⟩ := step_cases hs
  rcases Half.pending_step (hc x) hh with heq | hlt
  · left
    rw [heq, set_half]
  · right
    unfold pending
    rw [sum_half Half.pending s x, sum_half Half.pending (s.set x h') x, half_set, half_set_other]
    omega

theorem closed_step (hc : ∀ x, (s.half x).closed = true)
    (hs : s.step upstream (x, e) = some s') : ∀ y, (s'.half y).closed = true := by
  obtain ⟨h', hh, rfl⟩ := step_cases hs
  have hx : ((s.set x h').half x).closed = true := by
    rw [half_set]
    exact Half.closed_step (hc x) hh
  have hother : ((s.set x h').half x.other).closed = true := by
    rw [half_set_other]
    exact hc x.other
  intro y
  cases x <;> cases y <;> assumption

/-- `try_join!` has returned, or a loop is neither failed nor at its end. -/
theorem joined_or (s : Halves) :
    (∃ r, s.joined = some r) ∨ ¬ s.Failed ∧ ∃ x, (s.half x).pc ≠ .returned := by
  by_cases hc : s.client.failed = none
  · by_cases hu : s.upstream.failed = none
    · have hno : ¬ s.Failed := not_or.mpr ⟨not_not.mpr hc, not_not.mpr hu⟩
      by_cases hcr : s.client.pc = .returned
      · by_cases hur : s.upstream.pc = .returned
        · left
          simp [joined, Half.result, hc, hu, hcr, hur]
        · exact .inr ⟨hno, .upstream, hur⟩
      · exact .inr ⟨hno, .client, hcr⟩
    · obtain ⟨error, he⟩ := Option.ne_none_iff_exists'.mp hu
      left
      refine ⟨.error error, ?_⟩
      simp only [joined, Half.result, hc, he]
      split_ifs <;> rfl
  · obtain ⟨error, he⟩ := Option.ne_none_iff_exists'.mp hc
    left
    refine ⟨.error error, ?_⟩
    simp only [joined, Half.result, he]

/-- **A session is never stuck** once both peers have ended their streams. -/
theorem busy_of_closed (hi : ∀ x, (s.half x).Filled) (hc : ∀ x, (s.half x).closed = true)
    (hj : ¬ ∃ r, s.joined = some r) : s.Busy upstream := by
  rcases s.joined_or with hr | ⟨hf, x, hx⟩
  · exact absurd hr hj
  · have hfx : (s.half x).failed = none := by
      by_contra hno
      exact hf ((s.failed_iff x).mpr (.inl hno))
    have hbusy : (s.half x).Busy upstream := Half.busy_of_closed (hi x) (hc x) hfx hx
    obtain ⟨e, h', hne, hs, hchange⟩ := hbusy
    refine ⟨x, e, s.set x h', hne, ?_, fun heq => hchange ?_⟩
    · rw [step, if_neg fun hg => hf hg.2, hs]
      rfl
    · rw [← half_set s x h', heq]

/-- **The relay ends**: both peers have ended their streams, so `try_join!` returns, and without
an error each peer has the whole stream of the other. -/
theorem relay_finishes (e : Transition.Execution (relay upstream)) {n₀ : ℕ}
    (hclosed : ∀ x, ((e.state n₀).half x).closed = true)
    (hfair : ∀ n, n₀ ≤ n → (e.state n).Busy upstream →
      ∃ m, n ≤ m ∧ e.state (m + 1) ≠ e.state m) :
    ∃ n, n₀ ≤ n ∧ ∃ r, (e.state n).joined = some r ∧
      ∀ counts, r = .ok counts → ∀ x, ((e.state n).half x).Complete := by
  have hall := e.always (I := fun s => ∀ x, (s.half x).closed = true) hclosed
    fun n _ a hc hs => closed_step hc hs
  have hdown : ∀ n, n₀ ≤ n → e.state (n + 1) = e.state n ∨
      (e.state (n + 1)).pending < (e.state n).pending := by
    intro n hn
    rcases e.next n with hs | ⟨a, ha⟩
    · exact .inl hs
    · exact pending_step (hall n hn) ha
  have hmono : ∀ n, n₀ ≤ n → (e.state (n + 1)).pending ≤ (e.state n).pending := by
    intro n hn
    rcases hdown n hn with heq | hlt
    · rw [heq]
    · exact Nat.le_of_lt hlt
  obtain ⟨n, hn, r, hr⟩ :=
    e.eventually (G := fun s => ∃ r, s.joined = some r) pending hmono fun n hn hj => by
      have hbusy : (e.state n).Busy upstream := busy_of_closed
        (filled_of_reachable (e.reachable n)) (hall n hn) hj
      obtain ⟨m, hm, hne⟩ := hfair n hn hbusy
      rcases hdown m (Nat.le_trans hn hm) with heq | hlt
      · exact absurd heq hne
      · exact ⟨m, hm, hlt⟩
  refine ⟨n, hn, r, hr, ?_⟩
  rintro ⟨a, b⟩ rfl
  have hi := inv_of_reachable (e.reachable n)
  obtain ⟨ha, hb⟩ := joined_ok hr
  intro x
  cases x
  · exact ((hi .client).complete ha).1
  · exact ((hi .upstream).complete hb).1

/-! ### `halfClosed` as an execution -/

theorem not_busy_transferred : ¬ transferred.Busy upstream := by
  rintro ⟨x, e, s', hne, hs, hchange⟩
  obtain ⟨h', hh, rfl⟩ := step_cases hs
  have hpc : (transferred.half x).pc = .returned := by cases x <;> rfl
  have hc : (transferred.half x).closed = true := by cases x <;> rfl
  have hb : (transferred.half x).buffered = [] := by cases x <;> rfl
  cases Half.move_of_step hh with
  | sent ho => rw [hc] at ho; cases ho
  | failed => exact hne _ rfl
  | closed =>
      rw [← hc] at hchange
      exact hchange (set_half _ x)
  | delivered hn =>
      apply hchange
      rw [hb, List.drop_nil, List.take_nil, List.append_nil, ← hb]
      exact set_half _ x
  | finished hp | read _ hp | eof _ hp | wrote _ hp | returned _ hp =>
      rw [hpc] at hp
      cases hp

def halfClosedAt (n : ℕ) : Halves :=
  Transition.trace (relay (utf8 "upstream.test:853")) {} halfClosed n

/-- Both streams have ended after fourteen steps. -/
theorem relay_finishes_halfClosed :
    ∃ n, 14 ≤ n ∧ ∃ r, (halfClosedAt n).joined = some r ∧
      ∀ counts, r = .ok counts → ∀ x, ((halfClosedAt n).half x).Complete := by
  have hinit : (relay (utf8 "upstream.test:853")).init {} := rfl
  refine relay_finishes (.ofActions hinit halfClosed) (fun x => by cases x <;> rfl)
    fun n hn hbusy => ?_
  by_cases hlt : n < halfClosed.length
  · have hchange : ∀ k : Fin halfClosed.length,
        halfClosedAt (k + 1) ≠ halfClosedAt k := by
      decide
    exact ⟨n, Nat.le_refl _, hchange ⟨n, hlt⟩⟩
  · have hend : (Transition.Execution.ofActions hinit halfClosed).state n = transferred :=
      Transition.trace_of_run run_halfClosed (Nat.le_of_not_lt hlt)
    rw [hend] at hbusy
    exact absurd hbusy not_busy_transferred

end Halves

end DnsIngress.Relay
