import DnsIngress.Error
import DnsIngress.Timed

/-! # The DoT relay (`relay_direction` in `readers/dot.rs`)

A DoT session is two `relay_direction` loops under `try_join!`.  Each loop has a timeout of its
own, which starts again with every operation of this loop.

* `Direction` is the timed trace of one loop: what its `i`-th read and write do, and how long
  they take.
* `relayDirection` is the loop; `fuel` bounds the iterations, and a loop that never ends has no
  result for any fuel.
* `Begins` says which operations the loop gets to, and when.
* `Session.TimesOut` is the outcome of `try_join!`: a direction fails with a timeout and the
  other has not failed before. -/

namespace DnsIngress.Relay

/-- What one half of the relay meets.  An empty read is the end of the stream. -/
structure Direction where
  read : ℕ → Timed (Except Bytes Bytes)
  write : ℕ → Timed (Except Bytes Unit)
  shutdown : Timed (Except Bytes Unit)

section
variable {ρ σ : Type} (idle : ℕ) (upstream : Bytes)

/-- `timeout(idle_timeout, op).await.map_err(..)??`. -/
def awaitOp (o : Timed (Except Bytes ρ)) : ℕ × Except DnsProxyError ρ :=
  match o.timeout idle with
  | (t, none) => (t, .error (.timeout upstream))
  | (t, some (.error e)) => (t, .error (.io e))
  | (t, some (.ok r)) => (t, .ok r)

/-- `relay_direction`, from its `i`-th iteration on, which begins at `now`: the time it ends and
the number of bytes relayed. -/
def relayDirection (d : Direction) : ℕ → ℕ → ℕ → ℕ → Option (ℕ × Except DnsProxyError ℕ)
  | 0, _, _, _ => none
  | fuel + 1, i, now, total =>
      match awaitOp idle upstream (d.read i) with
      | (t, .error e) => some (now + t, .error e)
      | (t, .ok []) =>
          match awaitOp idle upstream d.shutdown with
          | (t', .error e) => some (now + t + t', .error e)
          | (t', .ok _) => some (now + t + t', .ok total)
      | (t, .ok (b :: bytes)) =>
          match awaitOp idle upstream (d.write i) with
          | (t', .error e) => some (now + t + t', .error e)
          | (t', .ok _) =>
              relayDirection d fuel (i + 1) (now + t + t') (total + (b :: bytes).length)

/-- The loop ends at `t` with result `r`. -/
def Finishes (d : Direction) (t : ℕ) (r : Except DnsProxyError ℕ) : Prop :=
  ∃ fuel, relayDirection idle upstream d fuel 0 0 0 = some (t, r)

end

/-- The operations of the loop. -/
inductive Step
  | read (i : ℕ)
  | write (i : ℕ)
  | shutdown

/-- An operation, without the bytes it read. -/
def Direction.op (d : Direction) : Step → Timed (Except Bytes Unit)
  | .read i => (d.read i).map fun r => r.map fun _ => ()
  | .write i => d.write i
  | .shutdown => d.shutdown

/-- The loop begins the operation at this time: all before it were in time and successful. -/
inductive Begins (idle : ℕ) (d : Direction) : Step → ℕ → Prop
  | first : Begins idle d (.read 0) 0
  | write {i s t c} : Begins idle d (.read i) s → d.read i = some (t, .ok c) → t ≤ idle → c ≠ [] →
      Begins idle d (.write i) (s + t)
  | read {i s t} : Begins idle d (.write i) s → d.write i = some (t, .ok ()) → t ≤ idle →
      Begins idle d (.read (i + 1)) (s + t)
  | shutdown {i s t} : Begins idle d (.read i) s → d.read i = some (t, .ok []) → t ≤ idle →
      Begins idle d .shutdown (s + t)

variable {ρ σ : Type} {idle s t i : ℕ} {upstream : Bytes} {d : Direction}

theorem awaitOp_ok {o : Timed (Except Bytes ρ)} {r : ρ} :
    awaitOp idle upstream o = (t, .ok r) ↔ o = some (t, .ok r) ∧ t ≤ idle := by
  rw [← Timed.timeout_eq_some, awaitOp]
  split <;> simp_all

theorem awaitOp_timeout {o : Timed (Except Bytes ρ)} :
    awaitOp idle upstream o = (t, .error (.timeout upstream)) ↔ o.Slow idle ∧ t = idle := by
  rw [← Timed.timeout_eq_none, awaitOp]
  split <;> simp_all

theorem awaitOp_io {o : Timed (Except Bytes ρ)} {m : Bytes} :
    awaitOp idle upstream o = (t, .error (.io m)) ↔ o = some (t, .error m) ∧ t ≤ idle := by
  rw [← Timed.timeout_eq_some, awaitOp]
  split <;> simp_all

theorem awaitOp_error {o : Timed (Except Bytes ρ)} {e : DnsProxyError}
    (h : awaitOp idle upstream o = (t, .error e)) :
    e = .timeout upstream ∨ ∃ m, e = .io m := by
  unfold awaitOp at h
  split at h <;> cases h
  · exact .inl rfl
  · exact .inr ⟨_, rfl⟩

theorem awaitOp_map {o : Timed (Except Bytes ρ)} {e : DnsProxyError} {f : ρ → σ} :
    awaitOp idle upstream (o.map fun r => r.map f) = (t, .error e) ↔
      awaitOp idle upstream o = (t, .error e) := by
  cases o with
  | none => simp [Timed.map, awaitOp, Timed.timeout]
  | some x =>
      obtain ⟨t', r⟩ := x
      simp only [Timed.map, awaitOp, Timed.timeout, Option.map_some]
      by_cases ht : t' ≤ idle
      · cases r <;> simp [ht, Except.map]
      · simp [ht]

/-! ### What a loop ends with -/

theorem relay_of_begins (upstream : Bytes) (h : Begins idle d (.read i) s) :
    ∃ total, ∀ fuel, relayDirection idle upstream d (fuel + i) 0 0 0 =
      relayDirection idle upstream d fuel i s total := by
  induction i generalizing s with
  | zero =>
      cases h
      exact ⟨0, fun _ => rfl⟩
  | succ i ih =>
      cases h with
      | @read _ s₁ t₁ hw hop ht =>
          cases hw with
          | @write _ s₀ t₀ c hr hrop ht₀ hc =>
              obtain ⟨total, hrun⟩ := ih hr
              obtain ⟨b, bytes, rfl⟩ := List.exists_cons_of_ne_nil hc
              refine ⟨total + (b :: bytes).length, fun fuel => ?_⟩
              have hread : awaitOp idle upstream (d.read i) = _ := awaitOp_ok.mpr ⟨hrop, ht₀⟩
              have hwrite : awaitOp idle upstream (d.write i) = _ := awaitOp_ok.mpr ⟨hop, ht⟩
              rw [show fuel + (i + 1) = fuel + 1 + i by omega, hrun, relayDirection, hread]
              dsimp only
              rw [hwrite]

theorem relay_mono {fuel k now total : ℕ} {r : ℕ × Except DnsProxyError ℕ}
    (h : relayDirection idle upstream d fuel i now total = some r) :
    relayDirection idle upstream d (fuel + k) i now total = some r := by
  induction fuel generalizing i now total with
  | zero => cases h
  | succ fuel ih =>
      rw [show fuel + 1 + k = fuel + k + 1 by omega]
      unfold relayDirection at h ⊢
      split
      · next hr => rw [hr] at h; exact h
      · next hr =>
          rw [hr] at h
          exact h
      · next hr =>
          rw [hr] at h
          dsimp only at h ⊢
          split
          · next hw => rw [hw] at h; exact h
          · next hw => rw [hw] at h; exact ih h

theorem Finishes.unique {r r' : Except DnsProxyError ℕ} {t' : ℕ}
    (h : Finishes idle upstream d t r) (h' : Finishes idle upstream d t' r') : t = t' ∧ r = r' := by
  obtain ⟨fuel, h⟩ := h
  obtain ⟨fuel', h'⟩ := h'
  have e := relay_mono (k := fuel') h
  have e' := relay_mono (k := fuel) h'
  rw [Nat.add_comm, e] at e'
  cases e'
  exact ⟨rfl, rfl⟩

theorem begins_of_relay {fuel now total : ℕ} {e : DnsProxyError} (hb : Begins idle d (.read i) now)
    (h : relayDirection idle upstream d fuel i now total = some (t, .error e)) :
    ∃ st s τ, Begins idle d st s ∧ awaitOp idle upstream (d.op st) = (τ, .error e) ∧
      t = s + τ := by
  induction fuel generalizing i now total with
  | zero => cases h
  | succ fuel ih =>
      unfold relayDirection at h
      split at h
      · next τ e' hr =>
          cases h
          exact ⟨.read i, now, τ, hb, awaitOp_map.mpr hr, rfl⟩
      · next τ hr =>
          have ⟨hop, ht⟩ := awaitOp_ok.mp hr
          split at h
          · next τ' e' hs =>
              cases h
              exact ⟨.shutdown, now + τ, τ', .shutdown hb hop ht, hs, rfl⟩
          · cases h
      · next τ b bytes hr =>
          have ⟨hop, ht⟩ := awaitOp_ok.mp hr
          have hw := Begins.write hb hop ht (List.cons_ne_nil b bytes)
          split at h
          · next τ' e' hs =>
              cases h
              exact ⟨.write i, now + τ, τ', hw, hs, rfl⟩
          · next τ' _ hs =>
              have ⟨hop', ht'⟩ := awaitOp_ok.mp hs
              exact ih (.read hw hop' ht') h

/-- **A loop fails with the first operation that fails.** -/
theorem finishes_error_iff {e : DnsProxyError} :
    Finishes idle upstream d t (.error e) ↔
      ∃ st s τ, Begins idle d st s ∧ awaitOp idle upstream (d.op st) = (τ, .error e) ∧
        t = s + τ := by
  constructor
  · rintro ⟨fuel, h⟩
    exact begins_of_relay .first h
  · rintro ⟨st, s, τ, hb, hop, rfl⟩
    cases st with
    | read i =>
        obtain ⟨total, hrun⟩ := relay_of_begins upstream hb
        refine ⟨1 + i, ?_⟩
        rw [hrun, relayDirection, awaitOp_map.mp hop]
    | write i =>
        cases hb with
        | @write _ s₀ t₀ c hr hrop ht hc =>
            obtain ⟨total, hrun⟩ := relay_of_begins upstream hr
            obtain ⟨b, bytes, rfl⟩ := List.exists_cons_of_ne_nil hc
            refine ⟨1 + i, ?_⟩
            rw [hrun, relayDirection, awaitOp_ok.mpr ⟨hrop, ht⟩]
            dsimp only
            rw [show awaitOp idle upstream (d.write i) = (τ, .error e) from hop]
    | shutdown =>
        cases hb with
        | @shutdown i s₀ t₀ hr hrop ht =>
            obtain ⟨total, hrun⟩ := relay_of_begins upstream hr
            refine ⟨1 + i, ?_⟩
            rw [hrun, relayDirection, awaitOp_ok.mpr ⟨hrop, ht⟩]
            dsimp only
            rw [show awaitOp idle upstream d.shutdown = (τ, .error e) from hop]

/-! ### The session -/

/-- The two halves of a session, by the peer they read from. -/
inductive Side
  | client | upstream
deriving DecidableEq

def Side.other : Side → Side
  | .client => .upstream
  | .upstream => .client

theorem Side.other_other (x : Side) : x.other.other = x := by
  cases x <;> rfl

structure Session where
  clientToUpstream : Direction
  upstreamToClient : Direction

def Session.half (s : Session) : Side → Direction
  | .client => s.clientToUpstream
  | .upstream => s.upstreamToClient

/-- `try_join!` returns a timeout: one half fails with it and the other has not failed before. -/
def Session.TimesOut (idle : ℕ) (upstream : Bytes) (s : Session) : Prop :=
  ∃ x t, Finishes idle upstream (s.half x) t (.error (.timeout upstream)) ∧
    ∀ t' e, Finishes idle upstream (s.half x.other) t' (.error e) → t ≤ t'

/-- The loop fails with an I/O error before the given time. -/
def FailsBefore (idle : ℕ) (d : Direction) (bound : ℕ) : Prop :=
  ∃ st s τ m, Begins idle d st s ∧ d.op st = some (τ, .error m) ∧ τ ≤ idle ∧ s + τ < bound

/-- Every window of length `idle` has a read or a write that completes, in one half at least. -/
def Session.Progresses (idle : ℕ) (s : Session) : Prop :=
  ∀ a, ∃ x st b τ, Begins idle (s.half x) st b ∧ (s.half x).op st = some (τ, .ok ()) ∧
    τ ≤ idle ∧ a < b + τ ∧ b + τ ≤ a + idle

variable {S : Session} {x : Side}

theorem finishes_io_iff {m : Bytes} :
    Finishes idle upstream d t (.error (.io m)) ↔
      ∃ st b τ, Begins idle d st b ∧ d.op st = some (τ, .error m) ∧ τ ≤ idle ∧ t = b + τ := by
  rw [finishes_error_iff]
  simp only [awaitOp_io, and_assoc]

theorem finishes_timeout_iff :
    Finishes idle upstream d t (.error (.timeout upstream)) ↔
      ∃ st b, Begins idle d st b ∧ (d.op st).Slow idle ∧ t = b + idle := by
  rw [finishes_error_iff]
  simp only [awaitOp_timeout]
  constructor
  · rintro ⟨st, b, _, hb, ⟨hs, rfl⟩, rfl⟩
    exact ⟨st, b, hb, hs, rfl⟩
  · rintro ⟨st, b, hb, hs, rfl⟩
    exact ⟨st, b, idle, hb, ⟨hs, rfl⟩, rfl⟩

theorem finishes_error_cases {e : DnsProxyError} (h : Finishes idle upstream d t (.error e)) :
    e = .timeout upstream ∨ ∃ m, e = .io m := by
  obtain ⟨st, s, τ, -, ho, -⟩ := finishes_error_iff.mp h
  exact awaitOp_error ho

/-- A slow operation ends the session with a timeout, unless the other half fails first. -/
theorem timesOut_of_slow {st : Step} {b : ℕ} (hb : Begins idle (S.half x) st b)
    (hs : ((S.half x).op st).Slow idle) (hf : ¬ FailsBefore idle (S.half x.other) (b + idle)) :
    S.TimesOut idle upstream := by
  have hx : Finishes idle upstream (S.half x) (b + idle) _ :=
    finishes_timeout_iff.mpr ⟨st, b, hb, hs, rfl⟩
  by_cases hother : ∃ t e, Finishes idle upstream (S.half x.other) t (.error e) ∧ t < b + idle
  · obtain ⟨t, e, he, hlt⟩ := hother
    rcases finishes_error_cases he with rfl | ⟨m, rfl⟩
    · -- the other half timed out even earlier
      refine ⟨x.other, t, he, fun t' e' h' => ?_⟩
      rw [x.other_other] at h'
      have := (h'.unique hx).1
      omega
    · obtain ⟨st', b', τ, hb', ho, hle, rfl⟩ := finishes_io_iff.mp he
      exact absurd ⟨st', b', τ, m, hb', ho, hle, hlt⟩ hf
  · refine ⟨x, b + idle, hx, fun t' e' h' => ?_⟩
    by_contra hlt
    exact hother ⟨t', e', h', by omega⟩

/-- **A session times out exactly when one operation of one half is slow**, unless the other half
fails with an I/O error before; the progress of the other half does not matter. -/
theorem not_timesOut_iff :
    ¬ S.TimesOut idle upstream ↔
      ∀ x st b, Begins idle (S.half x) st b → ((S.half x).op st).Slow idle →
        FailsBefore idle (S.half x.other) (b + idle) := by
  constructor
  · intro hno x st b hb hs
    by_contra hf
    exact hno (timesOut_of_slow hb hs hf)
  · rintro hall ⟨x, t, hx, hmin⟩
    obtain ⟨st, b, hb, hs, rfl⟩ := finishes_timeout_iff.mp hx
    obtain ⟨st', b', τ, m, hb', ho, hle, hlt⟩ := hall x st b hb hs
    have := hmin _ _ (finishes_io_iff.mpr ⟨st', b', τ, hb', ho, hle, rfl⟩)
    omega

/-! ### A zone transfer -/

/-- The client sends one query and stays silent; the upstream streams one chunk every tick. -/
def transfer : Session where
  clientToUpstream :=
    { read := fun i => if i = 0 then some (0, .ok (utf8 "query")) else none
      write := fun _ => some (0, .ok ())
      shutdown := none }
  upstreamToClient :=
    { read := fun _ => some (1, .ok (utf8 "chunk"))
      write := fun _ => some (0, .ok ())
      shutdown := none }

theorem transfer_begins (i : ℕ) : Begins 10 transfer.upstreamToClient (.read i) i := by
  induction i with
  | zero => exact .first
  | succ i ih =>
      have hw : Begins 10 transfer.upstreamToClient (.write i) (i + 1) :=
        .write ih rfl (by decide) (by decide)
      exact Begins.read (t := 0) hw rfl (by decide)

theorem transfer_progresses : transfer.Progresses 10 := by
  intro a
  exact ⟨.upstream, .read a, a, 1, transfer_begins a, rfl, by decide, by omega, by omega⟩

theorem not_timesOut_of_progresses :
    ¬ (transfer.Progresses 10 → ¬ transfer.TimesOut 10 (utf8 "upstream.example:853")) := by
  intro h
  have hw : Begins 10 (transfer.half .client) (.write 0) 0 :=
    Begins.write (t := 0) .first rfl (by decide) (by decide)
  have hr : Begins 10 (transfer.half .client) (.read 1) 0 :=
    Begins.read (t := 0) hw rfl (by decide)
  refine h transfer_progresses (timesOut_of_slow hr ?_ ?_)
  · intro t r ho
    cases ho
  · -- the upstream half never fails
    rintro ⟨st, s, τ, m, hb, ho, -, -⟩
    cases st <;> cases ho

end DnsIngress.Relay
