import Mathlib.Data.List.Basic
import Mathlib.Data.List.Infix
import Mathlib.Data.UInt

/-! # Length-prefixed frames

A frame is a message of 1 to 65535 bytes after its length in two bytes, the more significant one
first.

* `head_cases`: every byte string starts with a frame, with the length zero, or breaks off before
  its first frame is complete.
* `encode_append_inj`: a byte string starts with at most one frame, so the frames of a stream are
  determined by its bytes.
* `IsLongestRun p ms bytes`: `ms` is the longest run of frames at the start of `bytes` whose
  messages all satisfy `p`. -/

namespace Framing

/-- `n` in two bytes (`u16::to_be_bytes`). -/
def toBeBytes (n : ℕ) : List UInt8 := [UInt8.ofNat (n / 256), UInt8.ofNat n]

/-- `u16::from_be_bytes`. -/
def fromBeBytes (bytes : List UInt8) : ℕ := bytes.foldl (fun n b => n * 256 + b.toNat) 0

/-- A message that fits into a frame. -/
def Sendable (m : List UInt8) : Prop := 1 ≤ m.length ∧ m.length ≤ 65535

instance (m : List UInt8) : Decidable (Sendable m) := inferInstanceAs (Decidable (_ ∧ _))

def encode (m : List UInt8) : List UInt8 := toBeBytes m.length ++ m

def encodeAll (ms : List (List UInt8)) : List UInt8 := ms.flatMap encode

/-- The bytes end within their first frame, or there are none. -/
def Incomplete (bytes : List UInt8) : Prop :=
  bytes.length < 2 ∨ (bytes.drop 2).length < fromBeBytes (bytes.take 2)

instance (bytes : List UInt8) : Decidable (Incomplete bytes) := inferInstanceAs (Decidable (_ ∨ _))

@[simp] theorem length_toBeBytes (n : ℕ) : (toBeBytes n).length = 2 := rfl

theorem toBeBytes_ne_nil (n : ℕ) : toBeBytes n ≠ [] := List.cons_ne_nil _ _

@[simp] theorem fromBeBytes_pair (hi lo : UInt8) :
    fromBeBytes [hi, lo] = hi.toNat * 256 + lo.toNat := by
  simp [fromBeBytes]

theorem fromBeBytes_toBeBytes {n : ℕ} (h : n ≤ 65535) : fromBeBytes (toBeBytes n) = n := by
  rw [toBeBytes, fromBeBytes_pair]
  simp only [UInt8.toNat_ofNat']
  omega

theorem toBeBytes_pair (hi lo : UInt8) : toBeBytes (hi.toNat * 256 + lo.toNat) = [hi, lo] := by
  have hhi := hi.toNat_lt
  have hlo := lo.toNat_lt
  have h₁ : UInt8.ofNat ((hi.toNat * 256 + lo.toNat) / 256) = hi := by
    apply UInt8.toNat_inj.mp
    simp only [UInt8.toNat_ofNat']
    omega
  have h₂ : UInt8.ofNat (hi.toNat * 256 + lo.toNat) = lo := by
    apply UInt8.toNat_inj.mp
    simp only [UInt8.toNat_ofNat']
    omega
  rw [toBeBytes, h₁, h₂]

@[simp] theorem length_encode (m : List UInt8) : (encode m).length = m.length + 2 := by
  simp [encode]
  omega

@[simp] theorem encodeAll_nil : encodeAll [] = [] := rfl

@[simp] theorem encodeAll_cons (m : List UInt8) (ms : List (List UInt8)) :
    encodeAll (m :: ms) = encode m ++ encodeAll ms := rfl

theorem encodeAll_append (ms ms' : List (List UInt8)) :
    encodeAll (ms ++ ms') = encodeAll ms ++ encodeAll ms' := List.flatMap_append

theorem encode_append (m rest : List UInt8) :
    encode m ++ rest = toBeBytes m.length ++ (m ++ rest) := by
  rw [encode, List.append_assoc]

theorem take_encode_append (m rest : List UInt8) :
    (encode m ++ rest).take 2 = toBeBytes m.length := rfl

theorem drop_encode_append (m rest : List UInt8) : (encode m ++ rest).drop 2 = m ++ rest := rfl

/-- **A stream starts with a frame, with the length zero, or is incomplete.** -/
theorem head_cases (bytes : List UInt8) :
    (∃ m rest, Sendable m ∧ bytes = encode m ++ rest) ∨ (∃ rest, bytes = 0 :: 0 :: rest) ∨
      Incomplete bytes := by
  match bytes with
  | [] => exact .inr (.inr (.inl (by decide)))
  | [b] => exact .inr (.inr (.inl (by simp)))
  | hi :: lo :: tail =>
      have hhi := hi.toNat_lt
      have hlo := lo.toNat_lt
      by_cases hz : hi.toNat * 256 + lo.toNat = 0
      · have h₁ : hi = 0 := UInt8.toNat_inj.mp (by rw [UInt8.toNat_zero]; omega)
        have h₂ : lo = 0 := UInt8.toNat_inj.mp (by rw [UInt8.toNat_zero]; omega)
        exact .inr (.inl ⟨tail, by rw [h₁, h₂]⟩)
      · by_cases hlen : hi.toNat * 256 + lo.toNat ≤ tail.length
        · have ht := List.length_take_of_le hlen
          refine .inl ⟨tail.take (hi.toNat * 256 + lo.toNat),
            tail.drop (hi.toNat * 256 + lo.toNat), ?_, ?_⟩
          · constructor <;> omega
          · rw [encode_append, List.take_append_drop, ht, toBeBytes_pair]
            rfl
        · refine .inr (.inr (.inr ?_))
          simp only [List.drop_succ_cons, List.drop_zero, List.take_succ_cons, List.take_zero,
            fromBeBytes_pair]
          omega

/-- The first frame of a stream is determined. -/
theorem encode_append_inj {m m' rest rest' : List UInt8} (hm : Sendable m) (hm' : Sendable m')
    (h : encode m ++ rest = encode m' ++ rest') : m = m' ∧ rest = rest' := by
  rw [encode_append, encode_append] at h
  obtain ⟨hlen, htail⟩ := List.append_inj h rfl
  have hl : m.length = m'.length := by
    rw [← fromBeBytes_toBeBytes hm.2, hlen, fromBeBytes_toBeBytes hm'.2]
  exact List.append_inj htail hl

theorem not_incomplete_encode {m rest : List UInt8} (hm : Sendable m) :
    ¬ Incomplete (encode m ++ rest) := by
  rintro (h | h)
  · rw [List.length_append, length_encode] at h
    omega
  · rw [take_encode_append, drop_encode_append, fromBeBytes_toBeBytes hm.2,
      List.length_append] at h
    omega

theorem not_incomplete_zero (rest : List UInt8) : ¬ Incomplete (0 :: 0 :: rest) := by
  rintro (h | h)
  · rw [List.length_cons, List.length_cons] at h
    omega
  · simp at h

theorem encode_append_ne_zero {m rest rest' : List UInt8} (hm : Sendable m) :
    encode m ++ rest ≠ 0 :: 0 :: rest' := by
  intro h
  have hlen : toBeBytes m.length = [0, 0] := by
    rw [← take_encode_append m rest, h]
    rfl
  have hz : m.length = 0 := by
    rw [← fromBeBytes_toBeBytes hm.2, hlen]
    rfl
  have := hm.1
  omega

theorem encode_ne_nil (m : List UInt8) : encode m ≠ [] := by
  simp [encode, toBeBytes]

/-! ### Runs of frames -/

/-- `ms` is the longest run of frames with property `p` at the start of the stream. -/
def IsLongestRun (p : List UInt8 → Prop) (ms : List (List UInt8)) (bytes : List UInt8) : Prop :=
  (∀ m ∈ ms, Sendable m ∧ p m) ∧ encodeAll ms <+: bytes ∧
    ∀ ms', (∀ m ∈ ms', Sendable m ∧ p m) → encodeAll ms' <+: bytes → ms' <+: ms

variable {p : List UInt8 → Prop} {ms ms' : List (List UInt8)} {rest : List UInt8}

theorem isLongestRun_of_stuck (hms : ∀ m ∈ ms, Sendable m ∧ p m)
    (hstuck : ∀ m rest', Sendable m → p m → rest ≠ encode m ++ rest') :
    IsLongestRun p ms (encodeAll ms ++ rest) := by
  refine ⟨hms, List.prefix_append _ _, fun ms' hms' hpre => ?_⟩
  induction ms generalizing ms' with
  | nil =>
      cases ms' with
      | nil => exact List.prefix_rfl
      | cons m ms' =>
          obtain ⟨tail, ht⟩ := hpre
          rw [encodeAll_cons, List.append_assoc] at ht
          have hm := hms' m List.mem_cons_self
          exact absurd ht.symm (hstuck m _ hm.1 hm.2)
  | cons m ms ih =>
      cases ms' with
      | nil => exact List.nil_prefix
      | cons m' ms' =>
          obtain ⟨tail, ht⟩ := hpre
          rw [encodeAll_cons, encodeAll_cons, List.append_assoc, List.append_assoc] at ht
          obtain ⟨rfl, hrest⟩ := encode_append_inj (hms' m' List.mem_cons_self).1
            (hms m List.mem_cons_self).1 ht
          have hpre' := ih (fun x hx => hms x (List.mem_cons_of_mem _ hx)) ms'
            (fun x hx => hms' x (List.mem_cons_of_mem _ hx)) ⟨tail, hrest⟩
          exact List.cons_prefix_cons.mpr ⟨rfl, hpre'⟩

/-- Nothing of a run starts the bytes after its longest run. -/
theorem IsLongestRun.unique {bytes : List UInt8} (h : IsLongestRun p ms bytes)
    (h' : IsLongestRun p ms' bytes) : ms = ms' := by
  have h₁ := h'.2.2 ms h.1 h.2.1
  have h₂ := h.2.2 ms' h'.1 h'.2.1
  exact h₁.eq_of_length (Nat.le_antisymm h₁.length_le h₂.length_le)

end Framing
