import Mathlib.Data.List.FinRange
import Mathlib.Data.UInt

/-! # Base64 without padding

The bits of a list of bytes are cut into groups of six, the last one filled up with zeros
(`sextets`), and each group is written as one of 64 symbols (`encode`).  `decode` takes the
canonical encodings and nothing else (`decode_eq_some_iff`): no padding, and only zeros in the
filling. -/

namespace Base64

abbrev Sextet := Fin 64

/-- 64 symbols. -/
structure Alphabet (α : Type) where
  symbol : Sextet → α
  injective : Function.Injective symbol

/-! ### Bytes and groups of six bits -/

def group₁ (a : UInt8) : Sextet := Fin.ofNat 64 (a.toNat / 4)

def group₂ (a b : UInt8) : Sextet := Fin.ofNat 64 (a.toNat % 4 * 16 + b.toNat / 16)

def group₃ (b c : UInt8) : Sextet := Fin.ofNat 64 (b.toNat % 16 * 4 + c.toNat / 64)

def group₄ (c : UInt8) : Sextet := Fin.ofNat 64 c.toNat

def byte₁ (w x : Sextet) : UInt8 := UInt8.ofNat (w.val * 4 + x.val / 16)

def byte₂ (x y : Sextet) : UInt8 := UInt8.ofNat (x.val % 16 * 16 + y.val / 4)

def byte₃ (y z : Sextet) : UInt8 := UInt8.ofNat (y.val % 4 * 64 + z.val)

/-- The bytes in groups of six bits. -/
def sextets : List UInt8 → List Sextet
  | [] => []
  | [a] => [group₁ a, group₂ a 0]
  | [a, b] => [group₁ a, group₂ a b, group₃ b 0]
  | a :: b :: c :: rest => group₁ a :: group₂ a b :: group₃ b c :: group₄ c :: sextets rest

/-- The bytes of groups of six bits, if these are whole bytes and a filling of zeros. -/
def bytes? : List Sextet → Option (List UInt8)
  | [] => some []
  | [_] => none
  | [w, x] => if x.val % 16 = 0 then some [byte₁ w x] else none
  | [w, x, y] => if y.val % 4 = 0 then some [byte₁ w x, byte₂ x y] else none
  | w :: x :: y :: z :: rest =>
      (bytes? rest).map fun bytes => byte₁ w x :: byte₂ x y :: byte₃ y z :: bytes

@[simp] theorem byte₁_group (a b : UInt8) : byte₁ (group₁ a) (group₂ a b) = a := by
  have ha := a.toNat_lt
  have hb := b.toNat_lt
  apply UInt8.toNat_inj.mp
  simp only [byte₁, group₁, group₂, UInt8.toNat_ofNat', Fin.val_ofNat]
  omega

@[simp] theorem byte₂_group (a b c : UInt8) : byte₂ (group₂ a b) (group₃ b c) = b := by
  have hb := b.toNat_lt
  have hc := c.toNat_lt
  apply UInt8.toNat_inj.mp
  simp only [byte₂, group₂, group₃, UInt8.toNat_ofNat', Fin.val_ofNat]
  omega

@[simp] theorem byte₃_group (b c : UInt8) : byte₃ (group₃ b c) (group₄ c) = c := by
  have hc := c.toNat_lt
  apply UInt8.toNat_inj.mp
  simp only [byte₃, group₃, group₄, UInt8.toNat_ofNat', Fin.val_ofNat]
  omega

@[simp] theorem group₁_byte (w x : Sextet) : group₁ (byte₁ w x) = w := by
  apply Fin.ext
  simp only [group₁, byte₁, UInt8.toNat_ofNat', Fin.val_ofNat]
  omega

@[simp] theorem group₂_byte (w x y : Sextet) : group₂ (byte₁ w x) (byte₂ x y) = x := by
  apply Fin.ext
  simp only [group₂, byte₁, byte₂, UInt8.toNat_ofNat', Fin.val_ofNat]
  omega

@[simp] theorem group₃_byte (x y z : Sextet) : group₃ (byte₂ x y) (byte₃ y z) = y := by
  apply Fin.ext
  simp only [group₃, byte₂, byte₃, UInt8.toNat_ofNat', Fin.val_ofNat]
  omega

@[simp] theorem group₄_byte (y z : Sextet) : group₄ (byte₃ y z) = z := by
  apply Fin.ext
  simp only [group₄, byte₃, UInt8.toNat_ofNat', Fin.val_ofNat]
  omega

theorem group₂_filling (a : UInt8) : (group₂ a 0).val % 16 = 0 := by
  simp only [group₂, Fin.val_ofNat, UInt8.toNat_zero]
  omega

theorem group₃_filling (b : UInt8) : (group₃ b 0).val % 4 = 0 := by
  simp only [group₃, Fin.val_ofNat, UInt8.toNat_zero]
  omega

theorem group₂_zero {w x : Sextet} (hx : x.val % 16 = 0) : group₂ (byte₁ w x) 0 = x := by
  apply Fin.ext
  simp only [group₂, byte₁, UInt8.toNat_ofNat', Fin.val_ofNat, UInt8.toNat_zero]
  omega

theorem group₃_zero {x y : Sextet} (hy : y.val % 4 = 0) : group₃ (byte₂ x y) 0 = y := by
  apply Fin.ext
  simp only [group₃, byte₂, UInt8.toNat_ofNat', Fin.val_ofNat, UInt8.toNat_zero]
  omega

theorem bytes?_sextets (bytes : List UInt8) : bytes? (sextets bytes) = some bytes := by
  induction bytes using sextets.induct with
  | case1 => rfl
  | case2 a => rw [sextets, bytes?, if_pos (group₂_filling a), byte₁_group]
  | case3 a b => rw [sextets, bytes?, if_pos (group₃_filling b), byte₁_group, byte₂_group]
  | case4 a b c rest ih =>
      rw [sextets, bytes?, ih, Option.map_some, byte₁_group, byte₂_group, byte₃_group]

theorem sextets_of_bytes? {groups : List Sextet} {bytes : List UInt8}
    (h : bytes? groups = some bytes) : sextets bytes = groups := by
  induction groups using bytes?.induct generalizing bytes with
  | case1 =>
      cases h
      rfl
  | case2 w => cases h
  | case3 w x hx =>
      rw [bytes?, if_pos hx] at h
      cases h
      rw [sextets, group₁_byte, group₂_zero hx]
  | case4 w x hx =>
      rw [bytes?, if_neg hx] at h
      cases h
  | case5 w x y hy =>
      rw [bytes?, if_pos hy] at h
      cases h
      rw [sextets, group₁_byte, group₂_byte, group₃_zero hy]
  | case6 w x y hy =>
      rw [bytes?, if_neg hy] at h
      cases h
  | case7 w x y z rest ih =>
      obtain ⟨bytes', hbytes, rfl⟩ := Option.map_eq_some_iff.mp h
      rw [sextets, ih hbytes, group₁_byte, group₂_byte, group₃_byte, group₄_byte]

/-! ### The symbols -/

namespace Alphabet

variable {α : Type} [DecidableEq α] (A : Alphabet α)

/-- The group that a symbol stands for. -/
def value (c : α) : Option Sextet := (List.finRange 64).find? fun v => A.symbol v = c

def values : List α → Option (List Sextet)
  | [] => some []
  | c :: rest => (A.value c).bind fun v => (values rest).map (v :: ·)

def encode (bytes : List UInt8) : List α := (sextets bytes).map A.symbol

def decode (text : List α) : Option (List UInt8) := (A.values text).bind bytes?

theorem symbol_of_value {c : α} {v : Sextet} (h : A.value c = some v) : A.symbol v = c := by
  simpa using List.find?_some h

theorem value_symbol (v : Sextet) : A.value (A.symbol v) = some v := by
  cases hfind : A.value (A.symbol v) with
  | none =>
      have hnone := List.find?_eq_none.mp hfind v (List.mem_finRange v)
      exact absurd (decide_eq_true rfl) hnone
  | some w => rw [A.injective (A.symbol_of_value hfind)]

theorem values_map_symbol (groups : List Sextet) :
    A.values (groups.map A.symbol) = some groups := by
  induction groups with
  | nil => rfl
  | cons v groups ih =>
      rw [List.map_cons, values, value_symbol, Option.bind_some, ih, Option.map_some]

theorem map_symbol_of_values {text : List α} {groups : List Sextet}
    (h : A.values text = some groups) : groups.map A.symbol = text := by
  induction text generalizing groups with
  | nil =>
      cases h
      rfl
  | cons c rest ih =>
      obtain ⟨v, hv, h⟩ := Option.bind_eq_some_iff.mp h
      obtain ⟨groups', hgroups, rfl⟩ := Option.map_eq_some_iff.mp h
      rw [List.map_cons, A.symbol_of_value hv, ih hgroups]

/-- **Exactly the canonical encodings are decoded.** -/
theorem decode_eq_some_iff {text : List α} {bytes : List UInt8} :
    A.decode text = some bytes ↔ A.encode bytes = text := by
  constructor
  · intro h
    obtain ⟨groups, hgroups, hbytes⟩ := Option.bind_eq_some_iff.mp h
    rw [encode, sextets_of_bytes? hbytes, A.map_symbol_of_values hgroups]
  · rintro rfl
    rw [decode, encode, values_map_symbol, Option.bind_some, bytes?_sextets]

end Alphabet

/-- The letters, the digits, `-` and `_`. -/
def urlSafe : Alphabet UInt8 where
  symbol v :=
    if v.val < 26 then UInt8.ofNat (65 + v.val)
    else if v.val < 52 then UInt8.ofNat (71 + v.val)
    else if v.val < 62 then UInt8.ofNat (v.val - 4)
    else if v.val = 62 then 45
    else 95
  injective := by decide +kernel

end Base64
