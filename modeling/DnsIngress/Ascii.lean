import Mathlib.Data.List.Basic
import Mathlib.Data.List.DropRight
import Mathlib.Data.UInt

/-! # ASCII strings as byte strings

The functions of Rust's `u8` and `str` that the code uses on host names and HTTP fields, on the
UTF-8 bytes of a string.  All separators are ASCII, so working on bytes or on characters is the
same.  `strip_suffix` is `List.dropSuffix?` and `split` is `List.splitOn`. -/

namespace Ascii

def isAsciiUppercase (b : UInt8) : Bool := 65 ≤ b && b ≤ 90

def isAsciiLowercase (b : UInt8) : Bool := 97 ≤ b && b ≤ 122

def isAsciiDigit (b : UInt8) : Bool := 48 ≤ b && b ≤ 57

def isAsciiAlphanumeric (b : UInt8) : Bool :=
  isAsciiUppercase b || isAsciiLowercase b || isAsciiDigit b

/-- `char::is_whitespace` on ASCII. -/
def isWhitespace (b : UInt8) : Bool := b == 32 || (9 ≤ b && b ≤ 13)

def lowerByte (b : UInt8) : UInt8 := if isAsciiUppercase b then b + 32 else b

def toAsciiLowercase (s : List UInt8) : List UInt8 := s.map lowerByte

def eqIgnoreAsciiCase (s t : List UInt8) : Bool := toAsciiLowercase s == toAsciiLowercase t

def trimEndMatches (c : UInt8) (s : List UInt8) : List UInt8 := s.rdropWhile (· == c)

def trim (s : List UInt8) : List UInt8 := (s.dropWhile isWhitespace).rdropWhile isWhitespace

def splitOnce (c : UInt8) (s : List UInt8) : Option (List UInt8 × List UInt8) :=
  if c ∈ s then some (s.takeWhile (· != c), (s.dropWhile (· != c)).tail) else none

variable {b c : UInt8} {s t rest : List UInt8}

@[simp] theorem lowerByte_lowerByte (b : UInt8) : lowerByte (lowerByte b) = lowerByte b := by
  unfold lowerByte isAsciiUppercase
  grind

theorem lowerByte_eq_iff (hc : isAsciiAlphanumeric c = false) : lowerByte b = c ↔ b = c := by
  simp only [isAsciiAlphanumeric, isAsciiUppercase, isAsciiLowercase, Bool.or_eq_false_iff,
    Bool.and_eq_false_iff, decide_eq_false_iff_not] at hc
  simp only [lowerByte, isAsciiUppercase, Bool.and_eq_true, decide_eq_true_eq]
  grind

@[simp] theorem toAsciiLowercase_idem (s : List UInt8) :
    toAsciiLowercase (toAsciiLowercase s) = toAsciiLowercase s := by
  simp [toAsciiLowercase]

theorem toAsciiLowercase_of_forall (h : ∀ b ∈ s, isAsciiUppercase b = false) :
    toAsciiLowercase s = s := by
  rw [toAsciiLowercase]
  conv_rhs => rw [← List.map_id s]
  refine List.map_congr_left fun b hb => ?_
  rw [lowerByte, h b hb]
  rfl

theorem trimEndMatches_toAsciiLowercase (hc : isAsciiAlphanumeric c = false) :
    trimEndMatches c (toAsciiLowercase s) = toAsciiLowercase (trimEndMatches c s) := by
  have hp : ((· == c) ∘ lowerByte) = (· == c) := by
    funext b
    rw [Bool.eq_iff_iff]
    simp [lowerByte_eq_iff hc]
  simp only [trimEndMatches, toAsciiLowercase, List.rdropWhile, ← List.map_reverse,
    List.dropWhile_map, hp]

theorem stripSuffix_eq_some : s.dropSuffix? t = some rest ↔ s = rest ++ t := by
  simp [List.dropSuffix?_eq_some_iff]

theorem mem_intercalate {parts : List (List UInt8)} (h : b ∈ [c].intercalate parts) :
    b = c ∨ ∃ part ∈ parts, b ∈ part := by
  induction parts with
  | nil => cases h
  | cons part parts ih =>
      cases parts with
      | nil => exact .inr ⟨part, List.mem_cons_self, by simpa [List.intercalate] using h⟩
      | cons part' parts =>
          have h' : b ∈ part ∨ b = c ∨ b ∈ [c].intercalate (part' :: parts) := by
            simpa [List.intercalate] using h
          rcases h' with hb | hb | hb
          · exact .inr ⟨part, List.mem_cons_self, hb⟩
          · exact .inl hb
          · rcases ih hb with hb | ⟨p, hp, hb⟩
            · exact .inl hb
            · exact .inr ⟨p, List.mem_cons_of_mem _ hp, hb⟩

theorem mem_splitOn_or (h : b ∈ s) : b = c ∨ ∃ part ∈ s.splitOn c, b ∈ part := by
  have hs : [c].intercalate (s.splitOn c) = s := List.intercalate_splitOn c
  rw [← hs] at h
  exact mem_intercalate h

end Ascii
