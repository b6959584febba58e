import DnsIngress.Ascii

/-! # The text exposition format

A page of metrics is a list of lines, each ended by a newline.  A line that begins with a number
sign is a comment; any other line is the name of a metric, a blank and a value.

`samples` is how a page is read.  `samples_line` and `samples_comment` say that it reads back what
has been written, line by line. -/

namespace Exposition

open Ascii

def newline : UInt8 := 10

def blank : UInt8 := 32

def numberSign : UInt8 := 35

/-- One line. -/
def sample (line : List UInt8) : Option (List UInt8 × List UInt8) :=
  if line.head? = some numberSign then none else splitOnce blank line

/-- The metrics of a page, in order. -/
def samples (page : List UInt8) : List (List UInt8 × List UInt8) :=
  (page.splitOn newline).filterMap sample

/-- The line of a metric. -/
def line (name value : List UInt8) : List UInt8 := name ++ blank :: value ++ [newline]

/-- What a name of a metric may contain. -/
def isNameByte (b : UInt8) : Bool := isAsciiAlphanumeric b || b == 95

variable {name value text rest : List UInt8}

theorem samples_append (h : newline ∉ text) :
    samples (text ++ newline :: rest) = (sample text).toList ++ samples rest := by
  rw [samples, List.splitOn_append_cons_self_of_not_mem h]
  cases hs : sample text with
  | none => rw [List.filterMap_cons_none hs]; rfl
  | some _ => rw [List.filterMap_cons_some hs]; rfl

theorem samples_comment (h : newline ∉ text) :
    samples (numberSign :: text ++ newline :: rest) = samples rest := by
  have hmem : newline ∉ numberSign :: text := by
    rw [List.mem_cons, not_or]
    exact ⟨by decide, h⟩
  rw [samples_append hmem]
  rfl

theorem not_mem_of_isNameByte {b : UInt8} (hname : name.all isNameByte = true)
    (hb : isNameByte b = false) : b ∉ name := by
  intro hmem
  rw [List.all_eq_true.mp hname b hmem] at hb
  cases hb

theorem sample_pair (hname : name.all isNameByte = true) :
    sample (name ++ blank :: value) = some (name, value) := by
  have hblank : blank ∉ name := not_mem_of_isNameByte hname rfl
  have hhead : (name ++ blank :: value).head? ≠ some numberSign := by
    cases name with
    | nil => exact fun h => absurd (Option.some.inj h) (by decide)
    | cons b name =>
        rintro ⟨⟩
        exact Bool.false_ne_true (List.all_eq_true.mp hname _ List.mem_cons_self)
  have hne : ∀ b ∈ name, (b != blank) = true := by
    intro b hb
    rw [bne_iff_ne]
    rintro rfl
    exact hblank hb
  rw [sample, if_neg hhead, splitOnce, if_pos (by simp),
    List.takeWhile_append_of_pos hne, List.dropWhile_append_of_pos hne]
  simp

/-- **A metric is read back.** -/
theorem samples_line (hname : name.all isNameByte = true) (hvalue : newline ∉ value) :
    samples (line name value ++ rest) = (name, value) :: samples rest := by
  have hmem : newline ∉ name ++ blank :: value := by
    simp only [List.mem_append, List.mem_cons, not_or]
    exact ⟨not_mem_of_isNameByte hname rfl, by decide, hvalue⟩
  have hline : line name value ++ rest = (name ++ blank :: value) ++ newline :: rest := by
    simp [line]
  rw [hline, samples_append hmem, sample_pair hname]
  rfl

end Exposition
