import Mathlib.Data.List.AList
import Mathlib.Data.UInt

/-! # Records in TOML documents

A `Value` is what a TOML parser makes of a document.  A `Codec` writes the values of a type as TOML
and reads them back; it carries the proof that it does.

A record is a table with a fixed set of keys, and `Fields` is a codec for some of them.  `pair`
puts the fields of two parts together, `iso` makes a structure of the tuple, and `record` turns all
of the fields into a codec that knows no other key.

What a document says is stated apart from the codecs: `IsString` to `IsRecord`, and `Required`,
`Defaulted` and `Optional` for the fields of a record.  `Codec.Reads` connects the two. -/

namespace Toml

abbrev Key := List UInt8

inductive Value
  | string (s : List UInt8)
  | integer (n : ℤ)
  | float (text : List UInt8)
  | boolean (b : Bool)
  | datetime (text : List UInt8)
  | array (values : List Value)
  | table (entries : List (Key × Value))

structure Codec (α : Type) where
  encode : α → Value
  decode : Value → Option α
  decode_encode : ∀ a, decode (encode a) = some a

variable {α β : Type}

/-! ### Single values -/

def string : Codec (List UInt8) where
  encode := .string
  decode
    | .string s => some s
    | _ => none
  decode_encode _ := rfl

def boolean : Codec Bool where
  encode := .boolean
  decode
    | .boolean b => some b
    | _ => none
  decode_encode _ := rfl

/-- The integers from 0 to `size - 1`. -/
def unsigned (size : ℕ) (toNat : α → ℕ) (ofNat : ℕ → α) (hlt : ∀ a, toNat a < size)
    (hof : ∀ a, ofNat (toNat a) = a) : Codec α where
  encode a := .integer (toNat a)
  decode
    | .integer n => if 0 ≤ n ∧ n < size then some (ofNat n.toNat) else none
    | _ => none
  decode_encode a := by
    have hrange : (0 : ℤ) ≤ toNat a ∧ (toNat a : ℤ) < size :=
      ⟨Int.natCast_nonneg _, Int.ofNat_lt.mpr (hlt a)⟩
    dsimp only
    rw [if_pos hrange, Int.toNat_natCast, hof]

def uint16 : Codec UInt16 :=
  unsigned UInt16.size UInt16.toNat UInt16.ofNat UInt16.toNat_lt_size
    (fun _ => UInt16.ofNat_toNat)

def uint64 : Codec UInt64 :=
  unsigned UInt64.size UInt64.toNat UInt64.ofNat UInt64.toNat_lt_size
    (fun _ => UInt64.ofNat_toNat)

/-! ### Lists and maps -/

theorem mapM_map {γ : Type} {f : α → γ} {g : γ → Option β} {r : α → β}
    (h : ∀ a, g (f a) = some (r a)) (l : List α) : (l.map f).mapM g = some (l.map r) := by
  induction l with
  | nil => rfl
  | cons a l ih =>
      rw [List.map_cons, List.mapM_cons, h, ih]
      rfl

def list (c : Codec α) : Codec (List α) where
  encode l := .array (l.map c.encode)
  decode
    | .array values => values.mapM c.decode
    | _ => none
  decode_encode l := by
    dsimp only
    rw [mapM_map c.decode_encode, List.map_id']

/-- A table with any keys. -/
def map (c : Codec α) : Codec (AList fun _ : Key => α) where
  encode m := .table (m.entries.map fun entry => (entry.1, c.encode entry.2))
  decode
    | .table entries =>
        (entries.mapM fun entry => (c.decode entry.2).map (Sigma.mk entry.1)).bind fun l =>
          if h : l.keys.Nodup then some ⟨l, h⟩ else none
    | _ => none
  decode_encode m := by
    have hentry : ∀ entry : (_ : Key) × α,
        (c.decode (c.encode entry.2)).map (Sigma.mk entry.1) = some entry := by
      intro entry
      rw [c.decode_encode]
      rfl
    dsimp only
    rw [mapM_map hentry, List.map_id', Option.bind_some]
    exact dif_pos m.nodupKeys

/-! ### Fields -/

/-- Some of the fields of a record. -/
structure Fields (α : Type) where
  names : List Key
  write : α → List (Key × Value)
  read : (Key → Option Value) → Option α
  write_names : ∀ a, ((write a).map Prod.fst).Sublist names
  read_write : names.Nodup → ∀ a f, (∀ k ∈ names, f k = (write a).lookup k) → read f = some a

namespace Fields

/-- A field that has to be there. -/
def field (key : Key) (c : Codec α) : Fields α where
  names := [key]
  write a := [(key, c.encode a)]
  read f := (f key).bind c.decode
  write_names _ := .refl _
  read_write _ a f h := by
    rw [h key List.mem_cons_self, List.lookup_cons_self]
    exact c.decode_encode a

/-- A field with a default. -/
def fieldOr (key : Key) (default : α) (c : Codec α) : Fields α where
  names := [key]
  write a := [(key, c.encode a)]
  read f := (f key).elim (some default) c.decode
  write_names _ := .refl _
  read_write _ a f h := by
    rw [h key List.mem_cons_self, List.lookup_cons_self]
    exact c.decode_encode a

/-- A field that may be left out. -/
def optional (key : Key) (c : Codec α) : Fields (Option α) where
  names := [key]
  write a := a.elim [] fun a => [(key, c.encode a)]
  read f := (f key).elim (some none) fun v => (c.decode v).map some
  write_names a := by
    cases a with
    | none => exact List.nil_sublist _
    | some _ => exact .refl _
  read_write _ a f h := by
    rw [h key List.mem_cons_self]
    cases a with
    | none => rfl
    | some a =>
        dsimp only [Option.elim]
        rw [List.lookup_cons_self]
        exact congrArg (Option.map some) (c.decode_encode a)

theorem lookup_eq_none_of_notMem {k : Key} (F : Fields α) (a : α) (h : k ∉ F.names) :
    (F.write a).lookup k = none := by
  rw [List.lookup_eq_none_iff]
  intro entry hentry
  have hmem : entry.1 ∈ F.names := (F.write_names a).subset (List.mem_map_of_mem hentry)
  rw [bne_iff_ne]
  rintro rfl
  exact h hmem

/-- The fields of two parts. -/
def pair (F : Fields α) (G : Fields β) : Fields (α × β) where
  names := F.names ++ G.names
  write a := F.write a.1 ++ G.write a.2
  read f := (F.read f).bind fun a => (G.read f).map fun b => (a, b)
  write_names a := by
    rw [List.map_append]
    exact (F.write_names a.1).append (G.write_names a.2)
  read_write hn a f hf := by
    obtain ⟨hnF, hnG, h⟩ := List.nodup_append'.mp hn
    have hF : F.read f = some a.1 := by
      refine F.read_write hnF a.1 f fun k hk => ?_
      rw [hf k (List.mem_append_left _ hk), List.lookup_append,
        G.lookup_eq_none_of_notMem a.2 (h hk), Option.or_none]
    have hG : G.read f = some a.2 := by
      refine G.read_write hnG a.2 f fun k hk => ?_
      rw [hf k (List.mem_append_right _ hk), List.lookup_append,
        F.lookup_eq_none_of_notMem a.1 (h.symm hk), Option.none_or]
    rw [hF, hG]
    rfl

/-- A structure with these fields. -/
def iso (F : Fields α) (pack : α → β) (unpack : β → α) (h : ∀ b, pack (unpack b) = b) :
    Fields β where
  names := F.names
  write b := F.write (unpack b)
  read f := (F.read f).map pack
  write_names b := F.write_names (unpack b)
  read_write hn b f hf := by
    rw [F.read_write hn (unpack b) f hf, Option.map_some, h]

/-- All the fields of a record; another key is an error.  An array stands for a table, too: it has
the fields in order, and what is left of it is ignored. -/
def record (F : Fields α) (hn : F.names.Nodup) : Codec α where
  encode a := .table (F.write a)
  decode
    | .table entries =>
        if (entries.map Prod.fst).Nodup ∧ entries.all (F.names.contains ·.1) = true then
          F.read (entries.lookup ·)
        else none
    | .array values => F.read fun k => (F.names.idxOf? k).bind (values[·]?)
    | _ => none
  decode_encode a := by
    have hknown : ((F.write a).map Prod.fst).Nodup ∧
        (F.write a).all (F.names.contains ·.1) = true := by
      refine ⟨hn.sublist (F.write_names a), List.all_eq_true.mpr fun entry hentry => ?_⟩
      exact List.contains_iff_mem.mpr ((F.write_names a).subset (List.mem_map_of_mem hentry))
    dsimp only
    rw [if_pos hknown]
    exact F.read_write hn a _ fun _ _ => rfl

/-! ### What has been read -/

variable {F : Fields α} {G : Fields β} {hn : F.names.Nodup} {f : Key → Option Value}
  {entries : List (Key × Value)} {key : Key}

theorem read_pair {r : α × β} (hr : (F.pair G).read f = some r) :
    F.read f = some r.1 ∧ G.read f = some r.2 := by
  obtain ⟨a, ha, hr⟩ := Option.bind_eq_some_iff.mp hr
  obtain ⟨b, hb, rfl⟩ := Option.map_eq_some_iff.mp hr
  exact ⟨ha, hb⟩

theorem read_pair_mk {a : α} {b : β} (ha : F.read f = some a) (hb : G.read f = some b) :
    (F.pair G).read f = some (a, b) := by
  show (F.read f).bind _ = _
  rw [ha, hb]
  rfl

theorem decode_unknown {v : Value} (hmem : (key, v) ∈ entries) (hkey : key ∉ F.names) :
    (F.record hn).decode (.table entries) = none := by
  have hno : ¬ ((entries.map Prod.fst).Nodup ∧ entries.all (F.names.contains ·.1) = true) := by
    rintro ⟨-, hall⟩
    exact hkey (List.contains_iff_mem.mp (List.all_eq_true.mp hall _ hmem))
  exact if_neg hno

theorem decode_known (hnodup : (entries.map Prod.fst).Nodup)
    (hknown : entries.all (F.names.contains ·.1) = true) :
    (F.record hn).decode (.table entries) = F.read (entries.lookup ·) :=
  if_pos ⟨hnodup, hknown⟩

theorem decode_table {a : α} (hd : (F.record hn).decode (.table entries) = some a) :
    F.read (entries.lookup ·) = some a := by
  by_cases hknown : (entries.map Prod.fst).Nodup ∧ entries.all (F.names.contains ·.1) = true
  · exact (if_pos hknown).symm.trans hd
  · cases (if_neg hknown).symm.trans hd

end Fields

/-! ### What a document says -/

def IsString (v : Value) (s : List UInt8) : Prop := v = .string s

def IsBoolean (v : Value) (b : Bool) : Prop := v = .boolean b

/-- An integer from 0 to `size - 1`. -/
def IsUnsigned (size : ℕ) (toNat : α → ℕ) (v : Value) (a : α) : Prop :=
  ∃ n < size, v = .integer n ∧ n = toNat a

def IsList (P : Value → α → Prop) (v : Value) (l : List α) : Prop :=
  ∃ values, v = .array values ∧ List.Forall₂ P values l

/-- A table with any keys. -/
def IsMap (P : Value → α → Prop) (v : Value) (m : AList fun _ : Key => α) : Prop :=
  ∃ entries, v = .table entries ∧
    List.Forall₂ (fun entry (e : (_ : Key) × α) => entry.1 = e.1 ∧ P entry.2 e.2) entries m.entries

/-- A record with these keys, and what stands for each of them: a table without other keys, or an
array of the values in order. -/
inductive IsRecord (names : List Key) : Value → (Key → Option Value) → Prop
  | table {entries : List (Key × Value)} : (entries.map Prod.fst).Nodup →
      (∀ entry ∈ entries, entry.1 ∈ names) → IsRecord names (.table entries) (entries.lookup ·)
  | array {values : List Value} :
      IsRecord names (.array values) fun k => (names.idxOf? k).bind (values[·]?)

def Required (key : Key) (P : Value → α → Prop) (f : Key → Option Value) (a : α) : Prop :=
  ∃ v, f key = some v ∧ P v a

def Defaulted (key : Key) (default : α) (P : Value → α → Prop) (f : Key → Option Value) (a : α) :
    Prop :=
  f key = none ∧ a = default ∨ Required key P f a

def Optional (key : Key) (P : Value → α → Prop) (f : Key → Option Value) (a : Option α) : Prop :=
  f key = none ∧ a = none ∨ ∃ b, a = some b ∧ Required key P f b

/-- What a codec reads is what the document says. -/
def Codec.Reads (c : Codec α) (P : Value → α → Prop) : Prop :=
  ∀ v a, c.decode v = some a ↔ P v a

def Fields.Reads (F : Fields α) (P : (Key → Option Value) → α → Prop) : Prop :=
  ∀ f a, F.read f = some a ↔ P f a

theorem string_reads : string.Reads IsString := by
  intro v s
  unfold IsString
  cases v <;> simp [string]

theorem boolean_reads : boolean.Reads IsBoolean := by
  intro v b
  unfold IsBoolean
  cases v <;> simp [boolean]

theorem unsigned_reads {size : ℕ} {toNat : α → ℕ} {ofNat : ℕ → α} {hlt : ∀ a, toNat a < size}
    {hof : ∀ a, ofNat (toNat a) = a} (hto : ∀ n < size, toNat (ofNat n) = n) :
    (unsigned size toNat ofNat hlt hof).Reads (IsUnsigned size toNat) := by
  intro v a
  constructor
  · intro h
    cases v with
    | integer n =>
        obtain ⟨⟨hn, hsize⟩, ha⟩ := Option.ite_none_right_eq_some.mp h
        cases ha
        refine ⟨n.toNat, by omega, by rw [Int.toNat_of_nonneg hn], ?_⟩
        rw [hto n.toNat (by omega)]
    | _ => cases h
  · rintro ⟨n, hn, rfl, rfl⟩
    exact (unsigned size toNat ofNat hlt hof).decode_encode a

theorem uint16_reads : uint16.Reads (IsUnsigned UInt16.size UInt16.toNat) :=
  unsigned_reads fun _ => UInt16.toNat_ofNat_of_lt'

theorem uint64_reads : uint64.Reads (IsUnsigned UInt64.size UInt64.toNat) :=
  unsigned_reads fun _ => UInt64.toNat_ofNat_of_lt'

theorem mapM_eq_some_iff {γ : Type} {f : γ → Option α} {P : γ → α → Prop}
    (h : ∀ v a, f v = some a ↔ P v a) {values : List γ} {l : List α} :
    values.mapM f = some l ↔ List.Forall₂ P values l := by
  induction values generalizing l with
  | nil =>
      rw [List.mapM_nil, List.forall₂_nil_left_iff]
      exact ⟨fun h => (Option.some.inj h).symm, fun h => congrArg some h.symm⟩
  | cons v values ih =>
      rw [List.mapM_cons]
      constructor
      · intro hsome
        obtain ⟨a, ha, hsome⟩ := Option.bind_eq_some_iff.mp hsome
        obtain ⟨as, has, hsome⟩ := Option.bind_eq_some_iff.mp hsome
        cases hsome
        exact .cons ((h v a).mp ha) (ih.mp has)
      · rintro (_ | ⟨ha, has⟩)
        rw [(h v _).mpr ha, ih.mpr has]
        rfl

theorem list_reads {c : Codec α} {P : Value → α → Prop} (h : c.Reads P) :
    (list c).Reads (IsList P) := by
  intro v l
  constructor
  · intro hsome
    cases v with
    | array values => exact ⟨values, rfl, (mapM_eq_some_iff h).mp hsome⟩
    | _ => cases hsome
  · rintro ⟨values, rfl, hall⟩
    exact (mapM_eq_some_iff h).mpr hall

theorem map_reads {c : Codec α} {P : Value → α → Prop} (h : c.Reads P) :
    (map c).Reads (IsMap P) := by
  have hentry (entry : Key × Value) (e : (_ : Key) × α) :
      (c.decode entry.2).map (Sigma.mk entry.1) = some e ↔ entry.1 = e.1 ∧ P entry.2 e.2 := by
    rw [Option.map_eq_some_iff]
    constructor
    · rintro ⟨a, ha, rfl⟩
      exact ⟨rfl, (h _ a).mp ha⟩
    · obtain ⟨key, a⟩ := e
      rintro ⟨rfl, ha⟩
      exact ⟨a, (h _ a).mpr ha, rfl⟩
  intro v m
  constructor
  · intro hsome
    cases v with
    | table entries =>
        obtain ⟨l, hl, hsome⟩ := Option.bind_eq_some_iff.mp hsome
        split_ifs at hsome
        cases hsome
        exact ⟨entries, rfl, (mapM_eq_some_iff hentry).mp hl⟩
    | _ => cases hsome
  · rintro ⟨entries, rfl, hall⟩
    have hl : (entries.mapM fun entry => (c.decode entry.2).map (Sigma.mk entry.1)) =
        some m.entries := (mapM_eq_some_iff hentry).mpr hall
    simp only [map, hl, Option.bind_some]
    exact dif_pos m.nodupKeys

namespace Fields

variable {P : Value → α → Prop} {key : Key} {c : Codec α}

theorem field_reads (key : Key) (h : c.Reads P) : (field key c).Reads (Required key P) := by
  intro f a
  refine Option.bind_eq_some_iff.trans (exists_congr fun v => and_congr_right fun _ => h v a)

theorem fieldOr_reads (key : Key) (default : α) (h : c.Reads P) :
    (fieldOr key default c).Reads (Defaulted key default P) := by
  intro f a
  show (f key).elim (some default) c.decode = some a ↔ _
  unfold Defaulted Required
  cases f key with
  | none => simp [eq_comm]
  | some v => simp [h v a]

theorem optional_reads (key : Key) (h : c.Reads P) :
    (Fields.optional key c).Reads (Optional key P) := by
  intro f a
  show (f key).elim (some none) (fun v => (c.decode v).map some) = some a ↔ _
  unfold Optional Required
  cases f key with
  | none => simp [eq_comm]
  | some v => simp [h v, eq_comm, and_comm]

theorem pair_reads {F : Fields α} {G : Fields β} {P : (Key → Option Value) → α → Prop}
    {Q : (Key → Option Value) → β → Prop} (hF : F.Reads P) (hG : G.Reads Q) :
    (F.pair G).Reads fun f r => P f r.1 ∧ Q f r.2 := by
  intro f r
  constructor
  · intro h
    obtain ⟨ha, hb⟩ := read_pair h
    exact ⟨(hF f r.1).mp ha, (hG f r.2).mp hb⟩
  · rintro ⟨ha, hb⟩
    exact read_pair_mk ((hF f r.1).mpr ha) ((hG f r.2).mpr hb)

theorem iso_reads {F : Fields α} {P : (Key → Option Value) → α → Prop} {pack : α → β}
    {unpack : β → α} {hpack : ∀ b, pack (unpack b) = b} (hF : F.Reads P)
    (hunpack : ∀ a, unpack (pack a) = a) :
    (F.iso pack unpack hpack).Reads fun f b => P f (unpack b) := by
  intro f b
  refine Option.map_eq_some_iff.trans ?_
  constructor
  · rintro ⟨a, ha, rfl⟩
    rw [hunpack]
    exact (hF f a).mp ha
  · intro h
    exact ⟨unpack b, (hF f _).mpr h, hpack b⟩

theorem record_reads {F : Fields α} {hn : F.names.Nodup} {P : (Key → Option Value) → α → Prop}
    (hF : F.Reads P) : (F.record hn).Reads fun v a => ∃ f, IsRecord F.names v f ∧ P f a := by
  intro v a
  constructor
  · intro h
    cases v with
    | table entries =>
        obtain ⟨⟨hnodup, hknown⟩, hread⟩ := Option.ite_none_right_eq_some.mp h
        refine ⟨_, .table hnodup fun entry hentry => ?_, (hF _ a).mp hread⟩
        exact List.contains_iff_mem.mp (List.all_eq_true.mp hknown entry hentry)
    | array values => exact ⟨_, .array, (hF _ a).mp h⟩
    | _ => cases h
  · rintro ⟨f, hrecord, hP⟩
    cases hrecord with
    | table hnodup hknown =>
        rw [decode_known hnodup]
        · exact (hF _ a).mpr hP
        · exact List.all_eq_true.mpr fun entry hentry =>
            List.contains_iff_mem.mpr (hknown entry hentry)
    | array => exact (hF _ a).mpr hP

end Fields

/-! ### The integers of a document -/

mutual

/-- All integers have 64 bits. -/
def Value.fits : Value → Bool
  | .integer n => decide (-2 ^ 63 ≤ n ∧ n < 2 ^ 63)
  | .array values => fitsAll values
  | .table entries => fitsEntries entries
  | _ => true

def fitsAll : List Value → Bool
  | [] => true
  | v :: values => v.fits && fitsAll values

def fitsEntries : List (Key × Value) → Bool
  | [] => true
  | entry :: entries => entry.2.fits && fitsEntries entries

end

theorem fitsAll_eq (values : List Value) : fitsAll values = values.all Value.fits := by
  induction values with
  | nil => rfl
  | cons v values ih => rw [fitsAll, ih, List.all_cons]

theorem fitsEntries_eq (entries : List (Key × Value)) :
    fitsEntries entries = entries.all fun entry => entry.2.fits := by
  induction entries with
  | nil => rfl
  | cons entry entries ih => rw [fitsEntries, ih, List.all_cons]

@[simp] theorem fits_string (s : List UInt8) : (string.encode s).fits = true := rfl

@[simp] theorem fits_boolean (b : Bool) : (boolean.encode b).fits = true := rfl

@[simp] theorem fits_uint16 (n : UInt16) : (uint16.encode n).fits = true := by
  have := n.toNat_lt
  simp only [uint16, unsigned, Value.fits, decide_eq_true_eq]
  omega

@[simp] theorem fits_uint64 (n : UInt64) :
    (uint64.encode n).fits = decide (n.toNat < 2 ^ 63) := by
  simp only [uint64, unsigned, Value.fits, decide_eq_decide]
  omega

@[simp] theorem fits_list (c : Codec α) (l : List α) :
    ((list c).encode l).fits = l.all fun a => (c.encode a).fits := by
  simp only [list, Value.fits, fitsAll_eq, List.all_map]
  rfl

@[simp] theorem fits_map (c : Codec α) (m : AList fun _ : Key => α) :
    ((map c).encode m).fits = m.entries.all fun entry => (c.encode entry.2).fits := by
  simp only [map, Value.fits, fitsEntries_eq, List.all_map]
  rfl

namespace Fields

@[simp] theorem fits_record (F : Fields α) (hn : F.names.Nodup) (a : α) :
    ((F.record hn).encode a).fits = fitsEntries (F.write a) := by
  rw [record, Value.fits]

@[simp] theorem fits_field (key : Key) (c : Codec α) (a : α) :
    fitsEntries ((field key c).write a) = (c.encode a).fits := by
  simp [field, fitsEntries]

@[simp] theorem fits_fieldOr (key : Key) (default : α) (c : Codec α) (a : α) :
    fitsEntries ((fieldOr key default c).write a) = (c.encode a).fits := by
  simp [fieldOr, fitsEntries]

@[simp] theorem fits_optional (key : Key) (c : Codec α) (a : Option α) :
    fitsEntries ((Fields.optional key c).write a) = a.all fun a => (c.encode a).fits := by
  cases a <;> simp [Fields.optional, fitsEntries]

@[simp] theorem fits_pair (F : Fields α) (G : Fields β) (r : α × β) :
    fitsEntries ((F.pair G).write r) =
      (fitsEntries (F.write r.1) && fitsEntries (G.write r.2)) := by
  simp [pair, fitsEntries_eq]

@[simp] theorem fits_iso (F : Fields α) (pack : α → β) (unpack : β → α)
    (h : ∀ b, pack (unpack b) = b) (b : β) :
    fitsEntries ((F.iso pack unpack h).write b) = fitsEntries (F.write (unpack b)) := rfl

end Fields

end Toml
