import Mathlib.Data.List.Basic
import Mathlib.Logic.Equiv.Basic

/-!
# JSON codecs

Values of a type are written as JSON and read back.  A codec says exactly which
values are read back as they were; codecs of records are put together from
those of their fields.  A number that is not finite is written as `null`.
-/

namespace JsonCodec

/-- JSON values.  Numbers are kept as what their text was written for and reads
back as. -/
inductive Json where
  | null
  | bool (value : Bool)
  | integer (value : ℕ)
  | double (value : Float)
  | single (value : Float32)
  | string (value : String)
  | array (items : List Json)
  | object (entries : List (String × Json))

structure Codec (α : Type) where
  write : α → Json
  read : Json → Option α
  Representable : α → Prop
  read_write : ∀ value, read (write value) = some value ↔ Representable value
  ne_null : ∀ value, Representable value → write value ≠ .null

namespace Codec

variable {α β : Type}

/-! ## Scalars -/

def string : Codec String where
  write := .string
  read
    | .string value => some value
    | _ => none
  Representable _ := True
  read_write value := by simp
  ne_null value _ := by simp

def bool : Codec Bool where
  write := .bool
  read
    | .bool value => some value
    | _ => none
  Representable _ := True
  read_write value := by simp
  ne_null value _ := by simp

/-- Unsigned integers below a bound. -/
def integer (bound : ℕ) (ofNat : ℕ → α) (toNat : α → ℕ) (hbound : ∀ value, toNat value < bound)
    (hinverse : ∀ value, ofNat (toNat value) = value) : Codec α where
  write value := .integer (toNat value)
  read
    | .integer value => if value < bound then some (ofNat value) else none
    | _ => none
  Representable _ := True
  read_write value := by simp [hbound, hinverse]
  ne_null value _ := by simp

def uint8 : Codec UInt8 :=
  integer (2 ^ 8) UInt8.ofNat UInt8.toNat UInt8.toNat_lt (fun _ => UInt8.ofNat_toNat)

def uint32 : Codec UInt32 :=
  integer (2 ^ 32) UInt32.ofNat UInt32.toNat UInt32.toNat_lt (fun _ => UInt32.ofNat_toNat)

def uint64 : Codec UInt64 :=
  integer (2 ^ 64) UInt64.ofNat UInt64.toNat UInt64.toNat_lt (fun _ => UInt64.ofNat_toNat)

def double : Codec Float where
  write value := if value.isFinite then .double value else .null
  read
    | .double value => some value
    | _ => none
  Representable value := value.isFinite = true
  read_write value := by
    cases value.isFinite <;> simp
  ne_null value hfinite := by simp [hfinite]

def single : Codec Float32 where
  write value := if value.isFinite then .single value else .null
  read
    | .single value => some value
    | _ => none
  Representable value := value.isFinite = true
  read_write value := by
    cases value.isFinite <;> simp
  ne_null value hfinite := by simp [hfinite]

/-- A codec that represents every value. -/
structure Lossless (α : Type) extends Codec α where
  representable : ∀ value, Representable value

/-- The names of the variants of an enumeration. -/
def enumeration (name : α → String) (parse : String → Option α)
    (hinverse : ∀ value, parse (name value) = some value) : Codec α where
  write value := .string (name value)
  read
    | .string text => parse text
    | _ => none
  Representable _ := True
  read_write value := by simp [hinverse]
  ne_null value _ := by simp

/-! ## Arrays -/

theorem mapM_read_eq_some {codec : Codec α} (values : List α) :
    (values.map codec.write).mapM codec.read = some values ↔
      ∀ value ∈ values, codec.Representable value := by
  induction values with
  | nil => simp
  | cons value values ih =>
      rw [List.map_cons, List.mapM_cons, List.forall_mem_cons, ← codec.read_write, ← ih]
      cases codec.read (codec.write value) with
      | none => simp
      | some first =>
          cases (values.map codec.write).mapM codec.read with
          | none => simp
          | some rest => simp

def list (codec : Codec α) : Codec (List α) where
  write values := .array (values.map codec.write)
  read
    | .array items => items.mapM codec.read
    | _ => none
  Representable values := ∀ value ∈ values, codec.Representable value
  read_write := mapM_read_eq_some
  ne_null values _ := by simp

/-- Arrays of two items. -/
def pair (first : Codec α) (second : Codec β) : Codec (α × β) where
  write value := .array [first.write value.1, second.write value.2]
  read
    | .array [one, two] => (first.read one).bind fun a => (second.read two).map fun b => (a, b)
    | _ => none
  Representable value := first.Representable value.1 ∧ second.Representable value.2
  read_write value := by
    rw [← first.read_write, ← second.read_write]
    dsimp only
    cases first.read (first.write value.1) with
    | none => simp
    | some a =>
        cases second.read (second.write value.2) with
        | none => simp
        | some b => simp [Prod.ext_iff]
  ne_null value _ := by simp

/-- Arrays of three items. -/
def triple {γ : Type} (first : Codec α) (second : Codec β) (third : Codec γ) :
    Codec (α × β × γ) where
  write value := .array [first.write value.1, second.write value.2.1, third.write value.2.2]
  read
    | .array [one, two, three] =>
        (first.read one).bind fun a => (second.read two).bind fun b =>
          (third.read three).map fun c => (a, b, c)
    | _ => none
  Representable value :=
    first.Representable value.1 ∧ second.Representable value.2.1 ∧ third.Representable value.2.2
  read_write value := by
    rw [← first.read_write, ← second.read_write, ← third.read_write]
    dsimp only
    cases first.read (first.write value.1) with
    | none => simp
    | some a =>
        cases second.read (second.write value.2.1) with
        | none => simp
        | some b =>
            cases third.read (third.write value.2.2) with
            | none => simp
            | some c => simp [Prod.ext_iff]
  ne_null value _ := by simp

/-- Arrays of four items of one type. -/
def quadruple (codec : Codec α) : Codec (α × α × α × α) where
  write value := .array [codec.write value.1, codec.write value.2.1, codec.write value.2.2.1,
    codec.write value.2.2.2]
  read
    | .array [one, two, three, four] =>
        (codec.read one).bind fun a => (codec.read two).bind fun b =>
          (codec.read three).bind fun c => (codec.read four).map fun d => (a, b, c, d)
    | _ => none
  Representable value := codec.Representable value.1 ∧ codec.Representable value.2.1 ∧
    codec.Representable value.2.2.1 ∧ codec.Representable value.2.2.2
  read_write value := by
    rw [← codec.read_write, ← codec.read_write, ← codec.read_write, ← codec.read_write]
    dsimp only
    cases codec.read (codec.write value.1) with
    | none => simp
    | some a =>
        cases codec.read (codec.write value.2.1) with
        | none => simp
        | some b =>
            cases codec.read (codec.write value.2.2.1) with
            | none => simp
            | some c =>
                cases codec.read (codec.write value.2.2.2) with
                | none => simp
                | some d => simp [Prod.ext_iff]
  ne_null value _ := by simp

end Codec

/-! ## Records -/

/-- Some fields of a record: what they write and what they read of all entries
of an object. -/
structure Fields (names : List String) (α : Type) where
  write : α → List (String × Json)
  read : List (String × Json) → Option α
  Representable : α → Prop
  mem_names : ∀ value, ∀ entry ∈ write value, entry.1 ∈ names
  read_congr : ∀ first second : List (String × Json),
    (∀ name ∈ names, first.lookup name = second.lookup name) → read first = read second
  read_write : ∀ value, read (write value) = some value ↔ Representable value

namespace Fields

variable {α β : Type}

/-- A field without attributes. -/
def required (name : String) (codec : Codec α) : Fields [name] α where
  write value := [(name, codec.write value)]
  read entries := (entries.lookup name).bind codec.read
  Representable := codec.Representable
  mem_names value entry hmem := by
    rw [List.mem_singleton] at hmem
    rw [hmem]
    exact List.mem_singleton_self name
  read_congr first second hsame := by rw [hsame name (List.mem_singleton_self name)]
  read_write value := by
    rw [List.lookup_cons_self]
    exact codec.read_write value

/-- What an optional field reads: nothing for a missing field and for `null`. -/
def readOptional (codec : Codec α) : Option Json → Option (Option α)
  | none => some none
  | some .null => some none
  | some json => (codec.read json).map some

theorem readOptional_write (codec : Codec α) (value : α) :
    readOptional codec (some (codec.write value)) = some (some value) ↔
      codec.Representable value := by
  rw [← codec.read_write]
  by_cases hnull : codec.write value = .null
  · have hunread : codec.read (codec.write value) ≠ some value := by
      intro hread
      exact codec.ne_null value ((codec.read_write value).mp hread) hnull
    rw [hnull] at hunread ⊢
    simp [readOptional, hunread]
  · have hread : readOptional codec (some (codec.write value)) =
        (codec.read (codec.write value)).map some := by
      unfold readOptional
      split
      · next heq => cases heq
      · next heq => exact absurd (Option.some.inj heq) hnull
      · next heq => rw [Option.some.inj heq]
    rw [hread]
    cases codec.read (codec.write value) <;> simp

/-- An `Option`, written as `null` where there is nothing. -/
def nullable (name : String) (codec : Codec α) : Fields [name] (Option α) where
  write
    | none => [(name, .null)]
    | some value => [(name, codec.write value)]
  read entries := readOptional codec (entries.lookup name)
  Representable value := ∀ inner, value = some inner → codec.Representable inner
  mem_names value entry hmem := by
    cases value with
    | none =>
        rw [List.mem_singleton] at hmem
        rw [hmem]
        exact List.mem_singleton_self name
    | some inner =>
        rw [List.mem_singleton] at hmem
        rw [hmem]
        exact List.mem_singleton_self name
  read_congr first second hsame := by rw [hsame name (List.mem_singleton_self name)]
  read_write value := by
    cases value with
    | none =>
        dsimp only
        rw [List.lookup_cons_self]
        simp [readOptional]
    | some inner =>
        dsimp only
        rw [List.lookup_cons_self, readOptional_write]
        simp

/-- An `Option` of a record with defaults of its own: a missing field is the
default, `null` is nothing. -/
def nullableDefault (name : String) (codec : Codec α) (fallback : Option α) :
    Fields [name] (Option α) where
  write
    | none => [(name, .null)]
    | some value => [(name, codec.write value)]
  read entries :=
    match entries.lookup name with
    | none => some fallback
    | some json => readOptional codec (some json)
  Representable value := ∀ inner, value = some inner → codec.Representable inner
  mem_names := (nullable name codec).mem_names
  read_congr first second hsame := by rw [hsame name (List.mem_singleton_self name)]
  read_write value := by
    cases value with
    | none =>
        dsimp only
        rw [List.lookup_cons_self]
        simp [readOptional]
    | some inner =>
        dsimp only
        rw [List.lookup_cons_self]
        dsimp only
        rw [readOptional_write]
        simp

/-- `skip_serializing_if = "Option::is_none"`. -/
def optional (name : String) (codec : Codec α) : Fields [name] (Option α) where
  write
    | none => []
    | some value => [(name, codec.write value)]
  read entries := readOptional codec (entries.lookup name)
  Representable value := ∀ inner, value = some inner → codec.Representable inner
  mem_names value entry hmem := by
    cases value with
    | none => cases hmem
    | some inner =>
        rw [List.mem_singleton] at hmem
        rw [hmem]
        exact List.mem_singleton_self name
  read_congr first second hsame := by rw [hsame name (List.mem_singleton_self name)]
  read_write value := by
    cases value with
    | none => simp [readOptional]
    | some inner =>
        dsimp only
        rw [List.lookup_cons_self, readOptional_write]
        simp

/-- `serde(default)`, with or without a test that skips the default. -/
def defaulted (name : String) (codec : Codec α) (fallback : α) (skip : α → Bool)
    (hskip : ∀ value, skip value = true → value = fallback) : Fields [name] α where
  write value := if skip value then [] else [(name, codec.write value)]
  read entries :=
    match entries.lookup name with
    | none => some fallback
    | some json => codec.read json
  Representable value := skip value = false → codec.Representable value
  mem_names value entry hmem := by
    split at hmem
    · cases hmem
    · rw [List.mem_singleton] at hmem
      rw [hmem]
      exact List.mem_singleton_self name
  read_congr first second hsame := by rw [hsame name (List.mem_singleton_self name)]
  read_write value := by
    cases hskipped : skip value with
    | true =>
        rw [if_pos rfl]
        simp [hskip value hskipped]
    | false =>
        rw [if_neg Bool.false_ne_true, List.lookup_cons_self]
        simp [codec.read_write]

/-- `serde(default)` alone. -/
def withDefault (name : String) (codec : Codec α) (fallback : α) : Fields [name] α :=
  defaulted name codec fallback (fun _ => false) nofun

/-- A vector that is left out when it is empty. -/
def vector (name : String) (codec : Codec (List α)) : Fields [name] (List α) :=
  defaulted name codec [] List.isEmpty fun _ hempty => List.isEmpty_iff.mp hempty

/-- A flag that is left out when it is not set. -/
def flag (name : String) : Fields [name] Bool :=
  defaulted name Codec.bool false (fun value => !value) fun _ hunset =>
    Bool.not_eq_true' _ ▸ hunset

theorem lookup_eq_none {entries : List (String × Json)} {name : String} {names : List String}
    (hnames : ∀ entry ∈ entries, entry.1 ∈ names) (hname : name ∉ names) :
    entries.lookup name = none := by
  rw [List.lookup_eq_none_iff]
  intro entry hmem
  rw [bne_iff_ne]
  intro heq
  rw [heq] at hname
  exact hname (hnames entry hmem)

/-- The fields of two records with different names. -/
def both {names others : List String} (first : Fields names α) (second : Fields others β)
    (hdisjoint : ∀ name ∈ names, name ∉ others) : Fields (names ++ others) (α × β) where
  write value := first.write value.1 ++ second.write value.2
  read entries := (first.read entries).bind fun a => (second.read entries).map fun b => (a, b)
  Representable value := first.Representable value.1 ∧ second.Representable value.2
  mem_names value entry hmem := by
    rw [List.mem_append] at hmem ⊢
    exact hmem.imp (first.mem_names value.1 entry) (second.mem_names value.2 entry)
  read_congr one two hsame := by
    rw [first.read_congr one two fun name hname => hsame name (List.mem_append_left _ hname),
      second.read_congr one two fun name hname => hsame name (List.mem_append_right _ hname)]
  read_write value := by
    have hfirst : first.read (first.write value.1 ++ second.write value.2) =
        first.read (first.write value.1) := by
      apply first.read_congr
      intro name hname
      rw [List.lookup_append,
        lookup_eq_none (second.mem_names value.2) (hdisjoint name hname), Option.or_none]
    have hsecond : second.read (first.write value.1 ++ second.write value.2) =
        second.read (second.write value.2) := by
      apply second.read_congr
      intro name hname
      have hother : name ∉ names := fun hin => hdisjoint name hin hname
      rw [List.lookup_append, lookup_eq_none (first.mem_names value.1) hother, Option.none_or]
    rw [hfirst, hsecond, ← first.read_write, ← second.read_write]
    cases first.read (first.write value.1) with
    | none => simp
    | some a =>
        cases second.read (second.write value.2) with
        | none => simp
        | some b => simp [Prod.ext_iff]

/-- A record, given what its fields are together. -/
def record {names : List String} (fields : Fields names α) (make : α ≃ β) : Codec β where
  write value := .object (fields.write (make.symm value))
  read
    | .object entries => (fields.read entries).map make
    | _ => none
  Representable value := fields.Representable (make.symm value)
  read_write value := by
    rw [← fields.read_write]
    cases hread : fields.read (fields.write (make.symm value)) with
    | none => simp [hread]
    | some found =>
        simp only [hread, Option.map_some, Option.some_inj]
        exact (Equiv.eq_symm_apply make).symm
  ne_null value _ := by simp

end Fields

end JsonCodec
