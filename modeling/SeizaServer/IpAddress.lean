import Mathlib.Tactic

/-!
# IP addresses and their text

The display and the parser of the standard library's `IpAddr`.  Texts are lists
of characters; a reader either consumes a prefix of its input or fails and
consumes nothing.
-/

namespace SeizaServer

inductive IpAddr where
  | v4 (address : BitVec 32)
  | v6 (address : BitVec 128)
  deriving DecidableEq

/-- The groups of bits of a number, the highest first. -/
def groupsOf (width count value : ℕ) : List ℕ :=
  (List.range count).map fun index => value / 2 ^ (width * (count - 1 - index)) % 2 ^ width

def ofGroups (width : ℕ) (groups : List ℕ) : ℕ :=
  groups.foldl (fun value group => value * 2 ^ width + group) 0

/-! ## Display -/

/-- At most this many digits, without leading zeros. -/
def digitsOf (radix : ℕ) : ℕ → ℕ → List Char
  | 0, _ => []
  | count + 1, value =>
      (if value < radix then [] else digitsOf radix count (value / radix)) ++
        [Nat.digitChar (value % radix)]

def ipv4Text (address : BitVec 32) : List Char :=
  ['.'].intercalate ((groupsOf 8 4 address.toNat).map (digitsOf 10 3))

def segmentsText (segments : List ℕ) : List Char :=
  [':'].intercalate (segments.map (digitsOf 16 4))

/-- A run of zero segments. -/
structure ZeroSpan where
  start : ℕ
  length : ℕ

/-- The first longest run of zeros. -/
def longestZeros : ℕ → ZeroSpan → ZeroSpan → List ℕ → ZeroSpan
  | _, longest, _, [] => longest
  | index, longest, current, segment :: rest =>
      if segment = 0 then
        let current : ZeroSpan :=
          ⟨if current.length = 0 then index else current.start, current.length + 1⟩
        longestZeros (index + 1) (if longest.length < current.length then current else longest)
          current rest
      else longestZeros (index + 1) longest ⟨0, 0⟩ rest

def ipv6Text (address : BitVec 128) : List Char :=
  let segments := groupsOf 16 8 address.toNat
  -- `to_ipv4_mapped`
  if address.toNat / 2 ^ 32 = 0xffff then
    "::ffff:".toList ++ ipv4Text (BitVec.ofNat 32 address.toNat)
  else
    let zeros := longestZeros 0 ⟨0, 0⟩ ⟨0, 0⟩ segments
    if 1 < zeros.length then
      segmentsText (segments.take zeros.start) ++ [':', ':'] ++
        segmentsText (segments.drop (zeros.start + zeros.length))
    else segmentsText segments

namespace IpAddr

/-- `to_string`. -/
def toText : IpAddr → List Char
  | .v4 address => ipv4Text address
  | .v6 address => ipv6Text address

end IpAddr

/-! ## Parser -/

/-- `char::to_digit`. -/
def toDigit (radix : ℕ) (c : Char) : Option ℕ :=
  if '0' ≤ c ∧ c ≤ '9' then if c.toNat - 48 < radix then some (c.toNat - 48) else none
  else if 'a' ≤ c ∧ c ≤ 'f' then if c.toNat - 87 < radix then some (c.toNat - 87) else none
  else if 'A' ≤ c ∧ c ≤ 'F' then if c.toNat - 55 < radix then some (c.toNat - 55) else none
  else none

def readGivenChar (target : Char) : List Char → Option (List Char)
  | [] => none
  | c :: rest => if c = target then some rest else none

/-- A separator goes before every item but the first. -/
def readSeparator {α : Type} (sep : Char) (index : ℕ) (inner : List Char → Option (α × List Char))
    (chars : List Char) : Option (α × List Char) :=
  if 0 < index then (readGivenChar sep chars).bind inner else inner chars

def readNumber (radix maxDigits bound : ℕ) (allowZeroPrefix : Bool) (chars : List Char) :
    Option (ℕ × List Char) :=
  let digits := (chars.takeWhile fun c => (toDigit radix c).isSome).filterMap (toDigit radix)
  let value := digits.foldl (fun value digit => value * radix + digit) 0
  if maxDigits < digits.length ∨ digits = [] then none
  else if allowZeroPrefix = false ∧ chars.head? = some '0' ∧ 1 < digits.length then none
  else if value < bound then some (value, chars.drop digits.length)
  else none

def readIpv4Addr (chars : List Char) : Option (BitVec 32 × List Char) := do
  let octet := readNumber 10 3 256 false
  let (first, chars) ← readSeparator '.' 0 octet chars
  let (second, chars) ← readSeparator '.' 1 octet chars
  let (third, chars) ← readSeparator '.' 2 octet chars
  let (fourth, chars) ← readSeparator '.' 3 octet chars
  return (BitVec.ofNat 32 (ofGroups 8 [first, second, third, fourth]), chars)

/-- Up to so many more segments, the last two of them possibly written as an
IPv4 address; the flag tells whether they were. -/
def readGroups (limit : ℕ) : ℕ → List Char → List ℕ × Bool × List Char
  | 0, chars => ([], false, chars)
  | remaining + 1, chars =>
      let index := limit - (remaining + 1)
      match if 0 < remaining then readSeparator ':' index readIpv4Addr chars else none with
      | some (address, rest) => (groupsOf 16 2 address.toNat, true, rest)
      | none =>
          match readSeparator ':' index (readNumber 16 4 65536 true) chars with
          | some (group, rest) =>
              let (groups, embedded, rest) := readGroups limit remaining rest
              (group :: groups, embedded, rest)
          | none => ([], false, chars)

def readIpv6Addr (chars : List Char) : Option (BitVec 128 × List Char) :=
  let (front, embedded, chars) := readGroups 8 8 chars
  if front.length = 8 then some (BitVec.ofNat 128 (ofGroups 16 front), chars)
  -- an embedded IPv4 address is not allowed before `::`
  else if embedded then none
  else do
    let chars ← readGivenChar ':' chars
    let chars ← readGivenChar ':' chars
    let limit := 8 - (front.length + 1)
    let (back, _, chars) := readGroups limit limit chars
    let zeros := List.replicate (8 - back.length - front.length) 0
    return (BitVec.ofNat 128 (ofGroups 16 (front ++ zeros ++ back)), chars)

namespace IpAddr

/-- `str::parse::<IpAddr>`. -/
def parse (chars : List Char) : Option IpAddr := do
  let (address, rest) ← match readIpv4Addr chars with
    | some (address, rest) => some (IpAddr.v4 address, rest)
    | none => (readIpv6Addr chars).map fun read => (IpAddr.v6 read.1, read.2)
  if rest = [] then some address else none

end IpAddr

example : IpAddr.parse "2001:db8::192.0.2.1".toList = some (.v6 0x20010db80000000000000000c0000201#128) := by
  decide

example : IpAddr.toText (.v6 0x20010db8000000000001000000000001#128) = "2001:db8::1:0:0:1".toList := by
  decide

/-! ## The characters of a text -/

/-- Digits, dots and colons. -/
def isAddressChar (c : Char) : Bool :=
  c ∈ "0123456789abcdef.:".toList

theorem isAddressChar_digitChar {digit : ℕ} (hdigit : digit < 16) :
    isAddressChar (Nat.digitChar digit) = true := by
  have hall : ∀ digit : Fin 16, isAddressChar (Nat.digitChar digit) = true := by decide
  exact hall ⟨digit, hdigit⟩

/-- A text that is not empty and has address characters only. -/
structure IsAddressText (chars : List Char) : Prop where
  ne_nil : chars ≠ []
  all : ∀ c ∈ chars, isAddressChar c = true

theorem isAddressText_digitsOf {radix : ℕ} (hpos : 0 < radix) (hradix : radix ≤ 16)
    (count value : ℕ) : IsAddressText (digitsOf radix (count + 1) value) := by
  have hlast : isAddressChar (Nat.digitChar (value % radix)) = true := by
    have hlt := Nat.mod_lt value hpos
    exact isAddressChar_digitChar (by omega)
  induction count generalizing value with
  | zero =>
      constructor
      · simp [digitsOf]
      · intro c hmem
        have hsame : c = Nat.digitChar (value % radix) := by
          simpa [digitsOf] using hmem
        rw [hsame]
        exact hlast
  | succ count ih =>
      rw [digitsOf]
      constructor
      · simp
      · intro c hmem
        rw [List.mem_append, List.mem_singleton] at hmem
        cases hmem with
        | inl hfront =>
            split_ifs at hfront
            · cases hfront
            · have hlt := Nat.mod_lt (value / radix) hpos
              exact (ih (value / radix) (isAddressChar_digitChar (by omega))).all c hfront
        | inr hsame =>
            rw [hsame]
            exact hlast

theorem all_intercalate {sep : List Char} {parts : List (List Char)}
    (hsep : ∀ c ∈ sep, isAddressChar c = true)
    (hparts : ∀ part ∈ parts, ∀ c ∈ part, isAddressChar c = true) :
    ∀ c ∈ sep.intercalate parts, isAddressChar c = true := by
  intro c hmem
  rw [List.intercalate, List.mem_flatten] at hmem
  obtain ⟨part, hpart, hc⟩ := hmem
  induction parts with
  | nil => cases hpart
  | cons first rest ih =>
      cases rest with
      | nil =>
          rw [List.intersperse_singleton, List.mem_singleton] at hpart
          exact hparts first List.mem_cons_self c (hpart ▸ hc)
      | cons second rest =>
          rw [List.intersperse_cons_cons] at hpart
          rw [List.mem_cons, List.mem_cons] at hpart
          rcases hpart with hfirst | hmiddle | hlater
          · exact hparts first List.mem_cons_self c (hfirst ▸ hc)
          · exact hsep c (hmiddle ▸ hc)
          · exact ih (fun part hmem => hparts part (List.mem_cons_of_mem first hmem)) hlater

theorem all_segmentsText (segments : List ℕ) :
    ∀ c ∈ segmentsText segments, isAddressChar c = true := by
  apply all_intercalate
  · exact List.all_eq_true.mp (by decide)
  · intro part hpart
    obtain ⟨segment, _, heq⟩ := List.mem_map.mp hpart
    rw [← heq]
    exact (isAddressText_digitsOf (by omega) (by omega) 3 segment).all

theorem intercalate_ne_nil {sep first : List Char} {rest : List (List Char)} (hfirst : first ≠ []) :
    sep.intercalate (first :: rest) ≠ [] := by
  cases rest with
  | nil => simpa [List.intercalate] using hfirst
  | cons second rest => simp [List.intercalate, hfirst]

theorem isAddressText_ipv4Text (address : BitVec 32) : IsAddressText (ipv4Text address) := by
  constructor
  · exact intercalate_ne_nil (isAddressText_digitsOf (by omega) (by omega) 2 _).ne_nil
  · apply all_intercalate
    · exact List.all_eq_true.mp (by decide)
    · intro part hpart
      obtain ⟨octet, _, heq⟩ := List.mem_map.mp hpart
      rw [← heq]
      exact (isAddressText_digitsOf (by omega) (by omega) 2 octet).all

theorem isAddressText_ipv6Text (address : BitVec 128) : IsAddressText (ipv6Text address) := by
  have hmapped : ∀ c ∈ "::ffff:".toList, isAddressChar c = true :=
    List.all_eq_true.mp (by decide)
  have hcolons : ∀ c ∈ [':', ':'], isAddressChar c = true := List.all_eq_true.mp (by decide)
  unfold ipv6Text
  simp only
  split_ifs
  · constructor
    · simp
    · intro c hmem
      rw [List.mem_append] at hmem
      cases hmem with
      | inl hfront => exact hmapped c hfront
      | inr hback => exact (isAddressText_ipv4Text _).all c hback
  · constructor
    · simp
    · intro c hmem
      rw [List.mem_append, List.mem_append] at hmem
      rcases hmem with (hfront | hmiddle) | hback
      · exact all_segmentsText _ c hfront
      · exact hcolons c hmiddle
      · exact all_segmentsText _ c hback
  · constructor
    · exact intercalate_ne_nil (isAddressText_digitsOf (by omega) (by omega) 3 _).ne_nil
    · exact all_segmentsText _

theorem IpAddr.isAddressText (address : IpAddr) : IsAddressText address.toText := by
  cases address with
  | v4 address => exact isAddressText_ipv4Text address
  | v6 address => exact isAddressText_ipv6Text address

end SeizaServer
