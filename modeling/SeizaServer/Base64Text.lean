import Mathlib.Tactic

/-!
# Base64 with padding

Groups of three bytes are four symbols of six bits.  The decoder takes the padding
that the encoder writes and no other, and no bits that the padding stands for.
-/

namespace SeizaServer.Base64

def alphabet : List Char :=
  "ABCDEFGHIJKLMNOPQRSTUVWXYZabcdefghijklmnopqrstuvwxyz0123456789+/".toList

def symbol (value : ℕ) : Char := alphabet.getD value '='

def valueOf (c : Char) : Option ℕ := alphabet.findIdx? (· == c)

def byte (value : ℕ) : UInt8 := UInt8.ofNat value

def encode : List UInt8 → List Char
  | [] => []
  | [a] => [symbol (a.toNat / 4), symbol (a.toNat % 4 * 16), '=', '=']
  | [a, b] =>
      [symbol (a.toNat / 4), symbol (a.toNat % 4 * 16 + b.toNat / 16),
        symbol (b.toNat % 16 * 4), '=']
  | a :: b :: c :: rest =>
      symbol (a.toNat / 4) :: symbol (a.toNat % 4 * 16 + b.toNat / 16) ::
        symbol (b.toNat % 16 * 4 + c.toNat / 64) :: symbol (c.toNat % 64) :: encode rest

/-- The last group. -/
def decodePadded (first second : ℕ) (third fourth : Char) : Option (List UInt8) :=
  if third = '=' ∧ fourth = '=' then
    if second % 16 = 0 then some [byte (first * 4 + second / 16)] else none
  else if fourth = '=' then
    match valueOf third with
    | some third =>
        if third % 4 = 0 then
          some [byte (first * 4 + second / 16), byte (second % 16 * 16 + third / 4)]
        else none
    | none => none
  else none

def decode : List Char → Option (List UInt8)
  | [] => some []
  | c₁ :: c₂ :: c₃ :: c₄ :: rest =>
      match valueOf c₁, valueOf c₂, valueOf c₃, valueOf c₄ with
      | some first, some second, some third, some fourth =>
          (decode rest).map fun bytes =>
            byte (first * 4 + second / 16) ::
              byte (second % 16 * 16 + third / 4) ::
              byte (third % 4 * 64 + fourth) :: bytes
      | some first, some second, _, _ =>
          if rest.isEmpty then decodePadded first second c₃ c₄ else none
      | _, _, _, _ => none
  | _ => none

/-! ## Symbols -/

theorem length_alphabet : alphabet.length = 64 := by decide

theorem value_symbol {value : ℕ} (hvalue : value < 64) : valueOf (symbol value) = some value := by
  have hall : ∀ value < 64, valueOf (symbol value) = some value := by decide +kernel
  exact hall value hvalue

theorem value_pad : valueOf '=' = none := by decide +kernel

theorem symbol_of_value {c : Char} {value : ℕ} (hvalue : valueOf c = some value) :
    value < 64 ∧ symbol value = c := by
  unfold valueOf at hvalue
  rw [List.findIdx?_eq_some_iff_getElem] at hvalue
  obtain ⟨hlength, hc, -⟩ := hvalue
  refine ⟨length_alphabet ▸ hlength, ?_⟩
  unfold symbol
  rw [List.getD_eq_getElem?_getD, List.getElem?_eq_getElem hlength]
  exact beq_iff_eq.mp hc

theorem symbol_ne_pad {value : ℕ} (hvalue : value < 64) : symbol value ≠ '=' := by
  intro hpad
  have hsymbol := value_symbol hvalue
  rw [hpad, value_pad] at hsymbol
  cases hsymbol

/-! ## Round trips -/

theorem byte_eq {b : UInt8} {value : ℕ} (hvalue : value = b.toNat) : byte value = b := by
  unfold byte
  rw [hvalue, UInt8.ofNat_toNat]

theorem toNat_byte {value : ℕ} (hvalue : value < 256) : (byte value).toNat = value := by
  unfold byte
  rw [UInt8.toNat_ofNat']
  exact Nat.mod_eq_of_lt hvalue

theorem decode_encode (bytes : List UInt8) : decode (encode bytes) = some bytes := by
  induction bytes using encode.induct with
  | case1 => rfl
  | case2 a =>
      have ha := a.toNat_lt
      have hfirst := @value_symbol (a.toNat / 4) (by omega)
      have hsecond := @value_symbol (a.toNat % 4 * 16) (by omega)
      simp only [encode, decode, hfirst, hsecond, value_pad, decodePadded, List.isEmpty_nil,
        and_self, if_true]
      rw [if_pos (by omega)]
      have hbyte : byte (a.toNat / 4 * 4 + a.toNat % 4 * 16 / 16) = a := byte_eq (by omega)
      rw [hbyte]
  | case3 a b =>
      have ha := a.toNat_lt
      have hb := b.toNat_lt
      have hfirst := @value_symbol (a.toNat / 4) (by omega)
      have hsecond := @value_symbol (a.toNat % 4 * 16 + b.toNat / 16) (by omega)
      have hthird := @value_symbol (b.toNat % 16 * 4) (by omega)
      have hplain := @symbol_ne_pad (b.toNat % 16 * 4) (by omega)
      have hbyteA : byte (a.toNat / 4 * 4 + (a.toNat % 4 * 16 + b.toNat / 16) / 16) = a :=
        byte_eq (by omega)
      have hbyteB : byte ((a.toNat % 4 * 16 + b.toNat / 16) % 16 * 16 +
          b.toNat % 16 * 4 / 4) = b := byte_eq (by omega)
      simp only [encode, decode, hfirst, hsecond, hthird, hplain, value_pad, decodePadded,
        List.isEmpty_nil, false_and, if_false, if_true]
      rw [if_pos (by omega), hbyteA, hbyteB]
  | case4 a b c rest ih =>
      have ha := a.toNat_lt
      have hb := b.toNat_lt
      have hc := c.toNat_lt
      have hfirst := @value_symbol (a.toNat / 4) (by omega)
      have hsecond := @value_symbol (a.toNat % 4 * 16 + b.toNat / 16) (by omega)
      have hthird := @value_symbol (b.toNat % 16 * 4 + c.toNat / 64) (by omega)
      have hfourth := @value_symbol (c.toNat % 64) (by omega)
      have hbyteA : byte (a.toNat / 4 * 4 + (a.toNat % 4 * 16 + b.toNat / 16) / 16) = a :=
        byte_eq (by omega)
      have hbyteB : byte ((a.toNat % 4 * 16 + b.toNat / 16) % 16 * 16 +
          (b.toNat % 16 * 4 + c.toNat / 64) / 4) = b := byte_eq (by omega)
      have hbyteC : byte ((b.toNat % 16 * 4 + c.toNat / 64) % 4 * 64 + c.toNat % 64) = c :=
        byte_eq (by omega)
      simp only [encode, decode, hfirst, hsecond, hthird, hfourth, ih, Option.map_some, hbyteA,
        hbyteB, hbyteC]

/-- A last group is what the encoder writes for its bytes. -/
theorem encode_of_decodePadded {c₁ c₂ c₃ c₄ : Char} {first second : ℕ} {bytes : List UInt8}
    (hfirst : valueOf c₁ = some first) (hsecond : valueOf c₂ = some second)
    (hdecodes : decodePadded first second c₃ c₄ = some bytes) :
    encode bytes = [c₁, c₂, c₃, c₄] := by
  obtain ⟨hlt₁, hc₁⟩ := symbol_of_value hfirst
  obtain ⟨hlt₂, hc₂⟩ := symbol_of_value hsecond
  unfold decodePadded at hdecodes
  split_ifs at hdecodes with hpads hbits hpad
  · cases hdecodes
    have ha := @toNat_byte (first * 4 + second / 16) (by omega)
    have hvalue₁ : (first * 4 + second / 16) / 4 = first := by omega
    have hvalue₂ : (first * 4 + second / 16) % 4 * 16 = second := by omega
    simp only [encode, ha, hvalue₁, hvalue₂, hc₁, hc₂, hpads.1, hpads.2]
  · split at hdecodes
    next third hthird =>
      obtain ⟨hlt₃, hc₃⟩ := symbol_of_value hthird
      split_ifs at hdecodes with hzero
      cases hdecodes
      have ha := @toNat_byte (first * 4 + second / 16) (by omega)
      have hb := @toNat_byte (second % 16 * 16 + third / 4) (by omega)
      have hvalue₁ : (first * 4 + second / 16) / 4 = first := by omega
      have hvalue₂ : (first * 4 + second / 16) % 4 * 16 + (second % 16 * 16 + third / 4) / 16 =
          second := by omega
      have hvalue₃ : (second % 16 * 16 + third / 4) % 16 * 4 = third := by omega
      simp only [encode, ha, hb, hvalue₁, hvalue₂, hvalue₃, hc₁, hc₂, hc₃, hpad]
    next => cases hdecodes

theorem encode_of_decode {text : List Char} {bytes : List UInt8}
    (hdecodes : decode text = some bytes) : encode bytes = text := by
  induction text using decode.induct generalizing bytes with
  | case1 =>
      cases hdecodes
      rfl
  | case2 c₁ c₂ c₃ c₄ rest first second third fourth hfourth hthird hsecond hfirst ih =>
      simp only [decode, hfirst, hsecond, hthird, hfourth, Option.map_eq_some_iff] at hdecodes
      obtain ⟨later, hlater, rfl⟩ := hdecodes
      obtain ⟨hlt₁, hc₁⟩ := symbol_of_value hfirst
      obtain ⟨hlt₂, hc₂⟩ := symbol_of_value hsecond
      obtain ⟨hlt₃, hc₃⟩ := symbol_of_value hthird
      obtain ⟨hlt₄, hc₄⟩ := symbol_of_value hfourth
      have ha := @toNat_byte (first * 4 + second / 16) (by omega)
      have hb := @toNat_byte (second % 16 * 16 + third / 4) (by omega)
      have hc := @toNat_byte (third % 4 * 64 + fourth) (by omega)
      have hvalue₁ : (first * 4 + second / 16) / 4 = first := by omega
      have hvalue₂ : (first * 4 + second / 16) % 4 * 16 + (second % 16 * 16 + third / 4) / 16 =
          second := by omega
      have hvalue₃ : (second % 16 * 16 + third / 4) % 16 * 4 + (third % 4 * 64 + fourth) / 64 =
          third := by omega
      have hvalue₄ : (third % 4 * 64 + fourth) % 64 = fourth := by omega
      simp only [encode, ha, hb, hc, hvalue₁, hvalue₂, hvalue₃, hvalue₄, hc₁, hc₂, hc₃, hc₄,
        ih hlater]
  | case3 c₁ c₂ c₃ c₄ rest first second hsecond hfirst hend hneither =>
      simp only [decode, hfirst, hsecond, hend, if_true] at hdecodes
      rw [List.isEmpty_iff] at hend
      subst hend
      exact encode_of_decodePadded hfirst hsecond hdecodes
  | case4 c₁ c₂ c₃ c₄ rest first second hsecond hfirst hmore hneither =>
      simp only [decode, hfirst, hsecond, hmore] at hdecodes
      cases hdecodes
  | case5 c₁ c₂ c₃ c₄ rest hneither hnone =>
      simp only [decode] at hdecodes
      cases hdecodes
  | case6 text hnil hgroup =>
      rw [decode.eq_3 text hnil hgroup] at hdecodes
      cases hdecodes

theorem decode_eq_some {text : List Char} {bytes : List UInt8} :
    decode text = some bytes ↔ text = encode bytes := by
  constructor
  · intro hdecodes
    exact (encode_of_decode hdecodes).symm
  · rintro rfl
    exact decode_encode bytes

theorem symbol_mem {value : ℕ} (hvalue : value < 64) : symbol value ∈ alphabet := by
  rw [← length_alphabet] at hvalue
  unfold symbol
  rw [List.getD_eq_getElem?_getD, List.getElem?_eq_getElem hvalue]
  exact List.getElem_mem hvalue

theorem mem_encode {bytes : List UInt8} {c : Char} (hmem : c ∈ encode bytes) :
    c ∈ '=' :: alphabet := by
  induction bytes using encode.induct with
  | case1 => cases hmem
  | case2 a =>
      have ha := a.toNat_lt
      have hfirst := @symbol_mem (a.toNat / 4) (by omega)
      have hsecond := @symbol_mem (a.toNat % 4 * 16) (by omega)
      simp only [encode, List.mem_cons, List.not_mem_nil, or_false] at hmem
      rcases hmem with rfl | rfl | rfl | rfl
      · exact List.mem_cons_of_mem _ hfirst
      · exact List.mem_cons_of_mem _ hsecond
      · exact List.mem_cons_self
      · exact List.mem_cons_self
  | case3 a b =>
      have ha := a.toNat_lt
      have hb := b.toNat_lt
      have hfirst := @symbol_mem (a.toNat / 4) (by omega)
      have hsecond := @symbol_mem (a.toNat % 4 * 16 + b.toNat / 16) (by omega)
      have hthird := @symbol_mem (b.toNat % 16 * 4) (by omega)
      simp only [encode, List.mem_cons, List.not_mem_nil, or_false] at hmem
      rcases hmem with rfl | rfl | rfl | rfl
      · exact List.mem_cons_of_mem _ hfirst
      · exact List.mem_cons_of_mem _ hsecond
      · exact List.mem_cons_of_mem _ hthird
      · exact List.mem_cons_self
  | case4 a b d rest ih =>
      have ha := a.toNat_lt
      have hb := b.toNat_lt
      have hd := d.toNat_lt
      have hfirst := @symbol_mem (a.toNat / 4) (by omega)
      have hsecond := @symbol_mem (a.toNat % 4 * 16 + b.toNat / 16) (by omega)
      have hthird := @symbol_mem (b.toNat % 16 * 4 + d.toNat / 64) (by omega)
      have hfourth := @symbol_mem (d.toNat % 64) (by omega)
      simp only [encode, List.mem_cons] at hmem
      rcases hmem with rfl | rfl | rfl | rfl | hrest
      · exact List.mem_cons_of_mem _ hfirst
      · exact List.mem_cons_of_mem _ hsecond
      · exact List.mem_cons_of_mem _ hthird
      · exact List.mem_cons_of_mem _ hfourth
      · exact ih hrest

end SeizaServer.Base64
