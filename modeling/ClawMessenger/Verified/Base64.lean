import ClawMessenger.Verified.JsonRoundTrip

/-!
# Base64

Standard base64 with padding, three bytes to four units.  `canonicalDecode`
accepts exactly the texts the encoder prints: a decoder that drops the unused
bits of the last group would accept several spellings of the same bytes, so
the decoded bytes are printed again and compared.
-/

namespace ClawMessenger.Verified.Base64

open JsString List

/-- The 64 symbols in order. -/
def symbol (n : Nat) : UInt16 :=
  UInt16.ofNat
    (if n < 26 then 0x41 + n
    else if n < 52 then 0x61 + (n - 26)
    else if n < 62 then 0x30 + (n - 52)
    else if n = 62 then 0x2B
    else 0x2F)

def symbolValue? (u : UInt16) : Option Nat :=
  let n := u.toNat
  if 0x41 ≤ n ∧ n ≤ 0x5A then some (n - 0x41)
  else if 0x61 ≤ n ∧ n ≤ 0x7A then some (n - 0x61 + 26)
  else if 0x30 ≤ n ∧ n ≤ 0x39 then some (n - 0x30 + 52)
  else if n = 0x2B then some 62
  else if n = 0x2F then some 63
  else none

def padding : UInt16 := 0x3D

/-- `bytes.toString('base64')`. -/
def encode : List UInt8 → JsString
  | [] => []
  | [a] =>
    [symbol (a.toNat / 4), symbol (a.toNat % 4 * 16), padding, padding]
  | [a, b] =>
    [symbol (a.toNat / 4), symbol (a.toNat % 4 * 16 + b.toNat / 16),
      symbol (b.toNat % 16 * 4), padding]
  | a :: b :: c :: rest =>
    symbol (a.toNat / 4) :: symbol (a.toNat % 4 * 16 + b.toNat / 16)
      :: symbol (b.toNat % 16 * 4 + c.toNat / 64) :: symbol (c.toNat % 64) :: encode rest

/-- `Buffer.from(s, 'base64')` on texts of full groups, the last of them
possibly padded. -/
def decode : JsString → Option (List UInt8)
  | [] => some []
  | a :: b :: c :: d :: rest =>
    match symbolValue? a, symbolValue? b with
    | some va, some vb =>
      if c = padding then
        if d = padding ∧ rest = [] then some [UInt8.ofNat (va * 4 + vb / 16)] else none
      else
        match symbolValue? c with
        | none => none
        | some vc =>
          if d = padding then
            if rest = [] then
              some [UInt8.ofNat (va * 4 + vb / 16), UInt8.ofNat (vb % 16 * 16 + vc / 4)]
            else none
          else
            match symbolValue? d with
            | none => none
            | some vd =>
              (decode rest).map fun bytes =>
                UInt8.ofNat (va * 4 + vb / 16) :: UInt8.ofNat (vb % 16 * 16 + vc / 4)
                  :: UInt8.ofNat (vc % 4 * 64 + vd) :: bytes
    | _, _ => none
  | _ => none

/-- Decode only what `encode` prints, and nothing shorter than one group. -/
def canonicalDecode (s : JsString) : Option (List UInt8) :=
  if s.length < 4 then none
  else (decode s).filter fun bytes => encode bytes == s

/-! ## Round trip -/

theorem symbolValue?_symbol : ∀ n, n < 64 → symbolValue? (symbol n) = some n := by decide

theorem symbol_ne_padding : ∀ n, n < 64 → symbol n ≠ padding := by decide

private theorem ofNat_eq {n : Nat} {x : UInt8} (h : n = x.toNat) : UInt8.ofNat n = x := by
  rw [h, UInt8.ofNat_toNat]

theorem decode_encode (bytes : List UInt8) : decode (encode bytes) = some bytes := by
  induction bytes using encode.induct with
  | case1 => rfl
  | case2 a =>
    have ha := a.toNat_lt
    rw [encode, decode, symbolValue?_symbol _ (by omega), symbolValue?_symbol _ (by omega)]
    simp only [and_self, if_true]
    rw [ofNat_eq (x := a) (by omega)]
  | case3 a b =>
    have ha := a.toNat_lt
    have hb := b.toNat_lt
    rw [encode, decode, symbolValue?_symbol _ (by omega), symbolValue?_symbol _ (by omega)]
    simp only [symbol_ne_padding _ (show b.toNat % 16 * 4 < 64 by omega), if_false, if_true]
    rw [symbolValue?_symbol _ (by omega)]
    dsimp only
    rw [ofNat_eq (x := a) (by omega), ofNat_eq (x := b) (by omega)]
  | case4 a b c rest ih =>
    have ha := a.toNat_lt
    have hb := b.toNat_lt
    have hc := c.toNat_lt
    rw [encode, decode, symbolValue?_symbol _ (by omega), symbolValue?_symbol _ (by omega)]
    simp only [symbol_ne_padding _ (show b.toNat % 16 * 4 + c.toNat / 64 < 64 by omega),
      symbol_ne_padding _ (show c.toNat % 64 < 64 by omega), if_false]
    rw [symbolValue?_symbol _ (by omega), symbolValue?_symbol _ (by omega)]
    dsimp only
    rw [ih, Option.map_some, ofNat_eq (x := a) (by omega), ofNat_eq (x := b) (by omega),
      ofNat_eq (x := c) (by omega)]

theorem length_encode (bytes : List UInt8) :
    (encode bytes).length = 4 * ((bytes.length + 2) / 3) := by
  induction bytes using encode.induct with
  | case1 => rfl
  | case2 a | case3 a b => simp [encode]
  | case4 a b c rest ih =>
    simp only [encode, length_cons, ih]
    omega

theorem canonicalDecode_encode {bytes : List UInt8} (h : bytes ≠ []) :
    canonicalDecode (encode bytes) = some bytes := by
  have hpos := length_pos_iff.mpr h
  have hlen := length_encode bytes
  unfold canonicalDecode
  rw [if_neg (by omega), decode_encode]
  simp

/-! ## Symbols inside a JSON string -/

open Json (Plain)

theorem symbol_plain : ∀ n, n < 64 → Plain (symbol n) := by decide

theorem encode_plain (bytes : List UInt8) : ∀ u ∈ encode bytes, Plain u := by
  have hpad : Plain padding := by decide
  induction bytes using encode.induct with
  | case1 => simp [encode]
  | case2 a =>
    have ha := a.toNat_lt
    intro u hu
    simp only [encode, mem_cons, not_mem_nil, or_false] at hu
    rcases hu with rfl | rfl | rfl | rfl
    · exact symbol_plain _ (by omega)
    · exact symbol_plain _ (by omega)
    · exact hpad
    · exact hpad
  | case3 a b =>
    have ha := a.toNat_lt
    have hb := b.toNat_lt
    intro u hu
    simp only [encode, mem_cons, not_mem_nil, or_false] at hu
    rcases hu with rfl | rfl | rfl | rfl
    · exact symbol_plain _ (by omega)
    · exact symbol_plain _ (by omega)
    · exact symbol_plain _ (by omega)
    · exact hpad
  | case4 a b c rest ih =>
    have ha := a.toNat_lt
    have hb := b.toNat_lt
    have hc := c.toNat_lt
    intro u hu
    simp only [encode, mem_cons] at hu
    rcases hu with rfl | rfl | rfl | rfl | hu
    · exact symbol_plain _ (by omega)
    · exact symbol_plain _ (by omega)
    · exact symbol_plain _ (by omega)
    · exact symbol_plain _ (by omega)
    · exact ih u hu

end ClawMessenger.Verified.Base64
