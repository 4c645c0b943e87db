import ClawMessenger.Verified.JsonRoundTrip

/-!
# How large a value is

Two measures that a copy within limits counts: how deep arrays and objects are
nested, and the bytes of all texts and keys.  The printed value has at least the
bytes of its texts (`textBytes_le`), so a limit on the print is a limit on them.
-/

namespace ClawMessenger.Verified

namespace JsString

end JsString

namespace Json

open JsString List

/-! ## Nesting -/

mutual
/-- The arrays and objects around the innermost value. -/
def nesting : Json → Nat
  | arr items => nestingItems items + 1
  | obj fields => nestingFields fields + 1
  | _ => 0
def nestingItems : List Json → Nat
  | [] => 0
  | v :: rest => max (nesting v) (nestingItems rest)
def nestingFields : List (JsString × Json) → Nat
  | [] => 0
  | (_, v) :: rest => max (nesting v) (nestingFields rest)
end

/-! ## Texts -/

mutual
/-- The bytes of all texts and keys inside. -/
def textBytes : Json → Nat
  | str s => byteLength s
  | arr items => textBytesItems items
  | obj fields => textBytesFields fields
  | _ => 0
def textBytesItems : List Json → Nat
  | [] => 0
  | v :: rest => textBytes v + textBytesItems rest
def textBytesFields : List (JsString × Json) → Nat
  | [] => 0
  | (key, v) :: rest => byteLength key + textBytes v + textBytesFields rest
end

theorem byteLength_unit_le (u : UInt16) : byteLength [u] ≤ byteLength (escapeUnit u) := by
  have hthree : byteLength [u] ≤ 3 := by
    have := utf8EncodeChar_scalar_length_le u.toNat u.toNat_lt
    simpa [byteLength, utf8, toChars, codePoints] using this
  rw [escapeUnit]
  cases hshort : shortEscape? u with
  | some letter =>
    have hascii : u.toNat < 0x80 ∧ letter.toNat < 0x80 := by
      unfold shortEscape? at hshort
      split_ifs at hshort with h1 h2 h3 h4 h5 h6 h7 <;> cases hshort <;> subst_vars <;> decide
    have hone : byteLength [u] = 1 := by
      rw [byteLength_of_ascii]
      · rfl
      · simpa using hascii.1
    have htwo : byteLength [0x5C, letter] = 2 := by
      rw [byteLength_of_ascii]
      · rfl
      · simpa using hascii.2
    show byteLength [u] ≤ byteLength [0x5C, letter]
    omega
  | none =>
    dsimp only
    split
    · have hsix : byteLength (0x5C :: 0x75 :: hex4 u) = 6 := (printable_hex4 u).byteLength
      omega
    · exact le_rfl

theorem byteLength_escape_ge (s : JsString) : byteLength s ≤ byteLength (escape s) := by
  induction s using escape.induct with
  | case1 => exact le_rfl
  | case2 u => exact byteLength_unit_le u
  | case3 u v tail hpair ih =>
    simp only [escape, hpair, if_true]
    simp only [byteLength, utf8, toChars, codePoints, hpair, if_true, map_cons, flatMap_cons,
      length_append] at ih ⊢
    omega
  | case4 u v tail hpair ih =>
    have hunit := byteLength_unit_le u
    have hsplit : byteLength (u :: v :: tail) = byteLength [u] + byteLength (v :: tail) := by
      simp only [byteLength, utf8, toChars, codePoints, hpair, Bool.false_eq_true, if_false, map_cons,
        map_nil, flatMap_cons, flatMap_nil, length_append, length_nil]
      omega
    simp only [escape, hpair, Bool.false_eq_true, if_false]
    rw [byteLength_append _ _ (escapeUnit_shape u).closed]
    omega

theorem byteLength_quote_ge (s : JsString) : byteLength s ≤ byteLength (quote s) := by
  have hesc := byteLength_escape_ge s
  rw [quote, byteLength_mark (by decide), byteLength_append _ _ (escape_closed s)]
  omega

mutual
/-- The print has at least the bytes of the texts. -/
theorem textBytes_le : ∀ v : Json, textBytes v ≤ byteLength (stringify v)
  | null => Nat.zero_le _
  | bool _ => Nat.zero_le _
  | num _ => Nat.zero_le _
  | str s => byteLength_quote_ge s
  | arr [] => Nat.zero_le _
  | arr (v :: rest) => by
      have hv := textBytes_le v
      have hrest := textBytesItems_le rest
      rw [stringify, byteLength_mark (by decide), byteLength_append _ _ (stringify_sound v).closed]
      show textBytes v + textBytesItems rest ≤ _
      omega
  | obj [] => Nat.zero_le _
  | obj ((key, v) :: rest) => by
      have hkey := byteLength_quote_ge key
      have hv := textBytes_le v
      have hrest := textBytesFields_le rest
      rw [stringify, byteLength_mark (by decide), byteLength_append _ _ (quote_sound key).closed,
        byteLength_mark (by decide), byteLength_append _ _ (stringify_sound v).closed]
      show byteLength key + textBytes v + textBytesFields rest ≤ _
      omega
theorem textBytesItems_le : ∀ items : List Json, textBytesItems items ≤ byteLength (stringifyItems items)
  | [] => Nat.zero_le _
  | v :: rest => by
      have hv := textBytes_le v
      have hrest := textBytesItems_le rest
      rw [stringifyItems, byteLength_mark (by decide), byteLength_append _ _ (stringify_sound v).closed]
      show textBytes v + textBytesItems rest ≤ _
      omega
theorem textBytesFields_le :
    ∀ fields : List (JsString × Json), textBytesFields fields ≤ byteLength (stringifyFields fields)
  | [] => Nat.zero_le _
  | (key, v) :: rest => by
      have hkey := byteLength_quote_ge key
      have hv := textBytes_le v
      have hrest := textBytesFields_le rest
      rw [stringifyFields, byteLength_mark (by decide), byteLength_append _ _ (quote_sound key).closed,
        byteLength_mark (by decide), byteLength_append _ _ (stringify_sound v).closed]
      show byteLength key + textBytes v + textBytesFields rest ≤ _
      omega
end

end Json

end ClawMessenger.Verified
