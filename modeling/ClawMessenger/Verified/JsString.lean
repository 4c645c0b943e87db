import Mathlib

/-!
# UTF-16 strings and their UTF-8 bytes

A JavaScript string is a sequence of UTF-16 code units in which surrogates
need not be paired.  Lengths, trimming and key comparison all work on the
units; regular expressions with the `u` flag and the UTF-8 coder work on code
points, where a high surrogate directly followed by a low one counts as one
supplementary character.

The coder itself is Lean's own (`String.utf8EncodeChar`,
`ByteArray.utf8Decode?`).  What this module adds is the passage between units
and characters: `ofChars` and `toChars` are inverse to each other on strings
without lone surrogates, so decoding the bytes of such a string gives it back.

## Main results

* `codePoints_append` — a string that does not end inside a surrogate pair
  contributes its code points unchanged to whatever follows it.
* `decodeUtf8_utf8` — UTF-8 coding loses nothing on well-formed strings.
* `byteLength_append` — byte lengths add up along such splits.
-/

namespace ClawMessenger.Verified

open List

/-- A JavaScript string as its UTF-16 code units. -/
abbrev JsString := List UInt16

namespace JsString

/-! ## Units and code points -/

def isHighSurrogate (u : UInt16) : Bool := 0xD800 ≤ u.toNat && u.toNat < 0xDC00

def isLowSurrogate (u : UInt16) : Bool := 0xDC00 ≤ u.toNat && u.toNat < 0xE000

/-- The supplementary code point written by a surrogate pair. -/
def pairPoint (hi lo : UInt16) : Nat :=
  (hi.toNat - 0xD800) * 0x400 + (lo.toNat - 0xDC00) + 0x10000

/-- Code points of a string; a lone surrogate stands for itself. -/
def codePoints : JsString → List Nat
  | [] => []
  | [u] => [u.toNat]
  | u :: v :: rest =>
    if isHighSurrogate u && isLowSurrogate v then
      pairPoint u v :: codePoints rest
    else
      u.toNat :: codePoints (v :: rest)

/-- UTF-16 units of one character. -/
def utf16 (c : Char) : JsString :=
  if c.toNat < 0x10000 then
    [UInt16.ofNat c.toNat]
  else
    [UInt16.ofNat (0xD800 + (c.toNat - 0x10000) / 0x400),
      UInt16.ofNat (0xDC00 + (c.toNat - 0x10000) % 0x400)]

def ofChars (cs : List Char) : JsString := cs.flatMap utf16

/-- The JavaScript spelling of a Lean string literal. -/
def js (s : String) : JsString := ofChars s.toList

/-- The character of a code point; lone surrogates read as U+FFFD. -/
def scalar (n : Nat) : Char :=
  if n.isValidChar then Char.ofNat n else Char.ofNat 0xFFFD

/-- The characters the UTF-8 coder sees. -/
def toChars (s : JsString) : List Char := (codePoints s).map scalar

def isSurrogatePoint (n : Nat) : Bool := 0xD800 ≤ n && n < 0xE000

/-- No lone surrogate. -/
def wellFormed (s : JsString) : Bool := (codePoints s).all fun n => !isSurrogatePoint n

/-! ## UTF-8 -/

/-- `Buffer.from(s, 'utf8')`. -/
def utf8 (s : JsString) : List UInt8 := (toChars s).flatMap String.utf8EncodeChar

/-- `Buffer.byteLength(s, 'utf8')`. -/
def byteLength (s : JsString) : Nat := (utf8 s).length

/-- Strict UTF-8 decoding: `none` on bytes that are not UTF-8. -/
def decodeUtf8 (bytes : List UInt8) : Option JsString :=
  (ByteArray.utf8Decode? bytes.toByteArray).map fun cs => ofChars cs.toList

/-! ## Character classes -/

/-- General categories `Cc` and `Cf`. -/
def isControlPoint (n : Nat) : Bool :=
  n < 0x20 || (0x7F ≤ n && n < 0xA0) || n == 0xAD
    || (0x600 ≤ n && n ≤ 0x605) || n == 0x61C || n == 0x6DD || n == 0x70F
    || (0x890 ≤ n && n ≤ 0x891) || n == 0x8E2 || n == 0x180E
    || (0x200B ≤ n && n ≤ 0x200F) || (0x202A ≤ n && n ≤ 0x202E)
    || (0x2060 ≤ n && n ≤ 0x2064) || (0x2066 ≤ n && n ≤ 0x206F)
    || n == 0xFEFF || (0xFFF9 ≤ n && n ≤ 0xFFFB)
    || n == 0x110BD || n == 0x110CD || (0x13430 ≤ n && n ≤ 0x1343F)
    || (0x1BCA0 ≤ n && n ≤ 0x1BCA3) || (0x1D173 ≤ n && n ≤ 0x1D17A)
    || n == 0xE0001 || (0xE0020 ≤ n && n ≤ 0xE007F)

/-- `/[\p{Cc}\p{Cf}]/u.test(s)`. -/
def hasControl (s : JsString) : Bool := (codePoints s).any isControlPoint

/-- White space and line terminators, as `trim` and `\s` have them. -/
def isSpace (u : UInt16) : Bool :=
  let n := u.toNat
  (0x09 ≤ n && n ≤ 0x0D) || n == 0x20 || n == 0xA0 || n == 0x1680
    || (0x2000 ≤ n && n ≤ 0x200A) || n == 0x2028 || n == 0x2029 || n == 0x202F
    || n == 0x205F || n == 0x3000 || n == 0xFEFF

/-- `s.trim()`. -/
def trim (s : JsString) : JsString :=
  ((s.dropWhile isSpace).reverse.dropWhile isSpace).reverse

/-- `s === s.trim() && !controlCharacters.test(s)`, with a length range. -/
def boundedText (s : JsString) (maximum : Nat) : Bool :=
  1 ≤ s.length && s.length ≤ maximum && trim s == s && !hasControl s

def isLowerHex (u : UInt16) : Bool :=
  (0x30 ≤ u.toNat && u.toNat ≤ 0x39) || (0x61 ≤ u.toNat && u.toNat ≤ 0x66)

/-- `/^[0-9a-f]{n}$/.test(s)`. -/
def isHexOfLength (n : Nat) (s : JsString) : Bool := s.length == n && s.all isLowerHex

variable {s : JsString}

/-- A string that neither starts nor ends in white space is trimmed. -/
theorem trim_eq_self (hfirst : ∀ u, s.head? = some u → isSpace u = false)
    (hlast : ∀ u, s.getLast? = some u → isSpace u = false) : trim s = s := by
  have hdrop : ∀ t : JsString, (∀ u, t.head? = some u → isSpace u = false) →
      t.dropWhile isSpace = t := by
    intro t ht
    cases t with
    | nil => rfl
    | cons u rest =>
      have hu := ht u rfl
      simp [dropWhile, hu]
  have hreverse : s.reverse.dropWhile isSpace = s.reverse := by
    apply hdrop
    intro u hu
    rw [head?_reverse] at hu
    exact hlast u hu
  rw [trim, hdrop s hfirst, hreverse, reverse_reverse]

/-! ## Splitting between code points -/

/-- `s` does not end in a high surrogate, so nothing that follows can change
how its units pair up. -/
def Closed (s : JsString) : Prop := ∀ u, s.getLast? = some u → isHighSurrogate u = false

theorem closed_nil : Closed [] := by
  intro u h
  simp at h

theorem Closed.append {t : JsString} (hs : Closed s) (ht : Closed t) : Closed (s ++ t) := by
  intro u h
  rw [getLast?_append] at h
  cases hlast : t.getLast? with
  | none =>
    rw [hlast, Option.none_or] at h
    exact hs u h
  | some v =>
    rw [hlast, Option.some_or] at h
    cases h
    exact ht u hlast

theorem closed_of_all_lt (h : ∀ u ∈ s, u.toNat < 0xD800) : Closed s := by
  intro u hu
  have hmem : u ∈ s := mem_of_getLast? hu
  have hlt := h u hmem
  simp [isHighSurrogate]
  omega

/-- Code points of a closed prefix are read off independently of the rest. -/
theorem codePoints_append (s t : JsString) (hs : Closed s) :
    codePoints (s ++ t) = codePoints s ++ codePoints t := by
  induction s using codePoints.induct with
  | case1 => simp [codePoints]
  | case2 u =>
    have hu : isHighSurrogate u = false := hs u (by simp)
    cases t with
    | nil => simp [codePoints]
    | cons v rest => simp [codePoints, hu]
  | case3 u v rest hpair ih =>
    have hrest : Closed rest := by
      intro w hw
      exact hs w (by simp [getLast?_cons, hw])
    simp [codePoints, hpair, ih hrest]
  | case4 u v rest hpair ih =>
    have hrest : Closed (v :: rest) := by
      intro w hw
      refine hs w ?_
      rw [getLast?_cons_cons]
      exact hw
    have ih' := ih hrest
    rw [cons_append] at ih'
    simp only [cons_append, codePoints, hpair]
    simp [ih']

theorem utf8_append (s t : JsString) (hs : Closed s) : utf8 (s ++ t) = utf8 s ++ utf8 t := by
  simp [utf8, toChars, codePoints_append s t hs]

theorem byteLength_append (s t : JsString) (hs : Closed s) :
    byteLength (s ++ t) = byteLength s + byteLength t := by
  simp [byteLength, utf8_append s t hs]

@[simp] theorem byteLength_nil : byteLength [] = 0 := rfl

theorem wellFormed_append (s t : JsString) (hs : Closed s) :
    wellFormed (s ++ t) = (wellFormed s && wellFormed t) := by
  simp [wellFormed, codePoints_append s t hs]

theorem hasControl_append (s t : JsString) (hs : Closed s) :
    hasControl (s ++ t) = (hasControl s || hasControl t) := by
  simp [hasControl, codePoints_append s t hs]

/-! ## Units below the surrogates -/

theorem codePoints_cons_of_lt (u : UInt16) (s : JsString) (h : u.toNat < 0xD800) :
    codePoints (u :: s) = u.toNat :: codePoints s := by
  have hu : Closed [u] := closed_of_all_lt (by simpa using h)
  have := codePoints_append [u] s hu
  simpa [codePoints] using this

/-- The coder spends at most three bytes on a unit that is not part of a pair. -/
theorem utf8EncodeChar_scalar_length_le (n : Nat) (h : n < 0x10000) :
    (String.utf8EncodeChar (scalar n)).length ≤ 3 := by
  have hval : (scalar n).val.toNat < 0x10000 := by
    unfold scalar
    split
    · next hv => rw [Char.ofNat, dif_pos hv]; simpa [Char.ofNatAux] using h
    · decide
  have hle : (scalar n).val ≤ 0xFFFF := by
    rw [UInt32.le_iff_toNat_le]
    exact Nat.le_of_lt_succ hval
  rw [String.length_utf8EncodeChar, Char.utf8Size]
  split_ifs <;> first | omega | contradiction

theorem utf8EncodeChar_length_le (c : Char) : (String.utf8EncodeChar c).length ≤ 4 := by
  rw [String.length_utf8EncodeChar, Char.utf8Size]
  split_ifs <;> omega

/-- Seven-bit units take one byte each. -/
theorem utf8EncodeChar_scalar_of_ascii (n : Nat) (h : n < 0x80) :
    (String.utf8EncodeChar (scalar n)).length = 1 := by
  have hv : n.isValidChar := .inl (by omega)
  have hval : (scalar n).val.toNat = n := by
    rw [scalar, if_pos hv, Char.ofNat, dif_pos hv]
    rfl
  rw [String.length_utf8EncodeChar, Char.utf8Size, if_pos]
  rw [UInt32.le_iff_toNat_le, hval]
  exact Nat.le_of_lt_succ h

/-- A seven-bit string takes as many bytes as it has units. -/
theorem byteLength_of_ascii (s : JsString) (h : ∀ u ∈ s, u.toNat < 0x80) :
    byteLength s = s.length := by
  induction s with
  | nil => rfl
  | cons u s ih =>
    have hu : u.toNat < 0x80 := h u (by simp)
    have hone := utf8EncodeChar_scalar_of_ascii u.toNat hu
    have htail := ih fun v hv => h v (by simp [hv])
    simp only [byteLength, utf8, toChars] at htail ⊢
    rw [codePoints_cons_of_lt u s (by omega)]
    simp only [map_cons, flatMap_cons, length_append, length_cons, hone,
      htail]
    omega

theorem wellFormed_of_ascii (s : JsString) (h : ∀ u ∈ s, u.toNat < 0x80) :
    wellFormed s = true := by
  induction s with
  | nil => rfl
  | cons u s ih =>
    have hu : u.toNat < 0x80 := h u (by simp)
    have htail := ih fun v hv => h v (by simp [hv])
    simp only [wellFormed] at htail ⊢
    rw [codePoints_cons_of_lt u s (by omega), all_cons, htail, Bool.and_true]
    simp only [isSurrogatePoint, Bool.not_eq_true', Bool.and_eq_false_iff,
      decide_eq_false_iff_not]
    exact .inl (by omega)

/-! ## Characters and units -/

theorem toNat_utf16_bmp {c : Char} (h : c.toNat < 0x10000) :
    (UInt16.ofNat c.toNat).toNat = c.toNat := by
  simp [UInt16.toNat_ofNat']
  omega

private theorem char_not_surrogate (c : Char) : c.toNat < 0xD800 ∨ 0xDFFF < c.toNat := by
  rcases c.valid with h | ⟨h, _⟩
  · exact .inl h
  · exact .inr h

private theorem char_toNat_lt (c : Char) : c.toNat < 0x110000 := by
  rcases c.valid with h | ⟨_, h⟩
  · have : c.toNat < 0xD800 := h
    omega
  · exact h

theorem codePoints_utf16_append (c : Char) (s : JsString) :
    codePoints (utf16 c ++ s) = c.toNat :: codePoints s := by
  unfold utf16
  split
  · next hbmp =>
      have hval := toNat_utf16_bmp hbmp
      have hcl : Closed [UInt16.ofNat c.toNat] := by
        intro u hu
        simp only [getLast?_singleton, Option.some.injEq] at hu
        subst hu
        have := char_not_surrogate c
        simp only [isHighSurrogate, hval]
        simp
        omega
      rw [codePoints_append _ _ hcl]
      simp [codePoints, hval]
  · next hbmp =>
      have hlt := char_toNat_lt c
      have hhi : (UInt16.ofNat (0xD800 + (c.toNat - 0x10000) / 0x400)).toNat =
          0xD800 + (c.toNat - 0x10000) / 0x400 := by
        rw [UInt16.toNat_ofNat']
        exact Nat.mod_eq_of_lt (by omega)
      have hlo : (UInt16.ofNat (0xDC00 + (c.toNat - 0x10000) % 0x400)).toNat =
          0xDC00 + (c.toNat - 0x10000) % 0x400 := by
        rw [UInt16.toNat_ofNat']
        exact Nat.mod_eq_of_lt (by omega)
      have hpair : (isHighSurrogate (UInt16.ofNat (0xD800 + (c.toNat - 0x10000) / 0x400)) &&
          isLowSurrogate (UInt16.ofNat (0xDC00 + (c.toNat - 0x10000) % 0x400))) = true := by
        simp only [isHighSurrogate, isLowSurrogate, hhi, hlo, Bool.and_eq_true,
          decide_eq_true_eq]
        omega
      have hpoint : pairPoint (UInt16.ofNat (0xD800 + (c.toNat - 0x10000) / 0x400))
          (UInt16.ofNat (0xDC00 + (c.toNat - 0x10000) % 0x400)) = c.toNat := by
        rw [pairPoint, hhi, hlo]
        omega
      simp only [cons_append, nil_append, codePoints, hpair, hpoint, if_true]

theorem codePoints_ofChars (cs : List Char) : codePoints (ofChars cs) = cs.map Char.toNat := by
  induction cs with
  | nil => rfl
  | cons c cs ih =>
    have := codePoints_utf16_append c (ofChars cs)
    simp only [ofChars, flatMap_cons] at this ih ⊢
    rw [this, ih]
    rfl

theorem scalar_toNat (c : Char) : scalar c.toNat = c := by
  have hv : c.toNat.isValidChar := c.valid
  simp [scalar, hv]

theorem toChars_ofChars (cs : List Char) : toChars (ofChars cs) = cs := by
  rw [toChars, codePoints_ofChars, map_map]
  exact (map_congr_left fun c _ => scalar_toNat c).trans (map_id cs)

theorem toNat_scalar {n : Nat} (h : n.isValidChar) : (scalar n).toNat = n := by
  rw [scalar, if_pos h, Char.ofNat, dif_pos h]
  simp [Char.ofNatAux, Char.toNat]

private theorem utf16_scalar_unit {u : UInt16} (h : isSurrogatePoint u.toNat = false) :
    utf16 (scalar u.toNat) = [u] := by
  have hlt := u.toNat_lt
  have hv : u.toNat.isValidChar := by
    simp only [isSurrogatePoint, Bool.and_eq_false_iff, decide_eq_false_iff_not] at h
    rcases h with h | h
    · exact .inl (by omega)
    · exact .inr ⟨by omega, by omega⟩
  rw [utf16, toNat_scalar hv, if_pos (by omega)]
  simp

/-- A pair is a supplementary code point. -/
theorem pairPoint_bounds {u v : UInt16} (hu : isHighSurrogate u = true) (hv : isLowSurrogate v = true) :
    0x10000 ≤ pairPoint u v ∧ pairPoint u v < 0x110000 := by
  simp only [isHighSurrogate, isLowSurrogate, Bool.and_eq_true, decide_eq_true_eq] at hu hv
  rw [pairPoint]
  omega

private theorem utf16_scalar_pair {u v : UInt16} (hu : isHighSurrogate u = true)
    (hv : isLowSurrogate v = true) : utf16 (scalar (pairPoint u v)) = [u, v] := by
  obtain ⟨hge, hlt⟩ := pairPoint_bounds hu hv
  simp only [isHighSurrogate, isLowSurrogate, Bool.and_eq_true, decide_eq_true_eq] at hu hv
  have hhi : 0xD800 + (pairPoint u v - 0x10000) / 0x400 = u.toNat := by
    rw [pairPoint]
    omega
  have hlo : 0xDC00 + (pairPoint u v - 0x10000) % 0x400 = v.toNat := by
    rw [pairPoint]
    omega
  rw [utf16, toNat_scalar (.inr ⟨by omega, hlt⟩), if_neg (by omega), hhi, hlo]
  simp

/-- Reading characters and writing them back gives a well-formed string back. -/
theorem ofChars_toChars (s : JsString) (h : wellFormed s = true) :
    ofChars (toChars s) = s := by
  induction s using codePoints.induct with
  | case1 => rfl
  | case2 u =>
    have hu : isSurrogatePoint u.toNat = false := by
      simpa [wellFormed, codePoints] using h
    simp [toChars, codePoints, ofChars, utf16_scalar_unit hu]
  | case3 u v rest hpair ih =>
    simp only [wellFormed, codePoints, hpair, if_true, all_cons, Bool.and_eq_true] at h
    have hsplit := hpair
    simp only [Bool.and_eq_true] at hsplit
    have ih' := ih h.2
    simp only [toChars, ofChars] at ih' ⊢
    simp only [codePoints, hpair, if_true, map_cons, flatMap_cons, ih',
      utf16_scalar_pair hsplit.1 hsplit.2]
    rfl
  | case4 u v rest hpair ih =>
    simp only [wellFormed, codePoints, hpair, Bool.false_eq_true, if_false, all_cons,
      Bool.and_eq_true] at h
    have hu : isSurrogatePoint u.toNat = false := by simpa using h.1
    have ih' := ih h.2
    simp only [toChars, ofChars] at ih' ⊢
    simp only [codePoints, hpair, Bool.false_eq_true, if_false, map_cons,
      flatMap_cons, ih', utf16_scalar_unit hu]
    rfl

/-- UTF-8 coding loses nothing on a well-formed string. -/
theorem decodeUtf8_utf8 (s : JsString) (h : wellFormed s = true) :
    decodeUtf8 (utf8 s) = some s := by
  have henc : (utf8 s).toByteArray = (toChars s).utf8Encode := rfl
  rw [decodeUtf8, henc, utf8Decode?_utf8Encode]
  simp [ofChars_toChars s h]

/-- What decodes as UTF-8 codes back to the same bytes. -/
theorem utf8_of_decodeUtf8 {bytes : List UInt8} (h : decodeUtf8 bytes = some s) :
    utf8 s = bytes := by
  rw [decodeUtf8, Option.map_eq_some_iff] at h
  obtain ⟨chars, hchars, rfl⟩ := h
  have hsome : (ByteArray.utf8Decode? bytes.toByteArray).isSome = true := by
    rw [hchars]
    rfl
  have hback := ByteArray.utf8Encode_get_utf8Decode? (h := hsome)
  simp only [hchars, Option.get_some] at hback
  rw [utf8, toChars_ofChars]
  have hlist := congrArg (fun b : ByteArray => b.data.toList) hback
  simpa [utf8Encode] using hlist

end JsString

end ClawMessenger.Verified
