import ClawMessenger.Verified.Json

/-!
# What is printed reads back

`parse_stringify` is the round trip of `Json.stringify` and `Json.parse` on
every value whose objects carry no key twice, and `stringify_injective` its
consequence for texts used as keys.  The second half of the module collects
what the printed text looks like: its first unit, that it never contains a
lone surrogate or a control character its strings did not contain, and how
long its strings get.
-/

namespace ClawMessenger.Verified.Json

open JsString List

open Decimal (digitUnit)
open Option (bind_eq_bind bind_some map_some)

/-! ## Strings -/

theorem hexUnit_spec : ∀ n, n < 16 → hexValue? (hexUnit n) = some n := by decide

theorem hex4Value?_hex4 (u : UInt16) :
    hex4Value? (hexUnit (u.toNat / 0x1000)) (hexUnit (u.toNat / 0x100 % 0x10))
      (hexUnit (u.toNat / 0x10 % 0x10)) (hexUnit (u.toNat % 0x10)) = some u := by
  have hlt := u.toNat_lt
  rw [hex4Value?, hexUnit_spec _ (by omega), hexUnit_spec _ (by omega),
    hexUnit_spec _ (by omega), hexUnit_spec _ (by omega)]
  simp only [bind_eq_bind, bind_some]
  have hsum : u.toNat / 0x1000 * 0x1000 + u.toNat / 0x100 % 0x10 * 0x100
      + u.toNat / 0x10 % 0x10 * 0x10 + u.toNat % 0x10 = u.toNat := by omega
  rw [hsum, UInt16.ofNat_toNat]
  rfl

variable {u v : UInt16} {s t : JsString}

/-- A short escape is read by its letter. -/
theorem escapeLetter?_of_shortEscape? {letter : UInt16} (h : shortEscape? u = some letter) :
    escapeLetter? letter = some u ∧ letter ≠ 0x75 := by
  unfold shortEscape? at h
  split_ifs at h with h1 h2 h3 h4 h5 h6 h7 <;> cases h <;> subst_vars <;> decide

theorem parseString_close (rest : JsString) : parseString (0x22 :: rest) = some ([], rest) := by
  rw [parseString.eq_def]
  rfl

variable {rest : JsString}

theorem parseString_raw (hquote : u ≠ 0x22) (hback : u ≠ 0x5C) (hctl : 0x20 ≤ u.toNat) :
    parseString (u :: rest) = (parseString rest).map fun p => (u :: p.1, p.2) := by
  rw [parseString.eq_def]
  simp only [hquote, hback, if_false, if_neg (Nat.not_lt.mpr hctl)]

theorem parseString_short {e : UInt16} (rest : JsString) (hne : e ≠ 0x75)
    (hv : escapeLetter? e = some v) :
    parseString (0x5C :: e :: rest) = (parseString rest).map fun p => (v :: p.1, p.2) := by
  rw [parseString.eq_def]
  simp [hne, hv]

theorem parseString_unicode {a b c d : UInt16} (rest : JsString)
    (hv : hex4Value? a b c d = some v) :
    parseString (0x5C :: 0x75 :: a :: b :: c :: d :: rest) =
      (parseString rest).map fun p => (v :: p.1, p.2) := by
  rw [parseString.eq_def]
  simp [hv]

theorem parseString_escapeUnit (u : UInt16) (rest : JsString) :
    parseString (escapeUnit u ++ rest) = (parseString rest).map fun p => (u :: p.1, p.2) := by
  unfold escapeUnit
  cases hshort : shortEscape? u with
  | some letter =>
    obtain ⟨hletter, hne⟩ := escapeLetter?_of_shortEscape? hshort
    exact parseString_short rest hne hletter
  | none =>
    dsimp only
    split
    · exact parseString_unicode rest (hex4Value?_hex4 u)
    · next hraw =>
        simp only [Bool.or_eq_true, decide_eq_true_eq, not_or, Nat.not_lt] at hraw
        refine parseString_raw ?_ ?_ hraw.1.1
        · rintro rfl
          cases hshort
        · rintro rfl
          cases hshort

private theorem surrogate_raw (h : 0xD800 ≤ u.toNat) :
    u ≠ 0x22 ∧ u ≠ 0x5C ∧ 0x20 ≤ u.toNat := by
  have h1 : (0x22 : UInt16).toNat = 0x22 := rfl
  have h2 : (0x5C : UInt16).toNat = 0x5C := rfl
  refine ⟨?_, ?_, by omega⟩
  · rintro rfl
    omega
  · rintro rfl
    omega

theorem parseString_escape (s rest : JsString) :
    parseString (escape s ++ 0x22 :: rest) = some (s, rest) := by
  induction s using escape.induct with
  | case1 => exact parseString_close rest
  | case2 u =>
    rw [escape, parseString_escapeUnit, parseString_close]
    rfl
  | case3 u v tail hpair ih =>
    have hsplit := hpair
    simp only [Bool.and_eq_true, isHighSurrogate, isLowSurrogate, decide_eq_true_eq] at hsplit
    obtain ⟨hu1, hu2, hu3⟩ := surrogate_raw (u := u) (by omega)
    obtain ⟨hv1, hv2, hv3⟩ := surrogate_raw (u := v) (by omega)
    simp only [escape, hpair, if_true, cons_append]
    rw [parseString_raw hu1 hu2 hu3, parseString_raw hv1 hv2 hv3, ih]
    rfl
  | case4 u v tail hpair ih =>
    simp only [escape, hpair, Bool.false_eq_true, if_false, append_assoc]
    rw [parseString_escapeUnit, ih]
    rfl

/-! ## Small readers -/

theorem expect_append (word rest : JsString) : expect word (word ++ rest) = some rest := by
  have h : word.isPrefixOf (word ++ rest) = true := by
    rw [ isPrefixOf_iff_prefix]
    exact prefix_append word rest
  simp [expect, h]

theorem expect_cons (u : UInt16) (rest : JsString) : expect [u] (u :: rest) = some rest :=
  expect_append [u] rest

theorem expect_cons_of_ne (rest : JsString) (h : v ≠ u) :
    expect [u] (v :: rest) = none := by
  simp [expect, isPrefixOf, h.symm]

theorem skipSpace_cons (rest : JsString) (h : isJsonSpace u = false) :
    skipSpace (u :: rest) = u :: rest := by
  simp [skipSpace, h]

theorem parseKey_quote (key rest : JsString) :
    parseKey (quote key ++ 0x3A :: rest) = some (key, rest) := by
  unfold parseKey quote
  simp only [cons_append, append_assoc, nil_append]
  rw [skipSpace_cons _ (by decide), expect_cons]
  simp only [bind_eq_bind, bind_some]
  rw [parseString_escape]
  simp only [bind_some]
  rw [skipSpace_cons _ (by decide), expect_cons]
  rfl

variable {fields : List (JsString × Json)}

theorem setField_fresh {field : JsString × Json} (h : field.1 ∉ fields.map Prod.fst) :
    setField fields field = fields ++ [field] := by
  have hany : fields.any (·.1 == field.1) = false := by
    rw [any_eq_false]
    intro old hold heq
    rw [beq_iff_eq] at heq
    exact h (mem_map.mpr ⟨old, hold, heq⟩)
  simp [setField, hany]

/-- Distinct keys are stored in the order they are read. -/
theorem foldl_setField (pre fields : List (JsString × Json))
    (h : ((pre ++ fields).map Prod.fst).Nodup) :
    fields.foldl setField pre = pre ++ fields := by
  induction fields generalizing pre with
  | nil => simp
  | cons field rest ih =>
    have hfresh : field.1 ∉ pre.map Prod.fst := by
      rw [map_append, map_cons, nodup_append] at h
      intro hmem
      exact h.2.2 _ hmem _ (mem_cons_self ..) rfl
    rw [foldl_cons, setField_fresh hfresh, ih _ (by simpa using h)]
    simp

/-! ## First units -/

/-- What the parser needs to know about the first unit of a printed value. -/
structure ValueHead (u : UInt16) : Prop where
  space : isJsonSpace u = false
  bracket : u ≠ 0x5D
  brace : u ≠ 0x7D

theorem valueHead_digit (d : Decimal.Digit) : ValueHead (digitUnit d) := by
  have h : ∀ d : Decimal.Digit, isJsonSpace (digitUnit d) = false ∧
      digitUnit d ≠ 0x5D ∧ digitUnit d ≠ 0x7D := by decide
  exact ⟨(h d).1, (h d).2.1, (h d).2.2⟩

private theorem valueHead_literal
    (h : (isJsonSpace u = false ∧ u ≠ 0x5D ∧ u ≠ 0x7D)) : ValueHead u :=
  ⟨h.1, h.2.1, h.2.2⟩

theorem stringify_head (v : Json) : ∃ u rest, stringify v = u :: rest ∧ ValueHead u := by
  cases v with
  | null => exact ⟨_, _, rfl, valueHead_literal (by decide)⟩
  | bool b => cases b <;> exact ⟨_, _, rfl, valueHead_literal (by decide)⟩
  | num n =>
    obtain ⟨u, rest, hu, hhead⟩ := n.text_head
    refine ⟨u, rest, hu, ?_⟩
    rcases hhead with rfl | ⟨x, rfl⟩
    · exact valueHead_literal (by decide)
    · exact valueHead_digit x
  | str s => exact ⟨_, _, rfl, valueHead_literal (by decide)⟩
  | arr items => cases items <;> exact ⟨_, _, rfl, valueHead_literal (by decide)⟩
  | obj fields =>
    cases fields with
    | nil => exact ⟨_, _, rfl, valueHead_literal (by decide)⟩
    | cons field rest =>
      obtain ⟨key, v⟩ := field
      exact ⟨_, _, rfl, valueHead_literal (by decide)⟩

theorem skipSpace_stringify (v : Json) (rest : JsString) :
    skipSpace (stringify v ++ rest) = stringify v ++ rest := by
  obtain ⟨u, tail, hu, hhead⟩ := stringify_head v
  rw [hu, cons_append]
  exact skipSpace_cons _ hhead.space

theorem expect_close_stringify (v : Json) (rest : JsString) :
    expect [0x5D] (skipSpace (stringify v ++ rest)) = none := by
  obtain ⟨u, tail, hu, hhead⟩ := stringify_head v
  rw [skipSpace_stringify, hu, cons_append]
  exact expect_cons_of_ne _ hhead.bracket

/-! ## Fuel -/

mutual
def size : Json → Nat
  | arr [] => 1
  | arr (v :: rest) => 1 + size v + sizeItems rest
  | obj [] => 1
  | obj ((_, v) :: rest) => 1 + size v + sizeFields rest
  | _ => 1
def sizeItems : List Json → Nat
  | [] => 1
  | v :: rest => 1 + size v + sizeItems rest
def sizeFields : List (JsString × Json) → Nat
  | [] => 1
  | (_, v) :: rest => 1 + size v + sizeFields rest
end

mutual
/-- Every unit of fuel is paid for by a unit of text. -/
theorem size_le_length : ∀ v : Json, size v ≤ (stringify v).length
  | null => by decide
  | bool true => by decide
  | bool false => by decide
  | num n => by
      obtain ⟨u, rest, hu, _⟩ := n.text_head
      simp [size, stringify, hu]
  | str s => by simp [size, stringify, quote]
  | arr [] => by simp [size, stringify]
  | arr (v :: rest) => by
      have hv := size_le_length v
      have hrest := sizeItems_le_length rest
      simp only [size, stringify, length_cons, length_append]
      omega
  | obj [] => by simp [size, stringify]
  | obj ((key, v) :: rest) => by
      have hv := size_le_length v
      have hrest := sizeFields_le_length rest
      simp only [size, stringify, length_cons, length_append]
      omega
theorem sizeItems_le_length : ∀ items : List Json, sizeItems items ≤ (stringifyItems items).length
  | [] => by simp [sizeItems, stringifyItems]
  | v :: rest => by
      have hv := size_le_length v
      have hrest := sizeItems_le_length rest
      simp only [sizeItems, stringifyItems, length_cons, length_append]
      omega
theorem sizeFields_le_length :
    ∀ fields : List (JsString × Json), sizeFields fields ≤ (stringifyFields fields).length
  | [] => by simp [sizeFields, stringifyFields]
  | (key, v) :: rest => by
      have hv := size_le_length v
      have hrest := sizeFields_le_length rest
      simp only [sizeFields, stringifyFields, length_cons, length_append]
      omega
end

/-! ## Round trip -/

open Decimal (NumberEnd)

theorem numberEnd_cons (h : Decimal.unitDigit? u = none ∧ u ≠ 0x2E ∧ u ≠ 0x65 ∧ u ≠ 0x45) :
    NumberEnd (u :: rest) := by
  intro v r hv
  cases hv
  exact h

theorem numberEnd_items (items : List Json) (rest : JsString) :
    NumberEnd (stringifyItems items ++ rest) := by
  cases items <;> exact numberEnd_cons (by decide)

theorem numberEnd_fields (fields : List (JsString × Json)) (rest : JsString) :
    NumberEnd (stringifyFields fields ++ rest) := by
  cases fields with
  | nil => exact numberEnd_cons (by decide)
  | cons field tail =>
    obtain ⟨key, v⟩ := field
    exact numberEnd_cons (by decide)

private theorem number_dispatch : ∀ d : Decimal.Digit,
    isJsonSpace (digitUnit d) = false ∧ digitUnit d ≠ 0x22 ∧
      digitUnit d ≠ 0x5B ∧ digitUnit d ≠ 0x7B ∧ digitUnit d ≠ 0x6E ∧
      digitUnit d ≠ 0x74 ∧ digitUnit d ≠ 0x66 := by
  decide

theorem parseValue_number (n : Decimal) (fuel : Nat) (hrest : NumberEnd rest) :
    parseValue (fuel + 1) (n.text ++ rest) = some (num n, rest) := by
  have hnum := n.parseNumber_text hrest
  obtain ⟨u, tail, hu, hhead⟩ := n.text_head
  have hdispatch : isJsonSpace u = false ∧ u ≠ 0x22 ∧ u ≠ 0x5B ∧ u ≠ 0x7B ∧ u ≠ 0x6E ∧
      u ≠ 0x74 ∧ u ≠ 0x66 := by
    rcases hhead with rfl | ⟨x, rfl⟩
    · decide
    · exact number_dispatch x
  obtain ⟨hs, h1, h2, h3, h4, h5, h6⟩ := hdispatch
  rw [hu, cons_append] at hnum ⊢
  rw [parseValue, skipSpace_cons _ hs]
  simp only [h1, h2, h3, h4, h5, h6, if_false, hnum, map_some]

mutual
theorem parseValue_stringify : ∀ (v : Json) (fuel : Nat) (rest : JsString),
    v.Distinct → size v ≤ fuel → NumberEnd rest →
    parseValue fuel (stringify v ++ rest) = some (v, rest)
  | v, 0, _, _, hfuel, _ => by
      exfalso
      cases v with
      | arr items => cases items <;> simp [size] at hfuel
      | obj fields =>
        cases fields with
        | nil => simp [size] at hfuel
        | cons field tail =>
          obtain ⟨key, v⟩ := field
          simp [size] at hfuel
      | _ => simp [size] at hfuel
  | null, fuel + 1, rest, _, _, _ => by
      have h : js "null" ++ rest = 0x6E :: (js "ull" ++ rest) := rfl
      rw [stringify, parseValue, h, skipSpace_cons _ (by decide)]
      simp only [show (0x6E : UInt16) ≠ 0x22 by decide, show (0x6E : UInt16) ≠ 0x5B by decide,
        show (0x6E : UInt16) ≠ 0x7B by decide, if_false, if_true]
      rw [← h, expect_append]
      rfl
  | bool true, fuel + 1, rest, _, _, _ => by
      have h : js "true" ++ rest = 0x74 :: (js "rue" ++ rest) := rfl
      rw [stringify, parseValue, h, skipSpace_cons _ (by decide)]
      simp only [show (0x74 : UInt16) ≠ 0x22 by decide, show (0x74 : UInt16) ≠ 0x5B by decide,
        show (0x74 : UInt16) ≠ 0x7B by decide, show (0x74 : UInt16) ≠ 0x6E by decide, if_false,
        if_true]
      rw [← h, expect_append]
      rfl
  | bool false, fuel + 1, rest, _, _, _ => by
      have h : js "false" ++ rest = 0x66 :: (js "alse" ++ rest) := rfl
      rw [stringify, parseValue, h, skipSpace_cons _ (by decide)]
      simp only [show (0x66 : UInt16) ≠ 0x22 by decide, show (0x66 : UInt16) ≠ 0x5B by decide,
        show (0x66 : UInt16) ≠ 0x7B by decide, show (0x66 : UInt16) ≠ 0x6E by decide,
        show (0x66 : UInt16) ≠ 0x74 by decide, if_false, if_true]
      rw [← h, expect_append]
      rfl
  | num n, fuel + 1, rest, _, _, hrest => by
      rw [stringify]
      exact parseValue_number n fuel hrest
  | str s, fuel + 1, rest, _, _, _ => by
      rw [stringify, quote, cons_append, parseValue, skipSpace_cons _ (by decide)]
      simp only [if_true, append_assoc, cons_append, nil_append,
        parseString_escape, map_some]
  | arr [], fuel + 1, rest, _, _, _ => by
      rw [stringify, parseValue, cons_append, skipSpace_cons _ (by decide)]
      simp only [show (0x5B : UInt16) ≠ 0x22 by decide, if_false, if_true, cons_append,
        nil_append]
      rw [skipSpace_cons _ (by decide), expect_cons]
  | arr (v :: items), fuel + 1, rest, hdist, hfuel, _ => by
      simp only [size] at hfuel
      simp only [Distinct, Distinct.DistinctItems] at hdist
      have hv := parseValue_stringify v fuel (stringifyItems items ++ rest) hdist.1 (by omega)
        (numberEnd_items items rest)
      have hitems := parseItems_stringify items fuel rest hdist.2 (by omega)
      rw [stringify, parseValue, cons_append, skipSpace_cons _ (by decide)]
      simp only [show (0x5B : UInt16) ≠ 0x22 by decide, if_false, if_true, append_assoc]
      rw [expect_close_stringify]
      simp only [bind_eq_bind, hv, bind_some, hitems]
      rfl
  | obj [], fuel + 1, rest, _, _, _ => by
      rw [stringify, parseValue, cons_append, skipSpace_cons _ (by decide)]
      simp only [show (0x7B : UInt16) ≠ 0x22 by decide, show (0x7B : UInt16) ≠ 0x5B by decide,
        if_false, if_true, cons_append, nil_append]
      rw [skipSpace_cons _ (by decide), expect_cons]
  | obj ((key, v) :: fields), fuel + 1, rest, hdist, hfuel, _ => by
      simp only [size] at hfuel
      simp only [Distinct, Distinct.DistinctFields] at hdist
      have hv := parseValue_stringify v fuel (stringifyFields fields ++ rest) hdist.2.1 (by omega)
        (numberEnd_fields fields rest)
      have hfields := parseFields_stringify fields fuel rest hdist.2.2 (by omega)
      have hset := foldl_setField [] ((key, v) :: fields) hdist.1
      have hquote : quote key ++ 0x3A :: (stringify v ++ (stringifyFields fields ++ rest))
          = 0x22 :: (escape key ++ 0x22 :: 0x3A :: (stringify v ++ (stringifyFields fields ++ rest))) := by
        simp [quote]
      rw [stringify, parseValue, cons_append, skipSpace_cons _ (by decide)]
      simp only [show (0x7B : UInt16) ≠ 0x22 by decide, show (0x7B : UInt16) ≠ 0x5B by decide,
        if_false, if_true, append_assoc, cons_append]
      have hclose : expect [0x7D] (skipSpace
          (quote key ++ 0x3A :: (stringify v ++ (stringifyFields fields ++ rest)))) = none := by
        rw [hquote, skipSpace_cons _ (by decide)]
        exact expect_cons_of_ne _ (by decide)
      rw [hclose]
      simp only [bind_eq_bind, parseKey_quote, bind_some, hv, hfields, hset,
        nil_append]
      rfl
theorem parseItems_stringify : ∀ (items : List Json) (fuel : Nat) (rest : JsString),
    Distinct.DistinctItems items → sizeItems items ≤ fuel →
    parseItems fuel (stringifyItems items ++ rest) = some (items, rest)
  | items, 0, _, _, hfuel => by
      exfalso
      cases items <;> simp [sizeItems] at hfuel
  | [], fuel + 1, rest, _, _ => by
      rw [stringifyItems, parseItems, singleton_append, skipSpace_cons _ (by decide),
        expect_cons]
  | v :: items, fuel + 1, rest, hdist, hfuel => by
      simp only [sizeItems] at hfuel
      simp only [Distinct.DistinctItems] at hdist
      have hv := parseValue_stringify v fuel (stringifyItems items ++ rest) hdist.1 (by omega)
        (numberEnd_items items rest)
      have hitems := parseItems_stringify items fuel rest hdist.2 (by omega)
      rw [stringifyItems, parseItems, cons_append, skipSpace_cons _ (by decide),
        expect_cons_of_ne _ (by decide)]
      simp only [bind_eq_bind, expect_cons, bind_some, append_assoc, hv,
        hitems]
      rfl
theorem parseFields_stringify :
    ∀ (fields : List (JsString × Json)) (fuel : Nat) (rest : JsString),
    Distinct.DistinctFields fields → sizeFields fields ≤ fuel →
    parseFields fuel (stringifyFields fields ++ rest) = some (fields, rest)
  | fields, 0, _, _, hfuel => by
      exfalso
      cases fields with
      | nil => simp [sizeFields] at hfuel
      | cons field tail =>
        obtain ⟨key, v⟩ := field
        simp [sizeFields] at hfuel
  | [], fuel + 1, rest, _, _ => by
      rw [stringifyFields, parseFields, singleton_append, skipSpace_cons _ (by decide),
        expect_cons]
  | (key, v) :: fields, fuel + 1, rest, hdist, hfuel => by
      simp only [sizeFields] at hfuel
      simp only [Distinct.DistinctFields] at hdist
      have hv := parseValue_stringify v fuel (stringifyFields fields ++ rest) hdist.1 (by omega)
        (numberEnd_fields fields rest)
      have hfields := parseFields_stringify fields fuel rest hdist.2 (by omega)
      rw [stringifyFields, parseFields, cons_append, skipSpace_cons _ (by decide),
        expect_cons_of_ne _ (by decide)]
      simp only [bind_eq_bind, expect_cons, bind_some, append_assoc,
        cons_append, parseKey_quote, hv, hfields]
      rfl
end

/-- **What is printed reads back.** -/
theorem parse_stringify (v : Json) (h : v.Distinct) : parse (stringify v) = some v := by
  have hfuel : size v ≤ (stringify v).length + 1 := Nat.le_succ_of_le (size_le_length v)
  have hval := parseValue_stringify v _ [] h hfuel Decimal.numberEnd_nil
  rw [append_nil] at hval
  rw [parse, hval]
  rfl

theorem stringify_injective {v w : Json} (hv : v.Distinct) (hw : w.Distinct)
    (h : stringify v = stringify w) : v = w := by
  have hparse := parse_stringify v hv
  rw [h, parse_stringify w hw] at hparse
  exact (Option.some.inj hparse).symm

/-! ## Shape of printed text -/

/-- Seven-bit and printable. -/
def Printable (s : JsString) : Prop := ∀ u ∈ s, 0x20 ≤ u.toNat ∧ u.toNat < 0x7F

instance (s : JsString) : Decidable (Printable s) :=
  List.decidableBAll (fun u : UInt16 => 0x20 ≤ u.toNat ∧ u.toNat < 0x7F) s

theorem Printable.closed (h : Printable s) : Closed s :=
  closed_of_all_lt fun u hu => by have := (h u hu).2; omega

theorem Printable.wellFormed (h : Printable s) : wellFormed s = true :=
  wellFormed_of_ascii s fun u hu => by have := (h u hu).2; omega

theorem Printable.byteLength (h : Printable s) : byteLength s = s.length :=
  byteLength_of_ascii s fun u hu => by have := (h u hu).2; omega

theorem Printable.hasControl (h : Printable s) : hasControl s = false := by
  induction s with
  | nil => rfl
  | cons u s ih =>
    obtain ⟨hlo, hhi⟩ := h u (mem_cons_self ..)
    have hpoint : isControlPoint u.toNat = false := by
      simp only [isControlPoint, Bool.or_eq_false_iff, Bool.and_eq_false_iff,
        decide_eq_false_iff_not, beq_eq_false_iff_ne]
      omega
    have htail := ih fun v hv => h v (mem_cons_of_mem u hv)
    unfold JsString.hasControl at htail ⊢
    rw [codePoints_cons_of_lt u s (by omega), any_cons, hpoint, htail]
    rfl

private theorem printable_hexUnit : ∀ n, n < 16 →
    0x20 ≤ (hexUnit n).toNat ∧ (hexUnit n).toNat < 0x7F := by decide

theorem printable_hex4 (u : UInt16) : Printable (0x5C :: 0x75 :: hex4 u) := by
  have hlt := u.toNat_lt
  intro w hw
  simp only [hex4, mem_cons, not_mem_nil, or_false] at hw
  rcases hw with rfl | rfl | rfl | rfl | rfl | rfl
  · decide
  · decide
  all_goals exact printable_hexUnit _ (by omega)

/-- What one escaped unit looks like, and what it costs in units and bytes. -/
inductive EscapeShape (u : UInt16) : JsString → Prop where
  | ascii {t : JsString} : Printable t → t.length ≤ 6 → EscapeShape u t
  | raw : isSurrogatePoint u.toNat = false → EscapeShape u [u]

theorem escapeUnit_shape (u : UInt16) : EscapeShape u (escapeUnit u) := by
  unfold escapeUnit
  cases hshort : shortEscape? u with
  | some letter =>
    refine EscapeShape.ascii ?_ (by simp)
    unfold shortEscape? at hshort
    intro w hw
    simp only [mem_cons, not_mem_nil, or_false] at hw
    split_ifs at hshort <;> cases hshort <;> rcases hw with rfl | rfl <;> decide
  | none =>
    dsimp only
    split
    · exact EscapeShape.ascii (printable_hex4 u) (by simp [hex4])
    · next hraw =>
        simp only [Bool.or_eq_true, decide_eq_true_eq, not_or, isHighSurrogate,
          isLowSurrogate, Bool.and_eq_true] at hraw
        refine EscapeShape.raw ?_
        simp only [isSurrogatePoint, Bool.and_eq_false_iff, decide_eq_false_iff_not]
        omega

private theorem closed_unit (h : isSurrogatePoint u.toNat = false) : Closed [u] := by
  intro w hw
  simp only [getLast?_singleton, Option.some.injEq] at hw
  subst hw
  simp only [isSurrogatePoint, isHighSurrogate, Bool.and_eq_false_iff,
    decide_eq_false_iff_not] at h ⊢
  omega

section

variable (h : EscapeShape u t)
include h

theorem EscapeShape.closed : Closed t := by
  cases h with
  | ascii hp _ => exact hp.closed
  | raw hu => exact closed_unit hu

theorem EscapeShape.wellFormed :
    wellFormed t = true := by
  cases h with
  | ascii hp _ => exact hp.wellFormed
  | raw hu => simp [wellFormed, codePoints, hu]

theorem EscapeShape.length_le :
    t.length ≤ 6 := by
  cases h with
  | ascii _ hlen => exact hlen
  | raw _ => simp

theorem EscapeShape.byteLength_le :
    byteLength t ≤ 6 := by
  cases h with
  | ascii hp hlen => rwa [hp.byteLength]
  | raw _ =>
    have := utf8EncodeChar_scalar_length_le u.toNat u.toNat_lt
    simp only [byteLength, utf8, toChars, codePoints, map_cons, map_nil,
      flatMap_cons, flatMap_nil, append_nil]
    omega

theorem EscapeShape.hasControl (hu : isControlPoint u.toNat = false) : hasControl t = false := by
  cases h with
  | ascii hp _ => exact hp.hasControl
  | raw _ => simp [hasControl, codePoints, hu]

end

private theorem closed_pair (hv : isLowSurrogate v = true) : Closed [u, v] := by
  intro w hw
  simp only [getLast?_cons_cons, getLast?_singleton, Option.some.injEq] at hw
  subst hw
  simp only [isLowSurrogate, isHighSurrogate, Bool.and_eq_true, decide_eq_true_eq,
    Bool.and_eq_false_iff, decide_eq_false_iff_not] at hv ⊢
  omega

private theorem wellFormed_pair
    (h : (isHighSurrogate u && isLowSurrogate v) = true) : wellFormed [u, v] = true := by
  have hpoint : isSurrogatePoint (pairPoint u v) = false := by
    simp only [isSurrogatePoint, Bool.and_eq_false_iff, decide_eq_false_iff_not]
    right
    rw [pairPoint]
    omega
  simp [wellFormed, codePoints, h, hpoint]

private theorem byteLength_pair
    (h : (isHighSurrogate u && isLowSurrogate v) = true) : byteLength [u, v] ≤ 12 := by
  have := utf8EncodeChar_length_le (scalar (pairPoint u v))
  simp only [byteLength, utf8, toChars, codePoints, h, if_true, map_cons, map_nil,
    flatMap_cons, flatMap_nil, append_nil]
  omega

theorem escape_closed (s : JsString) : Closed (escape s) := by
  induction s using escape.induct with
  | case1 => exact closed_nil
  | case2 u => exact (escapeUnit_shape u).closed
  | case3 u v tail hpair ih =>
    have hsplit := hpair
    simp only [Bool.and_eq_true] at hsplit
    simp only [escape, hpair, if_true]
    exact (closed_pair hsplit.2).append (t := escape tail) ih
  | case4 u v tail hpair ih =>
    simp only [escape, hpair, Bool.false_eq_true, if_false]
    exact (escapeUnit_shape u).closed.append ih

theorem escape_wellFormed (s : JsString) : wellFormed (escape s) = true := by
  induction s using escape.induct with
  | case1 => rfl
  | case2 u => exact (escapeUnit_shape u).wellFormed
  | case3 u v tail hpair ih =>
    have hsplit := hpair
    simp only [Bool.and_eq_true] at hsplit
    simp only [escape, hpair, if_true]
    have happ := wellFormed_append [u, v] (escape tail) (closed_pair hsplit.2)
    rw [wellFormed_pair hpair, ih] at happ
    exact happ
  | case4 u v tail hpair ih =>
    simp only [escape, hpair, Bool.false_eq_true, if_false]
    rw [wellFormed_append _ _ (escapeUnit_shape u).closed, (escapeUnit_shape u).wellFormed, ih]
    rfl

theorem escape_length_le (s : JsString) : (escape s).length ≤ 6 * s.length := by
  induction s using escape.induct with
  | case1 => simp [escape]
  | case2 u => simpa [escape] using (escapeUnit_shape u).length_le
  | case3 u v tail hpair ih =>
    simp only [escape, hpair, if_true, length_cons]
    omega
  | case4 u v tail hpair ih =>
    have := (escapeUnit_shape u).length_le
    simp only [escape, hpair, Bool.false_eq_true, if_false, length_append,
      length_cons] at ih ⊢
    omega

theorem byteLength_escape_le (s : JsString) : byteLength (escape s) ≤ 6 * s.length := by
  induction s using escape.induct with
  | case1 => simp [escape]
  | case2 u => simpa [escape] using (escapeUnit_shape u).byteLength_le
  | case3 u v tail hpair ih =>
    have hsplit := hpair
    simp only [Bool.and_eq_true] at hsplit
    have happ := byteLength_append [u, v] (escape tail) (closed_pair hsplit.2)
    have hb := byteLength_pair hpair
    simp only [cons_append, nil_append] at happ
    simp only [escape, hpair, if_true, length_cons]
    omega
  | case4 u v tail hpair ih =>
    have hb := (escapeUnit_shape u).byteLength_le
    simp only [escape, hpair, Bool.false_eq_true, if_false, length_cons] at ih ⊢
    rw [byteLength_append _ _ (escapeUnit_shape u).closed]
    omega

/-- Escaping introduces no control character. -/
theorem escape_hasControl (h : hasControl s = false) :
    hasControl (escape s) = false := by
  induction s using escape.induct with
  | case1 => rfl
  | case2 u =>
    refine (escapeUnit_shape u).hasControl ?_
    simpa [hasControl, codePoints] using h
  | case3 u v tail hpair ih =>
    have hsplit := hpair
    simp only [Bool.and_eq_true] at hsplit
    have hcl := closed_pair (u := u) hsplit.2
    have hin := hasControl_append [u, v] tail hcl
    have hout := hasControl_append [u, v] (escape tail) hcl
    simp only [cons_append, nil_append] at hin hout
    rw [hin, Bool.or_eq_false_iff] at h
    simp only [escape, hpair, if_true]
    rw [hout, h.1, ih h.2]
    rfl
  | case4 u v tail hpair ih =>
    unfold hasControl at h
    simp only [codePoints, hpair, Bool.false_eq_true, if_false, any_cons,
      Bool.or_eq_false_iff] at h
    simp only [escape, hpair, Bool.false_eq_true, if_false]
    rw [hasControl_append _ _ (escapeUnit_shape u).closed,
      (escapeUnit_shape u).hasControl h.1, ih h.2]
    rfl

private theorem printable_mark (h : 0x20 ≤ u.toNat ∧ u.toNat < 0x7F) :
    Printable [u] := by
  intro w hw
  rw [mem_singleton] at hw
  exact hw ▸ h

/-- Printed text never ends inside a surrogate pair and never contains half of
one. -/
structure Sound (s : JsString) : Prop where
  closed : Closed s
  wellFormed : wellFormed s = true

theorem Printable.sound (h : Printable s) : Sound s := ⟨h.closed, h.wellFormed⟩

theorem Sound.append (hs : Sound s) (ht : Sound t) : Sound (s ++ t) := by
  refine ⟨hs.closed.append ht.closed, ?_⟩
  rw [wellFormed_append _ _ hs.closed, hs.wellFormed, ht.wellFormed]
  rfl

theorem Sound.cons (h : 0x20 ≤ u.toNat ∧ u.toNat < 0x7F) (hs : Sound s) : Sound (u :: s) :=
  (printable_mark h).sound.append hs

theorem quote_sound (s : JsString) : Sound (quote s) :=
  Sound.cons (by decide)
    (Sound.append ⟨escape_closed s, escape_wellFormed s⟩ (printable_mark (by decide)).sound)

theorem text_sound (n : Decimal) : Sound n.text :=
  ⟨closed_of_all_lt fun u hu => by have := n.text_ascii u hu; omega,
    wellFormed_of_ascii _ n.text_ascii⟩

mutual
theorem stringify_sound : ∀ v : Json, Sound (stringify v)
  | null => (show Printable (js "null") by decide).sound
  | bool true => (show Printable (js "true") by decide).sound
  | bool false => (show Printable (js "false") by decide).sound
  | num n => text_sound n
  | str s => quote_sound s
  | arr [] => (show Printable [0x5B, 0x5D] by decide).sound
  | arr (v :: rest) => by
      rw [stringify]
      exact Sound.cons (by decide) ((stringify_sound v).append (stringifyItems_sound rest))
  | obj [] => (show Printable [0x7B, 0x7D] by decide).sound
  | obj ((key, v) :: rest) => by
      rw [stringify]
      exact Sound.cons (by decide) ((quote_sound key).append
        (Sound.cons (by decide) ((stringify_sound v).append (stringifyFields_sound rest))))
theorem stringifyItems_sound : ∀ items : List Json, Sound (stringifyItems items)
  | [] => (printable_mark (by decide)).sound
  | v :: rest => by
      rw [stringifyItems]
      exact Sound.cons (by decide) ((stringify_sound v).append (stringifyItems_sound rest))
theorem stringifyFields_sound : ∀ fields : List (JsString × Json), Sound (stringifyFields fields)
  | [] => (printable_mark (by decide)).sound
  | (key, v) :: rest => by
      rw [stringifyFields]
      exact Sound.cons (by decide) ((quote_sound key).append
        (Sound.cons (by decide) ((stringify_sound v).append (stringifyFields_sound rest))))
end

/-- Printed text survives UTF-8 coding. -/
theorem decodeUtf8_stringify (v : Json) : decodeUtf8 (utf8 (stringify v)) = some (stringify v) :=
  decodeUtf8_utf8 _ (stringify_sound v).wellFormed

/-! ## Byte lengths of objects -/

/-- Bytes of a printed field list: each field with its colon and the comma or
brace that follows it. -/
def fieldsBytes (fields : List (JsString × Json)) : Nat :=
  (fields.map fun f => byteLength (quote f.1) + byteLength (stringify f.2) + 2).sum

@[simp] theorem fieldsBytes_nil : fieldsBytes [] = 0 := rfl

@[simp] theorem fieldsBytes_cons (f : JsString × Json) (rest : List (JsString × Json)) :
    fieldsBytes (f :: rest) =
      byteLength (quote f.1) + byteLength (stringify f.2) + 2 + fieldsBytes rest := by
  simp [fieldsBytes]

@[simp] theorem fieldsBytes_append (fields rest : List (JsString × Json)) :
    fieldsBytes (fields ++ rest) = fieldsBytes fields + fieldsBytes rest := by
  simp [fieldsBytes]

theorem byteLength_mark (h : 0x20 ≤ u.toNat ∧ u.toNat < 0x7F) (s : JsString) :
    byteLength (u :: s) = 1 + byteLength s := by
  have hu := printable_mark h
  rw [← singleton_append, byteLength_append _ _ hu.closed, hu.byteLength]
  rfl

theorem hasControl_mark (h : 0x20 ≤ u.toNat ∧ u.toNat < 0x7F) (s : JsString) :
    hasControl (u :: s) = hasControl s := by
  have hu := printable_mark h
  rw [← singleton_append, hasControl_append _ _ hu.closed, hu.hasControl, Bool.false_or]

theorem byteLength_stringifyFields (fields : List (JsString × Json)) :
    byteLength (stringifyFields fields) = 1 + fieldsBytes fields := by
  induction fields with
  | nil => decide
  | cons field rest ih =>
    obtain ⟨key, v⟩ := field
    rw [stringifyFields, byteLength_mark (by decide),
      byteLength_append _ _ (quote_sound key).closed, byteLength_mark (by decide),
      byteLength_append _ _ (stringify_sound v).closed, ih, fieldsBytes_cons]
    dsimp only
    omega

theorem byteLength_stringify_obj (h : fields ≠ []) :
    byteLength (stringify (obj fields)) = 1 + fieldsBytes fields := by
  obtain ⟨⟨key, v⟩, rest, rfl⟩ := exists_cons_of_ne_nil h
  rw [stringify, byteLength_mark (by decide), byteLength_append _ _ (quote_sound key).closed,
    byteLength_mark (by decide), byteLength_append _ _ (stringify_sound v).closed,
    byteLength_stringifyFields, fieldsBytes_cons]
  dsimp only
  omega

theorem byteLength_quote_le (s : JsString) : byteLength (quote s) ≤ 6 * s.length + 2 := by
  have hesc := byteLength_escape_le s
  rw [quote, byteLength_mark (by decide), byteLength_append _ _ (escape_closed s),
    byteLength_mark (by decide), byteLength_nil]
  omega

/-! ## Plain strings -/

/-- Units a JSON string literal carries unescaped, one byte each. -/
def Plain (u : UInt16) : Prop := 0x20 ≤ u.toNat ∧ u.toNat < 0x7F ∧ u ≠ 0x22 ∧ u ≠ 0x5C

instance (u : UInt16) : Decidable (Plain u) :=
  inferInstanceAs (Decidable (0x20 ≤ u.toNat ∧ u.toNat < 0x7F ∧ u ≠ 0x22 ∧ u ≠ 0x5C))

theorem escapeUnit_plain (h : Plain u) : escapeUnit u = [u] := by
  obtain ⟨hlo, hhi, hquote, hback⟩ := h
  have hne : ∀ w : UInt16, w.toNat < 0x20 → u ≠ w := by
    rintro w hw rfl
    omega
  have hshort : shortEscape? u = none := by
    simp only [shortEscape?, hquote, hback, hne 0x08 (by decide), hne 0x0C (by decide),
      hne 0x0A (by decide), hne 0x0D (by decide), hne 0x09 (by decide), if_false]
  have hraw : (decide (u.toNat < 0x20) || isHighSurrogate u || isLowSurrogate u) = false := by
    simp only [isHighSurrogate, isLowSurrogate, Bool.or_eq_false_iff, Bool.and_eq_false_iff,
      decide_eq_false_iff_not]
    omega
  rw [escapeUnit, hshort]
  simp [hraw]

theorem escape_plain (h : ∀ u ∈ s, Plain u) : escape s = s := by
  induction s using escape.induct with
  | case1 => rfl
  | case2 u => exact escapeUnit_plain (h u (mem_cons_self ..))
  | case3 u v rest hpair ih =>
    obtain ⟨_, hhi, _⟩ := h u (mem_cons_self ..)
    simp only [isHighSurrogate, Bool.and_eq_true, decide_eq_true_eq] at hpair
    omega
  | case4 u v rest hpair ih =>
    have htail := ih fun w hw => h w (mem_cons_of_mem u hw)
    simp only [escape, hpair, Bool.false_eq_true, if_false, htail,
      escapeUnit_plain (h u (mem_cons_self ..))]
    rfl

theorem byteLength_quote_plain (h : ∀ u ∈ s, Plain u) :
    byteLength (quote s) = s.length + 2 := by
  have hbytes : ∀ u ∈ quote s, u.toNat < 0x80 := by
    intro u hu
    rw [quote, escape_plain h] at hu
    simp only [mem_cons, mem_append, not_mem_nil, or_false] at hu
    rcases hu with rfl | hu | rfl
    · decide
    · have := (h u hu).2.1
      omega
    · decide
  rw [byteLength_of_ascii _ hbytes, quote, escape_plain h]
  simp

end ClawMessenger.Verified.Json
