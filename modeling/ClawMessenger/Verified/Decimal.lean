import ClawMessenger.Verified.JsString

/-!
# Numbers as their canonical decimals

A finite JavaScript number is printed by `Number::toString` from a triple: a
sign, the shortest digit string that reads back to the number, and the
position of the decimal point.  `Decimal` is that triple.  The digit string
has no leading and no trailing zero, so two decimals are equal exactly when
they denote the same value, and `-0` is identified with `0` as `===` does.

`text` follows the four layouts of `Number::toString`; `parseNumber` follows
the JSON grammar and keeps every digit it reads.  Where JSON text spells more
digits than a double can hold the language rounds and `parseNumber` does not;
on printed numbers the two agree, which is what `parseNumber_text` says.
-/

namespace ClawMessenger.Verified

open List (append_assoc append_nil cons_append length_append length_nil mem_cons nil_append
  replicate replicate_succ singleton_append)
open Option (bind_eq_bind bind_some)

namespace Decimal

open JsString

/-! ## Digits -/

abbrev Digit := Fin 10

def digitUnit (d : Digit) : UInt16 := UInt16.ofNat (0x30 + d.val)

def unitDigit? (u : UInt16) : Option Digit :=
  if h : 0x30 ≤ u.toNat ∧ u.toNat - 0x30 < 10 then some ⟨u.toNat - 0x30, h.2⟩ else none

theorem toNat_digitUnit (d : Digit) : (digitUnit d).toNat = 0x30 + d.val := by
  rw [digitUnit, UInt16.toNat_ofNat']
  exact Nat.mod_eq_of_lt (by omega)

@[simp] theorem unitDigit?_digitUnit (d : Digit) : unitDigit? (digitUnit d) = some d := by
  have hval := toNat_digitUnit d
  unfold unitDigit?
  rw [dif_pos (by omega)]
  congr 1
  ext
  simp only [hval]
  omega

/-- The longest run of digits at the front of a text. -/
def scanDigits : JsString → List Digit × JsString
  | [] => ([], [])
  | u :: rest =>
    match unitDigit? u with
    | some d => (d :: (scanDigits rest).1, (scanDigits rest).2)
    | none => ([], u :: rest)

/-- What follows a scanned run does not start with another digit. -/
def NoDigitHead (s : JsString) : Prop := ∀ u rest, s = u :: rest → unitDigit? u = none

variable {s : JsString}

theorem scanDigits_of_noDigitHead (h : NoDigitHead s) :
    scanDigits s = ([], s) := by
  cases s with
  | nil => rfl
  | cons u rest => simp [scanDigits, h u rest rfl]

theorem scanDigits_units (ds : List Digit) {rest : JsString} (h : NoDigitHead rest) :
    scanDigits (ds.map digitUnit ++ rest) = (ds, rest) := by
  induction ds with
  | nil => simpa using scanDigits_of_noDigitHead h
  | cons d ds ih => simp [scanDigits, ih]

/-- Most significant digit first. -/
def digitsWithFuel : Nat → Nat → List Digit
  | 0, _ => []
  | fuel + 1, n =>
    if n < 10 then [Fin.ofNat 10 n]
    else digitsWithFuel fuel (n / 10) ++ [Fin.ofNat 10 n]

def natDigits (n : Nat) : List Digit := digitsWithFuel (n + 1) n

def digitsValue (ds : List Digit) : Nat := ds.foldl (fun acc d => acc * 10 + d.val) 0

theorem digitsValue_append_singleton (ds : List Digit) (d : Digit) :
    digitsValue (ds ++ [d]) = digitsValue ds * 10 + d.val := by
  simp [digitsValue]

theorem digitsValue_digitsWithFuel (fuel n : Nat) (h : n < fuel) :
    digitsValue (digitsWithFuel fuel n) = n := by
  induction fuel generalizing n with
  | zero => omega
  | succ fuel ih =>
    unfold digitsWithFuel
    split
    · next hn => simpa [digitsValue, Fin.ofNat] using Nat.mod_eq_of_lt hn
    · next hn =>
        rw [digitsValue_append_singleton, ih (n / 10) (by omega)]
        simp only [Fin.ofNat]
        omega

theorem digitsValue_natDigits (n : Nat) : digitsValue (natDigits n) = n :=
  digitsValue_digitsWithFuel (n + 1) n (Nat.lt_succ_self n)

theorem digitsWithFuel_head (fuel n : Nat) (hf : n < fuel) (hn : n ≠ 0) :
    ∃ d rest, digitsWithFuel fuel n = d :: rest ∧ d ≠ 0 := by
  induction fuel generalizing n with
  | zero => omega
  | succ fuel ih =>
    unfold digitsWithFuel
    split
    · next hlt =>
        refine ⟨Fin.ofNat 10 n, [], rfl, ?_⟩
        intro h0
        have := congrArg Fin.val h0
        simp only [Fin.ofNat, Fin.val_zero] at this
        omega
    · next hlt =>
        obtain ⟨d, rest, hd, hne⟩ := ih (n / 10) (by omega) (by omega)
        exact ⟨d, rest ++ [Fin.ofNat 10 n], by rw [hd, cons_append], hne⟩

theorem natDigits_head (n : Nat) (hn : n ≠ 0) : ∃ d rest, natDigits n = d :: rest ∧ d ≠ 0 :=
  digitsWithFuel_head (n + 1) n (Nat.lt_succ_self n) hn

theorem natDigits_ne_nil (n : Nat) : natDigits n ≠ [] := by
  unfold natDigits digitsWithFuel
  split <;> simp

variable {n k : Nat}

theorem natDigits_length_le (h : n < 10 ^ (k + 1)) :
    (natDigits n).length ≤ k + 1 := by
  have hfuel : ∀ fuel n k : Nat, n < 10 ^ (k + 1) →
      (digitsWithFuel fuel n).length ≤ k + 1 := by
    intro fuel
    induction fuel with
    | zero => intro n k _; simp [digitsWithFuel]
    | succ fuel ih =>
      intro n k hn
      unfold digitsWithFuel
      split
      · simp
      · next hge =>
          cases k with
          | zero => omega
          | succ k =>
            have hdiv : n / 10 < 10 ^ (k + 1) := by
              rw [Nat.div_lt_iff_lt_mul (by decide)]
              simpa [Nat.pow_succ] using hn
            have := ih (n / 10) k hdiv
            simp only [length_append, List.length_cons, length_nil]
            omega
  exact hfuel _ n k h

end Decimal

open Decimal JsString

/-! ## Canonical decimals -/

/-- No leading zero and no trailing zero. -/
def trimmedDigits (ds : List Digit) : Bool := ds.head? != some 0 && ds.getLast? != some 0

/-- `±0.d₁d₂…dₖ · 10^point`; zero has no digits. -/
structure Decimal where
  negative : Bool
  digits : List Digit
  point : Int
  trimmed : trimmedDigits digits = true
  zero : digits = [] → negative = false ∧ point = 0
deriving DecidableEq

namespace Decimal

theorem ext_parts {a b : Decimal} (hn : a.negative = b.negative) (hd : a.digits = b.digits)
    (hp : a.point = b.point) : a = b := by
  cases a
  cases b
  simp_all

instance : Inhabited Decimal := ⟨⟨false, [], 0, rfl, fun _ => ⟨rfl, rfl⟩⟩⟩

def dropTrailingZeros (ds : List Digit) : List Digit :=
  (ds.reverse.dropWhile (· == 0)).reverse

/-- Digits with leading zeros dropped, and how many were dropped. -/
def significant (ds : List Digit) : List Digit := dropTrailingZeros (ds.dropWhile (· == 0))

def leadingZeros (ds : List Digit) : Nat := (ds.takeWhile (· == 0)).length

theorem head?_dropWhile_zero (ds : List Digit) : (ds.dropWhile (· == 0)).head? ≠ some 0 := by
  have h := List.head?_dropWhile_not (fun d : Digit => d == 0) ds
  cases hd : (ds.dropWhile (· == 0)).head? with
  | none => simp
  | some d =>
    rw [hd] at h
    simpa using h

theorem getLast?_dropTrailingZeros (ds : List Digit) :
    (dropTrailingZeros ds).getLast? ≠ some 0 := by
  rw [dropTrailingZeros, List.getLast?_reverse]
  exact head?_dropWhile_zero ds.reverse

theorem dropTrailingZeros_append_zeros (ds : List Digit) (n : Nat) :
    dropTrailingZeros (ds ++ replicate n 0) = dropTrailingZeros ds := by
  unfold dropTrailingZeros
  rw [List.reverse_append, List.reverse_replicate]
  congr 1
  induction n with
  | zero => rfl
  | succ n ih => simp [replicate_succ, ih]

variable {ds : List Digit} {rest : JsString}

theorem dropTrailingZeros_of_trimmed (h : ds.getLast? ≠ some 0) :
    dropTrailingZeros ds = ds := by
  unfold dropTrailingZeros
  have hhead : ds.reverse.head? ≠ some 0 := by rwa [List.head?_reverse]
  cases hr : ds.reverse with
  | nil =>
    have : ds = [] := by simpa using hr
    simp [this]
  | cons d rest =>
    rw [hr] at hhead
    have hd : d ≠ 0 := by simpa using hhead
    rw [List.dropWhile_cons_of_neg (by simpa using hd), ← hr, List.reverse_reverse]

/-- Dropping trailing zeros keeps the head of a list that does not start with
one. -/
theorem head?_dropTrailingZeros (h : ds.head? ≠ some 0) :
    (dropTrailingZeros ds).head? ≠ some 0 := by
  obtain ⟨zs, hzs⟩ : ∃ zs, ds = dropTrailingZeros ds ++ zs := by
    refine ⟨(ds.reverse.takeWhile (· == 0)).reverse, ?_⟩
    rw [dropTrailingZeros, ← List.reverse_append, List.takeWhile_append_dropWhile,
      List.reverse_reverse]
  cases hd : dropTrailingZeros ds with
  | nil => simp
  | cons d rest =>
    rw [hzs, hd] at h
    simpa using h

theorem trimmed_significant (ds : List Digit) : trimmedDigits (significant ds) = true := by
  simp only [trimmedDigits, significant, Bool.and_eq_true, bne_iff_ne]
  exact ⟨head?_dropTrailingZeros (head?_dropWhile_zero ds), getLast?_dropTrailingZeros _⟩

/-- The decimal `±0.ds · 10^point`, brought to canonical form. -/
def ofParts (negative : Bool) (ds : List Digit) (point : Int) : Decimal :=
  if h : significant ds = [] then default
  else
    { negative := negative
      digits := significant ds
      point := point - leadingZeros ds
      trimmed := trimmed_significant ds
      zero := fun h0 => absurd h0 h }

theorem trimmed_head {d : Decimal} : d.digits.head? ≠ some 0 := by
  have h := d.trimmed
  simp only [trimmedDigits, Bool.and_eq_true, bne_iff_ne] at h
  exact h.1

theorem trimmed_last {d : Decimal} : d.digits.getLast? ≠ some 0 := by
  have h := d.trimmed
  simp only [trimmedDigits, Bool.and_eq_true, bne_iff_ne] at h
  exact h.2

theorem dropWhile_padded (h : ds.head? ≠ some 0) (lead : Nat) :
    (replicate lead 0 ++ ds).dropWhile (· == 0) = ds := by
  induction lead with
  | zero =>
    cases ds with
    | nil => rfl
    | cons d rest =>
      have hd : d ≠ 0 := by simpa using h
      simp [hd]
  | succ n ih => simpa [replicate_succ] using ih

theorem leadingZeros_padded (h : ds.head? ≠ some 0) (lead : Nat) :
    leadingZeros (replicate lead 0 ++ ds) = lead := by
  unfold leadingZeros
  induction lead with
  | zero =>
    cases ds with
    | nil => rfl
    | cons d rest =>
      have hd : d ≠ 0 := by simpa using h
      simp [hd]
  | succ n ih => simpa [replicate_succ] using ih

/-- Padding with zeros on either side is undone by `ofParts`. -/
theorem ofParts_padded (d : Decimal) (hne : d.digits ≠ []) (lead trail : Nat) :
    ofParts d.negative (replicate lead 0 ++ (d.digits ++ replicate trail 0))
      (d.point + lead) = d := by
  have hhead : (d.digits ++ replicate trail 0).head? ≠ some 0 := by
    rw [List.head?_append_of_ne_nil _ hne]
    exact trimmed_head
  have hsig : significant (replicate lead 0 ++ (d.digits ++ replicate trail 0))
      = d.digits := by
    rw [significant, dropWhile_padded hhead, dropTrailingZeros_append_zeros,
      dropTrailingZeros_of_trimmed trimmed_last]
  have hlead := leadingZeros_padded hhead lead
  unfold ofParts
  rw [dif_neg (by rwa [hsig])]
  refine ext_parts rfl hsig ?_
  show d.point + (lead : Int) - (leadingZeros _ : Nat) = d.point
  rw [hlead]
  omega

/-! ## Whole numbers -/

def ofNat (n : Nat) : Decimal := ofParts false (natDigits n) (natDigits n).length

/-- The value, when it is a natural number. -/
def toNat? (d : Decimal) : Option Nat :=
  if d.negative then none
  else if (d.digits.length : Int) ≤ d.point then
    some (digitsValue (d.digits ++ replicate (d.point.toNat - d.digits.length) 0))
  else none

def maxSafeInteger : Nat := 2 ^ 53 - 1

/-- `Number.isSafeInteger(v) && v >= 0`, with the value. -/
def safeNat? (d : Decimal) : Option Nat := d.toNat?.filter (· ≤ maxSafeInteger)

/-- A digit list without a leading zero is its significant part followed by
zeros. -/
theorem eq_significant_append (h : ds.head? ≠ some 0) :
    ds = significant ds ++ replicate (ds.length - (significant ds).length) 0 := by
  have hdrop : ds.dropWhile (· == 0) = ds := by simpa using dropWhile_padded h 0
  have hsplit : ds = dropTrailingZeros ds ++ (ds.reverse.takeWhile (· == 0)).reverse := by
    rw [dropTrailingZeros, ← List.reverse_append, List.takeWhile_append_dropWhile,
      List.reverse_reverse]
  have hzeros : ∀ d ∈ (ds.reverse.takeWhile (· == 0)).reverse, d = 0 := by
    intro d hd
    rw [List.mem_reverse] at hd
    simpa using List.mem_takeWhile_imp hd
  have hlen : (ds.reverse.takeWhile (· == 0)).reverse.length
      = ds.length - (dropTrailingZeros ds).length := by
    have := congrArg List.length hsplit
    rw [length_append] at this
    omega
  rw [significant, hdrop, ← hlen, ← List.eq_replicate_of_mem hzeros]
  exact hsplit

theorem toNat?_ofNat (n : Nat) : (ofNat n).toNat? = some n := by
  by_cases hn : n = 0
  · subst hn
    decide
  · obtain ⟨d, rest, hds, hd⟩ := natDigits_head n hn
    have hhead : (natDigits n).head? ≠ some 0 := by
      rw [hds]
      simpa using hd
    have hval := digitsValue_natDigits n
    have hsplit := eq_significant_append hhead
    have hlead : leadingZeros (natDigits n) = 0 := by
      simpa using leadingZeros_padded hhead 0
    have hlen : (significant (natDigits n)).length ≤ (natDigits n).length := by
      have := congrArg List.length hsplit
      rw [length_append, List.length_replicate] at this
      omega
    have hne : significant (natDigits n) ≠ [] := by
      intro h0
      rw [h0, nil_append] at hsplit
      rw [hsplit, length_nil, Nat.sub_zero] at hhead
      cases hk : (natDigits n).length with
      | zero => exact natDigits_ne_nil n (List.length_eq_zero_iff.mp hk)
      | succ k => simp [hk, replicate_succ] at hhead
    unfold ofNat ofParts
    rw [dif_neg hne]
    simp only [toNat?, Bool.false_eq_true, if_false, hlead]
    rw [if_pos (by omega)]
    have hpoint : (((natDigits n).length : Int) - ((0 : Nat) : Int)).toNat
        = (natDigits n).length := by omega
    rw [hpoint, ← hsplit, hval]

theorem ofNat_injective {m : Nat} (h : ofNat m = ofNat n) : m = n := by
  have hm := toNat?_ofNat m
  rw [h, toNat?_ofNat] at hm
  exact (Option.some.inj hm).symm

theorem safeNat?_ofNat (h : n ≤ maxSafeInteger) : (ofNat n).safeNat? = some n := by
  simp [safeNat?, toNat?_ofNat, Option.filter, h]

/-! ## Printing -/

def zeros (n : Nat) : List Digit := replicate n 0

/-- The four layouts of `Number::toString`, without the sign. -/
def magnitude (ds : List Digit) (point : Int) : JsString :=
  if ds = [] then
    [0x30]
  else if (ds.length : Int) ≤ point ∧ point ≤ 21 then
    (ds ++ zeros (point.toNat - ds.length)).map digitUnit
  else if 0 < point ∧ point ≤ 21 then
    (ds.take point.toNat).map digitUnit ++ 0x2E :: (ds.drop point.toNat).map digitUnit
  else if -6 < point ∧ point ≤ 0 then
    0x30 :: 0x2E :: (zeros (-point).toNat ++ ds).map digitUnit
  else
    (ds.take 1).map digitUnit
      ++ (if ds.length = 1 then [] else 0x2E :: (ds.drop 1).map digitUnit)
      ++ 0x65 :: (if point - 1 < 0 then 0x2D else 0x2B)
        :: (natDigits (point - 1).natAbs).map digitUnit

/-- `String(x)` of the number. -/
def text (d : Decimal) : JsString :=
  if d.negative then 0x2D :: magnitude d.digits d.point else magnitude d.digits d.point

/-! ## Reading -/

/-- `0` or digits that do not start with `0`. -/
def scanInteger (s : JsString) : Option (List Digit × JsString) :=
  match scanDigits s with
  | ([], _) => none
  | (d :: ds, rest) => if d = 0 then some ([0], s.drop 1) else some (d :: ds, rest)

def scanFraction : JsString → Option (List Digit × JsString)
  | [] => some ([], [])
  | u :: rest =>
    if u = 0x2E then
      if (scanDigits rest).1 = [] then none else some (scanDigits rest)
    else
      some ([], u :: rest)

/-- The sign of an exponent: whether it is negative, and what follows. -/
def scanSign : JsString → Bool × JsString
  | [] => (false, [])
  | u :: rest =>
    if u = 0x2D then (true, rest) else if u = 0x2B then (false, rest) else (false, u :: rest)

def signedValue (negative : Bool) (ds : List Digit) : Int :=
  if negative then -(digitsValue ds : Int) else digitsValue ds

def scanExponent : JsString → Option (Int × JsString)
  | [] => some (0, [])
  | u :: rest =>
    if u = 0x65 ∨ u = 0x45 then
      if (scanDigits (scanSign rest).2).1 = [] then none
      else some (signedValue (scanSign rest).1 (scanDigits (scanSign rest).2).1,
        (scanDigits (scanSign rest).2).2)
    else
      some (0, u :: rest)

def parseMagnitude (negative : Bool) (s : JsString) : Option (Decimal × JsString) := do
  let (whole, afterWhole) ← scanInteger s
  let (fraction, afterFraction) ← scanFraction afterWhole
  let (exponent, rest) ← scanExponent afterFraction
  return (ofParts negative (whole ++ fraction) (whole.length + exponent), rest)

def parseNumber (s : JsString) : Option (Decimal × JsString) :=
  match s with
  | [] => none
  | u :: rest => if u = 0x2D then parseMagnitude true rest else parseMagnitude false (u :: rest)

/-! ## Reading what was printed -/

/-- No unit that would carry on a number. -/
def NumberEnd (s : JsString) : Prop :=
  ∀ u rest, s = u :: rest → unitDigit? u = none ∧ u ≠ 0x2E ∧ u ≠ 0x65 ∧ u ≠ 0x45

theorem NumberEnd.noDigitHead (h : NumberEnd s) : NoDigitHead s :=
  fun u rest hs => (h u rest hs).1

theorem numberEnd_nil : NumberEnd [] := by
  intro u rest h
  cases h

theorem noDigitHead_cons {u : UInt16} (h : unitDigit? u = none) :
    NoDigitHead (u :: rest) := by
  intro v r hv
  cases hv
  exact h

theorem scanInteger_units (hne : ds ≠ []) (hhead : ds.head? ≠ some 0) (hrest : NoDigitHead rest) :
    scanInteger (ds.map digitUnit ++ rest) = some (ds, rest) := by
  obtain ⟨d, ds', rfl⟩ := List.exists_cons_of_ne_nil hne
  have hd : d ≠ 0 := by simpa using hhead
  rw [scanInteger, scanDigits_units _ hrest]
  simp [hd]

theorem scanInteger_zero (hrest : NoDigitHead rest) :
    scanInteger (0x30 :: rest) = some ([0], rest) := by
  have hscan := scanDigits_units [(0 : Digit)] hrest
  have hunit : ([(0 : Digit)].map digitUnit) = [0x30] := by decide
  rw [hunit, singleton_append] at hscan
  rw [scanInteger, hscan]
  simp

theorem scanFraction_units (hne : ds ≠ []) (hrest : NoDigitHead rest) :
    scanFraction (0x2E :: (ds.map digitUnit ++ rest)) = some (ds, rest) := by
  simp [scanFraction, scanDigits_units _ hrest, hne]

theorem scanFraction_absent (h : ∀ u rest, s = u :: rest → u ≠ 0x2E) :
    scanFraction s = some ([], s) := by
  cases s with
  | nil => rfl
  | cons u rest => simp [scanFraction, h u rest rfl]

theorem scanExponent_absent (h : NumberEnd s) :
    scanExponent s = some (0, s) := by
  cases s with
  | nil => rfl
  | cons u rest =>
    obtain ⟨_, _, he, hE⟩ := h u rest rfl
    simp [scanExponent, he, hE]

theorem scanExponent_signed (e : Int) (hrest : NoDigitHead rest) :
    scanExponent (0x65 :: (if e < 0 then 0x2D else 0x2B)
      :: ((natDigits e.natAbs).map digitUnit ++ rest)) = some (e, rest) := by
  have hscan := scanDigits_units (natDigits e.natAbs) hrest
  have hne := natDigits_ne_nil e.natAbs
  have hval := digitsValue_natDigits e.natAbs
  by_cases he : e < 0
  · simp only [scanExponent, scanSign, he, if_true, hscan, hne, if_false, true_or, signedValue,
      hval]
    congr 2
    omega
  · have hplus : (0x2B : UInt16) ≠ 0x2D := by decide
    simp only [scanExponent, scanSign, he, if_true, hscan, hne, if_false, true_or, signedValue,
      hval, hplus, Bool.false_eq_true]
    congr 2
    omega

theorem unitDigit?_point : unitDigit? 0x2E = none := by decide

theorem unitDigit?_exponent : unitDigit? 0x65 = none := by decide

theorem parseMagnitude_magnitude (d : Decimal) (hrest : NumberEnd rest) :
    parseMagnitude d.negative (magnitude d.digits d.point ++ rest) = some (d, rest) := by
  unfold magnitude
  split
  · next hnil =>
      obtain ⟨hneg, hpoint⟩ := d.zero hnil
      rw [singleton_append, parseMagnitude, scanInteger_zero hrest.noDigitHead]
      simp only [bind_eq_bind, bind_some,
        scanFraction_absent fun u r h => (hrest u r h).2.1, scanExponent_absent hrest]
      have hd : d = default := ext_parts hneg hnil hpoint
      simp only [append_nil, List.length_singleton, hd]
      rfl
  · next hne =>
    have hplain := ofParts_padded d hne 0 0
    simp only [List.replicate_zero, nil_append, append_nil, Int.natCast_zero,
      Int.add_zero] at hplain
    split
    -- all digits before the point
    · next hcase =>
        have hhead : (d.digits ++ zeros (d.point.toNat - d.digits.length)).head? ≠ some 0 := by
          rw [List.head?_append_of_ne_nil _ hne]
          exact trimmed_head
        have hwhole : d.digits ++ zeros (d.point.toNat - d.digits.length) ≠ [] := by
          simp [hne]
        rw [parseMagnitude, scanInteger_units hwhole hhead hrest.noDigitHead]
        simp only [bind_eq_bind, bind_some,
          scanFraction_absent fun u r h => (hrest u r h).2.1, scanExponent_absent hrest]
        have hpad := ofParts_padded d hne 0 (d.point.toNat - d.digits.length)
        have hpoint : ((d.digits ++ zeros (d.point.toNat - d.digits.length)).length : Int) + 0
            = d.point + (0 : Nat) := by
          simp only [length_append, zeros, List.length_replicate]
          omega
        rw [append_nil, hpoint]
        simp only [List.replicate_zero, nil_append] at hpad
        rw [zeros, hpad]
        rfl
    · split
      -- the point falls inside the digits
      · next hlong hcase =>
          have htake : d.digits.take d.point.toNat ≠ [] := by
            intro h0
            have := congrArg List.length h0
            have hpos := List.length_pos_iff.mpr hne
            rw [List.length_take, length_nil] at this
            omega
          have hdrop : d.digits.drop d.point.toNat ≠ [] := by
            intro h0
            have := congrArg List.length h0
            rw [List.length_drop, length_nil] at this
            omega
          have hhead : (d.digits.take d.point.toNat).head? ≠ some 0 := by
            have hsplit := List.take_append_drop d.point.toNat d.digits
            have := trimmed_head (d := d)
            rwa [← hsplit, List.head?_append_of_ne_nil _ htake] at this
          rw [append_assoc, cons_append, parseMagnitude,
            scanInteger_units htake hhead (noDigitHead_cons unitDigit?_point)]
          simp only [bind_eq_bind, bind_some,
            scanFraction_units hdrop hrest.noDigitHead, scanExponent_absent hrest]
          have hlen : ((d.digits.take d.point.toNat).length : Int) + 0 = d.point := by
            rw [List.length_take]
            omega
          rw [List.take_append_drop, hlen, hplain]
          rfl
      · split
        -- small numbers: `0.` and leading zeros
        · next hcase =>
            rw [cons_append, cons_append, parseMagnitude,
              scanInteger_zero (noDigitHead_cons unitDigit?_point)]
            have hfrac : zeros (-d.point).toNat ++ d.digits ≠ [] := by simp [hne]
            simp only [bind_eq_bind, bind_some,
              scanFraction_units hfrac hrest.noDigitHead, scanExponent_absent hrest]
            have hpad := ofParts_padded d hne ((-d.point).toNat + 1) 0
            have hpoint : (([0] : List Digit).length : Int) + 0
                = d.point + ((-d.point).toNat + 1 : Nat) := by
              simp only [List.length_singleton]
              omega
            rw [hpoint]
            simp only [List.replicate_zero, append_nil, replicate_succ,
              cons_append] at hpad
            rw [singleton_append, zeros, hpad]
            rfl
        -- exponent form
        · obtain ⟨x, xs, hx⟩ := List.exists_cons_of_ne_nil hne
          have hhead : ([x] : List Digit).head? ≠ some 0 := by
            have := trimmed_head (d := d)
            rw [hx] at this
            simpa using this
          have hpoint : (([x] : List Digit).length : Int) + (d.point - 1) = d.point := by
            simp only [List.length_singleton]
            omega
          by_cases hone : d.digits.length = 1
          · have hxs : xs = [] := by
              rw [hx] at hone
              simpa using hone
            simp only [hone, if_true, append_nil, append_assoc, cons_append]
            rw [hx, List.take_succ_cons, List.take_zero, parseMagnitude,
              scanInteger_units (by simp) hhead (noDigitHead_cons unitDigit?_exponent)]
            have hnot : ∀ u r, (0x65 : UInt16) :: (if d.point - 1 < 0 then 0x2D else 0x2B)
                :: ((natDigits (d.point - 1).natAbs).map digitUnit ++ rest) = u :: r →
                u ≠ 0x2E := by
              intro u r h
              cases h
              decide
            simp only [bind_eq_bind, bind_some, scanFraction_absent hnot,
              scanExponent_signed _ hrest.noDigitHead]
            rw [append_nil, hpoint, ← hxs, ← hx, hplain]
            rfl
          · have hxs : xs ≠ [] := by
              intro h0
              rw [hx, h0] at hone
              simp at hone
            simp only [hone, if_false, append_assoc, cons_append]
            rw [hx, List.take_succ_cons, List.take_zero, List.drop_succ_cons, List.drop_zero,
              parseMagnitude,
              scanInteger_units (by simp) hhead (noDigitHead_cons unitDigit?_point)]
            simp only [bind_eq_bind, bind_some,
              scanFraction_units hxs (noDigitHead_cons unitDigit?_exponent),
              scanExponent_signed _ hrest.noDigitHead]
            rw [singleton_append, hpoint, ← hx, hplain]
            rfl

/-- The first unit of a magnitude is a digit. -/
theorem magnitude_head (ds : List Digit) (point : Int) :
    ∃ d rest, magnitude ds point = digitUnit d :: rest := by
  unfold magnitude
  split
  · exact ⟨0, [], rfl⟩
  · next hne =>
    obtain ⟨x, xs, rfl⟩ := List.exists_cons_of_ne_nil hne
    split
    · exact ⟨x, _, rfl⟩
    · split
      · next hcase =>
          obtain ⟨n, hn⟩ : ∃ n, point.toNat = n + 1 := ⟨point.toNat - 1, by omega⟩
          rw [hn]
          exact ⟨x, _, rfl⟩
      · split
        · exact ⟨0, _, rfl⟩
        · exact ⟨x, _, rfl⟩

theorem digitUnit_ne_minus (d : Digit) : digitUnit d ≠ 0x2D := by
  intro h
  have hd := toNat_digitUnit d
  rw [h] at hd
  have : (0x2D : UInt16).toNat = 0x2D := rfl
  omega

/-- **Printed numbers read back.** -/
theorem parseNumber_text (d : Decimal) (hrest : NumberEnd rest) :
    parseNumber (text d ++ rest) = some (d, rest) := by
  have hmag := parseMagnitude_magnitude d hrest
  unfold text
  split
  · next hneg =>
      rw [hneg] at hmag
      simp [parseNumber, hmag]
  · next hneg =>
      have hfalse : d.negative = false := by simpa using hneg
      rw [hfalse] at hmag
      obtain ⟨x, tail, hx⟩ := magnitude_head d.digits d.point
      rw [hx, cons_append] at hmag ⊢
      simp [parseNumber, digitUnit_ne_minus, hmag]

/-! ## Shape of printed numbers -/

theorem digitUnit_lt (d : Digit) : (digitUnit d).toNat < 0x80 := by
  rw [toNat_digitUnit]
  omega

/-- A printed number starts with a digit or a minus sign. -/
theorem text_head (d : Decimal) :
    ∃ u rest, text d = u :: rest ∧ (u = 0x2D ∨ ∃ x, u = digitUnit x) := by
  unfold text
  split
  · exact ⟨_, _, rfl, .inl rfl⟩
  · obtain ⟨x, rest, hx⟩ := magnitude_head d.digits d.point
    exact ⟨_, rest, hx, .inr ⟨x, rfl⟩⟩

private theorem units_ascii (ds : List Digit) : ∀ u ∈ ds.map digitUnit, u.toNat < 0x80 := by
  intro u hu
  obtain ⟨d, _, rfl⟩ := List.mem_map.mp hu
  exact digitUnit_lt d

theorem magnitude_ascii (ds : List Digit) (point : Int) :
    ∀ u ∈ magnitude ds point, u.toNat < 0x80 := by
  have hlit : (0x30 : UInt16).toNat < 0x80 ∧ (0x2E : UInt16).toNat < 0x80 ∧
      (0x65 : UInt16).toNat < 0x80 ∧ (0x2D : UInt16).toNat < 0x80 ∧
      (0x2B : UInt16).toNat < 0x80 := by decide
  obtain ⟨h0, hdot, he, hminus, hplus⟩ := hlit
  intro u hu
  unfold magnitude at hu
  split_ifs at hu
  · simp only [List.mem_singleton] at hu
    exact hu ▸ h0
  · exact units_ascii _ u hu
  · simp only [List.mem_append, mem_cons] at hu
    rcases hu with hu | rfl | hu
    · exact units_ascii _ u hu
    · exact hdot
    · exact units_ascii _ u hu
  · simp only [mem_cons] at hu
    rcases hu with rfl | rfl | hu
    · exact h0
    · exact hdot
    · exact units_ascii _ u hu
  all_goals
    simp only [List.mem_append, mem_cons, List.not_mem_nil, or_false] at hu
    rcases hu with hu | hu
    · first
        | exact units_ascii _ u hu
        | (rcases hu with hu | rfl | hu
           · exact units_ascii _ u hu
           · exact hdot
           · exact units_ascii _ u hu)
    · rcases hu with rfl | rfl | hu
      · exact he
      · first | exact hminus | exact hplus
      · exact units_ascii _ u hu

theorem text_ascii (d : Decimal) : ∀ u ∈ text d, u.toNat < 0x80 := by
  intro u hu
  unfold text at hu
  split at hu
  · rcases mem_cons.mp hu with rfl | hu
    · decide
    · exact magnitude_ascii _ _ u hu
  · exact magnitude_ascii _ _ u hu

/-- A natural number below `10 ^ 21` prints as its digits. -/
theorem length_text_ofNat_le (h : n < 10 ^ (k + 1)) (hk : k < 21) :
    (text (ofNat n)).length ≤ k + 1 := by
  have hlen := natDigits_length_le h
  unfold ofNat ofParts
  split
  · show ([0x30] : JsString).length ≤ k + 1
    simp
  · next hne =>
      have hlead : leadingZeros (natDigits n) = 0 := by
        by_cases hn : n = 0
        · subst hn
          exact absurd (by decide) hne
        · obtain ⟨d, rest, hds, hd⟩ := natDigits_head n hn
          simp [leadingZeros, hds, hd]
      have hsig : (significant (natDigits n)).length ≤ (natDigits n).length := by
        unfold significant dropTrailingZeros
        rw [List.length_reverse]
        refine (List.length_dropWhile_le _ _).trans ?_
        rw [List.length_reverse]
        exact List.length_dropWhile_le _ _
      simp only [text, Bool.false_eq_true, if_false, magnitude, hne, hlead]
      rw [if_pos (by omega)]
      simp only [List.length_map, length_append, zeros, List.length_replicate]
      omega

end Decimal

end ClawMessenger.Verified
