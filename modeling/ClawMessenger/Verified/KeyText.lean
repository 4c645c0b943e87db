import ClawMessenger.Verified.JsonRoundTrip

/-!
# Keys that are JSON texts

A map may be keyed by the JSON text of an array of ids.  Such a text determines
its parts (`Json.stringify_injective`), and when no part carries a control
character it is again a trimmed string without control characters, of a length
bounded by the lengths of its parts (`keyText_bounded`).
-/

namespace ClawMessenger.Verified.Json

open JsString List

/-- What may stand in a key: a string without controls, or a printable number. -/
def KeyItem : Json → Prop
  | str s => hasControl s = false
  | num n => Printable n.text
  | _ => False

/-- An upper bound on the units a key item and its separator take. -/
def itemUnits : Json → Nat
  | str s => 6 * s.length + 3
  | num n => n.text.length + 1
  | _ => 0

theorem KeyItem.hasControl {v : Json} (h : KeyItem v) :
    JsString.hasControl (stringify v) = false := by
  cases v with
  | str s =>
    have hesc : JsString.hasControl (escape s) = false := escape_hasControl h
    rw [stringify, quote, hasControl_mark (by decide), hasControl_append _ _ (escape_closed s),
      hesc, hasControl_mark (by decide)]
    rfl
  | num n => exact Printable.hasControl h
  | _ => cases h

theorem KeyItem.length_lt {v : Json} (h : KeyItem v) : (stringify v).length < itemUnits v := by
  cases v with
  | str s =>
    have hesc := escape_length_le s
    simp only [stringify, quote, length_cons, length_append, length_nil,
      itemUnits]
    omega
  | num n => exact Nat.lt_succ_self _
  | _ => cases h

private theorem stringifyItems_key {items : List Json} (h : ∀ v ∈ items, KeyItem v) :
    hasControl (stringifyItems items) = false ∧
      (stringifyItems items).length ≤ 1 + (items.map itemUnits).sum ∧
      (stringifyItems items).getLast? = some 0x5D := by
  induction items with
  | nil => exact ⟨by decide, by decide, rfl⟩
  | cons v rest ih =>
    have hv := h v (mem_cons_self ..)
    obtain ⟨hcontrol, hlength, hlast⟩ := ih fun w hw => h w (mem_cons_of_mem _ hw)
    have hlt := hv.length_lt
    refine ⟨?_, ?_, ?_⟩
    · rw [stringifyItems, hasControl_mark (by decide),
        hasControl_append _ _ (stringify_sound v).closed, hv.hasControl, hcontrol]
      rfl
    · simp only [stringifyItems, length_cons, length_append, map_cons,
        sum_cons]
      omega
    · rw [stringifyItems, getLast?_cons, getLast?_append, hlast]
      rfl

/-- The key text of bounded parts is bounded text. -/
theorem keyText_bounded {v : Json} {rest : List Json} {maximum : Nat}
    (h : ∀ w ∈ v :: rest, KeyItem w)
    (hmax : 1 + ((v :: rest).map itemUnits).sum ≤ maximum) :
    boundedText (stringify (arr (v :: rest))) maximum = true := by
  have hv := h v (mem_cons_self ..)
  have hlt := hv.length_lt
  obtain ⟨hcontrol, hlength, hlast⟩ :=
    stringifyItems_key fun w hw => h w (mem_cons_of_mem _ hw)
  have htrim : trim (stringify (arr (v :: rest))) = stringify (arr (v :: rest)) := by
    apply trim_eq_self
    · intro u hu
      rw [stringify, head?_cons, Option.some.injEq] at hu
      rw [← hu]
      decide
    · intro u hu
      rw [stringify, getLast?_cons, getLast?_append, hlast] at hu
      have hu' : (0x5D : UInt16) = u := by simpa using hu
      rw [← hu']
      decide
  have hnone : hasControl (stringify (arr (v :: rest))) = false := by
    rw [stringify, hasControl_mark (by decide),
      hasControl_append _ _ (stringify_sound v).closed, hv.hasControl, hcontrol]
    rfl
  simp only [map_cons, sum_cons] at hmax
  have hsize : 1 ≤ (stringify (arr (v :: rest))).length ∧
      (stringify (arr (v :: rest))).length ≤ maximum := by
    simp only [stringify, length_cons, length_append]
    omega
  rw [boundedText, htrim, hnone]
  simp [hsize]

end ClawMessenger.Verified.Json
