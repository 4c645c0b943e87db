import ClawMessenger.Verified.JsonShape
import ClawMessenger.Verified.JsonRoundTrip

/-!
# What holds of every field

`Json.All` states a property of every number and of every key inside a value.
It and `Json.Distinct` are statements about each item and each field, and both
are kept when a field is assigned.
-/

namespace ClawMessenger.Verified.Json

open List

variable {number : Decimal → Prop} {key : JsString → Prop}

mutual
/-- Every number and every key inside pass. -/
def All (number : Decimal → Prop) (key : JsString → Prop) : Json → Prop
  | num n => number n
  | arr items => AllItems number key items
  | obj fields => AllFields number key fields
  | _ => True
def AllItems (number : Decimal → Prop) (key : JsString → Prop) : List Json → Prop
  | [] => True
  | v :: rest => All number key v ∧ AllItems number key rest
def AllFields (number : Decimal → Prop) (key : JsString → Prop) : List (JsString × Json) → Prop
  | [] => True
  | (k, v) :: rest => key k ∧ All number key v ∧ AllFields number key rest
end

theorem allItems_iff {items : List Json} : AllItems number key items ↔ ∀ v ∈ items, All number key v := by
  induction items with
  | nil => simp [AllItems]
  | cons v rest ih => simp [AllItems, ih]

variable {fields : List (JsString × Json)} {k : JsString} {v : Json}

theorem allFields_iff :
    AllFields number key fields ↔ ∀ field ∈ fields, key field.1 ∧ All number key field.2 := by
  induction fields with
  | nil => simp [AllFields]
  | cons field rest ih => simp [AllFields, ih, and_assoc]

theorem distinctItems_iff {items : List Json} : Distinct.DistinctItems items ↔ ∀ v ∈ items, v.Distinct := by
  induction items with
  | nil => simp [Distinct.DistinctItems]
  | cons v rest ih => simp [Distinct.DistinctItems, ih]

theorem distinctFields_iff :
    Distinct.DistinctFields fields ↔ ∀ field ∈ fields, field.2.Distinct := by
  induction fields with
  | nil => simp [Distinct.DistinctFields]
  | cons field rest ih => simp [Distinct.DistinctFields, ih]

/-! ## One field -/

theorem mem_of_lookup (h : fields.lookup k = some v) : (k, v) ∈ fields := by
  obtain ⟨before, after, rfl, _⟩ := lookup_eq_some_iff.mp h
  simp

theorem All.field {w : Json} (h : All number key v) (hfield : v.field? k = some w) :
    All number key w := by
  cases v with
  | obj fields => exact (allFields_iff.mp h _ (mem_of_lookup hfield)).2
  | _ => cases hfield

/-! ## Assigning a field -/

theorem mem_setField {field old : JsString × Json}
    (h : old ∈ setField fields field) : old ∈ fields ∨ old = field := by
  unfold setField at h
  split at h
  · obtain ⟨f, hf, heq⟩ := mem_map.mp h
    split at heq
    · exact .inr heq.symm
    · exact .inl (heq ▸ hf)
  · simpa using h

theorem nodup_setField (field : JsString × Json)
    (h : (fields.map Prod.fst).Nodup) : ((setField fields field).map Prod.fst).Nodup := by
  unfold setField
  split
  · have hkeys : (fields.map fun old => if old.1 == field.1 then field else old).map Prod.fst =
        fields.map Prod.fst := by
      rw [map_map]
      apply map_congr_left
      intro old _
      by_cases hk : old.1 = field.1 <;> simp [hk]
    rwa [hkeys]
  · next hany =>
      have hfresh : field.1 ∉ fields.map Prod.fst := by
        intro hmem
        obtain ⟨old, hold, heq⟩ := mem_map.mp hmem
        exact hany (any_eq_true.mpr ⟨old, hold, by simp [heq]⟩)
      rw [map_append, nodup_append]
      refine ⟨h, by simp, ?_⟩
      intro k hk l hl heq
      have hlast : l = field.1 := by simpa using hl
      exact hfresh (hlast ▸ heq ▸ hk)

theorem All.setField (h : All number key (obj fields)) (hk : key k) (hv : All number key v) :
    All number key (obj (setField fields (k, v))) := by
  apply allFields_iff.mpr
  intro field hfield
  rcases mem_setField hfield with hold | rfl
  · exact allFields_iff.mp h field hold
  · exact ⟨hk, hv⟩

theorem Distinct.setField (h : (obj fields).Distinct)
    (hv : v.Distinct) : (obj (setField fields (k, v))).Distinct := by
  refine ⟨nodup_setField (k, v) h.1, distinctFields_iff.mpr ?_⟩
  intro field hfield
  rcases mem_setField hfield with hold | rfl
  · exact distinctFields_iff.mp h.2 field hold
  · exact hv

end ClawMessenger.Verified.Json
