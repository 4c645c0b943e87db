import ClawMessenger.Verified.JsonRoundTrip

/-!
# Indented JSON

`JSON.stringify(v, null, 2)`: every element and field on a line of its own.
Files are measured in the bytes of this text, so what is proved of it is its
size: an object takes the sizes of its fields, their indentation and a fixed
frame (`byteLength_pretty_obj`).
-/

namespace ClawMessenger.Verified.Json

open JsString List

/-- A line break and the indentation of a depth. -/
def newline (depth : Nat) : JsString := 0x0A :: List.replicate (2 * depth) 0x20

mutual
/-- `JSON.stringify(v, null, 2)` at a depth. -/
def pretty (depth : Nat) : Json → JsString
  | null => js "null"
  | bool true => js "true"
  | bool false => js "false"
  | num n => n.text
  | str s => quote s
  | arr [] => [0x5B, 0x5D]
  | arr (v :: rest) =>
    0x5B :: (newline (depth + 1) ++ (pretty (depth + 1) v ++ prettyItems depth rest))
  | obj [] => [0x7B, 0x7D]
  | obj ((key, v) :: rest) =>
    0x7B :: (newline (depth + 1) ++ (quote key ++ 0x3A :: 0x20 ::
      (pretty (depth + 1) v ++ prettyFields depth rest)))
def prettyItems (depth : Nat) : List Json → JsString
  | [] => newline depth ++ [0x5D]
  | v :: rest => 0x2C :: (newline (depth + 1) ++ (pretty (depth + 1) v ++ prettyItems depth rest))
def prettyFields (depth : Nat) : List (JsString × Json) → JsString
  | [] => newline depth ++ [0x7D]
  | (key, v) :: rest =>
    0x2C :: (newline (depth + 1) ++ (quote key ++ 0x3A :: 0x20 ::
      (pretty (depth + 1) v ++ prettyFields depth rest)))
end

/-! ## Sizes -/

theorem newline_ascii (depth : Nat) : ∀ u ∈ newline depth, u.toNat < 0x80 := by
  intro u hu
  rcases mem_cons.mp hu with rfl | hu
  · decide
  · rw [eq_of_mem_replicate hu]
    decide

theorem newline_sound (depth : Nat) : Sound (newline depth) :=
  ⟨closed_of_all_lt fun u hu => by have := newline_ascii depth u hu; omega,
    wellFormed_of_ascii _ (newline_ascii depth)⟩

theorem byteLength_newline (depth : Nat) : byteLength (newline depth) = 2 * depth + 1 := by
  rw [byteLength_of_ascii _ (newline_ascii depth), newline, length_cons,
    length_replicate]

mutual
theorem pretty_sound (depth : Nat) : ∀ v : Json, Sound (pretty depth v)
  | null => stringify_sound null
  | bool true => stringify_sound (bool true)
  | bool false => stringify_sound (bool false)
  | num n => stringify_sound (num n)
  | str s => stringify_sound (str s)
  | arr [] => stringify_sound (arr [])
  | arr (v :: rest) => by
      rw [pretty]
      exact Sound.cons (by decide) ((newline_sound _).append
        ((pretty_sound (depth + 1) v).append (prettyItems_sound depth rest)))
  | obj [] => stringify_sound (obj [])
  | obj ((key, v) :: rest) => by
      rw [pretty]
      exact Sound.cons (by decide) ((newline_sound _).append ((quote_sound key).append
        (Sound.cons (by decide) (Sound.cons (by decide)
          ((pretty_sound (depth + 1) v).append (prettyFields_sound depth rest))))))
theorem prettyItems_sound (depth : Nat) : ∀ items : List Json, Sound (prettyItems depth items)
  | [] => (newline_sound depth).append (show Printable [0x5D] by decide).sound
  | v :: rest => by
      rw [prettyItems]
      exact Sound.cons (by decide) ((newline_sound _).append
        ((pretty_sound (depth + 1) v).append (prettyItems_sound depth rest)))
theorem prettyFields_sound (depth : Nat) :
    ∀ fields : List (JsString × Json), Sound (prettyFields depth fields)
  | [] => (newline_sound depth).append (show Printable [0x7D] by decide).sound
  | (key, v) :: rest => by
      rw [prettyFields]
      exact Sound.cons (by decide) ((newline_sound _).append ((quote_sound key).append
        (Sound.cons (by decide) (Sound.cons (by decide)
          ((pretty_sound (depth + 1) v).append (prettyFields_sound depth rest))))))
end

/-- Bytes of indented fields: each with its line, its comma and its colon. -/
def prettyFieldsBytes (depth : Nat) (fields : List (JsString × Json)) : Nat :=
  (fields.map fun f =>
    byteLength (quote f.1) + byteLength (pretty (depth + 1) f.2) + (2 * depth + 6)).sum

theorem byteLength_prettyFields (depth : Nat) (fields : List (JsString × Json)) :
    byteLength (prettyFields depth fields) = prettyFieldsBytes depth fields + (2 * depth + 2) := by
  induction fields with
  | nil =>
    rw [prettyFields, byteLength_append _ _ (newline_sound depth).closed, byteLength_newline]
    have hone : byteLength [0x7D] = 1 := by decide
    rw [hone, prettyFieldsBytes]
    simp
  | cons field rest ih =>
    obtain ⟨key, v⟩ := field
    rw [prettyFields, byteLength_mark (by decide),
      byteLength_append _ _ (newline_sound _).closed, byteLength_newline,
      byteLength_append _ _ (quote_sound key).closed, byteLength_mark (by decide),
      byteLength_mark (by decide), byteLength_append _ _ (pretty_sound _ v).closed, ih]
    simp only [prettyFieldsBytes, map_cons, sum_cons]
    omega

/-- An object takes its fields and a frame. -/
theorem byteLength_pretty_obj {depth : Nat} {fields : List (JsString × Json)} (h : fields ≠ []) :
    byteLength (pretty depth (obj fields)) =
      prettyFieldsBytes depth fields + (2 * depth + 2) := by
  obtain ⟨⟨key, v⟩, rest, rfl⟩ := exists_cons_of_ne_nil h
  rw [pretty, byteLength_mark (by decide), byteLength_append _ _ (newline_sound _).closed,
    byteLength_newline, byteLength_append _ _ (quote_sound key).closed,
    byteLength_mark (by decide), byteLength_mark (by decide),
    byteLength_append _ _ (pretty_sound _ v).closed, byteLength_prettyFields]
  simp only [prettyFieldsBytes, map_cons, sum_cons]
  omega

end ClawMessenger.Verified.Json
