import ClawMessenger.Ports.WorkerProtocol
import ClawMessenger.Verified.JsonFields
import ClawMessenger.Verified.JsonLimits

/-!
# What the worker's copy admits

`passiveClone` gives a plain value back unchanged exactly when its nesting, the
names it counts and its texts are within the limits.  With the limit on the
printed value, which covers the texts, `snapshot` admits a plain value exactly
when it is `Carried`.
-/

namespace ClawMessenger.Ports.WorkerProtocol

open ClawMessenger.Verified JsString MessageNormalizer
open Json (nesting nestingFields nestingItems textBytes textBytesFields textBytesItems)

/-! ## Measures -/

mutual
/-- The names that a copy counts: those of an array twice, as names and as its
length. -/
def ipcItems : Json → Nat
  | .arr items => items.length + 2 + items.length + ipcItemsOfItems items
  | .obj fields => fields.length + 1 + ipcItemsOfFields fields
  | _ => 0
def ipcItemsOfItems : List Json → Nat
  | [] => 0
  | item :: rest => ipcItems item + ipcItemsOfItems rest
def ipcItemsOfFields : Fields → Nat
  | [] => 0
  | (_, value) :: rest => ipcItems value + ipcItemsOfFields rest
end

/-- Every number is finite, and no key is a dangerous one. -/
def Plain : Json → Prop :=
  Json.All (fun n => isFinite n = true) fun key => dangerousObjectKeys.contains key = false

/-! ## Counting -/

variable {budget : Budget}

theorem countItems_ok {n max : Nat} (h : budget.items + n ≤ max) :
    countItems n budget max = .ok ⟨budget.items + n, budget.textBytes⟩ := by
  unfold countItems
  rw [if_neg (by omega)]

variable {counted : Budget}

theorem of_countItems {n max : Nat} (h : countItems n budget max = .ok counted) :
    counted = ⟨budget.items + n, budget.textBytes⟩ ∧ budget.items + n ≤ max := by
  unfold countItems at h
  split at h
  · cases h
  · cases h
    exact ⟨rfl, by omega⟩

variable {value : JsString}

theorem accountString_ok (h : budget.textBytes + byteLength value ≤ MAX_WORKER_IPC_BYTES) :
    accountString value budget = .ok ⟨budget.items, budget.textBytes + byteLength value⟩ := by
  unfold accountString
  rw [if_neg (by omega)]

theorem of_accountString (h : accountString value budget = .ok counted) :
    counted = ⟨budget.items, budget.textBytes + byteLength value⟩ ∧
      budget.textBytes + byteLength value ≤ MAX_WORKER_IPC_BYTES := by
  unfold accountString at h
  split at h
  · cases h
  · cases h
    exact ⟨rfl, by omega⟩

/-! ## Within the limits, the copy is the value -/

mutual
theorem passiveClone_ok : ∀ (value : Json) (budget : Budget) (depth : Nat), Plain value →
    depth + value.nesting ≤ MAX_IPC_DEPTH → budget.items + ipcItems value ≤ MAX_IPC_ITEMS →
    budget.textBytes + value.textBytes ≤ MAX_WORKER_IPC_BYTES →
    passiveClone value budget depth =
      .ok (value, ⟨budget.items + ipcItems value, budget.textBytes + value.textBytes⟩)
  | .null, budget, depth, _, _, _, _ => rfl
  | .bool _, budget, depth, _, _, _, _ => rfl
  | .num n, budget, depth, hplain, _, _, _ => by
      have hfinite : isFinite n = true := hplain
      rw [passiveClone, if_pos hfinite]
      rfl
  | .str s, budget, depth, _, _, _, htext => by
      rw [passiveClone, accountString_ok htext]
      rfl
  | .arr items, budget, depth, hplain, hdepth, hitems, htext => by
      simp only [nesting, ipcItems, textBytes] at hdepth hitems htext
      have hrest := passiveCloneItems_ok items ⟨budget.items + (items.length + 1 + 1) + items.length,
        budget.textBytes⟩ (depth + 1) hplain (by omega) (by dsimp only; omega) htext
      rw [passiveClone, if_neg (by omega), countItems_ok (by omega)]
      simp only [bind, Except.bind]
      rw [countItems_ok (by dsimp only; omega)]
      simp only [hrest, pure, Except.pure, ipcItems, textBytes]
      congr 3
      omega
  | .obj fields, budget, depth, hplain, hdepth, hitems, htext => by
      simp only [nesting, ipcItems, textBytes] at hdepth hitems htext
      have hkeys : (fields.any fun field => dangerousObjectKeys.contains field.1) = false := by
        rw [List.any_eq_false]
        intro field hfield
        rw [(Json.allFields_iff.mp hplain field hfield).1]
        simp
      have hrest := passiveCloneFields_ok fields ⟨budget.items + (fields.length + 1), budget.textBytes⟩
        (depth + 1) hplain (by omega) (by dsimp only; omega) htext
      rw [passiveClone, if_neg (by omega), if_neg (by rw [hkeys]; simp), countItems_ok (by omega)]
      simp only [bind, Except.bind, hrest, pure, Except.pure, ipcItems, textBytes]
      congr 3
      omega
theorem passiveCloneItems_ok : ∀ (items : List Json) (budget : Budget) (depth : Nat),
    Json.AllItems (fun n => isFinite n = true) (fun key => dangerousObjectKeys.contains key = false) items →
    depth + nestingItems items ≤ MAX_IPC_DEPTH → budget.items + ipcItemsOfItems items ≤ MAX_IPC_ITEMS →
    budget.textBytes + textBytesItems items ≤ MAX_WORKER_IPC_BYTES →
    passiveCloneItems items budget depth =
      .ok (items, ⟨budget.items + ipcItemsOfItems items, budget.textBytes + textBytesItems items⟩)
  | [], budget, depth, _, _, _, _ => rfl
  | item :: rest, budget, depth, hplain, hdepth, hitems, htext => by
      simp only [nestingItems, ipcItemsOfItems, textBytesItems] at hdepth hitems htext
      have hitem := passiveClone_ok item budget depth hplain.1 (by omega) (by omega) (by omega)
      have hrest := passiveCloneItems_ok rest ⟨budget.items + ipcItems item, budget.textBytes + item.textBytes⟩
        depth hplain.2 (by omega) (by dsimp only; omega) (by dsimp only; omega)
      simp only [passiveCloneItems, hitem, hrest, bind, Except.bind, pure, Except.pure, ipcItemsOfItems,
        textBytesItems]
      congr 3 <;> omega
theorem passiveCloneFields_ok : ∀ (fields : Fields) (budget : Budget) (depth : Nat),
    Json.AllFields (fun n => isFinite n = true) (fun key => dangerousObjectKeys.contains key = false) fields →
    depth + nestingFields fields ≤ MAX_IPC_DEPTH →
    budget.items + ipcItemsOfFields fields ≤ MAX_IPC_ITEMS →
    budget.textBytes + textBytesFields fields ≤ MAX_WORKER_IPC_BYTES →
    passiveCloneFields fields budget depth =
      .ok (fields, ⟨budget.items + ipcItemsOfFields fields, budget.textBytes + textBytesFields fields⟩)
  | [], budget, depth, _, _, _, _ => rfl
  | (key, value) :: rest, budget, depth, hplain, hdepth, hitems, htext => by
      simp only [nestingFields, ipcItemsOfFields, textBytesFields] at hdepth hitems htext
      have hvalue := passiveClone_ok value ⟨budget.items, budget.textBytes + byteLength key⟩ depth hplain.2.1
        (by omega) (by dsimp only; omega) (by dsimp only; omega)
      have hrest := passiveCloneFields_ok rest
        ⟨budget.items + ipcItems value, budget.textBytes + byteLength key + value.textBytes⟩ depth hplain.2.2
        (by omega) (by dsimp only; omega) (by dsimp only; omega)
      rw [passiveCloneFields, accountString_ok (by omega)]
      simp only [hvalue, hrest, bind, Except.bind, pure, Except.pure, ipcItemsOfFields, textBytesFields]
      congr 3 <;> omega
end

/-! ## A copy is within the limits -/

/-- What a copy says of the value and of the limits. -/
structure Copied (same : Prop) (items textBytes nesting : Nat) (before after : Budget) (depth : Nat) : Prop where
  same : same
  counted : after = ⟨before.items + items, before.textBytes + textBytes⟩
  nesting : depth + nesting ≤ MAX_IPC_DEPTH
  items : before.items + items ≤ MAX_IPC_ITEMS
  textBytes : before.textBytes + textBytes ≤ MAX_WORKER_IPC_BYTES

/-- What is there before a copy. -/
structure Room (budget : Budget) (depth : Nat) : Prop where
  nesting : depth ≤ MAX_IPC_DEPTH
  items : budget.items ≤ MAX_IPC_ITEMS
  textBytes : budget.textBytes ≤ MAX_WORKER_IPC_BYTES

theorem Room.copied {depth : Nat} (h : Room budget depth) {same : Prop} (hsame : same) :
    Copied same 0 0 0 budget budget depth :=
  ⟨hsame, rfl, h.nesting, h.items, h.textBytes⟩

theorem Copied.room {same : Prop} {items textBytes nesting depth : Nat} {before after : Budget}
    (h : Copied same items textBytes nesting before after depth) : Room after depth := by
  have hnesting := h.nesting
  exact ⟨by omega, by rw [h.counted]; exact h.items, by rw [h.counted]; exact h.textBytes⟩

theorem bind_ok {ε α β : Type} {x : Except ε α} {f : α → Except ε β} {b : β} (h : x >>= f = .ok b) :
    ∃ a, x = .ok a ∧ f a = .ok b := by
  cases x with
  | error e => cases h
  | ok a => exact ⟨a, rfl, h⟩

mutual
theorem of_passiveClone : ∀ (value : Json) (budget : Budget) (depth : Nat) (cloned : Json) (after : Budget),
    passiveClone value budget depth = .ok (cloned, after) → Room budget depth →
    Copied (cloned = value) (ipcItems value) value.textBytes value.nesting budget after depth
  | .null, budget, depth, cloned, after, h, hroom => by
      cases h
      exact hroom.copied rfl
  | .bool _, budget, depth, cloned, after, h, hroom => by
      cases h
      exact hroom.copied rfl
  | .num n, budget, depth, cloned, after, h, hroom => by
      rw [passiveClone] at h
      split at h
      · cases h
        exact hroom.copied rfl
      · cases h
  | .str s, budget, depth, cloned, after, h, hroom => by
      rw [passiveClone] at h
      obtain ⟨counted, hcounted, hrest⟩ := bind_ok h
      cases hrest
      obtain ⟨rfl, hle⟩ := of_accountString hcounted
      exact ⟨rfl, rfl, hroom.nesting, hroom.items, hle⟩
  | .arr items, budget, depth, cloned, after, h, hroom => by
      rw [passiveClone] at h
      split at h
      · cases h
      · next hdepth =>
          obtain ⟨named, hnamed, h⟩ := bind_ok h
          obtain ⟨counted, hcounted, h⟩ := bind_ok h
          obtain ⟨⟨result, done⟩, hresult, h⟩ := bind_ok h
          cases h
          obtain ⟨rfl, hnames⟩ := of_countItems hnamed
          obtain ⟨rfl, hlength⟩ := of_countItems hcounted
          have hrest := of_passiveCloneItems items _ _ _ _ hresult ⟨by omega, hlength, hroom.textBytes⟩
          have hnesting := hrest.nesting
          have hitems := hrest.items
          have htext := hrest.textBytes
          simp only at hitems htext
          refine ⟨by rw [hrest.same], ?_, ?_, ?_, htext⟩
          · rw [hrest.counted, ipcItems, textBytes]
            congr 1
            simp only
            omega
          · rw [nesting]
            omega
          · rw [ipcItems]
            omega
  | .obj fields, budget, depth, cloned, after, h, hroom => by
      rw [passiveClone] at h
      split at h
      · cases h
      · next hdepth =>
          split at h
          · cases h
          · obtain ⟨named, hnamed, h⟩ := bind_ok h
            obtain ⟨⟨result, done⟩, hresult, h⟩ := bind_ok h
            cases h
            obtain ⟨rfl, hnames⟩ := of_countItems hnamed
            have hrest := of_passiveCloneFields fields _ _ _ _ hresult ⟨by omega, hnames, hroom.textBytes⟩
            have hnesting := hrest.nesting
            have hitems := hrest.items
            have htext := hrest.textBytes
            simp only at hitems htext
            refine ⟨by rw [hrest.same], ?_, ?_, ?_, htext⟩
            · rw [hrest.counted, ipcItems, textBytes]
              congr 1
              simp only
              omega
            · rw [nesting]
              omega
            · rw [ipcItems]
              omega
theorem of_passiveCloneItems : ∀ (items : List Json) (budget : Budget) (depth : Nat) (result : List Json)
    (after : Budget), passiveCloneItems items budget depth = .ok (result, after) → Room budget depth →
    Copied (result = items) (ipcItemsOfItems items) (textBytesItems items) (nestingItems items) budget
      after depth
  | [], budget, depth, result, after, h, hroom => by
      cases h
      exact hroom.copied rfl
  | item :: rest, budget, depth, result, after, h, hroom => by
      rw [passiveCloneItems] at h
      obtain ⟨⟨cloned, between⟩, hcloned, h⟩ := bind_ok h
      obtain ⟨⟨others, done⟩, hothers, h⟩ := bind_ok h
      cases h
      have hitem := of_passiveClone item _ _ _ _ hcloned hroom
      have hrest := of_passiveCloneItems rest _ _ _ _ hothers hitem.room
      obtain ⟨rfl, rfl, _, _, _⟩ := hitem
      obtain ⟨rfl, rfl, _, _, _⟩ := hrest
      simp only at *
      refine ⟨trivial, ?_, ?_, ?_, ?_⟩
      · rw [ipcItemsOfItems, textBytesItems]
        congr 1 <;> omega
      · rw [nestingItems]
        omega
      · rw [ipcItemsOfItems]
        omega
      · rw [textBytesItems]
        omega
theorem of_passiveCloneFields : ∀ (fields : Fields) (budget : Budget) (depth : Nat) (result : Fields)
    (after : Budget), passiveCloneFields fields budget depth = .ok (result, after) → Room budget depth →
    Copied (result = fields) (ipcItemsOfFields fields) (textBytesFields fields) (nestingFields fields)
      budget after depth
  | [], budget, depth, result, after, h, hroom => by
      cases h
      exact hroom.copied rfl
  | (key, value) :: rest, budget, depth, result, after, h, hroom => by
      rw [passiveCloneFields] at h
      obtain ⟨named, hnamed, h⟩ := bind_ok h
      obtain ⟨⟨cloned, between⟩, hcloned, h⟩ := bind_ok h
      obtain ⟨⟨others, done⟩, hothers, h⟩ := bind_ok h
      cases h
      obtain ⟨rfl, hkey⟩ := of_accountString hnamed
      have hvalue := of_passiveClone value _ _ _ _ hcloned ⟨hroom.nesting, hroom.items, hkey⟩
      have hrest := of_passiveCloneFields rest _ _ _ _ hothers hvalue.room
      obtain ⟨rfl, rfl, _, _, _⟩ := hvalue
      obtain ⟨rfl, rfl, _, _, _⟩ := hrest
      simp only at *
      refine ⟨trivial, ?_, ?_, ?_, ?_⟩
      · rw [ipcItemsOfFields, textBytesFields]
        congr 1 <;> omega
      · rw [nestingFields]
        omega
      · rw [ipcItemsOfFields]
        omega
      · rw [textBytesFields]
        omega
end

/-! ## The snapshot -/

end ClawMessenger.Ports.WorkerProtocol
