import ClawMessenger.Verified.JsonShape

/-!
# The inbound message normalizer

`normalizeRongCloudMessage` of
`packages/quukk-clawmessenger/src/protocol/messages.ts`: what the SDK hands over
is copied within limits, its identifiers are read under their aliases, its
content is unwrapped up to two times, and what is known of the content is
rebuilt.
-/

namespace ClawMessenger.Ports.MessageNormalizer

open ClawMessenger.Verified JsString

abbrev Fields := List (JsString × Json)

/-! ## What the SDK hands over -/

/-- A JavaScript value.  A property is its key, whether it is enumerable, and its
value. -/
inductive Raw
  | undefined
  /-- a function or a symbol -/
  | callable
  /-- a number that is not finite, a bigint, a proxy, an object of another
  prototype or one that contains itself -/
  | foreign
  /-- in place of a value: a getter, or a hole of an array -/
  | accessor
  | null
  | bool (b : Bool)
  | num (n : Decimal)
  | str (s : JsString)
  /-- with whether one of its other properties has a getter -/
  | arr (items : List Raw) (getters : Bool)
  | obj (properties : List (JsString × Bool × Raw))
deriving Inhabited

/-- `Number.isFinite` of the number that a decimal is read as. -/
def isFinite (n : Decimal) : Bool :=
  let bound : Nat := 2 ^ 1024 - 2 ^ 970
  if n.point ≤ 308 then true
  else if 310 ≤ n.point then false
  else Decimal.digitsValue n.digits * 10 ^ (n.point - n.digits.length).toNat <
    bound * 10 ^ (n.digits.length - n.point).toNat

/-! ## Copies -/

def MAX_PASSIVE_JSON_ITEMS : Nat := 32768

def MAX_PASSIVE_JSON_DEPTH : Nat := 32

def dangerousObjectKeys : List JsString := [js "__proto__", js "prototype", js "constructor"]

structure Budget where
  items : Nat
  textBytes : Nat

/-- `invalidClone` and `oversizedClone` -/
inductive Rejected
  | invalid
  | oversized

def accountText (value : JsString) (budget : Budget) (maxBytes : Nat) : Except Rejected Budget :=
  if maxBytes < value.length then .error .oversized
  else if maxBytes < budget.textBytes + byteLength value then .error .oversized
  else .ok { budget with textBytes := budget.textBytes + byteLength value }

/-- `budget.items += n`, within the limit. -/
def countItems (n : Nat) (budget : Budget) (maxItems : Nat) : Except Rejected Budget :=
  if maxItems < budget.items + n then .error .oversized
  else .ok { budget with items := budget.items + n }

mutual
def clonePassiveJson (maxBytes : Nat) : Raw → Budget → Nat → Except Rejected (Json × Budget)
  | .null, budget, _ => .ok (.null, budget)
  | .bool b, budget, _ => .ok (.bool b, budget)
  | .str s, budget, _ => do
      let budget ← accountText s budget maxBytes
      return (.str s, budget)
  | .num n, budget, _ => if isFinite n then .ok (.num n, budget) else .error .invalid
  | .arr items getters, budget, depth =>
    if MAX_PASSIVE_JSON_DEPTH ≤ depth then .error .invalid
    else do
      let budget ← countItems 1 budget MAX_PASSIVE_JSON_ITEMS
      let budget ← countItems items.length budget MAX_PASSIVE_JSON_ITEMS
      let (result, budget) ← cloneItems maxBytes items budget (depth + 1)
      if getters then .error .invalid else return (.arr result, budget)
  | .obj properties, budget, depth =>
    if MAX_PASSIVE_JSON_DEPTH ≤ depth then .error .invalid
    else do
      let budget ← countItems 1 budget MAX_PASSIVE_JSON_ITEMS
      let budget ← countItems properties.length budget MAX_PASSIVE_JSON_ITEMS
      let (result, budget) ← cloneProperties maxBytes properties budget (depth + 1) []
      return (.obj result, budget)
  | _, _, _ => .error .invalid
def cloneItems (maxBytes : Nat) : List Raw → Budget → Nat → Except Rejected (List Json × Budget)
  | [], budget, _ => .ok ([], budget)
  | item :: rest, budget, depth => do
      let (cloned, budget) ← clonePassiveJson maxBytes item budget depth
      let (result, budget) ← cloneItems maxBytes rest budget depth
      return (cloned :: result, budget)
def cloneProperties (maxBytes : Nat) : List (JsString × Bool × Raw) → Budget → Nat → Fields →
    Except Rejected (Fields × Budget)
  | [], budget, _, result => .ok (result, budget)
  | (_, _, .accessor) :: _, _, _, _ => .error .invalid
  | (_, false, _) :: rest, budget, depth, result => cloneProperties maxBytes rest budget depth result
  | (key, true, .undefined) :: rest, budget, depth, result =>
    if dangerousObjectKeys.contains key then cloneProperties maxBytes rest budget depth result
    else do
      let budget ← accountText key budget maxBytes
      cloneProperties maxBytes rest budget depth result
  | (key, true, .callable) :: rest, budget, depth, result =>
    if dangerousObjectKeys.contains key then cloneProperties maxBytes rest budget depth result
    else do
      let budget ← accountText key budget maxBytes
      cloneProperties maxBytes rest budget depth result
  | (key, true, value) :: rest, budget, depth, result =>
    if dangerousObjectKeys.contains key then cloneProperties maxBytes rest budget depth result
    else do
      let budget ← accountText key budget maxBytes
      let (cloned, budget) ← clonePassiveJson maxBytes value budget depth
      cloneProperties maxBytes rest budget depth (Json.setField result (key, cloned))
end

inductive Kind
  | image
  | file
  deriving DecidableEq, Repr

structure NormalizedAttachment where
  kind : Kind
  url : JsString
  name : Option JsString
  mimeType : Option JsString
  size : Option Nat

inductive Direction
  | num (n : Decimal)
  | str (s : JsString)

inductive ConversationType
  | direct
  | group
  | chatroom
  deriving DecidableEq, Repr

/-- `1`, `3` and `4` -/
def ConversationType.code : ConversationType → Nat
  | .direct => 1
  | .group => 3
  | .chatroom => 4

structure NormalizedRongCloudMessage where
  messageUid : JsString
  senderId : JsString
  targetId : JsString
  conversationType : ConversationType
  objectName : JsString
  text : Option JsString
  attachments : List NormalizedAttachment
  rawContent : Option Fields
  sentTime : Option Decimal
  offline : Option Bool
  direction : Option Direction

def identifierText (max : Nat) (value : JsString) : Option JsString :=
  let normalized := trim value
  if 1 ≤ normalized.length ∧ normalized.length ≤ max ∧ hasControl normalized = false then some normalized
  else none

/-- `identifier` -/
def identifier (max : Nat) : Json → Option JsString
  | .str value => identifierText max value
  | _ => none

inductive AliasResult
  | found (value : Option JsString)
  | invalid
  | conflict

def conversationType : Option Json → Option ConversationType
  | some (.num n) =>
    if n = Decimal.ofNat 1 then some .direct
    else if n = Decimal.ofNat 3 then some .group
    else if n = Decimal.ofNat 4 then some .chatroom
    else none
  | _ => none

mutual
def cloneSafeJson : Json → Nat → Option Json
  | .null, _ => some .null
  | .bool b, _ => some (.bool b)
  | .str s, _ => some (.str s)
  | .num n, _ => if isFinite n then some (.num n) else none
  | .arr items, depth => if 32 ≤ depth then none else (cloneSafeItems items (depth + 1)).map .arr
  | .obj fields, depth => if 32 ≤ depth then none else some (.obj (cloneSafeFields fields (depth + 1) []))
def cloneSafeItems : List Json → Nat → Option (List Json)
  | [], _ => some []
  | item :: rest, depth =>
    match cloneSafeJson item depth, cloneSafeItems rest depth with
    | some cloned, some result => some (cloned :: result)
    | _, _ => none
def cloneSafeFields : Fields → Nat → Fields → Fields
  | [], _, result => result
  | (key, value) :: rest, depth, result =>
    if dangerousObjectKeys.contains key then cloneSafeFields rest depth result
    else
      match cloneSafeJson value depth with
      | none => cloneSafeFields rest depth result
      | some cloned => cloneSafeFields rest depth (Json.setField result (key, cloned))
end

def Kind.text : Kind → JsString
  | .image => js "image"
  | .file => js "file"

/-- A field that is left out where there is no value. -/
def optional {α : Type} (key : String) (f : α → Json) (value : Option α) : Fields :=
  (value.map fun v => (js key, f v)).toList

def NormalizedAttachment.toJson (a : NormalizedAttachment) : Json :=
  .obj ([(js "kind", .str a.kind.text), (js "url", .str a.url)] ++ optional "name" .str a.name ++
    optional "mimeType" .str a.mimeType ++ optional "size" Json.ofNat a.size)

def Direction.toJson : Direction → Json
  | .num n => .num n
  | .str s => .str s

def NormalizedRongCloudMessage.toJson (m : NormalizedRongCloudMessage) : Json :=
  .obj ([(js "messageUid", .str m.messageUid), (js "senderId", .str m.senderId), (js "targetId", .str m.targetId),
    (js "conversationType", Json.ofNat m.conversationType.code), (js "objectName", .str m.objectName)] ++
    optional "text" .str m.text ++ [(js "attachments", .arr (m.attachments.map NormalizedAttachment.toJson))] ++
    optional "rawContent" .obj m.rawContent ++ optional "sentTime" .num m.sentTime ++
    optional "offline" .bool m.offline ++ optional "direction" Direction.toJson m.direction)

/-! ## The normalizer -/

def AliasResult.conflicts : AliasResult → Bool
  | .conflict => true
  | _ => false

end ClawMessenger.Ports.MessageNormalizer
