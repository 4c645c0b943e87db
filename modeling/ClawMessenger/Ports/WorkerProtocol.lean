import ClawMessenger.Ports.MessageNormalizer
import ClawMessenger.Verified.JsonRoundTrip

/-!
# The worker's message events

`parseWorkerEvent` of
`packages/quukk-clawmessenger/src/rongcloud/worker-protocol.ts` on the events
with a message: a copy of the value within limits, and then the schema, which
admits exactly the fields of the message.  The worker parses what it emits and
sends the result; the channel to the supervisor carries it as JSON text, and the
supervisor parses what it receives.
-/

namespace ClawMessenger.Ports.WorkerProtocol

open ClawMessenger.Verified JsString MessageNormalizer

/-! ## Copies -/

def MAX_WORKER_IPC_BYTES : Nat := 64 * 1024

def MAX_IPC_ITEMS : Nat := 32768

def MAX_IPC_DEPTH : Nat := 32

def accountString (value : JsString) (budget : Budget) : Except Rejected Budget :=
  if MAX_WORKER_IPC_BYTES < budget.textBytes + byteLength value then .error .oversized
  else .ok { budget with textBytes := budget.textBytes + byteLength value }

mutual
/-- On plain values.  The names of an array are its indices and its length. -/
def passiveClone : Json → Budget → Nat → Except Rejected (Json × Budget)
  | .null, budget, _ => .ok (.null, budget)
  | .bool b, budget, _ => .ok (.bool b, budget)
  | .str s, budget, _ => do
      let budget ← accountString s budget
      return (.str s, budget)
  | .num n, budget, _ => if isFinite n then .ok (.num n, budget) else .error .invalid
  | .arr items, budget, depth =>
    if MAX_IPC_DEPTH ≤ depth then .error .invalid
    else do
      let budget ← countItems (items.length + 1 + 1) budget MAX_IPC_ITEMS
      let budget ← countItems items.length budget MAX_IPC_ITEMS
      let (result, budget) ← passiveCloneItems items budget (depth + 1)
      return (.arr result, budget)
  | .obj fields, budget, depth =>
    if MAX_IPC_DEPTH ≤ depth then .error .invalid
    else if fields.any fun field => dangerousObjectKeys.contains field.1 then .error .invalid
    else do
      let budget ← countItems (fields.length + 1) budget MAX_IPC_ITEMS
      let (result, budget) ← passiveCloneFields fields budget (depth + 1)
      return (.obj result, budget)
def passiveCloneItems : List Json → Budget → Nat → Except Rejected (List Json × Budget)
  | [], budget, _ => .ok ([], budget)
  | item :: rest, budget, depth => do
      let (cloned, budget) ← passiveClone item budget depth
      let (result, budget) ← passiveCloneItems rest budget depth
      return (cloned :: result, budget)
def passiveCloneFields : Fields → Budget → Nat → Except Rejected (Fields × Budget)
  | [], budget, _ => .ok ([], budget)
  | (key, value) :: rest, budget, depth => do
      let budget ← accountString key budget
      let (cloned, budget) ← passiveClone value budget depth
      let (result, budget) ← passiveCloneFields rest budget depth
      return ((key, cloned) :: result, budget)
end

inductive IpcFailure
  | invalidIpc
  | ipcTooLarge

def snapshot (input : Json) : Except IpcFailure Json :=
  match passiveClone input ⟨0, 0⟩ 0 with
  | .error .invalid => .error .invalidIpc
  | .error .oversized => .error .ipcTooLarge
  | .ok (cloned, _) =>
    if MAX_WORKER_IPC_BYTES < byteLength cloned.stringify then .error .ipcTooLarge else .ok cloned

/-! ## The schema -/

/-- A field that may be left out: none where it is there and does not pass. -/
def optionalField {α : Type} (v : Json) (key : String) (read : Json → Option α) : Option (Option α) :=
  match v.field? (js key) with
  | none => some none
  | some value => (read value).map some

/-- `/^rcw_[0-9a-f]{32}$/` -/
def isInstanceId (s : JsString) : Bool :=
  (js "rcw_").isPrefixOf s && isHexOfLength 32 (s.drop 4)

def instanceIdSchema (v : Json) : Option JsString :=
  (identifier 36 v).filter isInstanceId

/-- An event of `messageSchema`. -/
structure MessageEvent where
  runtimeId : JsString
  instanceId : JsString
  message : NormalizedRongCloudMessage

def MessageEvent.toJson (e : MessageEvent) : Json :=
  .obj [(js "type", .str (js "message")), (js "runtimeId", .str e.runtimeId), (js "instanceId", .str e.instanceId),
    (js "message", e.message.toJson)]

end ClawMessenger.Ports.WorkerProtocol
