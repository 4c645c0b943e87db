import ClawMessenger.Ports.SessionStore
import ClawMessenger.Verified.Machine

/-!
# Calls of the store

`Store.call` is one operation from its place in the queue to its answer:
`initialize`, a mutation, or the end of the process (`restart`), after which a
new store starts on the same file.  Each call carries the clock reading it
makes and whether its file accesses succeed; a write that fails here leaves the
old file in place.
-/

namespace ClawMessenger.Ports.SessionStore

open Verified Verified.JsString Conversation Dedup

/-! ## Mutations -/

inductive StoreOp where
  | applyEventSession (input : EventSession)
  | switchKnown (identity : ConversationIdentity) (sessionId : JsString)
  | deleteKnown (identity : ConversationIdentity) (sessionId : JsString)
  | clearCurrent (identity : ConversationIdentity)
  | claimMessage (runtime messageUid claimId : JsString)
  | admitMessage (key claimId : JsString)
  | releaseMessage (key claimId : JsString)
  | rememberInteractiveRoom (identity : BindingIdentity) (roomId discussionId : JsString)
  | reserveInteractive (record : InteractiveRequest)
  | updateInteractive (key : JsString) (changes : InteractiveChanges) (sessionId : Option JsString)

inductive StoreAnswer where
  | done
  | flag (value : Bool)
  | claim (result : ClaimResult)
  | reservation (record : Option InteractiveRequest)
  | updated (record : InteractiveRequest)

def Transition.map {α β : Type} (f : α → β) (t : Transition α) : Transition β :=
  ⟨t.changed, f t.value, t.state⟩

/-- The transition an operation hands to `#mutate`. -/
def StoreOp.transition (op : StoreOp) (state : RouterState) (now : Nat) :
    Except RouterStateError (Transition StoreAnswer) :=
  match op with
  | applyEventSession input =>
    (SessionStore.applyEventSession input state now).map (Transition.map fun _ => .done)
  | switchKnown identity sessionId =>
    (SessionStore.switchKnown identity sessionId state now).map (Transition.map .flag)
  | deleteKnown identity sessionId =>
    (SessionStore.deleteKnown identity sessionId state now).map (Transition.map .flag)
  | clearCurrent identity =>
    (SessionStore.clearCurrent identity state now).map (Transition.map fun _ => .done)
  | claimMessage runtime messageUid claimId =>
    (SessionStore.claimMessage runtime messageUid claimId state now).map (Transition.map .claim)
  | admitMessage key claimId =>
    (SessionStore.admitMessage key claimId state now).map (Transition.map .flag)
  | releaseMessage key claimId =>
    (SessionStore.releaseMessage key claimId state).map (Transition.map .flag)
  | rememberInteractiveRoom identity roomId discussionId =>
    (SessionStore.rememberInteractiveRoom identity roomId discussionId state).map
      (Transition.map fun _ => .done)
  | reserveInteractive record =>
    (SessionStore.reserveInteractive record state now).map (Transition.map .reservation)
  | updateInteractive key changes sessionId =>
    (SessionStore.updateInteractive key changes sessionId state).map (Transition.map .updated)

/-- The clone a mutation works on, its deduplication table pruned. -/
def RouterState.pruned (state : RouterState) (now : Nat) : RouterState :=
  { state with dedup := pruneDedup state.dedup now }

/-- A mutation up to the file: the answer, and the state to write if any. -/
def plan (op : StoreOp) (state : RouterState) (now : Nat) :
    Except RouterStateError (StoreAnswer × Option RouterState) := do
  let result ← op.transition (state.pruned now) now
  if !(result.changed || result.state.dedup.length != state.dedup.length) then
    return (result.value, none)
  else
    let valid ← validateState result.state
    if serializedBytes valid > MAX_STATE_BYTES then throw .routerStateInvalid
    else return (result.value, some valid)

/-! ## The store -/

/-- What the file can hold: a state of the current schema, or of the first. -/
inductive Document where
  | current (state : RouterState)
  | legacy (sessions : List SessionEntry) (dedup : List DedupEntry)

def Document.upgrade : Document → RouterState
  | current state => state
  | legacy sessions dedup => { sessions := sessions, dedup := dedup }

structure Store where
  initialized : Bool
  memory : RouterState
  disk : Option Document

/-- A store that has been constructed, on a file that does not exist. -/
def Store.fresh : Store := ⟨false, emptyState, none⟩

/-- `#time`. -/
def checkTime (now : Int) : Except RouterStateError Nat :=
  if now < 0 ∨ (Decimal.maxSafeInteger : Int) < now then .error .routerStateInvalid
  else .ok now.toNat

/-- What `initialize` makes of the file. -/
def loadState (disk : Option Document) (now : Int) :
    Except RouterStateError (RouterState × RouterState) := do
  let current ← validateState ((disk.map Document.upgrade).getD emptyState)
  let time ← checkTime now
  let next ← validateState (current.pruned time)
  return (current, next)

def Store.initializeStore (store : Store) (now : Int) (readOk writeOk : Bool) :
    Except RouterStateError StoreAnswer × Store :=
  if store.initialized then (.ok .done, store)
  else if !readOk then (.error .routerStateInvalid, store)
  else
    match loadState store.disk now with
    | .error e => (.error e, store)
    | .ok (current, next) =>
      if store.disk.isSome ∧ next.dedup.length ≠ current.dedup.length then
        if writeOk then (.ok .done, ⟨true, next, some (.current next)⟩)
        else (.error .routerStateInvalid, store)
      else (.ok .done, ⟨true, next, store.disk⟩)

def Store.mutate (store : Store) (op : StoreOp) (now : Int) (writeOk : Bool) :
    Except RouterStateError StoreAnswer × Store :=
  if !store.initialized then (.error .routerStateInvalid, store)
  else
    match checkTime now with
    | .error e => (.error e, store)
    | .ok time =>
      match plan op store.memory time with
      | .error e => (.error e, store)
      | .ok (value, none) => (.ok value, store)
      | .ok (value, some valid) =>
        if writeOk then (.ok value, { store with memory := valid, disk := some (.current valid) })
        else (.error .routerStateInvalid, store)

inductive StoreInput where
  | initializeStore
  | op (op : StoreOp)
  | restart

structure StoreCall where
  now : Int
  readOk : Bool
  writeOk : Bool
  input : StoreInput

abbrev StoreResult : Type := Except RouterStateError StoreAnswer

def Store.call (store : Store) (call : StoreCall) : StoreResult × Store :=
  match call.input with
  | .initializeStore => store.initializeStore call.now call.readOk call.writeOk
  | .op op => store.mutate op call.now call.writeOk
  | .restart => (.ok .done, { store with initialized := false, memory := emptyState })

/-- The state a later `initialize` starts from. -/
def Store.persisted (store : Store) : RouterState :=
  (store.disk.map Document.upgrade).getD emptyState

/-! ## Runs -/

abbrev StoreRun := Config Store StoreCall StoreResult

/-- Clock readings do not decrease along the run. -/
def ClockOrdered (c : StoreRun) (call : StoreCall) : Prop := ∀ e ∈ c.past, e.1.now ≤ call.now

end ClawMessenger.Ports.SessionStore
