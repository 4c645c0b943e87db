import ClawMessenger.Ports.Conversation
import ClawMessenger.Verified.FirstMatch

/-!
# Message claims

The deduplication table of the router: a message uid of a runtime is claimed,
then admitted or released by the holder of the claim id, and forgotten a day
after the claim (after the admission, once admitted).  All transitions are pure
functions on the table; the store persists their result before it answers.
-/

namespace ClawMessenger.Ports.Dedup

open Verified Verified.JsString
open Verified.Json (stringify)
open Conversation

def DEDUP_TTL_MS : Nat := 24 * 60 * 60 * 1000

def MAX_DEDUP_PER_RUNTIME : Nat := 2048

def MAX_DEDUP_ENTRIES : Nat := 8192

inductive DedupState where
  | claimed
  | admitted
deriving DecidableEq, Repr

structure DedupEntry where
  key : JsString
  runtimeId : JsString
  messageUid : JsString
  claimId : JsString
  state : DedupState
  claimedAt : Nat
  admittedAt : Option Nat

/-- `DedupEntrySchema`. -/
def DedupEntry.schema (entry : DedupEntry) : Bool :=
  identifier 8192 entry.key && runtimeIdSchema entry.runtimeId && identifier 256 entry.messageUid
    && isHexOfLength 32 entry.claimId && timestamp entry.claimedAt
    && entry.admittedAt.all timestamp

def dedupKey (runtimeId messageUid : JsString) : JsString :=
  stringify (.arr [.str runtimeId, .str messageUid])

/-- When the entry got its state; an admitted entry without a time has none. -/
def stateTime (entry : DedupEntry) : Option Nat :=
  match entry.state with
  | .admitted => entry.admittedAt
  | .claimed => some entry.claimedAt

/-- `stateTime(entry) + DEDUP_TTL_MS > now`. -/
def isLive (now : Nat) (entry : DedupEntry) : Bool :=
  (stateTime entry).any fun time => now < time + DEDUP_TTL_MS

def pruneDedup (entries : List DedupEntry) (now : Nat) : List DedupEntry :=
  entries.filter (isLive now)

inductive DedupClaimTransition where
  | claimed (key claimId : JsString) (entries : List DedupEntry)
  | duplicate (key : JsString) (entries : List DedupEntry)
  | capacity (key : JsString) (entries : List DedupEntry)

structure DedupCasTransition where
  accepted : Bool
  changed : Bool
  entries : List DedupEntry

/-- `none` is the `TypeError` on arguments the schema refuses. -/
def claimDedup (entries : List DedupEntry) (runtimeId messageUid claimId : JsString)
    (now : Nat) : Option DedupClaimTransition :=
  let entry : DedupEntry :=
    ⟨dedupKey runtimeId messageUid, runtimeId, messageUid, claimId, .claimed, now, none⟩
  if !entry.schema then none
  else
    let current := pruneDedup entries now
    if current.any fun e => e.key == entry.key then some (.duplicate entry.key current)
    else if (current.filter fun e => e.runtimeId == runtimeId).length ≥ MAX_DEDUP_PER_RUNTIME
        ∨ current.length ≥ MAX_DEDUP_ENTRIES then
      some (.capacity entry.key current)
    else some (.claimed entry.key claimId (current ++ [entry]))

def DedupEntry.admitted (entry : DedupEntry) (now : Nat) : DedupEntry :=
  { entry with state := .admitted, admittedAt := some now }

def admitDedup (entries : List DedupEntry) (key claimId : JsString) (now : Nat) :
    DedupCasTransition :=
  match entries.find? fun e => e.key == key with
  | none => ⟨false, false, entries⟩
  | some entry =>
    if entry.claimId ≠ claimId then ⟨false, false, entries⟩
    else
      match entry.state with
      | .admitted => ⟨true, false, entries⟩
      | .claimed =>
        ⟨true, true, updateFirst (fun e => e.key == key) (fun e => e.admitted now) entries⟩

def releaseDedup (entries : List DedupEntry) (key claimId : JsString) : DedupCasTransition :=
  match entries.find? fun e => e.key == key && e.claimId == claimId with
  | none => ⟨false, false, entries⟩
  | some entry =>
    match entry.state with
    | .admitted => ⟨false, false, entries⟩
    | .claimed => ⟨true, true, entries.eraseP fun e => e.key == key && e.claimId == claimId⟩

end ClawMessenger.Ports.Dedup
