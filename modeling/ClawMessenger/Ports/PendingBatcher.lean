import ClawMessenger.Verified.Machine
import ClawMessenger.Verified.OrderedMap

/-!
# The run debouncer of the channel engine

`pendingBatcher` keeps at most one flush for a key and runs it when the key has
been quiet for a window.  `schedule` arms a timer, `onFire` is what the timer
runs, `FlushAll` runs everything that is left at shutdown.

Each critical section of `mu` is one step, and a call begins with the step that
holds the lock.  A timer that has gone off is a goroutine of its own: it waits
for the lock while its entry may be replaced or taken away, so stopping a timer
says nothing about its callback.  A flush is named by the call that brought it,
a timer by the generation its callback carries.  The counters do not wrap.
-/

namespace ClawMessenger.Ports.PendingBatcher

open Verified

/-! ## The data -/

structure PendingEntry where
  timer : Nat
  flush : Nat
  gen : Nat

/-- A timer, and after it has gone off the goroutine of its callback. -/
inductive Phase where
  | armed
  | stopped
  | atLock
  | flushing (flush : Nat)
  | returned
deriving DecidableEq, Repr

structure Timer where
  key : String
  due : Nat
  phase : Phase

/-- A call that has left its critical section. -/
inductive Call where
  /-- `schedule` after the batcher was stopped. -/
  | inline (flush : Nat)
  /-- `FlushAll` between two flushes, with those it has not run. -/
  | draining (entries : List Nat)
  | flushing (flush : Nat) (entries : List Nat)
  | returned
deriving DecidableEq, Repr

structure State where
  now : Nat
  window : Nat
  pending : OrderedMap String PendingEntry
  seq : Nat
  stopped : Bool
  /-- The count of the wait group. -/
  inflight : Nat
  timers : OrderedMap Nat Timer
  calls : OrderedMap Nat Call
  nextFlush : Nat
  nextCall : Nat

def defaultChatRunBatchWindow : Nat := 3000000000

/-- `newPendingBatcher`. -/
def newPendingBatcher (window : Int) : State where
  now := 0
  window := if window ≤ 0 then defaultChatRunBatchWindow else window.toNat
  pending := ∅
  seq := 0
  stopped := false
  inflight := 0
  timers := ∅
  calls := ∅
  nextFlush := 0
  nextCall := 0

/-- What can be seen of a flush. -/
inductive Event where
  | began (flush : Nat)
  | ended (flush : Nat)
  /-- A later `Schedule` put its own flush in its place. -/
  | replaced (flush : Nat)
  /-- `ScheduleIfAbsent` found the key pending. -/
  | declined (flush : Nat)
deriving DecidableEq, Repr

/-! ## Timers -/

/-- `time.AfterFunc`. -/
def afterFunc (s : State) (key : String) (gen : Nat) : State :=
  { s with timers := s.timers.set gen ⟨key, s.now + s.window, .armed⟩ }

/-- `Stop`: a timer that has gone off is not held back. -/
def stop (timers : OrderedMap Nat Timer) (timer : Nat) : OrderedMap Nat Timer :=
  match timers.get? timer with
  | some t => if t.phase = .armed then timers.set timer { t with phase := .stopped } else timers
  | none => timers

def stopAll (timers : OrderedMap Nat Timer) (entries : List PendingEntry) : OrderedMap Nat Timer :=
  entries.foldl (fun timers e => stop timers e.timer) timers

def setPhase (s : State) (timer : Nat) (t : Timer) (phase : Phase) : State :=
  { s with timers := s.timers.set timer { t with phase := phase } }

/-! ## The operations -/

section

variable (s : State)

/-- `schedule`; `replace` is false for `ScheduleIfAbsent`. -/
def schedule (key : String) (replace : Bool) : List Event × State :=
  let flush := s.nextFlush
  let s := { s with nextFlush := flush + 1 }
  if s.stopped then
    ([.began flush],
      { s with calls := s.calls.set s.nextCall (.inline flush), nextCall := s.nextCall + 1 })
  else
    let gen := s.seq + 1
    let s := { s with seq := gen }
    match s.pending.get? key with
    | some e =>
      if !replace then ([.declined flush], s)
      else
        let s := { s with timers := stop s.timers e.timer }
        ([.replaced e.flush],
          { afterFunc s key gen with pending := s.pending.set key ⟨gen, flush, gen⟩ })
    | none => ([], { afterFunc s key gen with pending := s.pending.set key ⟨gen, flush, gen⟩ })

/-- `onFire`, up to the flush. -/
def onFire (gen : Nat) (t : Timer) : List Event × State :=
  match s.pending.get? t.key with
  | none => ([], setPhase s gen t .returned)
  | some e =>
    if s.stopped || e.gen != gen then ([], setPhase s gen t .returned)
    else
      ([.began e.flush],
        { setPhase s gen t (.flushing e.flush) with
          pending := s.pending.erase t.key, inflight := s.inflight + 1 })

/-- The next step of a callback. -/
def callback (gen : Nat) : List Event × State :=
  match s.timers.get? gen with
  | none => ([], s)
  | some t =>
    match t.phase with
    | .atLock => onFire s gen t
    | .flushing flush =>
      ([.ended flush], { setPhase s gen t .returned with inflight := s.inflight - 1 })
    | _ => ([], s)

/-- A timer goes off. -/
def fire (gen : Nat) : State :=
  match s.timers.get? gen with
  | none => s
  | some t => if t.phase = .armed ∧ t.due ≤ s.now then setPhase s gen t .atLock else s

/-- `FlushAll`, its critical section. -/
def flushAll : State :=
  { s with
    stopped := true
    timers := stopAll s.timers s.pending.values
    pending := ∅
    calls := s.calls.set s.nextCall (.draining (s.pending.values.map PendingEntry.flush))
    nextCall := s.nextCall + 1 }

def setCall (call : Nat) (c : Call) : State := { s with calls := s.calls.set call c }

/-- The next step of a call.  `FlushAll` has its entries from a map, in no
order: `pick` is the place of the one it runs next. -/
def goOn (call pick : Nat) : List Event × State :=
  match s.calls.get? call with
  | none => ([], s)
  | some (.inline flush) => ([.ended flush], setCall s call .returned)
  | some (.draining []) => ([], if s.inflight = 0 then setCall s call .returned else s)
  | some (.draining (entry :: entries)) =>
    match (entry :: entries)[pick]? with
    | none => ([], s)
    | some flush =>
      ([.began flush], setCall s call (.flushing flush ((entry :: entries).eraseIdx pick)))
  | some (.flushing flush entries) => ([.ended flush], setCall s call (.draining entries))
  | some .returned => ([], s)

end

/-! ## Steps -/

inductive Action where
  | schedule (key : String) (replace : Bool)
  | flushAll
  | tick (d : Nat)
  | fire (gen : Nat)
  | callback (gen : Nat)
  | goOn (call pick : Nat)

def step (s : State) : Action → List Event × State
  | .schedule key replace => schedule s key replace
  | .flushAll => ([], flushAll s)
  | .tick d => ([], { s with now := s.now + d })
  | .fire gen => ([], fire s gen)
  | .callback gen => callback s gen
  | .goOn call pick => goOn s call pick

abbrev Cfg := Config State Action (List Event)

/-- Nothing restricts the callers, the clock or the goroutines. -/
def anything : Cfg → Action → Prop := fun _ _ => True

/-! ## What a history says of a flush -/

def events (past : List (Action × List Event)) : List Event := past.flatMap Prod.snd

/-- How often a flush has been started. -/
def began (past : List (Action × List Event)) (flush : Nat) : Nat :=
  (events past).count (.began flush)

def ended (past : List (Action × List Event)) (flush : Nat) : Nat :=
  (events past).count (.ended flush)

/-- Whether it was replaced or declined. -/
def dropped (past : List (Action × List Event)) (flush : Nat) : Nat :=
  (events past).count (.replaced flush) + (events past).count (.declined flush)

/-- It has run, once, and is over. -/
def RanOnce (past : List (Action × List Event)) (flush : Nat) : Prop :=
  began past flush = 1 ∧ ended past flush = 1

/-- No timer is armed, no callback on its way and no call under way. -/
def AtRest (s : State) : Prop :=
  (∀ gen t, s.timers.get? gen = some t → t.phase = .stopped ∨ t.phase = .returned) ∧
    ∀ call c, s.calls.get? call = some c → c = .returned

end ClawMessenger.Ports.PendingBatcher
