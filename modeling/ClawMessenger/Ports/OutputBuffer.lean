import ClawMessenger.Verified.Machine

/-!
# Buffered output of a binding

Output that the worker cannot take is kept per task in `#bufferedOutput`, at most 32
entries and 10 MiB, and drained oldest first when the worker is online again.  A terminal
entry whose first message is chunk 0 carries the number of its chunks and a cursor: its
chunks stay in the entry until the last of them is sent, so that a failure can start the
snapshot again; later messages are taken from the front one by one.

The model is the buffer of one binding with its one drain.  Entries are objects of the
source, told apart by their `order`; messages are any type, of which `chunkAt` reads the
chunk index and count.  An action is one synchronous stretch of the router: a call that
buffers or removes output, a drain that is asked for, a send of the drain that settles.
An answer reports a send that settled, with the entry it belongs to.
-/

namespace ClawMessenger.Ports.OutputBuffer

open Verified

def MAX_BUFFERED_OUTPUT_ENTRIES : Nat := 32

def MAX_BUFFERED_OUTPUT_BYTES : Nat := 10 * 1024 * 1024

inductive Kind where
  | coarse
  | terminal
deriving DecidableEq

structure BufferedOutput (T M : Type) where
  frameCount : Option Nat
  frameCursor : Option Nat
  taskId : T
  kind : Kind
  messages : List M
  bytes : Nat
  order : Nat

/-- `#bufferDrains` of the binding. -/
inductive Drain (T M : Type) where
  /-- The drain waits for the send of a message. -/
  | sending (order : Nat) (taskId : T) (message : M)
  /-- Its loop has returned; it still stands in the map. -/
  | ended

structure Router (T M : Type) where
  /-- `#bufferedOutput`; no entry of the map is an empty list. -/
  buffered : List (BufferedOutput T M)
  disposed : Bool
  bufferOrder : Nat
  drain : Option (Drain T M)
  /-- `#bufferDrainTasks`. -/
  drainTask : Option T

def Router.init (T M : Type) : Router T M := ⟨[], false, 0, none, none⟩

/-! ## Buffering -/

section Buffer

variable {T M : Type} [DecidableEq T] (chunkAt : M → Option (Nat × Nat)) (serializedBytes : List M → Nat)

/-- `entries.reduce((oldest, candidate) => candidate.order < oldest.order ? candidate : oldest)`. -/
def oldest? : List (BufferedOutput T M) → Option (BufferedOutput T M)
  | [] => none
  | first :: rest =>
    some (rest.foldl (fun oldest candidate => if candidate.order < oldest.order then candidate else oldest) first)

/-- The entry that makes room: the oldest coarse one, else the oldest. -/
def removeAt? (retained : List (BufferedOutput T M)) : Option (BufferedOutput T M) :=
  (oldest? (retained.filter fun item => item.kind = .coarse)).or (oldest? retained)

def totalBytes (retained : List (BufferedOutput T M)) : Nat := (retained.map BufferedOutput.bytes).sum

/-- The loop that makes room; its first argument is a bound on the rounds. -/
def makeRoom : Nat → List (BufferedOutput T M) → List (BufferedOutput T M)
  | 0, retained => retained
  | n + 1, retained =>
    if retained.length > MAX_BUFFERED_OUTPUT_ENTRIES ∨ totalBytes retained > MAX_BUFFERED_OUTPUT_BYTES then
      match removeAt? retained with
      | none => retained
      | some entry => makeRoom n (retained.eraseP fun item => item.order = entry.order)
    else retained

/-- The number of frames of a terminal entry that starts with chunk 0. -/
def frameCountOf (kind : Kind) (messages : List M) : Option Nat :=
  match kind, messages.head?.bind chunkAt with
  | .terminal, some (0, count) => some count
  | _, _ => none

def newEntry (taskId : T) (kind : Kind) (messages : List M) (order : Nat) : BufferedOutput T M where
  frameCount := frameCountOf chunkAt kind messages
  frameCursor := (frameCountOf chunkAt kind messages).map fun _ => 0
  taskId := taskId
  kind := kind
  messages := messages
  bytes := serializedBytes messages
  order := order

/-- `#bufferTaskOutput`. -/
def bufferTaskOutput (s : Router T M) (taskId : T) (kind : Kind) (messages : List M) : Router T M :=
  if messages.isEmpty || s.disposed then s
  else
    { s with
      buffered :=
        let retained := s.buffered.filter (fun entry =>
            decide (entry.taskId ≠ taskId ∨ kind = .coarse ∧ entry.kind = .terminal)) ++
          [newEntry chunkAt serializedBytes taskId kind messages s.bufferOrder]
        makeRoom retained.length retained
      bufferOrder := s.bufferOrder + 1 }

/-- `#removeBufferedTask`. -/
def removeBufferedTask (s : Router T M) (taskId : T) (kind : Option Kind) : Router T M :=
  { s with
    buffered := s.buffered.filter fun entry =>
      decide (entry.taskId ≠ taskId ∨ ∃ k, kind = some k ∧ entry.kind ≠ k) }

end Buffer

/-! ## Draining -/

section Drain

variable {T M : Type}

def deleteBufferedEntry (s : Router T M) (order : Nat) : Router T M :=
  { s with buffered := s.buffered.filter fun candidate => candidate.order ≠ order }

/-- `entry.messages[entry.frameCursor ?? 0]`. -/
def BufferedOutput.next? (entry : BufferedOutput T M) : Option M := entry.messages[entry.frameCursor.getD 0]?

/-- The loop of `#performBufferedDrain` up to its next send; the first argument is a bound
on the entries without messages. -/
def drainLoop : Nat → Router T M → Router T M
  | 0, s => { s with drain := some .ended }
  | n + 1, s =>
    if s.disposed then { s with drain := some .ended }
    else
      match oldest? s.buffered with
      | none => { s with drain := some .ended }
      | some entry =>
        match entry.next? with
        | none => drainLoop n (deleteBufferedEntry s entry.order)
        | some message =>
          { s with drainTask := some entry.taskId, drain := some (.sending entry.order entry.taskId message) }

def goOn (s : Router T M) : Router T M := drainLoop (s.buffered.length + 1) s

/-- `#drainBufferedOutput`. -/
def drainBufferedOutput (s : Router T M) : Router T M :=
  if s.disposed then s
  else
    match s.drain with
    | some _ => s
    | none => goOn s

variable [DecidableEq T] [DecidableEq M] (serializedBytes : List M → Nat)

/-- What a send of its next message makes of an entry. -/
def BufferedOutput.advance (entry : BufferedOutput T M) : BufferedOutput T M :=
  match entry.frameCount, entry.frameCursor with
  | some count, some cursor =>
    if cursor + 1 < count then { entry with frameCursor := some (cursor + 1) }
    else
      { entry with
        messages := entry.messages.drop count
        frameCount := none
        frameCursor := none
        bytes := serializedBytes (entry.messages.drop count) }
  | _, _ => { entry with messages := entry.messages.tail, bytes := serializedBytes entry.messages.tail }

def setEntry (s : Router T M) (entry : BufferedOutput T M) : Router T M :=
  { s with buffered := s.buffered.map fun item => if item.order = entry.order then entry else item }

/-- The entry after a send, deleted with its last message. -/
def storeAdvanced (s : Router T M) (entry : BufferedOutput T M) : Router T M :=
  if entry.messages.isEmpty then deleteBufferedEntry s entry.order else setEntry s entry

def releaseTask (s : Router T M) (taskId : T) : Router T M :=
  if s.drainTask = some taskId then { s with drainTask := none } else s

/-- The drain goes on after a send that succeeded. -/
def drainSent (s : Router T M) (order : Nat) (taskId : T) (message : M) : Router T M :=
  match s.buffered.find? fun entry => entry.order = order with
  | none => goOn (releaseTask s taskId)
  | some entry =>
    if entry.next? = some message then
      goOn (storeAdvanced (releaseTask s taskId) (entry.advance serializedBytes))
    else goOn (releaseTask s taskId)

/-- The drain ends with a transient failure, and goes on after another one. -/
def drainFailed (s : Router T M) (order : Nat) (taskId : T) (transient : Bool) : Router T M :=
  if transient then
    { releaseTask s taskId with
      buffered := s.buffered.map fun entry =>
        if entry.order = order then { entry with frameCursor := entry.frameCursor.map fun _ => 0 } else entry
      drain := some .ended }
  else goOn (deleteBufferedEntry (releaseTask s taskId) order)

end Drain

/-! ## Steps -/

inductive Action (T M : Type) where
  | buffer (taskId : T) (kind : Kind) (messages : List M)
  | remove (taskId : T) (kind : Option Kind)
  /-- `#drainBufferedOutput` is called. -/
  | drain
  /-- The send of the drain succeeds. -/
  | sent
  /-- The send of the drain fails, for the time being or for good. -/
  | failed (transient : Bool)
  /-- The drain that ended leaves the map. -/
  | settle
  | dispose
  | activate
  /-- Another binding buffers output. -/
  | elsewhere

/-- A send that settled: the entry, the message and whether it succeeded. -/
abbrev Report (M : Type) := Option (Nat × M × Bool)

variable {T M : Type} [DecidableEq T] [DecidableEq M]

def step (chunkAt : M → Option (Nat × Nat)) (serializedBytes : List M → Nat) (s : Router T M) :
    Action T M → Report M × Router T M
  | .buffer taskId kind messages => (none, bufferTaskOutput chunkAt serializedBytes s taskId kind messages)
  | .remove taskId kind => (none, removeBufferedTask s taskId kind)
  | .drain => (none, drainBufferedOutput s)
  | .sent =>
    match s.drain with
    | some (.sending order taskId message) => (some (order, message, true), drainSent serializedBytes s order taskId message)
    | _ => (none, s)
  | .failed transient =>
    match s.drain with
    | some (.sending order taskId message) => (some (order, message, false), drainFailed s order taskId transient)
    | _ => (none, s)
  | .settle =>
    match s.drain with
    | some .ended => (none, { s with drain := none, drainTask := none })
    | _ => (none, s)
  | .dispose => (none, { s with disposed := true, buffered := [] })
  | .activate => (none, { s with disposed := false })
  | .elsewhere => (none, { s with bufferOrder := s.bufferOrder + 1 })

end ClawMessenger.Ports.OutputBuffer
