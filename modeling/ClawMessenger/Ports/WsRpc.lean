import ClawMessenger.Verified.Machine
import ClawMessenger.Verified.OrderedMap

/-!
# The claim call of the daemon

A claim goes out as a frame on the WebSocket, and over HTTP when the frame is
known not to have reached the server or the server has refused it.  A frame is
queued for the writer; the caller that gives up and the writer that takes it race
for the frame, and the caller learns whether it was in time.  An outcome that is
not known delays the next claim over HTTP.

One poller issues the calls, one after the other.  Between any two commands of a
call the writer may take a frame, a connection may come or go, a response may
arrive, the clock may advance and the context may be cancelled.  What the sender
of a connection and the HTTP endpoints answer is up to them.

Times are nanoseconds of `UnixNano`.  The tasks of a response and their decoding
are parameters.
-/

namespace ClawMessenger.Ports.WsRpc

open Verified Verified.Machine

open Option (some_inj)

/-! ## Outbound frames -/

/-- `wsOutbound`, without its data. -/
structure Outbound where
  sent : Bool := false
  canceled : Bool := false
deriving DecidableEq, Repr

/-- `beginWrite`: whether the writer may write the frame. -/
def Outbound.beginWrite (o : Outbound) : Bool × Outbound :=
  if o.canceled then (false, o) else (true, { o with sent := true })

/-- `cancel`: whether the frame was still pending. -/
def Outbound.cancel (o : Outbound) : Bool × Outbound :=
  if o.sent then (false, o) else (true, { o with canceled := true })

/-! ## The client -/

def second : Int := 1000000000

def batchClaimRequestTimeout : Int := 5 * second

def wsRpcResponseGrace : Int := 2 * second

def wsClaimUncertainFallbackDelay : Int := batchClaimRequestTimeout + wsRpcResponseGrace

structure Response where
  status : Int
  body : String
  error : String
deriving DecidableEq, Repr

/-- A success, by its status. -/
def Response.ok (resp : Response) : Bool := decide (200 ≤ resp.status ∧ resp.status < 300)

/-- The channel of a pending call, with room for one response.  One that is closed while it
holds a response still yields it. -/
inductive Channel where
  | empty
  | full (resp : Response)
  | closed
deriving DecidableEq, Repr

def Channel.close : Channel → Channel
  | .full resp => .full resp
  | _ => .closed

/-- The next command of `ClaimTasksWSFirst`. -/
inductive CallPc (τ : Type) where
  | loadUnsupported
  | loadFallbackAfter
  | swapFallbackAfter (retryAfter : Int)
  | supportsRpcV1
  | register
  | send
  | wait (deadline : Int)
  | storeFallbackAfter
  | claimTasks
  /-- Waits for the answer of `ClaimTasks`. -/
  | claimTasksAnswer
  | claimTask (rest : List String) (out : List τ)
  /-- Waits for the answer of `ClaimTask`. -/
  | claimTaskAnswer (rest : List String) (out : List τ)

structure Call (τ : Type) where
  runtimeIds : List String
  maxTasks : Int
  pc : CallPc τ
  /-- The response that the call has taken from its channel. -/
  received : Option Response := none

structure State (τ : Type) where
  clock : Int := 0
  /-- The context of the poller is done. -/
  ctxDone : Bool := false
  sendFrame : Bool := false
  rpcV1Supported : Bool := false
  generation : Nat := 0
  pending : List Nat := []
  channels : OrderedMap Nat Channel := ∅
  frames : OrderedMap Nat Outbound := ∅
  batchClaimUnsupported : Bool := false
  /-- `wsClaimHTTPFallbackAfter`. -/
  fallbackAfter : Int := 0
  /-- The number of the current call, or of the next one. -/
  n : Nat := 0
  call : Option (Call τ) := none
  /-- When a call has given up a frame that was sent; nothing reads it. -/
  ambiguous : List Int := []

inductive Answer (τ : Type) where
  | nothing
  /-- An HTTP claim goes out. -/
  | httpClaim
  | returned (tasks : Option (List τ))

/-- What an HTTP claim comes to. -/
inductive HttpResult (α : Type) where
  | ok (value : α)
  | notFound
  | failed

variable {τ : Type}

def State.setPc (s : State τ) (call : Call τ) (pc : CallPc τ) : Answer τ × State τ :=
  (.nothing, { s with call := some { call with pc } })

/-- A call ends; the next one has a new id. -/
def State.finish (s : State τ) (tasks : Option (List τ)) : Answer τ × State τ :=
  (.returned tasks, { s with call := none, n := s.n + 1 })

/-- The deferred deletion of `call`. -/
def State.unregister (s : State τ) : State τ := { s with pending := s.pending.erase s.n }

def State.setFrame (s : State τ) (o : Outbound) : State τ := { s with frames := s.frames.set s.n o }

/-- `giveUp`, and what the call does with its verdict. -/
def State.giveUp (s : State τ) (call : Call τ) : Answer τ × State τ :=
  let attempt := ((s.frames.get? s.n).getD {}).cancel
  let s' := (s.unregister).setFrame attempt.2
  if attempt.1 then s'.setPc call .claimTasks
  else { s' with ambiguous := s.clock :: s.ambiguous }.setPc call .storeFallbackAfter

/-- A response is taken. -/
def State.receive (unmarshal : String → Option (List τ)) (s : State τ) (call : Call τ)
    (resp : Response) : Answer τ × State τ :=
  let s' := s.unregister
  let call' := { call with received := some resp }
  if resp.ok then
    if resp.body = "" then s'.finish (some [])
    else
      match unmarshal resp.body with
      | none => s'.setPc call' .claimTasks
      | some tasks => s'.finish (some tasks)
  else s'.setPc call' .claimTasks

/-- The next command of the call, where it does not wait. -/
def State.advance (s : State τ) (call : Call τ) : Answer τ × State τ :=
  match call.pc with
  | .loadUnsupported =>
    if s.batchClaimUnsupported then
      if call.maxTasks ≤ 0 then s.finish (some [])
      else s.setPc call (.claimTask call.runtimeIds [])
    else s.setPc call .loadFallbackAfter
  | .loadFallbackAfter =>
    if 0 < s.fallbackAfter then s.setPc call (.swapFallbackAfter s.fallbackAfter)
    else s.setPc call .supportsRpcV1
  | .swapFallbackAfter retryAfter =>
    if s.clock < retryAfter then s.finish (some [])
    else if s.fallbackAfter = retryAfter then { s with fallbackAfter := 0 }.setPc call .claimTasks
    else s.setPc call .supportsRpcV1
  | .supportsRpcV1 =>
    if s.sendFrame && s.rpcV1Supported then s.setPc call .register else s.setPc call .claimTasks
  | .register =>
    if !s.sendFrame || !s.rpcV1Supported then s.setPc call .claimTasks
    else
      { s with pending := s.n :: s.pending, channels := s.channels.set s.n .empty }.setPc call .send
  | .storeFallbackAfter =>
    { s with fallbackAfter := s.clock + max wsClaimUncertainFallbackDelay 0 }.finish (some [])
  | .claimTasks =>
    -- a request is not sent once its context is done
    if s.ctxDone then s.finish none
    else (.httpClaim, { s with call := some { call with pc := .claimTasksAnswer } })
  | .claimTask [] out => s.finish (some out)
  | .claimTask (_ :: rest) out =>
    if call.maxTasks ≤ out.length then s.finish (some out)
    else if s.ctxDone then s.finish (if out.isEmpty then none else some out)
    else (.httpClaim, { s with call := some { call with pc := .claimTaskAnswer rest out } })
  | _ => (.nothing, s)

inductive Action (τ : Type) where
  | setClock (now : Int)
  | cancelContext
  /-- `attach`, with a sender or with nil. -/
  | attach (sendFrame : Bool)
  /-- A connection is up, and the batch route is probed again. -/
  | probeAgain
  | markRpcV1Supported (generation : Nat)
  | deliver (n : Nat) (resp : Response)
  /-- The writer takes a frame from its queue. -/
  | beginWrite (n : Nat)
  | begin (runtimeIds : List String) (maxTasks : Int)
  | advance
  /-- The sender has queued the frame, or it refuses. -/
  | send (queued : Bool)
  /-- The call takes what its channel holds. -/
  | receive
  | timeout
  | contextDone
  | claimTasksAnswer (result : HttpResult (List τ))
  | claimTaskAnswer (result : HttpResult (Option τ))

/-- `attach`. -/
def State.attach (s : State τ) (sendFrame : Bool) : State τ :=
  { s with
    generation := s.generation + 1
    rpcV1Supported := false
    sendFrame
    channels := s.pending.foldl
      (fun channels n => channels.set n ((channels.get? n).getD .empty).close) s.channels
    pending := [] }

def State.deliver (s : State τ) (n : Nat) (resp : Response) : State τ :=
  if n ∈ s.pending ∧ s.channels.get? n = some .empty then
    { s with channels := s.channels.set n (.full resp) }
  else s

/-- A command of the call that waits for something. -/
def State.stepCall (unmarshal : String → Option (List τ)) (s : State τ) (call : Call τ)
    (action : Action τ) : Answer τ × State τ :=
  match action, call.pc with
  | .send queued, .send =>
    if queued then
      (s.setFrame {}).setPc call (.wait (s.clock + (batchClaimRequestTimeout + wsRpcResponseGrace)))
    else s.unregister.setPc call .claimTasks
  | .receive, .wait _ =>
    match s.channels.get? s.n with
    | some (.full resp) => s.receive unmarshal call resp
    | some .closed => s.giveUp call
    | _ => (.nothing, s)
  | .timeout, .wait deadline => if deadline ≤ s.clock then s.giveUp call else (.nothing, s)
  | .contextDone, .wait _ =>
    if s.ctxDone then
      let attempt := ((s.frames.get? s.n).getD {}).cancel
      (s.unregister.setFrame attempt.2).setPc call .claimTasks
    else (.nothing, s)
  | .claimTasksAnswer result, .claimTasksAnswer =>
    match result with
    | .ok tasks => s.finish (some tasks)
    | .notFound =>
      let s' := { s with batchClaimUnsupported := true }
      if call.maxTasks ≤ 0 then s'.finish (some [])
      else s'.setPc call (.claimTask call.runtimeIds [])
    | .failed => s.finish none
  | .claimTaskAnswer result, .claimTaskAnswer rest out =>
    match result with
    | .ok task => s.setPc call (.claimTask rest (out ++ task.toList))
    | _ => s.finish (if out.isEmpty then none else some out)
  | _, _ => (.nothing, s)

def step (unmarshal : String → Option (List τ)) (s : State τ) (action : Action τ) :
    Answer τ × State τ :=
  match action with
  | .setClock now => (.nothing, { s with clock := now })
  | .cancelContext => (.nothing, { s with ctxDone := true })
  | .attach sendFrame => (.nothing, s.attach sendFrame)
  | .probeAgain => (.nothing, { s with batchClaimUnsupported := false })
  | .markRpcV1Supported generation =>
    (.nothing, { s with
      rpcV1Supported := s.rpcV1Supported || (s.sendFrame && s.generation == generation) })
  | .deliver n resp => (.nothing, s.deliver n resp)
  | .beginWrite n =>
    (.nothing, (s.frames.get? n).elim s fun o =>
      { s with frames := s.frames.set n o.beginWrite.2 })
  | .begin runtimeIds maxTasks =>
    (.nothing, { s with call := some { runtimeIds, maxTasks, pc := .loadUnsupported } })
  | .advance => s.call.elim (.nothing, s) fun call => s.advance call
  | _ => s.call.elim (.nothing, s) fun call => s.stepCall unmarshal call action

abbrev Run (τ : Type) := Config (State τ) (Action τ) (Answer τ)

/-- The clock advances, and a call begins when the last one has returned. -/
def allowed (c : Run τ) : Action τ → Prop
  | .setClock now => c.state.clock ≤ now
  | .begin _ _ => c.state.call.isNone = true
  | _ => True

instance (c : Run τ) (action : Action τ) : Decidable (allowed c action) := by
  cases action <;> (unfold allowed; infer_instance)


/-! ## Which claims go out over HTTP -/

/-- The call has not queued a frame yet. -/
def CallPc.unqueued : CallPc τ → Bool
  | .loadUnsupported => true
  | .loadFallbackAfter => true
  | .swapFallbackAfter _ => true
  | .supportsRpcV1 => true
  | .register => true
  | .send => true
  | _ => false

/-- The frame of the call is cancelled, so it is never sent, or there is none; or
the server has refused the claim. -/
def State.clear (s : State τ) (call : Call τ) : Prop :=
  (∀ o, s.frames.get? s.n = some o → o.canceled = true) ∨
    ∃ resp, call.received = some resp ∧ resp.ok = false

/-- The call is about to note an unknown outcome. -/
def CallPc.storing : CallPc τ → Bool
  | .storeFallbackAfter => true
  | _ => false

theorem not_storing_of_eq {pc pc' : CallPc τ} (h : pc = pc') (hpc : pc'.storing = false) :
    pc ≠ .storeFallbackAfter := by
  intro hstoring
  rw [← h, hstoring] at hpc
  cases hpc

/-- What is known at a command of a call. -/
def State.callSound (s : State τ) (call : Call τ) : Prop :=
  match call.pc with
  | .loadUnsupported => True
  | .loadFallbackAfter => s.batchClaimUnsupported = false
  | .swapFallbackAfter retryAfter =>
    s.batchClaimUnsupported = false ∧ s.fallbackAfter = retryAfter
  | .supportsRpcV1 => s.batchClaimUnsupported = false ∧ s.fallbackAfter ≤ 0
  | .register => s.batchClaimUnsupported = false ∧ s.fallbackAfter ≤ 0
  | .send => s.batchClaimUnsupported = false ∧ s.fallbackAfter ≤ 0
  | .wait _ => s.batchClaimUnsupported = false ∧ s.fallbackAfter ≤ 0
  | .storeFallbackAfter => s.batchClaimUnsupported = false ∧ s.fallbackAfter ≤ 0
  | .claimTasks => s.fallbackAfter ≤ 0 ∧ (s.ctxDone = true ∨ s.clear call)
  | .claimTasksAnswer => s.fallbackAfter ≤ 0 ∧ (s.ctxDone = true ∨ s.clear call)
  | .claimTask _ _ => s.fallbackAfter ≤ 0 ∧ (s.ctxDone = true ∨ s.clear call)
  | .claimTaskAnswer _ _ => s.fallbackAfter ≤ 0 ∧ (s.ctxDone = true ∨ s.clear call)

/-- The delay after an unknown outcome has passed, or nothing goes out before it has. -/
def State.delayed (s : State τ) (t : Int) : Prop :=
  t + wsClaimUncertainFallbackDelay ≤ s.clock ∨ s.ctxDone = true ∨
    (0 < s.fallbackAfter ∧ t + wsClaimUncertainFallbackDelay ≤ s.fallbackAfter) ∨
    (t ≤ s.clock ∧ ∃ call, s.call = some call ∧ call.pc = .storeFallbackAfter)

structure Sound (s : State τ) : Prop where
  started : 0 ≤ s.clock
  exclusive : ∀ n o, s.frames.get? n = some o → ¬(o.sent = true ∧ o.canceled = true)
  later : ∀ n, s.n < n → s.frames.get? n = none
  unqueued : (∀ call, s.call = some call → call.pc.unqueued = true) → s.frames.get? s.n = none
  legacy : s.batchClaimUnsupported = true → s.fallbackAfter ≤ 0
  delayed : ∀ t ∈ s.ambiguous, s.delayed t
  call : ∀ call, s.call = some call → s.callSound call

theorem Sound.start : Sound ({} : State τ) where
  started := le_rfl
  exclusive := by
    intro n o h
    cases h
  later := fun _ _ => rfl
  unqueued := fun _ => rfl
  legacy := fun _ => le_rfl
  delayed := by
    intro t h
    cases h
  call := by
    intro call h
    cases h

/-! ### What goes on around a call -/

variable {o : Outbound} {s : State τ} {call : Call τ} {unmarshal : String → Option (List τ)}
  {action : Action τ}

theorem beginWrite_exclusive (h : ¬(o.sent = true ∧ o.canceled = true)) :
    ¬(o.beginWrite.2.sent = true ∧ o.beginWrite.2.canceled = true) := by
  unfold Outbound.beginWrite
  split
  · exact h
  · rename_i hpending
    exact fun hboth => hpending hboth.2

theorem beginWrite_canceled (h : o.canceled = true) :
    o.beginWrite.2.canceled = true := by
  unfold Outbound.beginWrite
  split
  · exact h
  · exact h

theorem cancel_exclusive (h : ¬(o.sent = true ∧ o.canceled = true)) :
    ¬(o.cancel.2.sent = true ∧ o.cancel.2.canceled = true) := by
  unfold Outbound.cancel
  split
  · exact h
  · rename_i hpending
    exact fun hboth => hpending hboth.1

theorem cancel_canceled (h : o.cancel.1 = true) : o.cancel.2.canceled = true := by
  unfold Outbound.cancel at h ⊢
  split at h
  · cases h
  · rename_i hpending
    rw [if_neg hpending]

variable {s' : State τ}

section

variable (h : Sound s) (hn : s'.n = s.n) (hcall : s'.call = s.call)
  (hfallback : s'.fallbackAfter = s.fallbackAfter) (hambiguous : s'.ambiguous = s.ambiguous)
  (hclock : s.clock ≤ s'.clock) (hctx : s.ctxDone = true → s'.ctxDone = true)
  (hlegacy : s'.batchClaimUnsupported = true → s.batchClaimUnsupported = true)
include h hn hcall hfallback hambiguous hclock hctx hlegacy

/-- A step outside the call that keeps its frames, lets time pass and sets no flag
but the end of the context. -/
theorem Sound.around
    (hframes : ∀ n o', s'.frames.get? n = some o' → ∃ o, s.frames.get? n = some o ∧ ((o.canceled = true → o'.canceled = true) ∧ (¬(o.sent = true ∧ o.canceled = true) → ¬(o'.sent = true ∧ o'.canceled = true)))) :
    Sound s' where
  started := le_trans h.started hclock
  exclusive := by
    intro n o' ho'
    obtain ⟨o, ho, _, hkept⟩ := hframes n o' ho'
    exact hkept (h.exclusive n o ho)
  later := by
    intro n hlt
    rw [hn] at hlt
    cases hget : s'.frames.get? n with
    | none => rfl
    | some o' =>
      obtain ⟨o, ho, _⟩ := hframes n o' hget
      rw [h.later n hlt] at ho
      cases ho
  unqueued := by
    intro hnone
    rw [hcall] at hnone
    rw [hn]
    cases hget : s'.frames.get? s.n with
    | none => rfl
    | some o' =>
      obtain ⟨o, ho, _⟩ := hframes s.n o' hget
      rw [h.unqueued hnone] at ho
      cases ho
  legacy := by
    intro hunsupported
    rw [hfallback]
    exact h.legacy (hlegacy hunsupported)
  delayed := by
    intro t ht
    rw [hambiguous] at ht
    unfold State.delayed
    rw [hfallback, hcall]
    rcases h.delayed t ht with hpassed | hdone | hstored | ⟨hle, hstoring⟩
    · exact .inl (le_trans hpassed hclock)
    · exact .inr (.inl (hctx hdone))
    · exact .inr (.inr (.inl hstored))
    · exact .inr (.inr (.inr ⟨le_trans hle hclock, hstoring⟩))
  call := by
    intro call hc
    rw [hcall] at hc
    have hold := h.call call hc
    have hsupported : s.batchClaimUnsupported = false → s'.batchClaimUnsupported = false := by
      intro hfalse
      cases hflag : s'.batchClaimUnsupported with
      | false => rfl
      | true => rw [hlegacy hflag] at hfalse; cases hfalse
    have hclear : s.ctxDone = true ∨ s.clear call → s'.ctxDone = true ∨ s'.clear call := by
      rintro (hdone | hcanceled | hrefused)
      · exact .inl (hctx hdone)
      · right
        left
        intro o' ho'
        rw [hn] at ho'
        obtain ⟨o, ho, hkept, _⟩ := hframes s.n o' ho'
        exact hkept (hcanceled o ho)
      · exact .inr (.inr hrefused)
    unfold State.callSound at hold ⊢
    rw [hfallback]
    cases hpc : call.pc <;> simp only [hpc] at hold ⊢
    case loadFallbackAfter => exact hsupported hold
    case swapFallbackAfter => exact ⟨hsupported hold.1, hold.2⟩
    case supportsRpcV1 => exact ⟨hsupported hold.1, hold.2⟩
    case register => exact ⟨hsupported hold.1, hold.2⟩
    case send => exact ⟨hsupported hold.1, hold.2⟩
    case wait => exact ⟨hsupported hold.1, hold.2⟩
    case storeFallbackAfter => exact ⟨hsupported hold.1, hold.2⟩
    case claimTasks => exact ⟨hold.1, hclear hold.2⟩
    case claimTasksAnswer => exact ⟨hold.1, hclear hold.2⟩
    case claimTask => exact ⟨hold.1, hclear hold.2⟩
    case claimTaskAnswer => exact ⟨hold.1, hclear hold.2⟩

/-- The same, where the frames are left alone. -/
theorem Sound.around_of_frames (hframes : s'.frames = s.frames) : Sound s' := by
  refine h.around hn hcall hfallback hambiguous hclock hctx hlegacy ?_
  intro n o ho
  rw [hframes] at ho
  exact ⟨o, ho, fun hcanceled => hcanceled, fun hexclusive => hexclusive⟩

end

theorem Sound.beginWrite (h : Sound s) {n : Nat} (hn : s.frames.get? n = some o) :
    Sound { s with frames := s.frames.set n o.beginWrite.2 } := by
  refine h.around rfl rfl rfl rfl le_rfl (fun hdone => hdone) (fun hflag => hflag) ?_
  intro k o' hk
  rw [OrderedMap.get?_set] at hk
  split at hk
  · rename_i heq
    cases hk
    rw [heq]
    exact ⟨o, hn, beginWrite_canceled, beginWrite_exclusive⟩
  · exact ⟨o', hk, fun hcanceled => hcanceled, fun hexclusive => hexclusive⟩

/-! ### The commands of a call -/

section

variable (h : Sound s)
include h

/-- Where the call stores no time, no delay hangs on the call. -/
theorem Sound.delayed_apart (hc : s.call = some call) (hstoring : call.pc ≠ .storeFallbackAfter) {t : Int}
    (ht : t ∈ s.ambiguous) (call' : Option (Call τ)) : { s with call := call' }.delayed t := by
  rcases h.delayed t ht with hpassed | hdone | hstored | ⟨_, call₀, hcall₀, hpc⟩
  · exact .inl hpassed
  · exact .inr (.inl hdone)
  · exact .inr (.inr (.inl hstored))
  · rw [hc, some_inj] at hcall₀
    rw [← hcall₀] at hpc
    exact absurd hpc hstoring

/-- A call that moves on and changes nothing else. -/
theorem Sound.setCall (hc : s.call = some call) (call' : Call τ)
    (hqueued : call'.pc.unqueued = true → call.pc.unqueued = true)
    (hstoring : call.pc ≠ .storeFallbackAfter) (hsound : s.callSound call') :
    Sound { s with call := some call' } where
  started := h.started
  exclusive := h.exclusive
  later := h.later
  unqueued := by
    intro hnone
    apply h.unqueued
    intro call₀ hcall₀
    rw [hc, some_inj] at hcall₀
    rw [← hcall₀]
    exact hqueued (hnone call' rfl)
  legacy := h.legacy
  delayed := fun t ht => h.delayed_apart hc hstoring ht _
  call := by
    intro call₀ hcall₀
    cases hcall₀
    exact hsound

theorem Sound.finish (hc : s.call = some call) (hstoring : call.pc ≠ .storeFallbackAfter)
    (tasks : Option (List τ)) :
    Sound (s.finish tasks).2 where
  started := h.started
  exclusive := h.exclusive
  later := fun n hlt => h.later n (Nat.lt_of_succ_lt hlt)
  unqueued := fun _ => h.later (s.n + 1) (Nat.lt_succ_self s.n)
  legacy := h.legacy
  delayed := fun t ht => h.delayed_apart hc hstoring ht _
  call := by
    intro call₀ hcall₀
    cases hcall₀

/-- The pending ids and their channels are of no account. -/
theorem Sound.setChannels (pending : List Nat) (channels : OrderedMap Nat Channel) :
    Sound { s with pending, channels } :=
  h.around_of_frames rfl rfl rfl rfl le_rfl (fun hdone => hdone) (fun hflag => hflag) rfl

theorem Sound.unregister : Sound s.unregister :=
  h.setChannels (s.pending.erase s.n) s.channels

/-- Nothing is known to have gone out before the frame is queued. -/
theorem Sound.clear_of_unqueued (hc : s.call = some call) (hunqueued : call.pc.unqueued = true)
    (call' : Call τ) :
    s.clear call' := by
  left
  intro o ho
  rw [h.unqueued fun call₀ hcall₀ => by
    rw [hc, some_inj] at hcall₀
    rw [← hcall₀]
    exact hunqueued] at ho
  cases ho

/-- The delay is over: the next claim goes out over HTTP. -/
theorem Sound.swapFallbackAfter (hc : s.call = some call) {retryAfter : Int}
    (hpc : call.pc = .swapFallbackAfter retryAfter) (hover : retryAfter ≤ s.clock) :
    Sound ({ s with fallbackAfter := 0, call := some { call with pc := .claimTasks } } : State τ) := by
  have hold := h.call call hc
  simp only [State.callSound, hpc] at hold
  have hclear := h.clear_of_unqueued hc (by rw [hpc]; rfl) { call with pc := .claimTasks }
  constructor
  case started => exact h.started
  case exclusive => exact h.exclusive
  case later => exact h.later
  case unqueued =>
    intro hnone
    have hqueued := hnone _ rfl
    cases hqueued
  case legacy => exact fun _ => le_rfl
  case delayed =>
    intro t ht
    rcases h.delayed t ht with hpassed | hdone | ⟨_, hstored⟩ | ⟨_, call₀, hcall₀, hstoring⟩
    · exact .inl hpassed
    · exact .inr (.inl hdone)
    · rw [hold.2] at hstored
      exact .inl (le_trans hstored hover)
    · rw [hc, some_inj] at hcall₀
      rw [← hcall₀, hpc] at hstoring
      cases hstoring
  case call =>
    intro call₀ hcall₀
    cases hcall₀
    exact ⟨le_rfl, .inr hclear⟩

end

theorem delay_pos : 0 < wsClaimUncertainFallbackDelay := by decide

/-- The unknown outcome is noted, and the call ends. -/
theorem Sound.storeFallbackAfter (h : Sound s) (hc : s.call = some call)
    (hpc : call.pc = .storeFallbackAfter) (tasks : Option (List τ)) :
    Sound ({ s with
      fallbackAfter := s.clock + max wsClaimUncertainFallbackDelay 0 }.finish tasks).2 := by
  have hold := h.call call hc
  simp only [State.callSound, hpc] at hold
  have hdelay : max wsClaimUncertainFallbackDelay 0 = wsClaimUncertainFallbackDelay :=
    max_eq_left delay_pos.le
  have hpos : 0 < s.clock + wsClaimUncertainFallbackDelay := add_pos_of_nonneg_of_pos h.started delay_pos
  rw [hdelay]
  constructor
  case started => exact h.started
  case exclusive => exact h.exclusive
  case later => exact fun n hlt => h.later n (Nat.lt_of_succ_lt hlt)
  case unqueued => exact fun _ => h.later (s.n + 1) (Nat.lt_succ_self s.n)
  case legacy =>
    intro hunsupported
    exact absurd hunsupported (by rw [hold.1]; exact Bool.false_ne_true)
  case delayed =>
    intro t ht
    rcases h.delayed t ht with hpassed | hdone | ⟨hset, _⟩ | ⟨hle, _⟩
    · exact .inl hpassed
    · exact .inr (.inl hdone)
    · exact absurd hold.2 (not_le.mpr hset)
    · exact .inr (.inr (.inl ⟨hpos, add_le_add_left hle _⟩))
  case call =>
    intro call₀ hcall₀
    cases hcall₀

variable {deadline : Int}

section

variable (h : Sound s) (hc : s.call = some call)
include h hc

/-- The frame of a waiting call is cancelled, if it is not sent yet. -/
theorem Sound.cancelFrame (hpc : call.pc = .wait deadline) :
    Sound (s.setFrame ((s.frames.get? s.n).getD {}).cancel.2) := by
  have hexclusive : ¬(((s.frames.get? s.n).getD {}).sent = true ∧
      ((s.frames.get? s.n).getD {}).canceled = true) := by
    cases hget : s.frames.get? s.n with
    | none => exact fun hboth => Bool.false_ne_true hboth.1
    | some o => exact h.exclusive s.n o hget
  have hold := h.call call hc
  constructor
  case started => exact h.started
  case exclusive =>
    intro n o ho
    unfold State.setFrame at ho
    rw [OrderedMap.get?_set] at ho
    split at ho
    · cases ho
      exact cancel_exclusive hexclusive
    · exact h.exclusive n o ho
  case later =>
    intro n hlt
    show (s.frames.set s.n _).get? n = none
    have hne : n ≠ s.n := Nat.ne_of_gt hlt
    rw [OrderedMap.get?_set_ne _ _ hne]
    exact h.later n hlt
  case unqueued =>
    intro hnone
    have hqueued := hnone call hc
    rw [hpc] at hqueued
    cases hqueued
  case legacy => exact h.legacy
  case delayed => exact h.delayed
  case call =>
    intro call₀ hcall₀
    have hsame : call₀ = call := some_inj.mp (hcall₀.symm.trans hc)
    rw [hsame]
    simp only [State.callSound, hpc] at hold ⊢
    exact hold

/-- The call gives up: its frame is never sent, or the outcome is unknown. -/
theorem Sound.giveUp (hpc : call.pc = .wait deadline) :
    Sound (s.giveUp call).2 := by
  have hold := h.call call hc
  simp only [State.callSound, hpc] at hold
  have hcanceled : Sound (s.unregister.setFrame ((s.frames.get? s.n).getD {}).cancel.2) :=
    h.unregister.cancelFrame hc hpc
  have hwaiting := not_storing_of_eq hpc rfl
  unfold State.giveUp
  cases hattempt : ((s.frames.get? s.n).getD {}).cancel.1 with
  | true =>
    simp only [hattempt, if_true]
    refine hcanceled.setCall hc _ ?_ hwaiting ?_
    · intro hqueued
      cases hqueued
    · refine ⟨hold.2, .inr (.inl ?_)⟩
      intro o ho
      have hown : (s.unregister.setFrame ((s.frames.get? s.n).getD {}).cancel.2).frames.get? s.n =
          some ((s.frames.get? s.n).getD {}).cancel.2 := OrderedMap.get?_set_self _ _ _
      rw [← some_inj.mp (hown.symm.trans ho)]
      exact cancel_canceled hattempt
  | false =>
    -- the writer has taken the frame
    simp only [hattempt, Bool.false_eq_true, if_false]
    constructor
    case started => exact h.started
    case exclusive => exact hcanceled.exclusive
    case later => exact hcanceled.later
    case unqueued =>
      intro hnone
      have hqueued := hnone _ rfl
      cases hqueued
    case legacy => exact h.legacy
    case delayed =>
      intro t ht
      rcases List.mem_cons.mp ht with heq | hmem
      · rw [heq]
        exact .inr (.inr (.inr ⟨le_rfl, _, rfl, rfl⟩))
      · exact h.delayed_apart hc hwaiting hmem _
    case call =>
      intro call₀ hcall₀
      cases hcall₀
      exact hold

/-- The frame is queued for the writer. -/
theorem Sound.queue (hpc : call.pc = .send) (deadline : Int) :
    Sound ({ s.setFrame {} with call := some { call with pc := .wait deadline } } : State τ) := by
  have hold := h.call call hc
  simp only [State.callSound, hpc] at hold
  constructor
  case started => exact h.started
  case exclusive =>
    intro n o ho
    simp only [State.setFrame, OrderedMap.get?_set] at ho
    split at ho
    · cases ho
      exact fun hboth => Bool.false_ne_true hboth.1
    · exact h.exclusive n o ho
  case later =>
    intro n hlt
    show (s.frames.set s.n _).get? n = none
    have hne : n ≠ s.n := Nat.ne_of_gt hlt
    rw [OrderedMap.get?_set_ne _ _ hne]
    exact h.later n hlt
  case unqueued =>
    intro hnone
    have hqueued := hnone _ rfl
    cases hqueued
  case legacy => exact h.legacy
  case delayed => exact fun t ht => h.delayed_apart hc (not_storing_of_eq hpc rfl) ht _
  case call =>
    intro call₀ hcall₀
    cases hcall₀
    exact hold

theorem Sound.advance :
    Sound (s.advance call).2 := by
  have hold := h.call call hc
  unfold State.advance
  cases hpc : call.pc <;> simp only [State.callSound, hpc] at hold ⊢
  case loadUnsupported =>
    have hwaiting := not_storing_of_eq hpc rfl
    have hclear := h.clear_of_unqueued hc (by rw [hpc]; rfl)
    split
    · rename_i hunsupported
      split
      · exact h.finish hc hwaiting _
      · apply h.setCall hc _ _ hwaiting
        · exact ⟨h.legacy hunsupported, .inr (hclear _)⟩
        · intro hqueued
          cases hqueued
    · rename_i hsupported
      apply h.setCall hc _ _ hwaiting
      · exact Bool.eq_false_iff.mpr hsupported
      · intro _
        rw [hpc]
        rfl
  case loadFallbackAfter =>
    have hwaiting := not_storing_of_eq hpc rfl
    split
    · apply h.setCall hc _ _ hwaiting
      · exact ⟨hold, rfl⟩
      · intro _
        rw [hpc]
        rfl
    · rename_i hunset
      apply h.setCall hc _ _ hwaiting
      · exact ⟨hold, not_lt.mp hunset⟩
      · intro _
        rw [hpc]
        rfl
  case swapFallbackAfter retryAfter =>
    have hwaiting := not_storing_of_eq hpc rfl
    split
    · exact h.finish hc hwaiting _
    · rename_i hover
      rw [if_pos hold.2]
      exact h.swapFallbackAfter hc hpc (not_lt.mp hover)
  case supportsRpcV1 =>
    have hwaiting := not_storing_of_eq hpc rfl
    have hclear := h.clear_of_unqueued hc (by rw [hpc]; rfl)
    split
    · apply h.setCall hc _ _ hwaiting
      · exact hold
      · intro _
        rw [hpc]
        rfl
    · apply h.setCall hc _ _ hwaiting
      · exact ⟨hold.2, .inr (hclear _)⟩
      · intro hqueued
        cases hqueued
  case register =>
    have hwaiting := not_storing_of_eq hpc rfl
    have hclear := h.clear_of_unqueued hc (by rw [hpc]; rfl)
    split
    · apply h.setCall hc _ _ hwaiting
      · exact ⟨hold.2, .inr (hclear _)⟩
      · intro hqueued
        cases hqueued
    · refine (h.setChannels (s.n :: s.pending) (s.channels.set s.n .empty)).setCall hc _ ?_ hwaiting ?_
      · intro _
        rw [hpc]
        rfl
      · exact hold
  case send => exact h
  case wait => exact h
  case storeFallbackAfter => exact h.storeFallbackAfter hc hpc _
  case claimTasks =>
    have hwaiting := not_storing_of_eq hpc rfl
    split
    · exact h.finish hc hwaiting _
    · apply h.setCall hc _ _ hwaiting
      · exact hold
      · intro hqueued
        cases hqueued
  case claimTasksAnswer => exact h
  case claimTask rest out =>
    have hwaiting := not_storing_of_eq hpc rfl
    cases rest with
    | nil => exact h.finish hc hwaiting _
    | cons runtimeId rest =>
      dsimp only
      split
      · exact h.finish hc hwaiting _
      · split
        · exact h.finish hc hwaiting _
        · apply h.setCall hc _ _ hwaiting
          · exact hold
          · intro hqueued
            cases hqueued
  case claimTaskAnswer => exact h

end

/-- No success that the call takes has a body that cannot be decoded. -/
def decodes (unmarshal : String → Option (List τ)) (c : Run τ) : Action τ → Prop
  | .receive => ∀ call deadline resp, c.state.call = some call → call.pc = .wait deadline →
      c.state.channels.get? c.state.n = some (.full resp) → resp.ok = true → resp.body ≠ "" →
      (unmarshal resp.body).isSome = true
  | _ => True

theorem Sound.receive (h : Sound s) (hc : s.call = some call) (hpc : call.pc = .wait deadline)
    {resp : Response}
    (hdecodes : resp.ok = true → resp.body ≠ "" → (unmarshal resp.body).isSome = true) :
    Sound (s.receive unmarshal call resp).2 := by
  have hold := h.call call hc
  simp only [State.callSound, hpc] at hold
  have hwaiting := not_storing_of_eq hpc rfl
  unfold State.receive
  cases hok : resp.ok with
  | true =>
    simp only [if_true]
    split
    · exact h.unregister.finish hc hwaiting _
    · rename_i hbody
      obtain ⟨tasks, htasks⟩ := Option.isSome_iff_exists.mp (hdecodes hok hbody)
      rw [htasks]
      exact h.unregister.finish hc hwaiting _
  | false =>
    simp only [Bool.false_eq_true, if_false]
    apply h.unregister.setCall hc _ _ hwaiting
    · exact ⟨hold.2, .inr (.inr ⟨resp, rfl, hok⟩)⟩
    · intro hqueued
      cases hqueued

theorem Sound.setUnsupported (h : Sound s) (hunset : s.fallbackAfter ≤ 0)
    (hcall : ∀ call, s.call = some call → call.pc = .claimTasksAnswer) :
    Sound { s with batchClaimUnsupported := true } where
  started := h.started
  exclusive := h.exclusive
  later := h.later
  unqueued := h.unqueued
  legacy := fun _ => hunset
  delayed := h.delayed
  call := by
    intro call hc
    have hold := h.call call hc
    simp only [State.callSound, hcall call hc] at hold ⊢
    exact hold

theorem Sound.stepCall {c : Run τ} (h : Sound c.state) (hc : c.state.call = some call)
    (hdecodes : decodes unmarshal c action) :
    Sound (c.state.stepCall unmarshal call action).2 := by
  have hold := h.call call hc
  unfold State.stepCall
  split
  · -- the sender answers
    rename_i queued hpc
    split
    · exact h.queue hc hpc _
    · simp only [State.callSound, hpc] at hold
      have hclear := h.clear_of_unqueued hc (by rw [hpc]; rfl)
      apply h.unregister.setCall hc
      · intro hqueued
        cases hqueued
      · exact not_storing_of_eq hpc rfl
      · exact ⟨hold.2, .inr (hclear _)⟩
  · rename_i deadline hpc
    split
    · rename_i resp hfull
      exact h.receive hc hpc (hdecodes call deadline resp hc hpc hfull)
    · exact h.giveUp hc hpc
    · exact h
  · rename_i deadline hpc
    split
    · exact h.giveUp hc hpc
    · exact h
  · rename_i deadline hpc
    split
    · rename_i hdone
      simp only [State.callSound, hpc] at hold
      apply (h.unregister.cancelFrame hc hpc).setCall hc
      · intro hqueued
        cases hqueued
      · exact not_storing_of_eq hpc rfl
      · exact ⟨hold.2, .inl hdone⟩
    · exact h
  · rename_i result hpc
    simp only [State.callSound, hpc] at hold
    have hwaiting := not_storing_of_eq hpc rfl
    split
    · exact h.finish hc hwaiting _
    · have hset : Sound { c.state with batchClaimUnsupported := true } := by
        apply h.setUnsupported hold.1
        intro call₀ hcall₀
        rw [hc, some_inj] at hcall₀
        rw [← hcall₀]
        exact hpc
      dsimp only
      split
      · exact hset.finish hc hwaiting _
      · apply hset.setCall hc _ _ hwaiting
        · exact hold
        · intro hqueued
          cases hqueued
    · exact h.finish hc hwaiting _
  · rename_i result rest out hpc
    simp only [State.callSound, hpc] at hold
    have hwaiting := not_storing_of_eq hpc rfl
    split
    · apply h.setCall hc _ _ hwaiting
      · exact hold
      · intro hqueued
        cases hqueued
    · exact h.finish hc hwaiting _
  · exact h

theorem Sound.begin (h : Sound s) (hidle : s.call.isNone = true) (runtimeIds : List String)
    (maxTasks : Int) :
    Sound ({ s with call := some { runtimeIds, maxTasks, pc := .loadUnsupported } } : State τ) := by
  have hnone : s.call = none := Option.isNone_iff_eq_none.mp hidle
  constructor
  case started => exact h.started
  case exclusive => exact h.exclusive
  case later => exact h.later
  case unqueued =>
    intro _
    apply h.unqueued
    intro call hc
    rw [hnone] at hc
    cases hc
  case legacy => exact h.legacy
  case delayed =>
    intro t ht
    rcases h.delayed t ht with hpassed | hdone | hstored | ⟨_, call, hc, _⟩
    · exact .inl hpassed
    · exact .inr (.inl hdone)
    · exact .inr (.inr (.inl hstored))
    · rw [hnone] at hc
      cases hc
  case call =>
    intro call hc
    cases hc
    trivial

theorem Sound.step {c : Run τ} (h : Sound c.state) (hallowed : allowed c action)
    (hdecodes : decodes unmarshal c action) :
    Sound (step unmarshal c.state action).2 := by
  have hcall : Sound (c.state.call.elim (Answer.nothing, c.state) fun call =>
      c.state.stepCall unmarshal call action).2 := by
    cases hc : c.state.call with
    | none => exact h
    | some call => exact h.stepCall hc hdecodes
  cases action with
  | setClock now =>
    exact h.around_of_frames rfl rfl rfl rfl hallowed (fun hdone => hdone) (fun hflag => hflag) rfl
  | cancelContext =>
    exact h.around_of_frames rfl rfl rfl rfl le_rfl (fun _ => rfl) (fun hflag => hflag) rfl
  | attach sendFrame =>
    exact h.around_of_frames rfl rfl rfl rfl le_rfl (fun hdone => hdone) (fun hflag => hflag) rfl
  | probeAgain =>
    exact h.around_of_frames rfl rfl rfl rfl le_rfl (fun hdone => hdone)
      (fun hflag => absurd hflag Bool.false_ne_true) rfl
  | markRpcV1Supported generation =>
    exact h.around_of_frames rfl rfl rfl rfl le_rfl (fun hdone => hdone) (fun hflag => hflag) rfl
  | deliver n resp =>
    show Sound (c.state.deliver n resp)
    unfold State.deliver
    split
    · exact h.setChannels c.state.pending _
    · exact h
  | beginWrite n =>
    show Sound ((c.state.frames.get? n).elim c.state fun o =>
      { c.state with frames := c.state.frames.set n o.beginWrite.2 })
    cases hn : c.state.frames.get? n with
    | none => exact h
    | some o => exact h.beginWrite hn
  | begin runtimeIds maxTasks => exact h.begin hallowed runtimeIds maxTasks
  | advance =>
    show Sound (c.state.call.elim (Answer.nothing, c.state) fun call => c.state.advance call).2
    cases hc : c.state.call with
    | none => exact h
    | some call => exact h.advance hc
  | send queued | receive | timeout | contextDone | claimTasksAnswer result
  | claimTaskAnswer result => exact hcall

/-- A claim over HTTP: the frame of the call is not sent, and never will be, or the
server has refused the claim; and the delay has passed since every outcome that is
not known. -/
def State.justified (s : State τ) : Prop :=
  ((∀ o, s.frames.get? s.n = some o → o.sent = false ∧ o.canceled = true) ∨
    ∃ call resp, s.call = some call ∧ call.received = some resp ∧ resp.ok = false) ∧
  ∀ t ∈ s.ambiguous, t + wsClaimUncertainFallbackDelay ≤ s.clock

theorem giveUp_answer (s : State τ) (call : Call τ) : (s.giveUp call).1 = .nothing := by
  unfold State.giveUp
  dsimp only
  split
  · rfl
  · rfl

theorem receive_answer (unmarshal : String → Option (List τ)) (s : State τ) (call : Call τ)
    (resp : Response) : (s.receive unmarshal call resp).1 ≠ .httpClaim := by
  unfold State.receive
  dsimp only
  repeat' split
  all_goals
    intro h
    cases h

/-- Only a command that does not wait issues a claim over HTTP. -/
theorem stepCall_answer (unmarshal : String → Option (List τ)) (s : State τ) (call : Call τ)
    (action : Action τ) : (s.stepCall unmarshal call action).1 ≠ .httpClaim := by
  have hgiveUp : (s.giveUp call).1 ≠ .httpClaim := by
    rw [giveUp_answer]
    intro h
    cases h
  unfold State.stepCall
  split
  case h_2 =>
    split
    · exact receive_answer unmarshal s call _
    · exact hgiveUp
    · intro h
      cases h
  case h_3 =>
    split
    · exact hgiveUp
    · intro h
      cases h
  all_goals
    repeat' split
    all_goals
      intro h
      cases h

/-- Where a call issues a claim over HTTP. -/
theorem advance_httpClaim (h : (s.advance call).1 = .httpClaim) :
    s.ctxDone = false ∧ (call.pc = .claimTasks ∨ ∃ rest out, call.pc = .claimTask rest out) := by
  unfold State.advance at h
  cases hpc : call.pc <;> simp only [hpc] at h
  case claimTasks =>
    split at h
    · cases h
    · rename_i hctx
      exact ⟨Bool.eq_false_iff.mpr hctx, .inl rfl⟩
  case claimTask rest out =>
    cases rest with
    | nil => cases h
    | cons runtimeId rest =>
      dsimp only at h
      split at h
      · cases h
      · split at h
        · cases h
        · rename_i hctx
          exact ⟨Bool.eq_false_iff.mpr hctx, .inr ⟨_, _, rfl⟩⟩
  all_goals repeat' split at h
  all_goals cases h

theorem step_httpClaim (h : (step unmarshal s action).1 = .httpClaim) :
    ∃ call, s.call = some call ∧ s.ctxDone = false ∧
      (call.pc = .claimTasks ∨ ∃ rest out, call.pc = .claimTask rest out) := by
  have hcall : (s.call.elim (Answer.nothing, s) fun call =>
      s.stepCall unmarshal call action).1 ≠ .httpClaim := by
    cases s.call with
    | none =>
      intro h
      cases h
    | some call => exact stepCall_answer unmarshal s call action
  cases action with
  | advance =>
    cases hc : s.call with
    | none =>
      simp only [step, hc, Option.elim_none] at h
      cases h
    | some call =>
      simp only [step, hc, Option.elim_some] at h
      exact ⟨call, rfl, advance_httpClaim h⟩
  | send queued | receive | timeout | contextDone | claimTasksAnswer result
  | claimTaskAnswer result => exact absurd h hcall
  | setClock now | cancelContext | attach sendFrame | probeAgain
  | markRpcV1Supported generation | deliver n resp | beginWrite n
  | begin runtimeIds maxTasks => cases h

theorem Sound.justified (h : Sound s) (hclaim : (WsRpc.step unmarshal s action).1 = .httpClaim) :
    s.justified := by
  obtain ⟨call, hc, hctx, hpc⟩ := step_httpClaim hclaim
  have hstanding : s.fallbackAfter ≤ 0 ∧ (s.ctxDone = true ∨ s.clear call) := by
    have hold := h.call call hc
    rcases hpc with hpc | ⟨rest, out, hpc⟩
    · simpa only [State.callSound, hpc] using hold
    · simpa only [State.callSound, hpc] using hold
  have hwaiting : call.pc ≠ .storeFallbackAfter := by
    rcases hpc with hpc | ⟨rest, out, hpc⟩
    · exact not_storing_of_eq hpc rfl
    · exact not_storing_of_eq hpc rfl
  constructor
  · rcases hstanding.2 with hdone | hcanceled | ⟨resp, hreceived, hrefused⟩
    · rw [hctx] at hdone
      cases hdone
    · left
      intro o ho
      have hexclusive := h.exclusive s.n o ho
      refine ⟨?_, hcanceled o ho⟩
      cases hsent : o.sent with
      | false => rfl
      | true => exact absurd ⟨hsent, hcanceled o ho⟩ hexclusive
    · exact .inr ⟨call, resp, hc, hreceived, hrefused⟩
  · intro t ht
    rcases h.delayed t ht with hpassed | hdone | ⟨hset, _⟩ | ⟨_, call₀, hcall₀, hstoring⟩
    · exact hpassed
    · rw [hctx] at hdone
      cases hdone
    · exact absurd hstanding.1 (not_le.mpr hset)
    · rw [hc, some_inj] at hcall₀
      rw [← hcall₀] at hstoring
      exact absurd hstoring hwaiting

/-- In a run in which every success that a call takes can be decoded, no frame is
both sent and cancelled, and every claim over HTTP is justified. -/
theorem claims_once {unmarshal : String → Option (List τ)} {c : Run τ}
    (hc : Reach (WsRpc.step unmarshal)
      (fun d action => allowed d action ∧ decodes unmarshal d action) (start {}) c) :
    (∀ n o, c.state.frames.get? n = some o → ¬(o.sent = true ∧ o.canceled = true)) ∧
      ∀ action, (WsRpc.step unmarshal c.state action).1 = .httpClaim → c.state.justified := by
  have hsound : Sound c.state :=
    Reach.invariant (I := fun d : Run τ => Sound d.state)
      (fun _ _ hallowed hd => hd.step hallowed.1 hallowed.2) hc Sound.start
  exact ⟨hsound.exclusive, fun action hclaim => hsound.justified hclaim⟩

/-! ## Two runs -/

/-- A decoder of the two bodies below. -/
def unmarshalTasks (body : String) : Option (List Unit) := if body = "x" then none else some []

/-- A call goes out on a connection that supports the method. -/
def claimSent : List (Action Unit) :=
  [.attach true, .markRpcV1Supported 1, .begin ["r"] 1, .advance, .advance, .advance, .advance,
    .send true, .beginWrite 0]

/-- The connection is lost after the frame was sent, and the next call comes after
the delay. -/
def claimLost : List (Action Unit) :=
  claimSent ++ [Action.attach false, .receive, .advance, .setClock wsClaimUncertainFallbackDelay,
    .begin ["r"] 1, .advance, .advance, .advance]

/-- The claim over HTTP that follows is justified. -/
theorem claims_once_claimLost :
    (exec (step unmarshalTasks) (start {}) claimLost).state.justified := by
  have hclaim : (step unmarshalTasks (exec (step unmarshalTasks)
      (start {}) claimLost).state .advance).1 = .httpClaim := rfl
  refine (claims_once (reach_exec ?_)).2 .advance hclaim
  refine ⟨⟨trivial, trivial⟩, ⟨trivial, trivial⟩, ⟨rfl, trivial⟩, ⟨trivial, trivial⟩,
    ⟨trivial, trivial⟩, ⟨trivial, trivial⟩, ⟨trivial, trivial⟩, ⟨trivial, trivial⟩,
    ⟨trivial, trivial⟩, ⟨trivial, trivial⟩, ⟨trivial, ?_⟩, ⟨trivial, trivial⟩,
    ⟨(by decide : (0 : Int) ≤ wsClaimUncertainFallbackDelay), trivial⟩, ⟨rfl, trivial⟩,
    ⟨trivial, trivial⟩, ⟨trivial, trivial⟩, ⟨trivial, trivial⟩, trivial⟩
  -- the channel is closed
  intro call deadline resp _ _ hfull
  cases hfull

/-- The server has claimed, and its answer cannot be decoded. -/
def claimUnreadable : List (Action Unit) :=
  claimSent ++ [Action.deliver 0 ⟨200, "x", ""⟩, .receive]

/-- The call claims again over HTTP. -/
theorem claimUnreadable_claimed_again :
    ¬∀ (unmarshal : String → Option (List Unit)) (c : Run Unit),
      Reach (step unmarshal) allowed (start {}) c →
      (∀ n o, c.state.frames.get? n = some o → ¬(o.sent = true ∧ o.canceled = true)) ∧
        ∀ action, (step unmarshal c.state action).1 = .httpClaim → c.state.justified := by
  intro h
  have hallowed : AllAllowed (step unmarshalTasks) allowed (start {})
      claimUnreadable := by decide +kernel
  have hsent : (exec (step unmarshalTasks) (start {})
      claimUnreadable).state.frames.get? 0 = some ⟨true, false⟩ := by decide +kernel
  obtain ⟨hunsent | ⟨call, resp, hcall, hreceived, hrefused⟩, _⟩ :=
    (h unmarshalTasks _ (reach_exec hallowed)).2 .advance rfl
  · exact absurd (hunsent _ hsent).1 (by decide)
  · have hgot : (exec (step unmarshalTasks) (start {})
        claimUnreadable).state.call.bind Call.received = some ⟨200, "x", ""⟩ := by decide +kernel
    rw [hcall, Option.bind_some, hreceived, some_inj] at hgot
    rw [hgot] at hrefused
    cases hrefused

end ClawMessenger.Ports.WsRpc
