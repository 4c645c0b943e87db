import ClawMessenger.Ports.BridgeTaskManager
import ClawMessenger.Ports.Dedup

/-!
# Starting a prompt through the recovering bridge client

A plain message is claimed, its task is started and the claim is admitted; when
the start fails the claim is released, so that a redelivery may try again.
`RecoveringBridgeTask.startTask` itself asks once more after it has brought the
bridge back.  The request of a plain message has no request id, and the bridge
makes a task for every such request that reaches it.

Whether the bridge made a task is not what the client sees of a request: the
answer may be lost, late or unreadable.  Each of these counts as not started
(`started_twice`).  As long as the client sees the task of every request that
the bridge accepted, and a claim is not older than its day when the message
comes again, a message starts at most one task (`prompt_starts_once`).
-/

namespace ClawMessenger.Ports.RecoveringTask

open Verified Verified.Machine Verified.JsString List
open Bridge (GoString Manager Deps BridgeTaskRequest)
open Dedup

/-! ## The client -/

inductive BridgeClientErrorCode where
  | invalidBaseUrl
  | invalidRequest
  | requestAborted
  | requestTimeout
  | transportError
  | responseTooLarge
  | responseInvalid
  | responseOriginMismatch
  | redirectRejected
  | remoteError
  | sseProtocolError
deriving DecidableEq, Repr

structure BridgeClientError where
  code : BridgeClientErrorCode
  status : Option Nat := none
  retryable : Bool := false
deriving DecidableEq, Repr

/-- What a request throws: an error of the client's own, or one of `fetch`. -/
inductive Failure where
  | client (error : BridgeClientError)
  | other

def normalizeError (timedOut aborted : Bool) : Failure → BridgeClientError
  | .client error => if timedOut then { code := .requestTimeout, retryable := true } else error
  | .other =>
    if timedOut then { code := .requestTimeout, retryable := true }
    else if aborted then { code := .requestAborted }
    else { code := .transportError, retryable := true }

/-- What becomes of one start request. -/
inductive Exchange where
  /-- There is no client: `resolveTask` throws. -/
  | unavailable
  /-- The client gets the answer with the task. -/
  | created (taskId : GoString)
  /-- The client fails; `accepted` is the task the bridge has made all the same. -/
  | failed (accepted : Option GoString) (timedOut aborted : Bool) (failure : Failure)

/-- The task the bridge makes. -/
def Exchange.accepted? : Exchange → Option GoString
  | .unavailable => none
  | .created taskId => some taskId
  | .failed accepted _ _ _ => accepted

/-- `BridgeClient.startTask`; `none` is an error that is not the client's. -/
def Exchange.answer : Exchange → Except (Option BridgeClientError) GoString
  | .unavailable => .error none
  | .created taskId => .ok taskId
  | .failed _ timedOut aborted failure => .error (some (normalizeError timedOut aborted failure))

/-! ## A delivery of the message -/

inductive DeliveryPc where
  | received
  /-- The claim is held, the start comes next. -/
  | claimed
  /-- In the first request of `startTask`. -/
  | requesting
  /-- In `#recover`. -/
  | recovering (error : BridgeClientError)
  /-- In the second request. -/
  | retrying
  /-- `startTask` has thrown, releasing the claim is next. -/
  | failed
  /-- `startTask` has answered, admitting the claim is next. -/
  | started
  | settled
deriving DecidableEq, Repr

structure Delivery where
  claimId : JsString
  pc : DeliveryPc

/-- Where `startTask` goes on after its first request has failed. -/
def afterFailure : Option BridgeClientError → DeliveryPc
  | none => .failed
  | some error =>
    if error.code = .transportError then .recovering error
    else if error.code = .requestTimeout then .recovering error
    else if error.code = .remoteError ∧ (error.status = some 409 ∨ error.status = some 404) then
      .recovering error
    else .failed

/-- Where `startTask` goes on after `#recover`: `none` when that has thrown,
else what `refreshRuntime` has answered. -/
def afterRecovery (error : BridgeClientError) : Option Bool → DeliveryPc
  | none => .failed
  | some ready =>
    if error.code = .transportError then .retrying
    else if error.code = .requestTimeout then .failed
    else if ready then .retrying
    else .failed

/-- The message, and the request that it makes of the bridge. -/
structure Prompt where
  runtimeId : JsString
  messageUid : JsString
  request : BridgeTaskRequest
  /-- A plain message gives its request no id. -/
  plain : request.requestId = []

def Prompt.key (prompt : Prompt) : JsString := dedupKey prompt.runtimeId prompt.messageUid

structure State where
  entries : List DedupEntry := []
  bridge : Manager
  deliveries : OrderedMap Nat Delivery := ∅
  nextDelivery : Nat := 0
  /-- How many tasks the bridge has made for the message; nothing reads it. -/
  accepted : Nat := 0

def State.setPc (s : State) (d : Nat) (delivery : Delivery) (pc : DeliveryPc) : State :=
  { s with deliveries := s.deliveries.set d { delivery with pc := pc } }

/-- The bridge's side of a request: the last section of `Start`, if it comes to that. -/
def State.accept (s : State) (deps : Deps) (prompt : Prompt) : Option GoString → State
  | none => s
  | some taskId =>
    let bridge := s.bridge.startCommit deps s.bridge.nextStart ⟨prompt.request, .prepared⟩ taskId
    { s with
      bridge := bridge
      accepted := s.accepted + (bridge.nextTask - s.bridge.nextTask) }

/-- `claimMessage`; `written` is whether the store could save. -/
def State.claim (s : State) (prompt : Prompt) (d : Nat) (delivery : Delivery) (now : Nat)
    (written : Bool) : State :=
  match claimDedup s.entries prompt.runtimeId prompt.messageUid delivery.claimId now with
  | some (.claimed _ _ entries) =>
    if written then { s.setPc d delivery .claimed with entries := entries }
    else s.setPc d delivery .settled
  | some (.duplicate _ entries) =>
    { s.setPc d delivery .settled with entries := if written then entries else s.entries }
  | some (.capacity _ entries) =>
    { s.setPc d delivery .settled with entries := if written then entries else s.entries }
  | none => s.setPc d delivery .settled

inductive Action where
  /-- The message is delivered, again or for the first time. -/
  | deliver (claimId : JsString)
  | claim (d now : Nat) (written : Bool)
  /-- What `#runPlain` does before it starts the task. -/
  | prepare (d : Nat) (ok : Bool)
  | exchange (d : Nat) (exchange : Exchange)
  | recover (d : Nat) (outcome : Option Bool)
  | release (d : Nat) (written : Bool)
  | admission (d now : Nat) (written : Bool)
  /-- Claims of other messages come and go. -/
  | others (entries : List DedupEntry)
  | prune (now : Nat)
  | restartBridge
  /-- The process ends; what is saved stays. -/
  | crash

def stepDelivery (deps : Deps) (prompt : Prompt) (s : State) (d : Nat) (delivery : Delivery) :
    Action → State
  | .claim _ now written =>
    match delivery.pc with
    | .received => s.claim prompt d delivery now written
    | _ => s
  | .prepare _ ok =>
    match delivery.pc with
    | .claimed => s.setPc d delivery (if ok then .requesting else .failed)
    | _ => s
  | .exchange _ exchange =>
    match delivery.pc with
    | .requesting =>
      (s.accept deps prompt exchange.accepted?).setPc d delivery (match exchange.answer with
        | .ok _ => .started
        | .error error => afterFailure error)
    | .retrying =>
      (s.accept deps prompt exchange.accepted?).setPc d delivery (match exchange.answer with
        | .ok _ => .started
        | .error _ => .failed)
    | _ => s
  | .recover _ outcome =>
    match delivery.pc with
    | .recovering error => s.setPc d delivery (afterRecovery error outcome)
    | _ => s
  | .release _ written =>
    match delivery.pc with
    | .failed =>
      { s.setPc d delivery .settled with
        entries :=
          if written then (releaseDedup s.entries prompt.key delivery.claimId).entries
          else s.entries }
    | _ => s
  | .admission _ now written =>
    match delivery.pc with
    | .started =>
      { s.setPc d delivery .settled with
        entries :=
          if written then (admitDedup s.entries prompt.key delivery.claimId now).entries
          else s.entries }
    | _ => s
  | _ => s

def Action.delivery? : Action → Option Nat
  | .claim d _ _ => some d
  | .prepare d _ => some d
  | .exchange d _ => some d
  | .recover d _ => some d
  | .release d _ => some d
  | .admission d _ _ => some d
  | _ => none

def stepOther (s : State) : Action → State
  | .deliver claimId =>
    { s with
      deliveries := s.deliveries.set s.nextDelivery ⟨claimId, .received⟩
      nextDelivery := s.nextDelivery + 1 }
  | .others entries => { s with entries := entries }
  | .prune now => { s with entries := pruneDedup s.entries now }
  | .restartBridge => { s with bridge := { clock := s.bridge.clock } }
  | .crash => { s with deliveries := ∅ }
  | _ => s

def step (deps : Deps) (prompt : Prompt) (s : State) (action : Action) : Unit × State :=
  match action.delivery? with
  | some d => ((), ((s.deliveries.get? d).map fun delivery =>
    stepDelivery deps prompt s d delivery action).getD s)
  | none => ((), stepOther s action)

abbrev Run := Config State Action Unit

def start (now : Int) : Run := Machine.start { bridge := { clock := now } }

/-! ## Conditions on a run -/

def ours (prompt : Prompt) (entry : DedupEntry) : Bool := entry.key == prompt.key

/-- A claim of the message is not older than its day. -/
def Fresh (prompt : Prompt) (entries : List DedupEntry) (now : Nat) : Prop :=
  ∀ entry ∈ entries, ours prompt entry = true → isLive now entry = true

/-- Other messages leave this one's claim alone. -/
def separate (prompt : Prompt) (run : Run) : Action → Prop
  | .others entries => entries.filter (ours prompt) = run.state.entries.filter (ours prompt)
  | _ => True

/-- The client sees the task of every request the bridge accepts, and a claim
of the message is not older than its day when claims are forgotten. -/
def unambiguous (prompt : Prompt) (run : Run) : Action → Prop
  | .others entries => entries.filter (ours prompt) = run.state.entries.filter (ours prompt)
  | .exchange _ (.failed accepted _ _ _) => accepted = none
  | .claim _ now _ => Fresh prompt run.state.entries now
  | .prune now => Fresh prompt run.state.entries now
  | _ => True

/-! ## The claim -/

/-- The table has a claim of the message. -/
def Claimed (prompt : Prompt) (entries : List DedupEntry) : Prop :=
  ∃ entry ∈ entries, ours prompt entry = true

variable {entries : List DedupEntry} {now d : Nat} {prompt : Prompt} {pc : DeliveryPc}
  {delivery : Delivery} {s : State}

theorem Claimed.prune (h : Claimed prompt entries)
    (hfresh : Fresh prompt entries now) : Claimed prompt (pruneDedup entries now) := by
  obtain ⟨entry, hmem, hours⟩ := h
  exact ⟨entry, mem_filter.mpr ⟨hmem, hfresh entry hmem hours⟩, hours⟩

variable {entries' : List DedupEntry}

theorem Claimed.others (h : Claimed prompt entries)
    (hsame : entries'.filter (ours prompt) = entries.filter (ours prompt)) :
    Claimed prompt entries' := by
  obtain ⟨entry, hmem, hours⟩ := h
  have hfiltered : entry ∈ entries.filter (ours prompt) := mem_filter.mpr ⟨hmem, hours⟩
  rw [← hsame] at hfiltered
  exact ⟨entry, (mem_filter.mp hfiltered).1, hours⟩

/-- What is claimed shows in the keys alone. -/
theorem claimed_iff :
    Claimed prompt entries ↔ prompt.key ∈ entries.map DedupEntry.key := by
  rw [mem_map]
  constructor
  · rintro ⟨entry, hmem, hours⟩
    exact ⟨entry, hmem, eq_of_beq hours⟩
  · rintro ⟨entry, hmem, hkey⟩
    exact ⟨entry, hmem, beq_iff_eq.mpr hkey⟩

theorem admitDedup_keys (entries : List DedupEntry) (key claimId : JsString) (now : Nat) :
    (admitDedup entries key claimId now).entries.map DedupEntry.key =
      entries.map DedupEntry.key := by
  unfold admitDedup
  split
  · rfl
  · split
    · rfl
    · split
      · rfl
      · exact map_updateFirst entries fun _ _ => rfl

/-- What a claim that is granted found and leaves behind. -/
theorem claimDedup_claimed {claimId key id : JsString}
    (h : claimDedup entries prompt.runtimeId prompt.messageUid claimId now = some (.claimed key id entries')) :
    ¬Claimed prompt (pruneDedup entries now) ∧ Claimed prompt entries' := by
  unfold claimDedup at h
  dsimp only at h
  split at h
  · exact absurd h (by simp)
  · split at h
    · exact absurd h (by simp)
    · rename_i hnone
      split at h
      · exact absurd h (by simp)
      · injection h with h
        injection h with _ _ hentries
        constructor
        · rintro ⟨entry, hmem, hours⟩
          exact hnone (any_eq_true.mpr ⟨entry, hmem, hours⟩)
        · rw [← hentries]
          refine ⟨_, mem_append_right _ mem_cons_self, ?_⟩
          exact beq_self_eq_true _

theorem claimDedup_entries {claimId : JsString} :
    (∀ key entries', claimDedup entries prompt.runtimeId prompt.messageUid claimId now =
      some (.duplicate key entries') → entries' = pruneDedup entries now) ∧
    ∀ key entries', claimDedup entries prompt.runtimeId prompt.messageUid claimId now =
      some (.capacity key entries') → entries' = pruneDedup entries now := by
  unfold claimDedup
  dsimp only
  constructor
  · intro key entries' h
    split at h
    · exact absurd h (by simp)
    · split at h
      · injection h with h
        injection h with _ hentries
        exact hentries.symm
      · split at h <;> exact absurd h (by simp)
  · intro key entries' h
    split at h
    · exact absurd h (by simp)
    · split at h
      · exact absurd h (by simp)
      · split at h
        · injection h with h
          injection h with _ hentries
          exact hentries.symm
        · exact absurd h (by simp)

/-! ## The invariant -/

/-- The delivery may still make a request or let go of its claim. -/
def DeliveryPc.unsettled : DeliveryPc → Bool
  | .claimed => true
  | .requesting => true
  | .recovering _ => true
  | .retrying => true
  | .failed => true
  | _ => false

/-- The delivery holds the claim. -/
def DeliveryPc.holds (pc : DeliveryPc) : Bool := pc.unsettled || pc == .started

structure Once (prompt : Prompt) (s : State) : Prop where
  single : ∀ d d' delivery delivery', s.deliveries.get? d = some delivery →
    s.deliveries.get? d' = some delivery' → delivery.pc.holds = true → delivery'.pc.holds = true →
    d = d'
  claimed : ∀ d delivery, s.deliveries.get? d = some delivery → delivery.pc.holds = true →
    Claimed prompt s.entries
  accepted : s.accepted ≤ 1
  settled : 0 < s.accepted → Claimed prompt s.entries ∧
    ∀ d delivery, s.deliveries.get? d = some delivery → delivery.pc.unsettled = false

theorem holds_of_unsettled (h : pc.unsettled = true) : pc.holds = true := by
  rw [DeliveryPc.holds, h, Bool.true_or]

theorem get?_setPc {k : Nat} {other : Delivery}
    (h : (s.setPc d delivery pc).deliveries.get? k = some other) :
    (k = d ∧ other.pc = pc) ∨ (k ≠ d ∧ s.deliveries.get? k = some other) := by
  rw [State.setPc, OrderedMap.get?_set] at h
  split at h
  · rw [← Option.some.inj h]
    exact .inl ⟨‹_›, rfl⟩
  · exact .inr ⟨‹_›, h⟩

/-- Nobody comes to hold the claim. -/
theorem Once.shrink {s' : State} (h : Once prompt s) (hentries : s'.entries = s.entries)
    (haccepted : s'.accepted = s.accepted)
    (hsub : ∀ k other, s'.deliveries.get? k = some other → other.pc.holds = true →
      ∃ old, s.deliveries.get? k = some old ∧ old.pc.holds = true ∧
        (other.pc.unsettled = true → old.pc.unsettled = true)) :
    Once prompt s' := by
  refine ⟨?_, ?_, ?_, ?_⟩
  · intro k k' other other' hk hk' hother hother'
    obtain ⟨old, hold, hholds, _⟩ := hsub k other hk hother
    obtain ⟨old', hold', hholds', _⟩ := hsub k' other' hk' hother'
    exact h.single k k' old old' hold hold' hholds hholds'
  · intro k other hk hother
    obtain ⟨old, hold, hholds, _⟩ := hsub k other hk hother
    rw [hentries]
    exact h.claimed k old hold hholds
  · rw [haccepted]
    exact h.accepted
  · intro hpos
    rw [haccepted] at hpos
    rw [hentries]
    obtain ⟨hclaimed, hsettled⟩ := h.settled hpos
    refine ⟨hclaimed, ?_⟩
    intro k other hk
    rw [Bool.eq_false_iff]
    intro hother
    obtain ⟨old, hold, _, hopen⟩ := hsub k other hk (holds_of_unsettled hother)
    have hclosed := hsettled k old hold
    rw [hopen hother] at hclosed
    exact absurd hclosed (by simp)

/-- A delivery that holds the claim goes on and keeps it, or lets go of it. -/
theorem Once.goOn (h : Once prompt s) (hd : s.deliveries.get? d = some delivery)
    (hholds : pc.holds = true → delivery.pc.holds = true)
    (hunsettled : pc.unsettled = true → delivery.pc.unsettled = true) :
    Once prompt (s.setPc d delivery pc) := by
  refine Once.shrink h rfl rfl ?_
  intro k other hk hother
  rcases get?_setPc hk with ⟨heq, hpc⟩ | ⟨_, hk⟩
  · rw [hpc] at hother ⊢
    rw [heq]
    exact ⟨delivery, hd, hholds hother, hunsettled⟩
  · exact ⟨other, hk, hother, fun hopen => hopen⟩

/-- The table changes and keeps the claim, if there is one. -/
theorem Once.table (h : Once prompt s) (hkept : Claimed prompt s.entries → Claimed prompt entries) :
    Once prompt { s with entries := entries } := by
  refine ⟨h.single, ?_, h.accepted, ?_⟩
  · intro d delivery hd hholds
    exact hkept (h.claimed d delivery hd hholds)
  · intro hpos
    exact ⟨hkept (h.settled hpos).1, (h.settled hpos).2⟩

theorem Once.unaccepted (h : Once prompt s) (hd : s.deliveries.get? d = some delivery)
    (hopen : delivery.pc.unsettled = true) : s.accepted = 0 := by
  by_contra hne
  have hclosed := (h.settled (Nat.pos_of_ne_zero hne)).2 d delivery hd
  rw [hopen] at hclosed
  exact absurd hclosed (by simp)

/-- The message is claimed when nothing of it is claimed or accepted. -/
theorem Once.grant (h : Once prompt s) (hfree : ¬Claimed prompt s.entries)
    (hclaimed : Claimed prompt entries) :
    Once prompt { s.setPc d delivery .claimed with entries := entries } := by
  have hnone : ∀ k other, s.deliveries.get? k = some other → other.pc.holds ≠ true := by
    intro k other hk hholds
    exact hfree (h.claimed k other hk hholds)
  have hmine : ∀ k other, (s.setPc d delivery .claimed).deliveries.get? k = some other →
      other.pc.holds = true → k = d := by
    intro k other hk hholds
    rcases get?_setPc hk with ⟨heq, _⟩ | ⟨_, hk⟩
    · exact heq
    · exact absurd hholds (hnone k other hk)
  refine ⟨?_, ?_, h.accepted, ?_⟩
  · intro k k' other other' hk hk' hother hother'
    rw [hmine k other hk hother, hmine k' other' hk' hother']
  · intro _ _ _ _
    exact hclaimed
  · intro hpos
    exact absurd (h.settled hpos).1 hfree

theorem accept_accepted (s : State) (deps : Deps) (prompt : Prompt) (accepted : Option GoString) :
    (s.accept deps prompt accepted).accepted =
      s.accepted + (accepted.elim 0 fun _ => 1) := by
  cases accepted with
  | none => rfl
  | some taskId =>
    have hgrow : (s.bridge.startCommit deps s.bridge.nextStart ⟨prompt.request, .prepared⟩
        taskId).nextTask = s.bridge.nextTask + 1 := by
      rw [Manager.startCommit, if_pos prompt.plain]
      rfl
    show s.accepted + (_ - s.bridge.nextTask) = s.accepted + 1
    rw [hgrow, Nat.add_sub_cancel_left]

theorem accept_same (s : State) (deps : Deps) (prompt : Prompt) (accepted : Option GoString) :
    (s.accept deps prompt accepted).entries = s.entries ∧
      (s.accept deps prompt accepted).deliveries = s.deliveries := by
  cases accepted <;> exact ⟨rfl, rfl⟩

/-- A request that the bridge accepts is the last one. -/
theorem Once.exchange (h : Once prompt s) (deps : Deps) {accepted : Option GoString}
    (hd : s.deliveries.get? d = some delivery) (hopen : delivery.pc.unsettled = true)
    (hpc : accepted.isSome = true → pc.unsettled = false) :
    Once prompt ((s.accept deps prompt accepted).setPc d delivery pc) := by
  obtain ⟨hentries, hdeliveries⟩ := accept_same s deps prompt accepted
  have hzero := h.unaccepted hd hopen
  have hgo : Once prompt (s.setPc d delivery pc) :=
    h.goOn hd (fun _ => holds_of_unsettled hopen) (fun _ => hopen)
  have hcount := accept_accepted s deps prompt accepted
  have hsame : ((s.accept deps prompt accepted).setPc d delivery pc).deliveries =
      (s.setPc d delivery pc).deliveries := by
    rw [State.setPc, State.setPc, hdeliveries]
  refine ⟨?_, ?_, ?_, ?_⟩
  · rw [hsame]
    exact hgo.single
  · rw [hsame]
    intro k other hk hother
    show Claimed prompt (s.accept deps prompt accepted).entries
    rw [hentries]
    exact hgo.claimed k other hk hother
  · show (s.accept deps prompt accepted).accepted ≤ 1
    rw [hcount, hzero]
    cases accepted with
    | none => exact Nat.zero_le 1
    | some taskId => exact Nat.le_refl 1
  · intro hpos
    have hsome : accepted.isSome = true := by
      cases accepted with
      | some taskId => rfl
      | none =>
        have hpos' : 0 < s.accepted := hpos
        omega
    constructor
    · show Claimed prompt (s.accept deps prompt accepted).entries
      rw [hentries]
      exact h.claimed d delivery hd (holds_of_unsettled hopen)
    · rw [hsame]
      intro k other hk
      rcases get?_setPc hk with ⟨_, hother⟩ | ⟨hne, hk⟩
      · rw [hother]
        exact hpc hsome
      · rw [Bool.eq_false_iff]
        intro hother
        exact hne (h.single k d other delivery hk hd (holds_of_unsettled hother)
          (holds_of_unsettled hopen))

/-- Only a delivery whose start has failed lets go of the claim. -/
theorem Once.release (h : Once prompt s) (hd : s.deliveries.get? d = some delivery)
    (hpc : delivery.pc = .failed) (entries : List DedupEntry) :
    Once prompt { s.setPc d delivery .settled with entries := entries } := by
  have hopen : delivery.pc.unsettled = true := by rw [hpc]; rfl
  have hnone : ∀ k other, (s.setPc d delivery .settled).deliveries.get? k = some other →
      other.pc.holds ≠ true := by
    intro k other hk hother
    rcases get?_setPc hk with ⟨_, hsettled⟩ | ⟨hne, hk⟩
    · rw [hsettled] at hother
      exact absurd hother (by decide)
    · exact hne (h.single k d other delivery hk hd hother (holds_of_unsettled hopen))
  refine ⟨?_, ?_, h.accepted, ?_⟩
  · intro k k' other other' hk _ hother
    exact absurd hother (hnone k other hk)
  · intro k other hk hother
    exact absurd hother (hnone k other hk)
  · intro hpos
    have hzero : s.accepted = 0 := h.unaccepted hd hopen
    have hpos' : 0 < s.accepted := hpos
    omega

theorem Once.claim (h : Once prompt s) (hd : s.deliveries.get? d = some delivery) (written : Bool)
    (hfresh : Fresh prompt s.entries now) : Once prompt (s.claim prompt d delivery now written) := by
  have hidle : Once prompt (s.setPc d delivery .settled) :=
    h.goOn hd (fun hholds => absurd hholds (by decide)) (fun hopen => absurd hopen (by decide))
  have hpruned : ∀ entries', entries' = pruneDedup s.entries now →
      Once prompt { s.setPc d delivery .settled with
        entries := if written then entries' else s.entries } := by
    intro entries' hentries
    apply hidle.table
    intro hclaimed
    split
    · rw [hentries]
      exact hclaimed.prune hfresh
    · exact hclaimed
  unfold State.claim
  split
  · rename_i key id entries' hclaim
    obtain ⟨hfree, hclaimed⟩ := claimDedup_claimed hclaim
    split
    · exact h.grant (fun hheld => hfree (hheld.prune hfresh)) hclaimed
    · exact hidle
  · rename_i key entries' hclaim
    exact hpruned entries' (claimDedup_entries.1 key entries' hclaim)
  · rename_i key entries' hclaim
    exact hpruned entries' (claimDedup_entries.2 key entries' hclaim)
  · exact hidle

/-- A request that is answered with its task leaves the delivery started. -/
theorem answer_of_accepted {exchange : Exchange}
    (hseen : ∀ accepted timedOut aborted failure,
      exchange = .failed accepted timedOut aborted failure → accepted = none)
    (haccepted : exchange.accepted?.isSome = true) : ∃ taskId, exchange.answer = .ok taskId := by
  cases exchange with
  | unavailable => exact absurd haccepted (by decide)
  | created taskId => exact ⟨taskId, rfl⟩
  | failed accepted timedOut aborted failure =>
    have hnone : accepted = none := hseen accepted timedOut aborted failure rfl
    rw [Exchange.accepted?, hnone] at haccepted
    exact absurd haccepted (by decide)

variable {action : Action} {run : Run}

theorem Once.stepDelivery (h : Once prompt s) (deps : Deps) (hrun : run.state = s)
    (hd : s.deliveries.get? d = some delivery) (hallowed : unambiguous prompt run action) :
    Once prompt (stepDelivery deps prompt s d delivery action) := by
  cases action with
  | claim _ now written =>
    unfold stepDelivery
    dsimp only
    split
    · have hfresh : Fresh prompt s.entries now := by
        rw [← hrun]
        exact hallowed
      exact h.claim hd written hfresh
    · exact h
  | prepare _ ok =>
    unfold stepDelivery
    dsimp only
    split
    · rename_i hpc
      have hopen : delivery.pc.unsettled = true := by rw [hpc]; rfl
      exact h.goOn hd (fun _ => holds_of_unsettled hopen) (fun _ => hopen)
    · exact h
  | exchange _ exchange =>
    have hanswer : exchange.accepted?.isSome = true → ∃ taskId, exchange.answer = .ok taskId := by
      apply answer_of_accepted
      intro accepted timedOut aborted failure heq
      rw [heq] at hallowed
      exact hallowed
    unfold stepDelivery
    dsimp only
    split
    · rename_i hpc
      apply h.exchange deps hd (by rw [hpc]; rfl)
      intro haccepted
      obtain ⟨taskId, htask⟩ := hanswer haccepted
      rw [htask]
      rfl
    · rename_i hpc
      apply h.exchange deps hd (by rw [hpc]; rfl)
      intro haccepted
      obtain ⟨taskId, htask⟩ := hanswer haccepted
      rw [htask]
      rfl
    · exact h
  | recover _ outcome =>
    unfold stepDelivery
    dsimp only
    split
    · rename_i error hpc
      have hopen : delivery.pc.unsettled = true := by rw [hpc]; rfl
      exact h.goOn hd (fun _ => holds_of_unsettled hopen) (fun _ => hopen)
    · exact h
  | release _ written =>
    unfold stepDelivery
    dsimp only
    split
    · rename_i hpc
      exact h.release hd hpc _
    · exact h
  | admission _ now written =>
    unfold stepDelivery
    dsimp only
    split
    · have hidle : Once prompt (s.setPc d delivery .settled) :=
        h.goOn hd (fun hholds => absurd hholds (by decide))
          (fun hopen => absurd hopen (by decide))
      apply hidle.table
      intro hclaimed
      split
      · rw [claimed_iff, admitDedup_keys, ← claimed_iff]
        exact hclaimed
      · exact hclaimed
    · exact h
  | deliver claimId | others entries | prune now | restartBridge | crash => exact h

theorem Once.stepOther (h : Once prompt s) (hrun : run.state = s)
    (hallowed : unambiguous prompt run action) :
    Once prompt (stepOther s action) := by
  cases action with
  | deliver claimId =>
    refine Once.shrink h rfl rfl ?_
    intro k other hk hother
    have hset : (s.deliveries.set s.nextDelivery ⟨claimId, .received⟩).get? k = some other := hk
    rw [OrderedMap.get?_set] at hset
    split at hset
    · rw [← Option.some.inj hset] at hother
      exact absurd hother Bool.false_ne_true
    · exact ⟨other, hset, hother, fun hopen => hopen⟩
  | others entries =>
    apply h.table
    intro hclaimed
    apply hclaimed.others
    rw [← hrun]
    exact hallowed
  | prune now =>
    apply h.table
    intro hclaimed
    apply hclaimed.prune
    rw [← hrun]
    exact hallowed
  | restartBridge => exact ⟨h.single, h.claimed, h.accepted, h.settled⟩
  | crash =>
    refine Once.shrink h rfl rfl ?_
    intro k other hk
    have hempty : (∅ : OrderedMap Nat Delivery).get? k = some other := hk
    rw [OrderedMap.get?_empty] at hempty
    exact absurd hempty (by simp)
  | claim d now written | prepare d ok | exchange d exchange | recover d outcome
  | release d written | admission d now written => exact h

theorem Once.step {deps : Deps} (h : Once prompt run.state)
    (hallowed : unambiguous prompt run action) :
    Once prompt (step deps prompt run.state action).2 := by
  unfold RecoveringTask.step
  split
  · rename_i d hd
    cases hdelivery : run.state.deliveries.get? d with
    | none => exact h
    | some delivery => exact h.stepDelivery deps rfl hdelivery hallowed
  · exact h.stepOther rfl hallowed

theorem once_start (prompt : Prompt) (now : Int) : Once prompt (start now).state := by
  have hnone : ∀ d delivery, (start now).state.deliveries.get? d = some delivery → False := by
    intro d delivery hd
    have hempty : (∅ : OrderedMap Nat Delivery).get? d = some delivery := hd
    rw [OrderedMap.get?_empty] at hempty
    exact absurd hempty (by simp)
  refine ⟨?_, ?_, Nat.zero_le 1, ?_⟩
  · intro d d' delivery delivery' hd
    exact (hnone d delivery hd).elim
  · intro d delivery hd
    exact (hnone d delivery hd).elim
  · intro hpos
    exact absurd hpos (Nat.lt_irrefl 0)

/-- As long as the client sees the task of every request that the bridge
accepts, and no claim of the message is forgotten, the message starts once. -/
theorem prompt_starts_once (deps : Deps) (prompt : Prompt) (now : Int) (run : Run)
    (hreach : Reach (step deps prompt) (unambiguous prompt) (start now) run) :
    run.state.accepted ≤ 1 := by
  have hinv : Once prompt run.state := by
    apply Reach.invariant (I := fun c => Once prompt c.state) _ hreach
    · exact once_start prompt now
    · intro c action hallowed h
      exact h.step hallowed
  exact hinv.accepted

/-! ## Two runs -/

def samplePrompt : Prompt where
  runtimeId := js "rt_0123456789abcdef0123456789abcdef"
  messageUid := js "message-1"
  request := { Bridge.exampleRequest with requestId := [] }
  plain := rfl

def sampleClaim : JsString := js "0123456789abcdef0123456789abcdef"

/-- The first request is refused, the second one is answered; the message comes
again and is a duplicate. -/
def refusedOnce : List Action :=
  [.deliver sampleClaim, .claim 0 1000 true, .prepare 0 true,
    .exchange 0 (.failed none false false .other), .recover 0 (some true),
    .exchange 0 (.created (Bridge.go "task_1")), .admission 0 1010 true,
    .deliver sampleClaim, .claim 1 2000 true]

theorem refusedOnce_allowed :
    AllAllowed (step Bridge.exampleDeps samplePrompt) (unambiguous samplePrompt) (start 0)
      refusedOnce := by
  refine ⟨trivial, ?_, trivial, rfl, trivial, trivial, trivial, trivial, ?_, trivial⟩
  · exact fun _ hmem => absurd hmem not_mem_nil
  · unfold unambiguous Fresh
    decide +kernel

theorem prompt_starts_once_refusedOnce :
    (exec (step Bridge.exampleDeps samplePrompt) (start 0) refusedOnce).state.accepted ≤ 1 :=
  prompt_starts_once Bridge.exampleDeps samplePrompt 0 _ (reach_exec refusedOnce_allowed)

/-- The bridge accepts the first request and its answer is lost. -/
def answerLost : List Action :=
  [.deliver sampleClaim, .claim 0 1000 true, .prepare 0 true,
    .exchange 0 (.failed (some (Bridge.go "task_1")) false false .other), .recover 0 (some true),
    .exchange 0 (.created (Bridge.go "task_2"))]

theorem started_twice :
    ¬∀ (deps : Deps) (prompt : Prompt) (now : Int) (run : Run),
      Reach (step deps prompt) (separate prompt) (start now) run →
        run.state.accepted ≤ 1 := by
  intro h
  have hallowed : AllAllowed (step Bridge.exampleDeps samplePrompt)
      (separate samplePrompt) (start 0) answerLost :=
    ⟨trivial, trivial, trivial, trivial, trivial, trivial, trivial⟩
  have hrun := h Bridge.exampleDeps samplePrompt 0 _ (reach_exec hallowed)
  have htwo : (exec (step Bridge.exampleDeps samplePrompt) (start 0)
      answerLost).state.accepted = 2 := by decide +kernel
  omega

end ClawMessenger.Ports.RecoveringTask
