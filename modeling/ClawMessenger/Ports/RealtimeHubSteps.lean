import ClawMessenger.Ports.RealtimeHub

/-!
# What one step of the hub can do

Every invariant of the hub is kept by the same steps.  `Stepped` lists them
once, with what the guards of the code have established; the elimination rules
do the same for the operations that the steps are made of.
-/

namespace ClawMessenger.Ports.RealtimeHub

open ClawMessenger.Verified RoomIndex

/-! ## The operations -/

/-- Owing callbacks changes what is pending only. -/
theorem owe_eq (s : State) (calls : List Callback) : (s.owe calls).2 = { s with
    pending := (s.owe calls).2.pending
    nextTicket := (s.owe calls).2.nextTicket } := by
  unfold State.owe
  by_cases hset : s.callbacks = true
  · rw [if_pos hset]
  · rw [if_neg hset]

/-- Making a callback changes what is pending and the relay. -/
theorem callBack_eq (s : State) (ticket : Nat) : s.callBack ticket = { s with
    pending := (s.callBack ticket).pending
    relay := (s.callBack ticket).relay } := by
  unfold State.callBack
  cases s.pending.get? ticket with
  | none | some callback => rfl

theorem callBack_objects (s : State) (ticket : Nat) : (s.callBack ticket).objects = s.objects := by
  rw [callBack_eq]

section Operations

variable {P : State → Prop} {s : State} {i : Nat} {c : Client} {key : ScopeKey}

theorem subscribe_elim (hsame : P s)
    (hjoined : ∀ c, i ∈ s.clients → s.objects.get? i = some c → key ∉ c.subscriptions →
      ∀ joined : State, joined =
        { s.putClient i { c with subscriptions := c.subscriptions ++ [key] } with
          rooms := (join s.rooms key i).2 } →
      ((join s.rooms key i).1 = true → P (joined.owe [.onFirstSubscriber key]).2) ∧
        ((join s.rooms key i).1 = false → P joined)) : P (subscribe s i key).2 := by
  unfold subscribe
  by_cases hempty : key.scopeType = "" ∨ key.id = ""
  · rw [if_pos hempty]
    exact hsame
  · rw [if_neg hempty]
    by_cases hin : i ∉ s.clients
    · rw [if_pos hin]
      exact hsame
    · rw [if_neg hin]
      cases hget : s.objects.get? i with
      | none => exact hsame
      | some c =>
        dsimp only
        by_cases hkey : key ∈ c.subscriptions
        · rw [if_pos hkey]
          exact hsame
        · rw [if_neg hkey]
          have hcases := hjoined c (not_not.mp hin) hget hkey _ rfl
          by_cases hfirst : (join s.rooms key i).1 = true
          · rw [if_pos hfirst]
            exact hcases.1 hfirst
          · rw [if_neg hfirst]
            exact hcases.2 (by simpa using hfirst)

theorem unsubscribe_elim (hsame : P s)
    (hleft : ∀ c, i ∈ s.clients → s.objects.get? i = some c →
      ∀ left : State, left =
        { s.putClient i
            { c with subscriptions := c.subscriptions.filter fun other => other ≠ key } with
          rooms := (leave s.rooms key i).2 } →
      ((leave s.rooms key i).1 = true → P (left.owe [.onLastSubscriber key]).2) ∧
        ((leave s.rooms key i).1 = false → P left)) : P (unsubscribe s i key).2 := by
  unfold unsubscribe
  by_cases hempty : key.scopeType = "" ∨ key.id = ""
  · rw [if_pos hempty]
    exact hsame
  · rw [if_neg hempty]
    by_cases hin : i ∉ s.clients
    · rw [if_pos hin]
      exact hsame
    · rw [if_neg hin]
      cases hget : s.objects.get? i with
      | none => exact hsame
      | some c =>
        dsimp only
        by_cases hkey : key ∉ c.subscriptions
        · rw [if_pos hkey]
          exact hsame
        · rw [if_neg hkey]
          have hcases := hleft c (not_not.mp hin) hget _ rfl
          by_cases hlast : (leave s.rooms key i).1 = true
          · rw [if_pos hlast]
            exact hcases.1 hlast
          · rw [if_neg hlast]
            exact hcases.2 (by simpa using hlast)

theorem handleFrame_elim {frame : Frame} (hsame : P s)
    (hsubscribe : ∀ key, P (subscribe s i key).2)
    (hunsubscribe : ∀ key, P (unsubscribe s i key).2) : P (handleFrame s i c frame).2 := by
  unfold handleFrame
  cases frame with
  | subscribe key authorized =>
    dsimp only
    by_cases hadmits : c.admits key authorized = true
    · rw [if_pos hadmits]
      exact hsubscribe key
    · rw [if_neg hadmits]
      exact hsame
  | unsubscribe key => exact hunsubscribe key
  | invalidPayload | ping | unknown => exact hsame

theorem sendJSON_elim (hclosed : c.closed = true → P { s with crashed := true })
    (hsent : P (s.putClient i { c with send := c.send ++ [Message.reply] })) (hsame : P s) :
    P (sendJSON s i c) := by
  unfold sendJSON
  by_cases hdone : c.closed = true
  · rw [if_pos hdone]
    exact hclosed hdone
  · rw [if_neg hdone]
    by_cases hroom : c.send.length < sendCapacity
    · rw [if_pos hroom]
      exact hsent
    · rw [if_neg hroom]
      exact hsame

variable {fanout : Nat} {f : Fanout} {left slow : List Nat}

theorem visit_elim (hsame : P s)
    (hexcluded : P (s.setPhase fanout f (.iterating (left.filter fun other => other ≠ i) slow)))
    (hmarked : ∀ c, i ∈ left → s.objects.get? i = some c →
      P ((s.putClient i (c.markSeen f.event.id).2).setPhase fanout f
        (if (c.markSeen f.event.id).1 then
          .sending i (left.filter fun other => other ≠ i) slow
        else .iterating (left.filter fun other => other ≠ i) slow))) :
    P (visit s fanout i f left slow) := by
  unfold visit
  by_cases hmem : i ∉ left
  · rw [if_pos hmem]
    exact hsame
  · rw [if_neg hmem]
    cases hget : s.objects.get? i with
    | none => exact hsame
    | some c =>
      dsimp only
      by_cases hout : c.excluded f.event = true
      · rw [if_pos hout]
        exact hexcluded
      · rw [if_neg hout]
        exact hmarked c (not_not.mp hmem) hget

theorem sendEvent_elim (hsame : P s)
    (hclosed : ∀ c, s.objects.get? i = some c → c.closed = true → P { s with crashed := true })
    (hsent : ∀ c, s.objects.get? i = some c →
      P ((s.putClient i { c with send := c.send ++ [Message.event f.event] }).setPhase fanout f
        (.iterating left slow)))
    (hfull : P (s.setPhase fanout f (.iterating left (slow ++ [i])))) :
    P (sendEvent s fanout i f left slow) := by
  unfold sendEvent
  cases hget : s.objects.get? i with
  | none => exact hsame
  | some c =>
    dsimp only
    by_cases hdone : c.closed = true
    · rw [if_pos hdone]
      exact hclosed c hget hdone
    · rw [if_neg hdone]
      by_cases hroom : c.send.length < sendCapacity
      · rw [if_pos hroom]
        exact hsent c hget
      · rw [if_neg hroom]
        exact hfull

/-- Marking an event changes the list of seen ids only. -/
theorem markSeen_frame (c : Client) (id : String) :
    (c.markSeen id).2 = { c with seenList := (c.markSeen id).2.seenList } := by
  unfold Client.markSeen
  by_cases hid : id = ""
  · rw [if_pos hid]
  · rw [if_neg hid]

end Operations

/-! ## The steps -/

/-- The callback that a step makes. -/
def State.calls (s : State) : Action → Option Nat
  | .run =>
    match s.run with
    | .subscribing _ _ (ticket :: _) => some ticket
    | .calling (ticket :: _) => some ticket
    | _ => none
  | .read i =>
    match s.objects.get? i with
    | some ⟨_, _, _, _, _, _, .answering (ticket :: _)⟩ => some ticket
    | _ => none
  | .fan fanout =>
    match s.fanouts.get? fanout with
    | some ⟨_, _, .calling (ticket :: _)⟩ => some ticket
    | _ => none
  | _ => none

inductive Stepped (s : State) : Action → State → Prop where
  | stay {action : Action} (hquiet : outputs s action = []) : Stepped s action s
  | connect (userID workspaceID : String) : Stepped s (.connect userID workspaceID)
      { s.putClient s.nextClient (newClient userID workspaceID) with
        nextClient := s.nextClient + 1
        run := .registering s.nextClient }
  | unregister {i : Nat} {c : Client} (hget : s.objects.get? i = some c) :
      Stepped s (.unregister i) { s.setReader i c .gone with run := .removing i }
  | broadcast : Stepped s .broadcast
      { s.fanOut (fanoutAllDedup "" "") with run := .broadcasting s.nextFanout }
  | register {i : Nat} {c : Client} (hrun : s.run = .registering i)
      (hget : s.objects.get? i = some c) : Stepped s .run
      { s with
        clients := s.clients ++ [i]
        run := .subscribing i c.ownScopes [] }
  | subscribe (i : Nat) (key : ScopeKey) (scopes : List ScopeKey) : Stepped s .run
      { (subscribe s i key).2 with run := .subscribing i scopes (subscribe s i key).1 }
  | remove {i : Nat} (hrun : s.run = .removing i) (hfree : s.unlocked = true) : Stepped s .run
      { (removeClient s i).2 with run := .calling (removeClient s i).1 }
  | runCall {ticket : Nat} {run : RunLoop} (hcalls : s.calls .run = some ticket)
      (hregistering : ∀ i, run ≠ .registering i) (hremoving : ∀ i, run ≠ .removing i) :
      Stepped s .run { s.callBack ticket with run := run }
  | runIdle : Stepped s .run { s with run := .idle }
  | frame {i : Nat} {c : Client} {frame : Frame} (hget : s.objects.get? i = some c)
      (hreader : c.reader = .reading) (hframe : frame ≠ .unknown) :
      Stepped s (.frame i frame) (s.setReader i c (.handling frame))
  | handleGone (i : Nat) (c : Client) (frame : Frame) :
      Stepped s (.read i) (handleFrame s i c frame).2
  | handle {i : Nat} {c c' : Client} {frame : Frame} (hget : s.objects.get? i = some c)
      (hreader : c.reader = .handling frame)
      (hget' : (handleFrame s i c frame).2.objects.get? i = some c') : Stepped s (.read i)
      ((handleFrame s i c frame).2.setReader i c' (.answering (handleFrame s i c frame).1))
  | answer {i : Nat} {c : Client} (hget : s.objects.get? i = some c)
      (hreader : c.reader = .answering []) : Stepped s (.read i)
      (sendJSON (s.setReader i c .reading) i { c with reader := .reading })
  | readCall {i : Nat} {c : Client} {ticket : Nat} {tickets : List Nat}
      (hcalls : s.calls (.read i) = some ticket) (hget : s.objects.get? i = some c)
      (hreader : c.reader = .answering (ticket :: tickets)) :
      Stepped s (.read i) ((s.callBack ticket).setReader i c (.answering tickets))
  | hangUp {i : Nat} {c : Client} (hget : s.objects.get? i = some c)
      (hreader : c.reader = .reading) : Stepped s (.hangUp i) (s.setReader i c .leaving)
  | write {i : Nat} {c : Client} (hget : s.objects.get? i = some c) :
      Stepped s (.write i) (s.putClient i { c with send := c.send.tail })
  | fanOut (e : Event) : Stepped s (.fanOut e) (s.fanOut e)
  | visit {fanout i : Nat} {f : Fanout} {left slow : List Nat}
      (hfanout : s.fanouts.get? fanout = some f) (hphase : f.phase = .iterating left slow) :
      Stepped s (.visit fanout i) (visit s fanout i f left slow)
  | finish {fanout : Nat} {f : Fanout} {slow : List Nat}
      (hfanout : s.fanouts.get? fanout = some f) (hphase : f.phase = .iterating [] slow) :
      Stepped s (.fan fanout)
        (s.setPhase fanout f (if slow = [] then .done else .evicting slow))
  | send {fanout i : Nat} {f : Fanout} {left slow : List Nat}
      (hfanout : s.fanouts.get? fanout = some f) (hphase : f.phase = .sending i left slow) :
      Stepped s (.fan fanout) (sendEvent s fanout i f left slow)
  | evict {fanout : Nat} {f : Fanout} {slow : List Nat}
      (hfanout : s.fanouts.get? fanout = some f) (hphase : f.phase = .evicting slow)
      (hfree : s.unlocked = true) : Stepped s (.fan fanout)
      ((evictSlow s slow).2.setPhase fanout f (.calling (evictSlow s slow).1))
  | fanCall {fanout : Nat} {f : Fanout} {ticket : Nat} {tickets : List Nat}
      (hcalls : s.calls (.fan fanout) = some ticket)
      (hfanout : s.fanouts.get? fanout = some f)
      (hphase : f.phase = .calling (ticket :: tickets)) :
      Stepped s (.fan fanout) ((s.callBack ticket).setPhase fanout f (.calling tickets))
  | fanDone {fanout : Nat} {f : Fanout} (hfanout : s.fanouts.get? fanout = some f)
      (hphase : f.phase = .calling []) : Stepped s (.fan fanout) (s.setPhase fanout f .done)
  | unset : Stepped s .unsetCallbacks { s with callbacks := false }
  | stopRelay : Stepped s .stopRelay { s with relay := { s.relay with stopping := true } }
  | cancelRelay : Stepped s .cancelRelay { s with relay := { s.relay with cancelled := true } }

section Steps

variable {s : State} {i fanout : Nat} {c : Client} {f : Fanout}

theorem runStep_stepped (s : State) : Stepped s .run (runStep s) := by
  have hstay : Stepped s .run s := .stay rfl
  unfold runStep
  cases hrun : s.run with
  | idle => exact hstay
  | registering i =>
    dsimp only
    by_cases hfree : s.unlocked = true
    · rw [if_pos hfree]
      cases hget : s.objects.get? i with
      | none => exact .runIdle
      | some c => exact .register hrun hget
    · rw [if_neg hfree]
      exact hstay
  | subscribing i scopes tickets =>
    cases tickets with
    | cons ticket tickets =>
      exact .runCall (by simp only [State.calls, hrun]) nofun nofun
    | nil =>
      cases scopes with
      | nil => exact .runIdle
      | cons key scopes =>
        dsimp only
        by_cases hfree : s.unlocked = true
        · rw [if_pos hfree]
          exact .subscribe i key scopes
        · rw [if_neg hfree]
          exact hstay
  | removing i =>
    dsimp only
    by_cases hfree : s.unlocked = true
    · rw [if_pos hfree]
      exact .remove hrun hfree
    · rw [if_neg hfree]
      exact hstay
  | calling tickets =>
    cases tickets with
    | nil => exact .runIdle
    | cons ticket tickets =>
      exact .runCall (by simp only [State.calls, hrun]) nofun nofun
  | broadcasting fanout =>
    dsimp only
    cases s.fanouts.get? fanout with
    | none => exact .runIdle
    | some f =>
      dsimp only
      by_cases hdone : f.phase = .done
      · rw [if_pos hdone]
        exact .runIdle
      · rw [if_neg hdone]
        exact hstay

theorem readStep_stepped (hget : s.objects.get? i = some c) :
    Stepped s (.read i) (readStep s i c) := by
  have hstay : Stepped s (.read i) s := .stay rfl
  unfold readStep
  cases hreader : c.reader with
  | handling frame =>
    dsimp only
    by_cases hfree : (s.unlocked || !c.locks frame) = true
    · rw [if_pos hfree]
      cases hget' : (handleFrame s i c frame).2.objects.get? i with
      | none => exact .handleGone i c frame
      | some c' => exact .handle hget hreader hget'
    · rw [if_neg hfree]
      exact hstay
  | answering tickets =>
    cases tickets with
    | nil => exact .answer hget hreader
    | cons ticket tickets =>
      have hcalls : s.calls (.read i) = some ticket := by
        obtain ⟨_, _, _, _, _, _, reader⟩ := c
        have hreader' : reader = .answering (ticket :: tickets) := hreader
        subst hreader'
        simp only [State.calls, hget]
      exact .readCall hcalls hget hreader
  | reading | leaving | gone => exact hstay

theorem fanStep_stepped (hfanout : s.fanouts.get? fanout = some f) :
    Stepped s (.fan fanout) (fanStep s fanout f) := by
  unfold fanStep
  cases hphase : f.phase with
  | iterating left slow =>
    cases left with
    | nil => exact .finish hfanout hphase
    | cons j left => exact .stay (by simp only [outputs, hfanout, hphase])
  | sending i left slow => exact .send hfanout hphase
  | evicting slow =>
    dsimp only
    by_cases hfree : s.unlocked = true
    · rw [if_pos hfree]
      exact .evict hfanout hphase hfree
    · rw [if_neg hfree]
      exact .stay (by simp only [outputs, hfanout, hphase])
  | calling tickets =>
    cases tickets with
    | nil => exact .fanDone hfanout hphase
    | cons ticket tickets =>
      have hcalls : s.calls (.fan fanout) = some ticket := by
        obtain ⟨_, _, phase⟩ := f
        have hphase' : phase = .calling (ticket :: tickets) := hphase
        subst hphase'
        simp only [State.calls, hfanout]
      exact .fanCall hcalls hfanout hphase
  | done => exact .stay (by simp only [outputs, hfanout, hphase])

theorem next_stepped (s : State) (action : Action) : Stepped s action (next s action) := by
  cases action with
  | connect userID workspaceID =>
    simp only [next]
    by_cases hidle : s.run = .idle
    · rw [if_pos hidle]
      exact .connect userID workspaceID
    · rw [if_neg hidle]
      exact .stay rfl
  | unregister i =>
    simp only [next]
    cases hget : s.objects.get? i with
    | none => exact .stay rfl
    | some c =>
      dsimp only
      by_cases hleaves : s.run = .idle ∧ c.reader = .leaving
      · rw [if_pos hleaves]
        exact .unregister hget
      · rw [if_neg hleaves]
        exact .stay rfl
  | broadcast =>
    simp only [next]
    by_cases hidle : s.run = .idle
    · rw [if_pos hidle]
      exact .broadcast
    · rw [if_neg hidle]
      exact .stay rfl
  | run => exact runStep_stepped s
  | frame i frame =>
    simp only [next]
    cases hget : s.objects.get? i with
    | none => exact .stay rfl
    | some c =>
      dsimp only
      by_cases hreads : c.reader = .reading ∧ frame ≠ .unknown
      · rw [if_pos hreads]
        exact .frame hget hreads.1 hreads.2
      · rw [if_neg hreads]
        exact .stay rfl
  | read i =>
    simp only [next]
    cases hget : s.objects.get? i with
    | none => exact .stay rfl
    | some c => exact readStep_stepped hget
  | hangUp i =>
    simp only [next]
    cases hget : s.objects.get? i with
    | none => exact .stay rfl
    | some c =>
      dsimp only
      by_cases hreads : c.reader = .reading
      · rw [if_pos hreads]
        exact .hangUp hget hreads
      · rw [if_neg hreads]
        exact .stay rfl
  | write i =>
    simp only [next]
    cases hget : s.objects.get? i with
    | none => exact .stay rfl
    | some c => exact .write hget
  | fanOut e => exact .fanOut e
  | visit fanout i =>
    simp only [next]
    cases hfanout : s.fanouts.get? fanout with
    | none => exact .stay (by simp only [outputs, hfanout])
    | some f =>
      dsimp only
      cases hphase : f.phase with
      | iterating left slow => exact .visit hfanout hphase
      | _ => exact .stay (by simp only [outputs, hfanout, hphase])
  | fan fanout =>
    simp only [next]
    cases hfanout : s.fanouts.get? fanout with
    | none => exact .stay (by simp only [outputs, hfanout])
    | some f => exact fanStep_stepped hfanout
  | unsetCallbacks =>
    simp only [next]
    by_cases hfree : s.unlocked = true
    · rw [if_pos hfree]
      exact .unset
    · rw [if_neg hfree]
      exact .stay rfl
  | stopRelay => exact .stopRelay
  | cancelRelay => exact .cancelRelay

end Steps

end ClawMessenger.Ports.RealtimeHub
