import ClawMessenger.Ports.RealtimeHubIndex

/-!
# Sends on a closed channel

A fan-out sends while it holds the lock, and nobody closes a channel then.  The
reader answers a frame without the lock, so a client may be evicted between the
frame and the answer (`evictedAtAnswer`).  `Fenced` excludes that: no client is
evicted while its reader has a frame to answer, and none comes in for a client
that was evicted.
-/

namespace ClawMessenger.Ports.RealtimeHub

open ClawMessenger.Verified Machine RoomIndex List

variable {s s' : State}

/-! ## What the operations under the lock do with a client -/

/-- Under the lock the subscriptions change, and the rest of the state but the
rooms and the callbacks stands. -/
structure Reindexes (s s' : State) : Prop where
  objects : ∀ j d', s'.objects.get? j = some d' →
    ∃ d, s.objects.get? j = some d ∧ d' = { d with subscriptions := d'.subscriptions }
  clients : s'.clients = s.clients
  nextClient : s'.nextClient = s.nextClient
  run : s'.run = s.run
  fanouts : s'.fanouts = s.fanouts
  nextFanout : s'.nextFanout = s.nextFanout
  crashed : s'.crashed = s.crashed

theorem Reindexes.refl (s : State) : Reindexes s s :=
  ⟨fun _ d' h => ⟨d', h, rfl⟩, rfl, rfl, rfl, rfl, rfl, rfl⟩

theorem Reindexes.owe (h : Reindexes s s') (calls : List Callback) :
    Reindexes s (s'.owe calls).2 := by
  rw [owe_eq]
  exact ⟨h.objects, h.clients, h.nextClient, h.run, h.fanouts, h.nextFanout, h.crashed⟩

variable {i : Nat} {c : Client}

theorem reindexes_put (hget : s.objects.get? i = some c) (subscriptions : List ScopeKey)
    (rooms : Rooms ScopeKey Nat) :
    Reindexes s { s.putClient i { c with subscriptions := subscriptions } with rooms := rooms } := by
  refine ⟨?_, rfl, rfl, rfl, rfl, rfl, rfl⟩
  intro j d' hd'
  rcases OrderedMap.get?_set_cases hd' with ⟨rfl, rfl⟩ | ⟨_, hold⟩
  · exact ⟨c, hget, rfl⟩
  · exact ⟨d', hold, rfl⟩

theorem subscribe_reindexes (s : State) (i : Nat) (key : ScopeKey) :
    Reindexes s (subscribe s i key).2 := by
  apply subscribe_elim (Reindexes.refl s)
  rintro c _ hget _ _ rfl
  have hput := reindexes_put hget (c.subscriptions ++ [key]) (join s.rooms key i).2
  exact ⟨fun _ => hput.owe _, fun _ => hput⟩

theorem unsubscribe_reindexes (s : State) (i : Nat) (key : ScopeKey) :
    Reindexes s (unsubscribe s i key).2 := by
  apply unsubscribe_elim (Reindexes.refl s)
  rintro c _ hget _ rfl
  have hput := reindexes_put hget (c.subscriptions.filter fun other => other ≠ key)
    (leave s.rooms key i).2
  exact ⟨fun _ => hput.owe _, fun _ => hput⟩

theorem handleFrame_reindexes (s : State) (i : Nat) (c : Client) (frame : Frame) :
    Reindexes s (handleFrame s i c frame).2 :=
  handleFrame_elim (Reindexes.refl s) (subscribe_reindexes s i) (unsubscribe_reindexes s i)

/-- Clients out of the hub: their channels are closed, and that is all that
happens to a client. -/
structure Drops (s s' : State) (dropped : List Nat) : Prop where
  objects : ∀ j d', s'.objects.get? j = some d' → ∃ d, s.objects.get? j = some d ∧
    d' = { d with subscriptions := d'.subscriptions, closed := d'.closed } ∧
      (d'.closed = d.closed ∨ (j ∈ dropped ∧ j ∈ s.clients ∧ d'.closed = true))
  clients : ∀ j ∈ s'.clients, j ∈ s.clients
  nextClient : s'.nextClient = s.nextClient
  run : s'.run = s.run
  fanouts : s'.fanouts = s.fanouts
  nextFanout : s'.nextFanout = s.nextFanout
  crashed : (∀ i ∈ s.clients, ∀ c, s.objects.get? i = some c → c.closed = false) →
    s'.crashed = s.crashed

theorem drop_drops (s : State) (i : Nat) : Drops s (drop s i).2 [i] := by
  have hrefl : Drops s s [i] :=
    ⟨fun _ d' h => ⟨d', h, rfl, .inl rfl⟩, fun _ h => h, rfl, rfl, rfl, rfl, fun _ => rfl⟩
  unfold drop
  by_cases hin : i ∉ s.clients
  · rw [if_pos hin]
    exact hrefl
  · rw [if_neg hin]
    cases hget : s.objects.get? i with
    | none => exact hrefl
    | some c =>
      refine ⟨?_, ?_, rfl, rfl, rfl, rfl, ?_⟩
      · intro j d' hd'
        rcases OrderedMap.get?_set_cases hd' with ⟨rfl, rfl⟩ | ⟨_, hold⟩
        · exact ⟨c, hget, rfl, .inr ⟨mem_singleton_self _, not_not.mp hin, rfl⟩⟩
        · exact ⟨d', hold, rfl, .inl rfl⟩
      · intro j hj
        exact mem_of_mem_filter hj
      · intro hopen
        show (s.crashed || c.closed) = s.crashed
        rw [hopen i (not_not.mp hin) c hget, Bool.or_false]

theorem Structured.open (h : Structured s) :
    ∀ i ∈ s.clients, ∀ c, s.objects.get? i = some c → c.closed = false := by
  intro i hi c hget
  obtain ⟨c', hget', hopen⟩ := h.present i hi
  rw [hget, Option.some.injEq] at hget'
  rw [hget', hopen]

theorem dropAll_drops (h : Structured s) (hunlocked : s.unlocked = true) (slow : List Nat) :
    Drops s (dropAll s slow).2 slow := by
  induction slow generalizing s with
  | nil =>
    exact ⟨fun _ d' h => ⟨d', h, rfl, .inl rfl⟩, fun _ h => h, rfl, rfl, rfl, rfl, fun _ => rfl⟩
  | cons i slow ih =>
    obtain ⟨hstructured, hunlocked'⟩ := h.drop hunlocked i
    have hfirst := drop_drops s i
    have hrest := ih hstructured hunlocked'
    refine ⟨?_, ?_, hrest.nextClient.trans hfirst.nextClient, hrest.run.trans hfirst.run,
      hrest.fanouts.trans hfirst.fanouts, hrest.nextFanout.trans hfirst.nextFanout, ?_⟩
    · intro j d'' hd''
      obtain ⟨d', hd', heq', hclosed'⟩ := hrest.objects j d'' hd''
      obtain ⟨d, hd, heq, hclosed⟩ := hfirst.objects j d' hd'
      refine ⟨d, hd, ?_, ?_⟩
      · rw [heq', heq]
      · rcases hclosed' with hsame' | ⟨hmem, hin, hdone⟩
        · rcases hclosed with hsame | ⟨hmem, hin, hdone⟩
          · exact .inl (hsame'.trans hsame)
          · rw [mem_singleton] at hmem
            exact .inr ⟨mem_cons.mpr (.inl hmem), hin, hsame'.trans hdone⟩
        · exact .inr ⟨mem_cons_of_mem _ hmem, hfirst.clients j hin, hdone⟩
    · intro j hj
      exact hfirst.clients j (hrest.clients j hj)
    · intro hopen
      exact (hrest.crashed hstructured.open).trans (hfirst.crashed hopen)

variable {dropped : List Nat}

theorem Drops.owe (h : Drops s s' dropped) (calls : List Callback) :
    Drops s (s'.owe calls).2 dropped := by
  rw [owe_eq]
  exact ⟨h.objects, h.clients, h.nextClient, h.run, h.fanouts, h.nextFanout, h.crashed⟩

/-! ## Readers and closed channels -/

/-- A frame has come in and is not answered yet. -/
def Reader.busy : Reader → Bool
  | .handling _ => true
  | .answering _ => true
  | _ => false

/-- What is asked of a step: no client is evicted while its reader has a frame
to answer, and no further frame comes in for a client that was evicted. -/
def Fenced (c : Cfg) : Action → Prop
  | .frame i frame => frame ≠ .unknown →
      ∀ obj, c.state.objects.get? i = some obj → obj.closed = false
  | .fan fanout => ∀ f, c.state.fanouts.get? fanout = some f → ∀ slow, f.phase = .evicting slow →
      c.state.unlocked = true → ∀ i ∈ slow, ∀ obj, c.state.objects.get? i = some obj →
        obj.reader.busy = false
  | _ => True

structure Quiet (s : State) : Prop where
  calm : s.crashed = false
  silent : ∀ i c, s.objects.get? i = some c → c.closed = true → c.reader.busy = false
  removing : ∀ i, s.run = .removing i → ∀ c, s.objects.get? i = some c → c.reader = .gone

theorem Quiet.congr (h : Quiet s) (hcrashed : s'.crashed = s.crashed)
    (hobjects : s'.objects = s.objects)
    (hrun : ∀ i, s'.run = .removing i → s.run = .removing i) : Quiet s' := by
  apply Quiet.mk
  · rw [hcrashed]
    exact h.calm
  · rw [hobjects]
    exact h.silent
  · intro i hi
    rw [hobjects]
    exact h.removing i (hrun i hi)

theorem Quiet.callBack (h : Quiet s) (ticket : Nat) : Quiet (s.callBack ticket) := by
  rw [callBack_eq]
  exact h.congr rfl rfl (fun _ hi => hi)

theorem Quiet.setRun (h : Quiet s) {run : RunLoop}
    (hrun : ∀ i, run = .removing i → s.run = .removing i) : Quiet { s with run := run } :=
  h.congr rfl rfl hrun

variable {c' : Client}

theorem Quiet.touch (h : Quiet s) (hget : s.objects.get? i = some c)
    (hsilent : c'.closed = true → c'.reader.busy = false)
    (hgone : c.reader = .gone → c'.reader = .gone) : Quiet (s.putClient i c') := by
  refine ⟨h.calm, ?_, ?_⟩
  · intro j d hd
    rcases OrderedMap.get?_set_cases hd with ⟨rfl, rfl⟩ | ⟨_, hold⟩
    · exact hsilent
    · exact h.silent j d hold
  · intro j hj d hd
    rcases OrderedMap.get?_set_cases hd with ⟨rfl, rfl⟩ | ⟨_, hold⟩
    · exact hgone (h.removing _ hj c hget)
    · exact h.removing j hj d hold

theorem Quiet.reindexes (h : Quiet s) (hs : Reindexes s s') : Quiet s' := by
  apply Quiet.mk
  · rw [hs.crashed]
    exact h.calm
  · intro i d' hd' hclosed
    obtain ⟨d, hd, heq⟩ := hs.objects i d' hd'
    rw [heq] at hclosed ⊢
    exact h.silent i d hd hclosed
  · intro i hi d' hd'
    obtain ⟨d, hd, heq⟩ := hs.objects i d' hd'
    rw [heq]
    exact h.removing i (hs.run ▸ hi) d hd

theorem Quiet.drops (h : Quiet s) (hs : Drops s s' dropped) (hstructured : Structured s)
    (hidle : ∀ i ∈ dropped, ∀ c, s.objects.get? i = some c → c.reader.busy = false) : Quiet s' := by
  apply Quiet.mk
  · rw [hs.crashed hstructured.open]
    exact h.calm
  · intro i d' hd' hclosed
    obtain ⟨d, hd, heq, hchange⟩ := hs.objects i d' hd'
    have hreader : d'.reader = d.reader := by rw [heq]
    rw [hreader]
    rcases hchange with hsame | ⟨hmem, _, _⟩
    · exact h.silent i d hd (hsame ▸ hclosed)
    · exact hidle i hmem d hd
  · intro i hi d' hd'
    obtain ⟨d, hd, heq, _⟩ := hs.objects i d' hd'
    have hreader : d'.reader = d.reader := by rw [heq]
    rw [hreader]
    exact h.removing i (hs.run ▸ hi) d hd

/-! ## The steps -/

theorem Quiet.setPhase (h : Quiet s) (fanout : Nat) (f : Fanout) (phase : Phase) :
    Quiet (s.setPhase fanout f phase) := h.congr rfl rfl (fun _ hi => hi)

theorem Quiet.visit (h : Quiet s) (fanout i : Nat) (f : Fanout) (left slow : List Nat) :
    Quiet (visit s fanout i f left slow) := by
  apply visit_elim h (h.setPhase fanout f _)
  intro c _ hget
  have htouched : Quiet (s.putClient i (c.markSeen f.event.id).2) := by
    rw [markSeen_frame]
    exact h.touch hget (h.silent i c hget) (fun hgone => hgone)
  exact htouched.setPhase fanout f _

variable {slow : List Nat}

/-- A fan-out sends to a client that is in the hub. -/
theorem Quiet.sendEvent (h : Quiet s) (hstructured : Structured s) {fanout : Nat} {f : Fanout}
    {left : List Nat} (hfanout : s.fanouts.get? fanout = some f)
    (hphase : f.phase = .sending i left slow) : Quiet (sendEvent s fanout i f left slow) := by
  have hin : i ∈ s.clients := by
    apply hstructured.ahead fanout f hfanout
    rw [hphase]
    exact mem_cons_self
  apply sendEvent_elim h
  · intro c hget hclosed
    rw [hstructured.open i hin c hget] at hclosed
    cases hclosed
  · intro c hget
    have htouched : Quiet (s.putClient i { c with send := c.send ++ [Message.event f.event] }) :=
      h.touch hget (h.silent i c hget) (fun hgone => hgone)
    exact htouched.setPhase fanout f _
  · exact h.setPhase fanout f _

section

variable (h : Quiet s) (hget : s.objects.get? i = some c)
include h hget

/-- A reader at work is not the reader of a closed channel. -/
theorem Quiet.not_closed (hbusy : c.reader.busy = true) : c.closed = false := by
  cases hclosed : c.closed with
  | false => rfl
  | true =>
    rw [h.silent i c hget hclosed] at hbusy
    cases hbusy

/-- A reader that is at work before and after moves on. -/
theorem Quiet.setReader (reader : Reader) (hopen : c.closed = false) (hreader : c.reader ≠ .gone) :
    Quiet (s.setReader i c reader) := by
  apply h.touch hget
  · intro hclosed
    rw [show c.closed = true from hclosed] at hopen
    cases hopen
  · exact fun hgone => absurd hgone hreader

theorem Quiet.answer (hreader : c.reader = .answering []) :
    Quiet (sendJSON (s.setReader i c .reading) i { c with reader := .reading }) := by
  have hopen := h.not_closed hget (by rw [hreader]; rfl)
  have hread : Quiet (s.setReader i c .reading) :=
    h.setReader hget .reading hopen (by rw [hreader]; nofun)
  apply sendJSON_elim
  · intro hclosed
    rw [show c.closed = true from hclosed] at hopen
    cases hopen
  · exact hread.touch (OrderedMap.get?_set_self _ _ _) (fun _ => rfl) (fun hgone => hgone)
  · exact hread

end

theorem Quiet.handle (h : Quiet s) {frame : Frame} (hget : s.objects.get? i = some c)
    (hreader : c.reader = .handling frame)
    (hget' : (handleFrame s i c frame).2.objects.get? i = some c') (reader : Reader) :
    Quiet ((handleFrame s i c frame).2.setReader i c' reader) := by
  have hs := handleFrame_reindexes s i c frame
  obtain ⟨d, hd, heq⟩ := hs.objects i c' hget'
  rw [hget, Option.some.injEq] at hd
  subst hd
  have hopen := h.not_closed hget (by rw [hreader]; rfl)
  apply (h.reindexes hs).setReader hget'
  · rw [heq]
    exact hopen
  · rw [heq]
    rw [hreader]
    nofun

theorem Quiet.remove (h : Quiet s) (hstructured : Structured s) (hrun : s.run = .removing i) :
    Quiet (removeClient s i).2 := by
  apply h.drops ((drop_drops s i).owe _) hstructured
  intro j hj c hget
  rw [mem_singleton] at hj
  subst hj
  rw [h.removing _ hrun c hget]
  rfl

theorem Quiet.stepped {c : Cfg} (h : Quiet c.state) (hstructured : Structured c.state)
    {action : Action} (hfenced : Fenced c action) (hs : Stepped c.state action s') : Quiet s' := by
  cases hs with
  | stay => exact h
  | connect =>
    refine ⟨h.calm, ?_, nofun⟩
    intro j d hd hclosed
    rcases OrderedMap.get?_set_cases hd with ⟨_, rfl⟩ | ⟨_, hold⟩
    · rfl
    · exact h.silent j d hold hclosed
  | @unregister i obj hget =>
    have htouched : Quiet (c.state.setReader i obj .gone) :=
      h.touch hget (fun _ => rfl) (fun _ => rfl)
    refine ⟨htouched.calm, htouched.silent, ?_⟩
    intro j hj d hd
    cases hj
    have hself := hd.symm.trans (OrderedMap.get?_set_self _ _ _)
    rw [Option.some.injEq] at hself
    rw [hself]
  | broadcast | register => exact h.congr rfl rfl nofun
  | subscribe i key => exact (h.reindexes (subscribe_reindexes _ i key)).setRun nofun
  | remove hrun => exact (h.remove hstructured hrun).setRun nofun
  | @runCall ticket run _ _ hremoving =>
    exact (h.callBack ticket).setRun fun i hi => absurd hi (hremoving i)
  | runIdle => exact h.setRun nofun
  | frame hget hreader hframe =>
    exact h.setReader hget _ (hfenced hframe _ hget) (by rw [hreader]; nofun)
  | handleGone i obj frame => exact h.reindexes (handleFrame_reindexes _ i obj frame)
  | handle hget hreader hget' => exact h.handle hget hreader hget' _
  | answer hget hreader => exact h.answer hget hreader
  | @readCall i obj ticket tickets _ hget hreader =>
    have hget' : (c.state.callBack ticket).objects.get? i = some obj := by
      rw [callBack_objects]
      exact hget
    have hopen := h.not_closed hget (by rw [hreader]; rfl)
    exact (h.callBack ticket).setReader hget' _ hopen (by rw [hreader]; nofun)
  | hangUp hget hreader =>
    apply h.touch hget (fun _ => rfl)
    intro hgone
    rw [hreader] at hgone
    cases hgone
  | @write i obj hget => exact h.touch hget (h.silent i obj hget) (fun hgone => hgone)
  | fanOut e => exact h.congr rfl rfl (fun _ hi => hi)
  | visit => exact h.visit _ _ _ _ _
  | finish => exact h.setPhase _ _ _
  | send hfanout hphase => exact h.sendEvent hstructured hfanout hphase
  | @evict fanout f slow hfanout hphase hfree =>
    have hdrops := (dropAll_drops hstructured hfree slow).owe
      ((dropAll c.state slow).1.map .onLastSubscriber)
    exact (h.drops hdrops hstructured (hfenced f hfanout slow hphase hfree)).setPhase fanout f _
  | @fanCall fanout f ticket => exact (h.callBack ticket).setPhase fanout f _
  | fanDone => exact h.setPhase _ _ _
  | unset | stopRelay | cancelRelay => exact h.congr rfl rfl (fun _ hi => hi)

/-- What the indices of the hub say of a state. -/
structure InStep (s : State) : Prop where
  member : ∀ i k, i ∈ members s.rooms k ↔
    ∃ c, s.objects.get? i = some c ∧ k ∈ c.subscriptions
  noneEmpty : NoneEmpty s.rooms
  gone : ∀ i c, s.objects.get? i = some c → c.closed = true →
    i ∉ s.clients ∧ ∀ k, i ∉ members s.rooms k

/-- The indices are in step in every run; and where no client is evicted between
a frame and its answer, nothing is sent on a closed channel nor is one closed
twice. -/
theorem hub_safe {c : Cfg} (h : Reach step (fun _ _ => True) (start init) c) :
    InStep c.state ∧
      (Reach step Fenced (start init) c → c.state.crashed = false) := by
  constructor
  · have hstructured := structured_of_reach h
    exact ⟨hstructured.member, hstructured.noneEmpty,
      fun i obj hget hclosed => hstructured.gone hget hclosed⟩
  · intro hfenced
    have hquiet : Structured c.state ∧ Quiet c.state := by
      apply Reach.invariant (I := fun c => Structured c.state ∧ Quiet c.state) _ hfenced
      · exact ⟨structured_init, rfl, nofun, nofun⟩
      · intro d action hfenced hd
        refine ⟨hd.1.step action, ?_⟩
        have hcalm := hd.2.calm
        show Quiet (step d.state action).2
        rw [step, hcalm]
        exact hd.2.stepped hd.1 hfenced (next_stepped _ _)
    exact hquiet.2.calm

/-! ## Runs to check by evaluation -/

def Phase.evicts : Phase → Option (List Nat)
  | .evicting slow => some slow
  | _ => none

theorem evicts_eq_some {phase : Phase} :
    phase.evicts = some slow ↔ phase = .evicting slow := by
  cases phase with
  | evicting other | _ => simp [Phase.evicts]

instance decidableFenced (c : Cfg) : (action : Action) → Decidable (Fenced c action)
  | .frame i frame => inferInstanceAs (Decidable (frame ≠ .unknown →
      ∀ obj ∈ c.state.objects.get? i, obj.closed = false))
  | .fan fanout =>
    decidable_of_iff
      (∀ f ∈ c.state.fanouts.get? fanout, ∀ slow ∈ f.phase.evicts, c.state.unlocked = true →
        ∀ i ∈ slow, ∀ obj ∈ c.state.objects.get? i, obj.reader.busy = false)
      ⟨fun h f hf slow hslow => h f hf slow (evicts_eq_some.mpr hslow),
        fun h f hf slow hslow => h f hf slow (evicts_eq_some.mp hslow)⟩
  | .connect _ _ | .unregister _ | .broadcast | .run | .read _ | .hangUp _ | .write _ | .fanOut _
  | .visit _ _ | .unsetCallbacks | .stopRelay | .cancelRelay => .isTrue trivial

/-- A connection, subscribed to its workspace and its user. -/
def connected : List Action :=
  [.connect "user" "workspace", .run, .run, .run, .run, .run, .run]

/-- The client pings until its channel is full. -/
def pings : List Action :=
  (List.replicate sendCapacity [.frame 0 .ping, .read 0, .read 0]).flatten

/-- The client subscribes to a task, does not read its channel and is evicted by
the next event. -/
def visitor : List Action :=
  connected ++ [Action.frame 0 (.subscribe ⟨scopeTask, "task"⟩ true), .read 0, .read 0, .read 0] ++
    pings ++
    [Action.fanOut ⟨.room ⟨scopeTask, "task"⟩, "", "event"⟩, .visit 0 0, .fan 0, .fan 0, .fan 0,
      .hangUp 0, .unregister 0, .run, .run]

theorem hub_safe_visitor :
    let c := exec step (start init) visitor
    (c.state.objects.get? 0).map Client.closed = some true ∧ c.state.crashed = false ∧
      InStep c.state := by
  have hevicted : ((exec step (start init) visitor).state.objects.get? 0).map Client.closed =
      some true := by decide +kernel
  have hfenced : AllAllowed step Fenced (start init) visitor := by decide +kernel
  have hsafe := hub_safe
    (reach_exec (allAllowed_of_forall (fun _ _ => trivial) _ visitor))
  exact ⟨hevicted, hsafe.2 (reach_exec hfenced), hsafe.1⟩

/-- A frame is in hand when a fan-out evicts the client. -/
def evictedAtAnswer : List Action :=
  connected ++ pings ++
    [Action.frame 0 .ping, .fanOut (fanoutAllDedup "" "event"), .visit 0 0, .fan 0, .fan 0, .fan 0,
      .read 0, .read 0]

theorem evictedAtAnswer_crashes :
    Reach step (fun _ _ => True) (start init)
        (exec step (start init) evictedAtAnswer) ∧
      (exec step (start init) evictedAtAnswer).state.crashed = true :=
  ⟨reach_exec (allAllowed_of_forall (fun _ _ => trivial) _ _), by decide +kernel⟩

end ClawMessenger.Ports.RealtimeHub
