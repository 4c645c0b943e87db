import ClawMessenger.Ports.RealtimeHubSteps

/-!
# The indices of the hub

In every run, whatever the interleaving, the rooms and the subscriptions of the
clients are two views of one relation, no room is empty, and a client whose
channel was closed is in no index.  A fan-out only has clients left that are in
the hub, since nobody leaves it while the lock is held.
-/

namespace ClawMessenger.Ports.RealtimeHub

open ClawMessenger.Verified Machine RoomIndex List
open OrderedMap (get?_set_cases get?_set_ne get?_set_self)

/-- The clients a fan-out that holds the lock has still to see. -/
def Phase.ahead : Phase → List Nat
  | .iterating left _ => left
  | .sending client left _ => client :: left
  | _ => []

structure Structured (s : State) : Prop where
  fresh : ∀ i, s.nextClient ≤ i → s.objects.get? i = none
  noneEmpty : NoneEmpty s.rooms
  member : ∀ i k, i ∈ members s.rooms k ↔
    ∃ c, s.objects.get? i = some c ∧ k ∈ c.subscriptions
  listed : ∀ i k, i ∈ members s.rooms k → i ∈ s.clients
  present : ∀ i ∈ s.clients, ∃ c, s.objects.get? i = some c ∧ c.closed = false
  registering : ∀ i, s.run = .registering i →
    i ∉ s.clients ∧ ∃ c, s.objects.get? i = some c ∧ c.closed = false
  ahead : ∀ f fo, s.fanouts.get? f = some fo → ∀ i ∈ fo.phase.ahead, i ∈ s.clients

variable {s s' : State}

variable {i : Nat} {c : Client}

/-- A client whose channel was closed is nowhere. -/
theorem Structured.gone (h : Structured s) (hget : s.objects.get? i = some c)
    (hclosed : c.closed = true) :
    i ∉ s.clients ∧ ∀ k, i ∉ members s.rooms k := by
  have hout : i ∉ s.clients := by
    intro hin
    obtain ⟨c', hget', hopen⟩ := h.present i hin
    rw [hget, Option.some.injEq] at hget'
    rw [← hget', hclosed] at hopen
    cases hopen
  exact ⟨hout, fun k hk => hout (h.listed i k hk)⟩

/-! ## Steps that leave the indices alone -/

section

variable (h : Structured s)
include h

/-- Only what the indices are about matters. -/
theorem Structured.congr (hobjects : s'.objects = s.objects)
    (hnext : s'.nextClient = s.nextClient) (hrooms : s'.rooms = s.rooms)
    (hclients : s'.clients = s.clients)
    (hrun : ∀ i, s'.run = .registering i → s.run = .registering i)
    (hfanouts : s'.fanouts = s.fanouts) : Structured s' := by
  apply Structured.mk
  · rw [hnext, hobjects]
    exact h.fresh
  · rw [hrooms]
    exact h.noneEmpty
  · rw [hrooms, hobjects]
    exact h.member
  · rw [hrooms, hclients]
    exact h.listed
  · rw [hclients, hobjects]
    exact h.present
  · intro i hi
    rw [hclients, hobjects]
    exact h.registering i (hrun i hi)
  · rw [hfanouts, hclients]
    exact h.ahead

theorem Structured.setRun {run : RunLoop}
    (hrun : ∀ i, run = .registering i → s.run = .registering i) :
    Structured { s with run := run } := h.congr rfl rfl rfl rfl hrun rfl

theorem Structured.callBack (ticket : Nat) : Structured (s.callBack ticket) := by
  rw [callBack_eq]
  exact h.congr rfl rfl rfl rfl (fun _ hi => hi) rfl

theorem Structured.owe (calls : List Callback) : Structured (s.owe calls).2 := by
  rw [owe_eq]
  exact h.congr rfl rfl rfl rfl (fun _ hi => hi) rfl

/-- A client that keeps its subscriptions and its channel. -/
theorem Structured.touch {c' : Client} (hget : s.objects.get? i = some c)
    (hsubs : c'.subscriptions = c.subscriptions) (hclosed : c'.closed = c.closed) :
    Structured (s.putClient i c') := by
  have hback : ∀ j d, (s.objects.set i c').get? j = some d →
      ∃ d', s.objects.get? j = some d' ∧ d.subscriptions = d'.subscriptions ∧
        d.closed = d'.closed := by
    intro j d hd
    rcases get?_set_cases hd with ⟨rfl, rfl⟩ | ⟨_, hold⟩
    · exact ⟨c, hget, hsubs, hclosed⟩
    · exact ⟨d, hold, rfl, rfl⟩
  have hforth : ∀ j d', s.objects.get? j = some d' →
      ∃ d, (s.objects.set i c').get? j = some d ∧ d.subscriptions = d'.subscriptions ∧
        d.closed = d'.closed := by
    intro j d' hd'
    by_cases hj : j = i
    · subst hj
      rw [hget, Option.some.injEq] at hd'
      subst hd'
      exact ⟨c', get?_set_self _ _ _, hsubs, hclosed⟩
    · exact ⟨d', by rw [get?_set_ne _ _ hj]; exact hd', rfl, rfl⟩
  apply Structured.mk
  · intro j hj
    cases hd : (s.objects.set i c').get? j with
    | none => exact hd
    | some d =>
      obtain ⟨d', hd', _⟩ := hback j d hd
      rw [h.fresh j hj] at hd'
      cases hd'
  · exact h.noneEmpty
  · intro j k
    show j ∈ members s.rooms k ↔ _
    rw [h.member]
    constructor
    · rintro ⟨d', hd', hk⟩
      obtain ⟨d, hd, hsub, _⟩ := hforth j d' hd'
      exact ⟨d, hd, hsub ▸ hk⟩
    · rintro ⟨d, hd, hk⟩
      obtain ⟨d', hd', hsub, _⟩ := hback j d hd
      exact ⟨d', hd', hsub ▸ hk⟩
  · exact h.listed
  · intro j hj
    obtain ⟨d', hd', hopen⟩ := h.present j hj
    obtain ⟨d, hd, _, hsame⟩ := hforth j d' hd'
    exact ⟨d, hd, hsame.trans hopen⟩
  · intro j hj
    obtain ⟨hout, d', hd', hopen⟩ := h.registering j hj
    obtain ⟨d, hd, _, hsame⟩ := hforth j d' hd'
    exact ⟨hout, d, hd, hsame.trans hopen⟩
  · exact h.ahead

end

variable {phase : Phase}

theorem Structured.setPhase (h : Structured s) (fanout : Nat) (f : Fanout)
    (hphase : ∀ i ∈ phase.ahead, i ∈ s.clients) : Structured (s.setPhase fanout f phase) := by
  refine ⟨h.fresh, h.noneEmpty, h.member, h.listed, h.present, h.registering, ?_⟩
  intro f' fo hget
  rcases get?_set_cases hget with ⟨_, rfl⟩ | ⟨_, hold⟩
  · exact hphase
  · exact h.ahead f' fo hold

/-! ## Subscribing -/

/-- One client has joined or left one room, and its subscriptions say so. -/
theorem Structured.reindex (h : Structured s) (c' : Client) (key : ScopeKey)
    {rooms : Rooms ScopeKey Nat} (hget : s.objects.get? i = some c) (hin : i ∈ s.clients)
    (hclosed : c'.closed = c.closed) (hempty : NoneEmpty rooms)
    (hother : ∀ k, k ≠ key → (k ∈ c'.subscriptions ↔ k ∈ c.subscriptions) ∧ ∀ j, j ∈ members rooms k ↔ j ∈ members s.rooms k)
    (hkey : ∀ j, j ∈ members rooms key ↔ (j = i ∧ key ∈ c'.subscriptions) ∨ (j ≠ i ∧ j ∈ members s.rooms key)) :
    Structured { s.putClient i c' with rooms := rooms } := by
  have hmember : ∀ j k, j ∈ members rooms k ↔
      (j = i ∧ k ∈ c'.subscriptions) ∨ (j ≠ i ∧ j ∈ members s.rooms k) := by
    intro j k
    by_cases hk : k = key
    · rw [hk]
      exact hkey j
    · rw [(hother k hk).2 j, (hother k hk).1]
      by_cases hj : j = i
      · subst hj
        rw [h.member]
        constructor
        · rintro ⟨d, hd, hmem⟩
          rw [hget, Option.some.injEq] at hd
          exact .inl ⟨rfl, hd ▸ hmem⟩
        · rintro (⟨_, hmem⟩ | ⟨hne, _⟩)
          · exact ⟨c, hget, hmem⟩
          · exact absurd rfl hne
      · simp [hj]
  have hset : ∀ j, j ≠ i → (s.objects.set i c').get? j = s.objects.get? j :=
    fun j hj => get?_set_ne _ _ hj
  have hself : (s.objects.set i c').get? i = some c' := get?_set_self _ _ _
  apply Structured.mk
  · intro j hj
    have hne : j ≠ i := by
      rintro rfl
      rw [h.fresh j hj] at hget
      cases hget
    exact (hset j hne).trans (h.fresh j hj)
  · exact hempty
  · intro j k
    show j ∈ members rooms k ↔ ∃ d, (s.objects.set i c').get? j = some d ∧ k ∈ d.subscriptions
    rw [hmember]
    by_cases hj : j = i
    · subst hj
      rw [hself]
      simp
    · rw [hset j hj, h.member]
      simp [hj]
  · intro j k hmem
    rcases (hmember j k).mp hmem with ⟨rfl, _⟩ | ⟨_, hold⟩
    · exact hin
    · exact h.listed j k hold
  · intro j hj
    obtain ⟨d, hd, hopen⟩ := h.present j hj
    by_cases hji : j = i
    · subst hji
      rw [hget, Option.some.injEq] at hd
      subst hd
      exact ⟨c', hself, hclosed.trans hopen⟩
    · exact ⟨d, (hset j hji).trans hd, hopen⟩
  · intro j hj
    obtain ⟨hout, d, hd, hopen⟩ := h.registering j hj
    have hji : j ≠ i := fun heq => hout (heq ▸ hin)
    exact ⟨hout, d, (hset j hji).trans hd, hopen⟩
  · exact h.ahead

theorem Structured.subscribe (h : Structured s) (i : Nat) (key : ScopeKey) :
    Structured (subscribe s i key).2 := by
  apply subscribe_elim h
  rintro c hin hget _ _ rfl
  have hjoined : Structured { s.putClient i
      { c with subscriptions := c.subscriptions ++ [key] } with
        rooms := (join s.rooms key i).2 } := by
    apply h.reindex { c with subscriptions := c.subscriptions ++ [key] } key hget hin rfl
      h.noneEmpty.join
    · intro k hk
      refine ⟨by simp [hk], fun j => ?_⟩
      rw [mem_join]
      simp [hk]
    · intro j
      rw [mem_join]
      by_cases hj : j = i
      · simp [hj]
      · simp [hj]
  exact ⟨fun _ => hjoined.owe _, fun _ => hjoined⟩

theorem Structured.unsubscribe (h : Structured s) (i : Nat) (key : ScopeKey) :
    Structured (unsubscribe s i key).2 := by
  apply unsubscribe_elim h
  rintro c hin hget _ rfl
  have hleft : Structured { s.putClient i
      { c with subscriptions := c.subscriptions.filter fun other => other ≠ key } with
        rooms := (leave s.rooms key i).2 } := by
    apply h.reindex { c with subscriptions := c.subscriptions.filter fun other => other ≠ key } key
      hget hin rfl h.noneEmpty.leave
    · intro k hk
      refine ⟨by simp [hk], fun j => ?_⟩
      rw [mem_leave]
      simp [hk]
    · intro j
      rw [mem_leave]
      by_cases hj : j = i
      · simp [hj]
      · simp [hj]
  exact ⟨fun _ => hleft.owe _, fun _ => hleft⟩

/-! ## Leaving the hub -/

theorem not_locked_ahead (h : phase.locked = false) : phase.ahead = [] := by
  cases phase with
  | iterating left slow | sending client left slow => cases h
  | evicting slow | calling tickets | done => rfl

theorem unlocked_fanout (h : s.unlocked = true) {f : Nat} {fo : Fanout}
    (hget : s.fanouts.get? f = some fo) : fo.phase.locked = false := by
  have hmem : fo ∈ s.fanouts.values :=
    mem_map.mpr ⟨(f, fo), OrderedMap.get?_eq_some_iff.mp hget, rfl⟩
  have hall := all_eq_true.mp h fo hmem
  simpa using hall

theorem Structured.drop (h : Structured s) (hunlocked : s.unlocked = true) (i : Nat) :
    Structured (drop s i).2 ∧ (drop s i).2.unlocked = true := by
  unfold RealtimeHub.drop
  by_cases hin : i ∉ s.clients
  · rw [if_pos hin]
    exact ⟨h, hunlocked⟩
  · rw [if_neg hin]
    cases hget : s.objects.get? i with
    | none => exact ⟨h, hunlocked⟩
    | some c =>
      refine ⟨?_, hunlocked⟩
      have hset : ∀ j, j ≠ i → (s.objects.set i
          { c with subscriptions := [], closed := true }).get? j = s.objects.get? j :=
        fun j hj => get?_set_ne _ _ hj
      -- The subscriptions of the client are all the rooms it is in.
      have hmember : ∀ j k, j ∈ members (leaveAll s.rooms c.subscriptions i).2 k ↔
          j ≠ i ∧ j ∈ members s.rooms k := by
        intro j k
        rw [mem_leaveAll]
        by_cases hj : j = i
        · subst hj
          rw [h.member]
          constructor
          · rintro ⟨⟨d, hd, hmem⟩, hnot⟩
            rw [hget, Option.some.injEq] at hd
            exact absurd ⟨hd ▸ hmem, rfl⟩ hnot
          · rintro ⟨hne, _⟩
            exact absurd rfl hne
        · simp [hj]
      have hclients : ∀ j, j ∈ s.clients.filter (fun other => other ≠ i) ↔
          j ∈ s.clients ∧ j ≠ i := by
        intro j
        rw [mem_filter, decide_eq_true_eq]
      apply Structured.mk
      · intro j hj
        have hne : j ≠ i := by
          rintro rfl
          rw [h.fresh j hj] at hget
          cases hget
        exact (hset j hne).trans (h.fresh j hj)
      · exact h.noneEmpty.leaveAll _
      · intro j k
        show j ∈ members (leaveAll s.rooms c.subscriptions i).2 k ↔
          ∃ d, (s.objects.set i _).get? j = some d ∧ k ∈ d.subscriptions
        rw [hmember]
        by_cases hj : j = i
        · subst hj
          rw [get?_set_self]
          simp
        · rw [hset j hj, h.member]
          simp [hj]
      · intro j k hmem
        obtain ⟨hne, hold⟩ := (hmember j k).mp hmem
        exact (hclients j).mpr ⟨h.listed j k hold, hne⟩
      · intro j hj
        obtain ⟨hold, hne⟩ := (hclients j).mp hj
        obtain ⟨d, hd, hopen⟩ := h.present j hold
        exact ⟨d, (hset j hne).trans hd, hopen⟩
      · intro j hj
        obtain ⟨hout, d, hd, hopen⟩ := h.registering j hj
        have hne : j ≠ i := fun heq => hin (heq ▸ hout)
        exact ⟨fun hmem => hout ((hclients j).mp hmem).1, d, (hset j hne).trans hd, hopen⟩
      · intro f fo hfo j hj
        rw [not_locked_ahead (unlocked_fanout hunlocked hfo)] at hj
        cases hj

theorem Structured.dropAll (h : Structured s) (hunlocked : s.unlocked = true) (slow : List Nat) :
    Structured (dropAll s slow).2 := by
  induction slow generalizing s with
  | nil => exact h
  | cons i slow ih =>
    obtain ⟨hdropped, hunlocked'⟩ := h.drop hunlocked i
    exact ih hdropped hunlocked'

/-! ## Steps -/

theorem Structured.sendJSON (h : Structured s) (hget : s.objects.get? i = some c) :
    Structured (sendJSON s i c) :=
  sendJSON_elim (fun _ => h.congr rfl rfl rfl rfl (fun _ hi => hi) rfl) (h.touch hget rfl rfl) h

theorem Structured.handleFrame (h : Structured s) (i : Nat) (c : Client) (frame : Frame) :
    Structured (handleFrame s i c frame).2 :=
  handleFrame_elim h (h.subscribe i) (h.unsubscribe i)

variable {fanout : Nat} {left slow : List Nat}

section

variable (h : Structured s)
include h

theorem Structured.visit {f : Fanout} (hfanout : s.fanouts.get? fanout = some f)
    (hphase : f.phase = .iterating left slow) :
    Structured (visit s fanout i f left slow) := by
  have hleft : ∀ j ∈ left, j ∈ s.clients := by
    intro j hj
    apply h.ahead fanout f hfanout
    rw [hphase]
    exact hj
  have hrest : ∀ j ∈ left.filter (fun other => other ≠ i), j ∈ s.clients :=
    fun j hj => hleft j (mem_of_mem_filter hj)
  apply visit_elim h (h.setPhase fanout f hrest)
  intro c hmem hget
  have htouched : Structured (s.putClient i (c.markSeen f.event.id).2) := by
    rw [markSeen_frame]
    exact h.touch hget rfl rfl
  apply htouched.setPhase fanout f
  by_cases hnew : (c.markSeen f.event.id).1 = true
  · rw [if_pos hnew]
    intro j hj
    rcases mem_cons.mp hj with rfl | hj
    · exact hleft _ hmem
    · exact hrest j hj
  · rw [if_neg hnew]
    exact hrest

theorem Structured.sendEvent {f : Fanout} (hfanout : s.fanouts.get? fanout = some f)
    (hphase : f.phase = .sending i left slow) :
    Structured (sendEvent s fanout i f left slow) := by
  have hleft : ∀ j ∈ left, j ∈ s.clients := by
    intro j hj
    apply h.ahead fanout f hfanout
    rw [hphase]
    exact mem_cons_of_mem _ hj
  apply sendEvent_elim h
  · exact fun _ _ _ => h.congr rfl rfl rfl rfl (fun _ hi => hi) rfl
  · intro c hget
    have htouched : Structured (s.putClient i { c with send := c.send ++ [Message.event f.event] }) :=
      h.touch hget rfl rfl
    exact htouched.setPhase fanout f hleft
  · exact h.setPhase fanout f hleft

theorem Structured.fanOut (e : Event) : Structured (s.fanOut e) := by
  refine ⟨h.fresh, h.noneEmpty, h.member, h.listed, h.present, h.registering, ?_⟩
  intro f fo hfo
  rcases get?_set_cases hfo with ⟨_, rfl⟩ | ⟨_, hold⟩
  · intro i hi
    have hi' : i ∈ s.targets e.target := hi
    cases htarget : e.target with
    | room key =>
      rw [htarget] at hi'
      exact h.listed i key hi'
    | everyone =>
      rw [htarget] at hi'
      exact hi'
  · exact h.ahead f fo hold

theorem Structured.connect (userID workspaceID : String) :
    Structured { s.putClient s.nextClient (newClient userID workspaceID) with
      nextClient := s.nextClient + 1
      run := .registering s.nextClient } := by
  have hnone := h.fresh s.nextClient (Nat.le_refl _)
  have hold : ∀ j, j ≠ s.nextClient → (s.objects.set s.nextClient
      (newClient userID workspaceID)).get? j = s.objects.get? j :=
    fun j hj => get?_set_ne _ _ hj
  have hself : (s.objects.set s.nextClient (newClient userID workspaceID)).get? s.nextClient =
      some (newClient userID workspaceID) := get?_set_self _ _ _
  have hnew : ∀ j ∈ s.clients, j ≠ s.nextClient := by
    rintro j hj rfl
    obtain ⟨c, hget, _⟩ := h.present _ hj
    rw [hnone] at hget
    cases hget
  apply Structured.mk
  · intro j hj
    have hlt : s.nextClient < j := hj
    exact (hold j (Nat.ne_of_gt hlt)).trans (h.fresh j (Nat.le_of_lt hlt))
  · exact h.noneEmpty
  · intro j k
    show j ∈ members s.rooms k ↔ ∃ d, (s.objects.set _ _).get? j = some d ∧ k ∈ d.subscriptions
    by_cases hj : j = s.nextClient
    · subst hj
      rw [h.member, hnone, hself]
      simp [newClient]
    · rw [hold j hj]
      exact h.member j k
  · exact h.listed
  · intro j hj
    obtain ⟨c, hget, hopen⟩ := h.present j hj
    exact ⟨c, (hold j (hnew j hj)).trans hget, hopen⟩
  · intro j hj
    have heq : s.nextClient = j := RunLoop.registering.inj hj
    subst heq
    exact ⟨fun hmem => hnew _ hmem rfl, _, hself, rfl⟩
  · exact h.ahead

theorem Structured.register (hrun : s.run = .registering i) (hget : s.objects.get? i = some c) :
    Structured { s with
      clients := s.clients ++ [i]
      run := .subscribing i c.ownScopes [] } := by
  obtain ⟨_, c', hget', hopen⟩ := h.registering i hrun
  refine ⟨h.fresh, h.noneEmpty, h.member, ?_, ?_, nofun, ?_⟩
  · intro j k hj
    exact mem_append_left _ (h.listed j k hj)
  · intro j hj
    rcases mem_append.mp hj with hold | hnew
    · exact h.present j hold
    · rw [mem_singleton] at hnew
      subst hnew
      exact ⟨c', hget', hopen⟩
  · intro f fo hfo j hj
    exact mem_append_left _ (h.ahead f fo hfo j hj)

theorem Structured.stepped {action : Action} (hs : Stepped s action s') :
    Structured s' := by
  cases hs with
  | stay => exact h
  | connect userID workspaceID => exact h.connect userID workspaceID
  | @unregister i c hget =>
    have htouched : Structured (s.setReader i c .gone) := h.touch hget rfl rfl
    exact htouched.setRun nofun
  | broadcast => exact (h.fanOut _).setRun nofun
  | register hrun hget => exact h.register hrun hget
  | subscribe i key => exact (h.subscribe i key).setRun nofun
  | @remove i _ hfree => exact ((h.drop hfree i).1.owe _).setRun nofun
  | @runCall ticket run _ hregistering =>
    exact (h.callBack ticket).setRun fun i hi => absurd hi (hregistering i)
  | runIdle => exact h.setRun nofun
  | frame hget => exact h.touch hget rfl rfl
  | handleGone i c frame => exact h.handleFrame i c frame
  | @handle i c _ frame _ _ hget' => exact (h.handleFrame i c frame).touch hget' rfl rfl
  | @answer i c hget =>
    have htouched : Structured (s.setReader i c .reading) := h.touch hget rfl rfl
    exact htouched.sendJSON (get?_set_self _ _ _)
  | @readCall i c ticket _ _ hget =>
    have hget' : (s.callBack ticket).objects.get? i = some c := by
      rw [callBack_objects]
      exact hget
    exact (h.callBack ticket).touch hget' rfl rfl
  | hangUp hget | write hget => exact h.touch hget rfl rfl
  | fanOut e => exact h.fanOut e
  | visit hfanout hphase => exact h.visit hfanout hphase
  | @finish fanout f slow =>
    apply h.setPhase
    by_cases hslow : slow = []
    · rw [if_pos hslow]
      nofun
    · rw [if_neg hslow]
      nofun
  | send hfanout hphase => exact h.sendEvent hfanout hphase
  | evict _ _ hfree => exact ((h.dropAll hfree _).owe _).setPhase _ _ nofun
  | @fanCall fanout f ticket => exact (h.callBack ticket).setPhase fanout f nofun
  | fanDone => exact h.setPhase _ _ nofun
  | unset | stopRelay | cancelRelay => exact h.congr rfl rfl rfl rfl (fun _ hi => hi) rfl

theorem Structured.step (action : Action) : Structured (step s action).2 := by
  unfold RealtimeHub.step
  by_cases hcrashed : s.crashed = true
  · rw [if_pos hcrashed]
    exact h
  · rw [if_neg hcrashed]
    exact h.stepped (next_stepped s action)

end

theorem structured_init : Structured init := by
  refine ⟨fun _ _ => rfl, noneEmpty_empty, ?_, nofun, nofun, nofun, nofun⟩
  intro i k
  constructor
  · nofun
  · rintro ⟨c, hget, _⟩
    cases hget

theorem structured_of_reach {allowed : Cfg → Action → Prop} {c : Cfg}
    (h : Reach step allowed (start init) c) : Structured c.state := by
  apply Reach.invariant (I := fun c => Structured c.state) _ h structured_init
  intro d action _ hd
  exact hd.step action

end ClawMessenger.Ports.RealtimeHub
