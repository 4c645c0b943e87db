import ClawMessenger.Ports.RealtimeHubSends

/-!
# The consumers of the relay

The hub numbers the callbacks in the order in which the rooms have come and
gone.  The last one that is still to be made for a scope tells how the scope
stands; where none is left, the consumer does.  That is so as long as the
callbacks of one scope are made in their order (`InOrder`), which nothing sees
to: a stop may overtake a later start (`stopOvertakes`).
-/

namespace ClawMessenger.Ports.RealtimeHub

open ClawMessenger.Verified Machine RoomIndex List

variable {s s' : State}

def Callback.key : Callback → ScopeKey
  | .onFirstSubscriber key => key
  | .onLastSubscriber key => key

def Callback.starts : Callback → Bool
  | .onFirstSubscriber _ => true
  | .onLastSubscriber _ => false

/-- The relay is wired to the hub and runs. -/
def State.Relays (s : State) : Prop :=
  s.callbacks = true ∧ s.relay.stopping = false ∧ s.relay.cancelled = false

/-- The pending callbacks and the consumers tell which rooms there are. -/
structure Matches (s : State) : Prop where
  tickets : ∀ t callback, s.pending.get? t = some callback → t < s.nextTicket
  latest : ∀ t callback, s.pending.get? t = some callback →
    (∀ t' callback', s.pending.get? t' = some callback' → callback'.key = callback.key → t' ≤ t) →
      callback.starts = s.rooms.has callback.key
  settled : ∀ key, (∀ t callback, s.pending.get? t = some callback → callback.key ≠ key) →
    (key ∈ s.relay.consumers ↔ s.rooms.has key = true)

/-- As long as the relay runs. -/
def Wired (s : State) : Prop := s.Relays → Matches s

theorem Wired.congr (h : Wired s) (hcallbacks : s'.callbacks = s.callbacks)
    (hrelay : s'.relay = s.relay) (hpending : s'.pending = s.pending)
    (hnext : s'.nextTicket = s.nextTicket) (hrooms : ∀ key, s'.rooms.has key = s.rooms.has key) :
    Wired s' := by
  intro hrelays
  unfold State.Relays at hrelays
  rw [hcallbacks, hrelay] at hrelays
  have hmatches := h hrelays
  apply Matches.mk
  · rw [hpending, hnext]
    exact hmatches.tickets
  · rw [hpending]
    simp only [hrooms]
    exact hmatches.latest
  · rw [hpending, hrelay]
    simp only [hrooms]
    exact hmatches.settled

/-! ## Owing callbacks -/

theorem get?_owed (calls : List Callback) (pending : OrderedMap Nat Callback) (n : Nat)
    (hlt : ∀ t callback, pending.get? t = some callback → t < n) (t : Nat) (callback : Callback) :
    ((calls.zipIdx n).foldl (fun p call => p.set call.2 call.1) pending).get? t = some callback ↔
      pending.get? t = some callback ∨ ∃ i, calls[i]? = some callback ∧ t = n + i := by
  induction calls generalizing pending n with
  | nil => simp
  | cons first calls ih =>
    have hlt' : ∀ t callback, (pending.set n first).get? t = some callback → t < n + 1 := by
      intro t callback hget
      rcases OrderedMap.get?_set_cases hget with ⟨rfl, _⟩ | ⟨_, hold⟩
      · exact Nat.lt_succ_self _
      · exact Nat.lt_succ_of_lt (hlt t callback hold)
    rw [zipIdx_cons, foldl_cons, ih (pending.set n first) (n + 1) hlt',
      OrderedMap.get?_set]
    constructor
    · rintro (hset | ⟨i, hi, rfl⟩)
      · by_cases hn : t = n
        · rw [if_pos hn, Option.some.injEq] at hset
          exact .inr ⟨0, by rw [← hset]; rfl, hn⟩
        · rw [if_neg hn] at hset
          exact .inl hset
      · exact .inr ⟨i + 1, hi, by omega⟩
    · rintro (hold | ⟨i, hi, rfl⟩)
      · have hne := Nat.ne_of_lt (hlt t callback hold)
        left
        rw [if_neg hne]
        exact hold
      · cases i with
        | zero =>
          left
          rw [Nat.add_zero, if_pos rfl]
          exact hi
        | succ i => exact .inr ⟨i, hi, by omega⟩

/-- A change of the rooms, and the callbacks that tell of it. -/
structure Turns (s s' : State) (calls : List Callback) : Prop where
  has : ∀ key, (∀ callback ∈ calls, callback.key ≠ key) → s'.rooms.has key = s.rooms.has key
  told : ∀ callback ∈ calls, callback.starts = s'.rooms.has callback.key
  pending : s'.pending = s.pending
  nextTicket : s'.nextTicket = s.nextTicket
  relay : s'.relay = s.relay
  callbacks : s'.callbacks = s.callbacks

theorem Matches.turn (h : Matches s) {calls : List Callback} (hturns : Turns s s' calls)
    (hset : s'.callbacks = true) : Matches (s'.owe calls).2 := by
  rw [State.owe, if_pos hset]
  have hlt : ∀ t callback, s'.pending.get? t = some callback → t < s'.nextTicket := by
    rw [hturns.pending, hturns.nextTicket]
    exact h.tickets
  have hget := get?_owed calls s'.pending s'.nextTicket hlt
  apply Matches.mk
  · intro t callback hpending
    show t < s'.nextTicket + calls.length
    rcases (hget t callback).mp hpending with hold | ⟨i, hi, rfl⟩
    · have hbefore := hlt t callback hold
      omega
    · have hlength := (List.getElem?_eq_some_iff.mp hi).1
      omega
  · intro t callback hpending hlatest
    rcases (hget t callback).mp hpending with hold | ⟨i, hi, rfl⟩
    · -- An older one is the last of its scope only where no new one is about it.
      have hnone : ∀ new ∈ calls, new.key ≠ callback.key := by
        intro new hnew heq
        obtain ⟨i, hi, hnew⟩ := List.getElem_of_mem hnew
        have hnext := hlatest (s'.nextTicket + i) new
          ((hget _ _).mpr (.inr ⟨i, by rw [List.getElem?_eq_getElem hi, hnew], rfl⟩)) heq
        have hbefore := hlt t callback hold
        omega
      rw [hturns.has _ hnone]
      apply h.latest t callback (hturns.pending ▸ hold)
      intro t' callback' hold'
      exact hlatest t' callback' ((hget _ _).mpr (.inl (hturns.pending ▸ hold')))
    · exact hturns.told callback (List.mem_of_getElem? hi)
  · intro key hnone
    have hquiet : ∀ callback ∈ calls, callback.key ≠ key := by
      intro callback hmem
      obtain ⟨i, hi, hcallback⟩ := List.getElem_of_mem hmem
      exact hnone (s'.nextTicket + i) callback
        ((hget _ _).mpr (.inr ⟨i, by rw [List.getElem?_eq_getElem hi, hcallback], rfl⟩))
    rw [hturns.relay, hturns.has key hquiet]
    apply h.settled
    intro t callback hold
    exact hnone t callback ((hget _ _).mpr (.inl (hturns.pending ▸ hold)))

/-! ## Making a callback -/

theorem mem_call {relay : Relay} (hruns : relay.stopping = false ∧ relay.cancelled = false)
    (callback : Callback) (key : ScopeKey) : key ∈ (relay.call callback).consumers ↔
      if key = callback.key then callback.starts = true else key ∈ relay.consumers := by
  cases callback with
  | onFirstSubscriber started =>
    simp only [Relay.call, startConsumer, hruns.1, hruns.2, Bool.or_self, Bool.false_eq_true,
      if_false, Callback.key, Callback.starts]
    by_cases hmem : started ∈ relay.consumers
    · rw [if_pos hmem]
      by_cases hkey : key = started
      · simp [hkey, hmem]
      · simp [hkey]
    · rw [if_neg hmem]
      by_cases hkey : key = started
      · simp [hkey]
      · simp [hkey]
  | onLastSubscriber stopped =>
    simp only [Relay.call, stopConsumer, Callback.key, Callback.starts, mem_filter]
    by_cases hkey : key = stopped
    · simp [hkey]
    · simp [hkey]

/-- The next callback of its scope brings the consumer where the scope stands,
or leaves that to a later one. -/
theorem Matches.callBack (h : Matches s) (hruns : s.relay.stopping = false ∧ s.relay.cancelled = false)
    (ticket : Nat) (horder : ∀ callback, s.pending.get? ticket = some callback →
      ∀ t callback', s.pending.get? t = some callback' → callback'.key = callback.key →
        ticket ≤ t) : Matches (s.callBack ticket) := by
  unfold State.callBack
  cases hticket : s.pending.get? ticket with
  | none => exact h
  | some callback =>
    have hback : ∀ t other, (s.pending.erase ticket).get? t = some other →
        t ≠ ticket ∧ s.pending.get? t = some other :=
      fun t other hget => OrderedMap.get?_erase_cases hget
    have hforth : ∀ t other, t ≠ ticket → s.pending.get? t = some other →
        (s.pending.erase ticket).get? t = some other := by
      intro t other hne hget
      rw [OrderedMap.get?_erase_ne _ hne]
      exact hget
    apply Matches.mk
    · intro t other hget
      exact h.tickets t other (hback t other hget).2
    · intro t other hget hlatest
      obtain ⟨hne, hold⟩ := hback t other hget
      apply h.latest t other hold
      intro t' other' hold' hkey
      by_cases ht' : t' = ticket
      · subst ht'
        rw [hticket, Option.some.injEq] at hold'
        subst hold'
        exact horder callback hticket t other hold hkey.symm
      · exact hlatest t' other' (hforth t' other' ht' hold') hkey
    · intro key hnone
      rw [mem_call hruns]
      by_cases hkey : key = callback.key
      · rw [if_pos hkey, hkey, h.latest ticket callback hticket]
        -- The callback is the only one of its scope.
        intro t' other' hold' hsame
        by_cases ht' : t' = ticket
        · exact Nat.le_of_eq ht'
        · exact absurd (hsame.trans hkey.symm) (hnone t' other' (hforth t' other' ht' hold'))
      · rw [if_neg hkey]
        apply h.settled
        intro t other hold
        by_cases ht : t = ticket
        · subst ht
          rw [hticket, Option.some.injEq] at hold
          subst hold
          exact fun heq => hkey heq.symm
        · exact hnone t other (hforth t other ht hold)

/-! ## The operations under the lock -/

theorem Wired.turn (h : Wired s) {calls : List Callback} (hturns : Turns s s' calls) :
    Wired (s'.owe calls).2 := by
  intro hrelays
  rw [owe_eq] at hrelays
  obtain ⟨hset, hruns⟩ := hrelays
  have hset' : s'.callbacks = true := hset
  have hold : s.Relays := ⟨hturns.callbacks ▸ hset', hturns.relay ▸ hruns⟩
  exact (h hold).turn hturns hset'

theorem Wired.subscribe (h : Wired s) (i : Nat) (key : ScopeKey) :
    Wired (subscribe s i key).2 := by
  apply subscribe_elim h
  rintro c _ _ _ _ rfl
  have hhas : ∀ k, (join s.rooms key i).2.has k = (decide (k = key) || s.rooms.has k) :=
    fun k => has_join
  constructor
  · intro hfirst
    apply h.turn
    refine ⟨?_, ?_, rfl, rfl, rfl, rfl⟩
    · intro k hk
      have hne : key ≠ k := hk (.onFirstSubscriber key) (mem_singleton_self _)
      show (join s.rooms key i).2.has k = s.rooms.has k
      rw [hhas, decide_eq_false (Ne.symm hne), Bool.false_or]
    · intro callback hmem
      rw [mem_singleton] at hmem
      subst hmem
      show true = (join s.rooms key i).2.has key
      rw [hhas, decide_eq_true rfl, Bool.true_or]
  · intro hfirst
    have hthere : s.rooms.has key = true := by
      rw [join_new] at hfirst
      simpa using hfirst
    refine h.congr rfl rfl rfl rfl ?_
    intro k
    show (join s.rooms key i).2.has k = s.rooms.has k
    rw [hhas]
    by_cases hk : k = key
    · rw [hk, hthere, Bool.or_true]
    · rw [decide_eq_false hk, Bool.false_or]

theorem Wired.unsubscribe (h : Wired s) (i : Nat) (key : ScopeKey) :
    Wired (unsubscribe s i key).2 := by
  apply unsubscribe_elim h
  rintro c _ _ _ rfl
  have hhas : ∀ k, (leave s.rooms key i).2.has k =
      (s.rooms.has k && !(decide (k = key) && (leave s.rooms key i).1)) := fun k => has_leave
  constructor
  · intro hlast
    apply h.turn
    refine ⟨?_, ?_, rfl, rfl, rfl, rfl⟩
    · intro k hk
      have hne : key ≠ k := hk (.onLastSubscriber key) (mem_singleton_self _)
      show (leave s.rooms key i).2.has k = s.rooms.has k
      rw [hhas, decide_eq_false (Ne.symm hne), Bool.false_and, Bool.not_false, Bool.and_true]
    · intro callback hmem
      rw [mem_singleton] at hmem
      subst hmem
      show false = (leave s.rooms key i).2.has key
      rw [hhas, decide_eq_true rfl, hlast, Bool.true_and, Bool.not_true, Bool.and_false]
  · intro hlast
    refine h.congr rfl rfl rfl rfl ?_
    intro k
    show (leave s.rooms key i).2.has k = s.rooms.has k
    rw [hhas, hlast, Bool.and_false, Bool.not_false, Bool.and_true]

/-- Of the rooms those are gone that are reported, and nothing else has happened
to what the relay knows. -/
structure Empties (s s' : State) (emptied : List ScopeKey) : Prop where
  has : ∀ key, s'.rooms.has key = (s.rooms.has key && !decide (key ∈ emptied))
  pending : s'.pending = s.pending
  nextTicket : s'.nextTicket = s.nextTicket
  relay : s'.relay = s.relay
  callbacks : s'.callbacks = s.callbacks

theorem empties_refl (s : State) : Empties s s [] :=
  ⟨fun key => by simp, rfl, rfl, rfl, rfl⟩

theorem drop_empties (s : State) (i : Nat) : Empties s (drop s i).2 (drop s i).1 := by
  unfold drop
  by_cases hin : i ∉ s.clients
  · rw [if_pos hin]
    exact empties_refl s
  · rw [if_neg hin]
    cases hget : s.objects.get? i with
    | none => exact empties_refl s
    | some c => exact ⟨fun key => has_leaveAll, rfl, rfl, rfl, rfl⟩

theorem dropAll_empties (s : State) (slow : List Nat) :
    Empties s (dropAll s slow).2 (dropAll s slow).1 := by
  induction slow generalizing s with
  | nil => exact empties_refl s
  | cons i slow ih =>
    have hfirst := drop_empties s i
    have hrest := ih (drop s i).2
    refine ⟨?_, hrest.pending.trans hfirst.pending, hrest.nextTicket.trans hfirst.nextTicket,
      hrest.relay.trans hfirst.relay, hrest.callbacks.trans hfirst.callbacks⟩
    intro key
    show (dropAll (drop s i).2 slow).2.rooms.has key =
      (s.rooms.has key && !decide (key ∈ (drop s i).1 ++ (dropAll (drop s i).2 slow).1))
    rw [hrest.has, hfirst.has]
    simp [Bool.and_assoc]

theorem Wired.empties (h : Wired s) {emptied : List ScopeKey} (hempties : Empties s s' emptied) :
    Wired (s'.owe (emptied.map .onLastSubscriber)).2 := by
  apply h.turn
  refine ⟨?_, ?_, hempties.pending, hempties.nextTicket, hempties.relay, hempties.callbacks⟩
  · intro key hkey
    have hnot : key ∉ emptied := fun hmem => hkey _ (mem_map_of_mem hmem) rfl
    rw [hempties.has, decide_eq_false hnot, Bool.not_false, Bool.and_true]
  · intro callback hmem
    obtain ⟨key, hkey, rfl⟩ := mem_map.mp hmem
    show false = s'.rooms.has key
    rw [hempties.has, decide_eq_true hkey, Bool.not_true, Bool.and_false]

/-! ## Steps -/

/-- What is asked of a step: no callback is made while an older one of its scope
is still to be made. -/
def InOrder (c : Cfg) (action : Action) : Prop :=
  ∀ ticket, c.state.calls action = some ticket →
    ∀ callback, c.state.pending.get? ticket = some callback →
      ∀ t callback', c.state.pending.get? t = some callback' → callback'.key = callback.key →
        ticket ≤ t

theorem callBack_relay (s : State) (ticket : Nat) :
    (s.callBack ticket).callbacks = s.callbacks ∧
      (s.callBack ticket).relay.stopping = s.relay.stopping ∧
        (s.callBack ticket).relay.cancelled = s.relay.cancelled := by
  unfold State.callBack
  cases s.pending.get? ticket with
  | none => exact ⟨rfl, rfl, rfl⟩
  | some callback =>
    refine ⟨rfl, ?_⟩
    cases callback with
    | onFirstSubscriber key =>
      show (startConsumer s.relay key).stopping = _ ∧ (startConsumer s.relay key).cancelled = _
      unfold startConsumer
      by_cases hdone : (s.relay.stopping || s.relay.cancelled) = true
      · rw [if_pos hdone]
        exact ⟨rfl, rfl⟩
      · rw [if_neg hdone]
        by_cases hmem : key ∈ s.relay.consumers
        · rw [if_pos hmem]
          exact ⟨rfl, rfl⟩
        · rw [if_neg hmem]
          exact ⟨rfl, rfl⟩
    | onLastSubscriber key => exact ⟨rfl, rfl⟩

theorem Wired.callBack (h : Wired s) (ticket : Nat)
    (horder : ∀ callback, s.pending.get? ticket = some callback →
      ∀ t callback', s.pending.get? t = some callback' → callback'.key = callback.key →
        ticket ≤ t) : Wired (s.callBack ticket) := by
  intro hrelays
  unfold State.Relays at hrelays
  obtain ⟨hcallbacks, hstopping, hcancelled⟩ := callBack_relay s ticket
  rw [hcallbacks, hstopping, hcancelled] at hrelays
  exact (h hrelays).callBack hrelays.2 ticket horder

/-- What the relay knows and which rooms there are is all that matters. -/
theorem Wired.same (h : Wired s) (hcallbacks : s'.callbacks = s.callbacks)
    (hrelay : s'.relay = s.relay) (hpending : s'.pending = s.pending)
    (hnext : s'.nextTicket = s.nextTicket) (hrooms : s'.rooms = s.rooms) : Wired s' :=
  h.congr hcallbacks hrelay hpending hnext (fun key => by rw [hrooms])

theorem Wired.handleFrame (h : Wired s) (i : Nat) (c : Client) (frame : Frame) :
    Wired (handleFrame s i c frame).2 :=
  handleFrame_elim h (h.subscribe i) (h.unsubscribe i)

theorem Wired.stepped {c : Cfg} (h : Wired c.state) {action : Action} (horder : InOrder c action)
    (hs : Stepped c.state action s') : Wired s' := by
  cases hs with
  | stay => exact h
  | connect | unregister | broadcast | register => exact h.same rfl rfl rfl rfl rfl
  | subscribe i key => exact (h.subscribe i key).same rfl rfl rfl rfl rfl
  | @remove i =>
    have hremoved : Wired (removeClient c.state i).2 := h.empties (drop_empties c.state i)
    exact hremoved.same rfl rfl rfl rfl rfl
  | runCall hcalls => exact (h.callBack _ (horder _ hcalls)).same rfl rfl rfl rfl rfl
  | runIdle | frame => exact h.same rfl rfl rfl rfl rfl
  | handleGone i obj frame => exact h.handleFrame i obj frame
  | @handle i obj _ frame => exact (h.handleFrame i obj frame).same rfl rfl rfl rfl rfl
  | answer =>
    apply sendJSON_elim
    · exact fun _ => h.same rfl rfl rfl rfl rfl
    · exact h.same rfl rfl rfl rfl rfl
    · exact h.same rfl rfl rfl rfl rfl
  | readCall hcalls => exact (h.callBack _ (horder _ hcalls)).same rfl rfl rfl rfl rfl
  | hangUp | write | fanOut => exact h.same rfl rfl rfl rfl rfl
  | visit =>
    apply visit_elim h
    · exact h.same rfl rfl rfl rfl rfl
    · exact fun _ _ _ => h.same rfl rfl rfl rfl rfl
  | finish => exact h.same rfl rfl rfl rfl rfl
  | send =>
    apply sendEvent_elim h
    · exact fun _ _ _ => h.same rfl rfl rfl rfl rfl
    · exact fun _ _ => h.same rfl rfl rfl rfl rfl
    · exact h.same rfl rfl rfl rfl rfl
  | @evict fanout f slow =>
    have hevicted : Wired (evictSlow c.state slow).2 := h.empties (dropAll_empties c.state slow)
    exact hevicted.same rfl rfl rfl rfl rfl
  | fanCall hcalls => exact (h.callBack _ (horder _ hcalls)).same rfl rfl rfl rfl rfl
  | fanDone => exact h.same rfl rfl rfl rfl rfl
  | unset =>
    intro hrelays
    have habsurd : false = true := hrelays.1
    cases habsurd
  | stopRelay =>
    intro hrelays
    have habsurd : true = false := hrelays.2.1
    cases habsurd
  | cancelRelay =>
    intro hrelays
    have habsurd : true = false := hrelays.2.2
    cases habsurd

/-- In a run in which the callbacks of a scope are made in the order of the
changes they tell of, and while the relay runs: whenever none is pending, there
is a consumer for the scopes that have a subscriber, and for no other. -/
theorem consumers_match {c : Cfg} (h : Reach step InOrder (start init) c)
    (hrelays : c.state.Relays) (hidle : ∀ ticket, c.state.pending.get? ticket = none)
    (key : ScopeKey) :
    key ∈ c.state.relay.consumers ↔ ∃ i, i ∈ members c.state.rooms key := by
  have hwired : Wired c.state := by
    apply Reach.invariant (I := fun c => Wired c.state) _ h
    · intro _
      exact ⟨nofun, nofun, fun key _ => ⟨nofun, nofun⟩⟩
    · intro d action horder hd
      show Wired (step d.state action).2
      unfold step
      by_cases hcrashed : d.state.crashed = true
      · rw [if_pos hcrashed]
        exact hd
      · rw [if_neg hcrashed]
        exact hd.stepped horder (next_stepped _ _)
  have hsettled := (hwired hrelays).settled key (fun t callback hget => by
    rw [hidle t] at hget
    cases hget)
  rw [hsettled]
  constructor
  · intro hhas
    cases hget : c.state.rooms.get? key with
    | none =>
      rw [OrderedMap.has, hget] at hhas
      cases hhas
    | some room =>
      obtain ⟨i, hi⟩ := exists_mem_of_ne_nil room
        ((structured_of_reach h).noneEmpty key room hget)
      exact ⟨i, members_of_get? hget ▸ hi⟩
  · rintro ⟨i, hi⟩
    exact has_of_mem hi

instance decidableInOrder (c : Cfg) (action : Action) : Decidable (InOrder c action) :=
  decidable_of_iff
    (∀ ticket ∈ c.state.calls action, ∀ callback ∈ c.state.pending.get? ticket,
      ∀ e ∈ c.state.pending.entries, e.2.key = callback.key → ticket ≤ e.1)
    ⟨fun h ticket hticket callback hcallback t other hother =>
        h ticket hticket callback hcallback (t, other) (OrderedMap.get?_eq_some_iff.mp hother),
      fun h ticket hticket callback hcallback e he =>
        h ticket hticket callback hcallback e.1 e.2 (OrderedMap.get?_eq_some_iff.mpr he)⟩

theorem no_callback_of_entries (h : s.pending.entries = []) (ticket : Nat) :
    s.pending.get? ticket = none := by
  rw [OrderedMap.get?, h]
  rfl

def task : ScopeKey := ⟨scopeTask, "task"⟩

/-- The first of two clients comes and goes, the second stays, and each callback
is made at once. -/
def inTurn : List Action :=
  connected ++ connected ++
    [Action.frame 0 (.subscribe task true), .read 0, .read 0, .read 0, .frame 0 (.unsubscribe task),
      .read 0, .read 0, .read 0, .frame 1 (.subscribe task true), .read 1, .read 1, .read 1]

theorem consumers_match_inTurn :
    ∃ i, i ∈ members (exec step (start init) inTurn).state.rooms task :=
  (consumers_match (reach_exec (by decide +kernel))
    (show _ ∧ _ ∧ _ by decide +kernel) (no_callback_of_entries (by decide +kernel)) task).mp
      (by decide +kernel)

/-- The first client leaves the room, the second enters it, and the callback of
the second is made before that of the first. -/
def stopOvertakes : List Action :=
  connected ++ connected ++
    [Action.frame 0 (.subscribe task true), .read 0, .read 0, .read 0, .frame 0 (.unsubscribe task),
      .read 0, .frame 1 (.subscribe task true), .read 1, .read 1, .read 0, .read 0, .read 1]

theorem stopOvertakes_unmatched :
    Reach step (fun _ _ => True) (start init)
        (exec step (start init) stopOvertakes) ∧
      (exec step (start init) stopOvertakes).state.Relays ∧
        (∀ ticket,
          (exec step (start init) stopOvertakes).state.pending.get? ticket = none) ∧
        1 ∈ members (exec step (start init) stopOvertakes).state.rooms task ∧
          task ∉ (exec step (start init) stopOvertakes).state.relay.consumers :=
  ⟨reach_exec (allAllowed_of_forall (fun _ _ => trivial) _ _),
    show _ ∧ _ ∧ _ by decide +kernel, no_callback_of_entries (by decide +kernel),
    by decide +kernel, by decide +kernel⟩

end ClawMessenger.Ports.RealtimeHub
