import ClawMessenger.Ports.RealtimeHubSends

/-!
# Fan-outs come to an end

A fan-out keeps its event and the clients it is for (`Runs`).  None can hold
another up for good: the ones that hold the lock need nobody else to give it
back, and once it is free the others evict and make their callbacks.  So a hub
that has not crashed can finish all of them, by steps of the fan-outs alone
(`fanouts_end`).
-/

namespace ClawMessenger.Ports.RealtimeHub

open ClawMessenger.Verified Machine
open OrderedMap (get?_set_ne get?_set_self)

variable {s s' : State} {fanout : Nat} {f : Fanout}

/-! ## What a fan-out is for -/

/-- The fan-out of the event was begun, for these clients. -/
def Runs (fanout : Nat) (e : Event) (clients : List Nat) (s : State) : Prop :=
  fanout < s.nextFanout ∧
    ∃ f, s.fanouts.get? fanout = some f ∧ f.event = e ∧ f.clients = clients

variable {e : Event} {clients : List Nat}

theorem Runs.congr (h : Runs fanout e clients s) (hfanouts : s'.fanouts = s.fanouts)
    (hnext : s'.nextFanout = s.nextFanout) : Runs fanout e clients s' := by
  rw [Runs, hfanouts, hnext]
  exact h

theorem Runs.setPhase {other : Nat} (h : Runs fanout e clients s)
    (hget : s.fanouts.get? other = some f) (phase : Phase) :
    Runs fanout e clients (s.setPhase other f phase) := by
  obtain ⟨hlt, fo, hfo, hevent, hclients⟩ := h
  refine ⟨hlt, ?_⟩
  by_cases hsame : fanout = other
  · subst hsame
    rw [hget, Option.some.injEq] at hfo
    subst hfo
    exact ⟨_, get?_set_self _ _ _, hevent, hclients⟩
  · exact ⟨fo, (get?_set_ne _ _ hsame).trans hfo, hevent, hclients⟩

theorem Runs.fanOut (h : Runs fanout e clients s) (e' : Event) :
    Runs fanout e clients (s.fanOut e') := by
  obtain ⟨hlt, fo, hfo, hkept⟩ := h
  exact ⟨Nat.lt_succ_of_lt hlt, fo, (get?_set_ne _ _ (Nat.ne_of_lt hlt)).trans hfo, hkept⟩

theorem runs_fanOut (s : State) (e : Event) :
    Runs s.nextFanout e (s.targets e.target) (s.fanOut e) :=
  ⟨Nat.lt_succ_self _, _, get?_set_self _ _ _, rfl, rfl⟩

theorem callBack_fanouts (s : State) (ticket : Nat) :
    (s.callBack ticket).fanouts = s.fanouts ∧ (s.callBack ticket).nextFanout = s.nextFanout ∧
      (s.callBack ticket).crashed = s.crashed := by
  rw [callBack_eq]
  exact ⟨rfl, rfl, rfl⟩

theorem Runs.stepped (h : Runs fanout e clients s) (hstructured : Structured s) {action : Action}
    (hs : Stepped s action s') : Runs fanout e clients s' := by
  have hcalled : ∀ ticket, Runs fanout e clients (s.callBack ticket) :=
    fun ticket => h.congr (callBack_fanouts s ticket).1 (callBack_fanouts s ticket).2.1
  cases hs with
  | broadcast => exact h.fanOut _
  | fanOut e' => exact h.fanOut e'
  | subscribe i key =>
    have hs := subscribe_reindexes s i key
    exact h.congr hs.fanouts hs.nextFanout
  | @remove i =>
    have hs := (drop_drops s i).owe ((drop s i).1.map .onLastSubscriber)
    exact h.congr hs.fanouts hs.nextFanout
  | runCall => exact hcalled _
  | handleGone i c frame =>
    have hs := handleFrame_reindexes s i c frame
    exact h.congr hs.fanouts hs.nextFanout
  | @handle i c _ frame =>
    have hs := handleFrame_reindexes s i c frame
    exact h.congr hs.fanouts hs.nextFanout
  | @answer i c => exact sendJSON_elim (fun _ => h.congr rfl rfl) (h.congr rfl rfl) (h.congr rfl rfl)
  | readCall => exact hcalled _
  | @visit fanout' i f' left slow hget =>
    apply visit_elim h (h.setPhase hget _)
    intro c _ _
    have hput : Runs fanout e clients (s.putClient i (c.markSeen f'.event.id).2) := h.congr rfl rfl
    exact hput.setPhase hget _
  | finish hget => exact h.setPhase hget _
  | @send fanout' i f' left slow hget =>
    apply sendEvent_elim h
    · exact fun _ _ _ => h.congr rfl rfl
    · intro c _
      have hput := h.congr rfl rfl
      exact hput.setPhase hget _
    · exact h.setPhase hget _
  | @evict fanout' f' slow hget _ hfree =>
    have hdrops := (dropAll_drops hstructured hfree slow).owe
      ((dropAll s slow).1.map .onLastSubscriber)
    have hget' : (evictSlow s slow).2.fanouts.get? fanout' = some f' := by
      rw [show (evictSlow s slow).2.fanouts = s.fanouts from hdrops.fanouts]
      exact hget
    have hevicted : Runs fanout e clients (evictSlow s slow).2 :=
      h.congr hdrops.fanouts hdrops.nextFanout
    exact hevicted.setPhase hget' _
  | @fanCall _ _ ticket _ _ hget =>
    apply (hcalled ticket).setPhase
    rw [(callBack_fanouts s ticket).1]
    exact hget
  | fanDone hget => exact h.setPhase hget _
  | _ => exact h.congr rfl rfl

theorem Runs.reach {allowed : Cfg → Action → Prop} {c c' : Cfg} (hstructured : Structured c.state)
    (hruns : Runs fanout e clients c.state) (h : Reach step allowed c c') :
    Runs fanout e clients c'.state := by
  have hboth : Structured c'.state ∧ Runs fanout e clients c'.state := by
    apply Reach.invariant
      (I := fun c => Structured c.state ∧ Runs fanout e clients c.state) _ h ⟨hstructured, hruns⟩
    intro d action _ hd
    refine ⟨hd.1.step action, ?_⟩
    show Runs fanout e clients (step d.state action).2
    unfold step
    by_cases hcrashed : d.state.crashed = true
    · rw [if_pos hcrashed]
      exact hd.2
    · rw [if_neg hcrashed]
      exact hd.2.stepped hd.1 (next_stepped _ action)
  exact hboth.2

/-! ## How far a fan-out is -/

/-- The steps of the fan-outs. -/
def Action.OfFanout : Action → Prop
  | .visit _ _ => True
  | .fan _ => True
  | _ => False

/-- What is left to do under the lock, with one step more for the eviction. -/
def Fanout.work (f : Fanout) : Nat :=
  match f.phase with
  | .iterating left _ => 2 * left.length + 2
  | .sending _ left _ => 2 * left.length + 3
  | .evicting _ => 1
  | _ => 0

/-- The callbacks left to make. -/
def Fanout.calls (f : Fanout) : Nat :=
  match f.phase with
  | .calling tickets => tickets.length + 1
  | _ => 0

/-- The work and the callbacks of all fan-outs. -/
def State.underway (s : State) : ℕ ×ₗ ℕ :=
  toLex (s.fanouts.total Fanout.work, s.fanouts.total Fanout.calls)

/-- A fan-out has got on. -/
def Fanout.Ahead (f f' : Fanout) : Prop :=
  f'.work < f.work ∨ f'.work = f.work ∧ f'.calls < f.calls

theorem underway_lt {f' : Fanout} (hget : s.fanouts.get? fanout = some f)
    (hset : s'.fanouts = s.fanouts.set fanout f') (hahead : f.Ahead f') :
    s'.underway < s.underway := by
  have hwork := s.fanouts.total_set Fanout.work fanout f'
  have hcalls := s.fanouts.total_set Fanout.calls fanout f'
  rw [OrderedMap.weightAt_of_get? _ hget] at hwork hcalls
  rw [State.underway, State.underway, hset, Prod.Lex.toLex_lt_toLex]
  rcases hahead with hless | ⟨hsame, hless⟩
  · left
    omega
  · right
    omega

/-- A step of a fan-out that gets on and does not panic. -/
def Moves (s : State) (fanout : Nat) (f : Fanout) : Prop :=
  ∃ action : Action, action.OfFanout ∧ (next s action).crashed = s.crashed ∧
    ∃ phase, (next s action).fanouts = s.fanouts.set fanout { f with phase := phase } ∧
      f.Ahead { f with phase := phase }

variable {left : List Nat}

theorem length_rest_lt {i : Nat} (h : i ∈ left) :
    (left.filter fun other => other ≠ i).length < left.length := by
  apply List.length_filter_lt_length_iff_exists.mpr
  exact ⟨i, h, by simp⟩

variable {slow : List Nat}

/-- A fan-out that holds the lock looks at the next client. -/
theorem moves_iterating (h : Structured s) (hget : s.fanouts.get? fanout = some f)
    (hphase : f.phase = .iterating left slow) :
    Moves s fanout f := by
  cases left with
  | nil =>
    refine ⟨.fan fanout, trivial, ?_, if slow = [] then .done else .evicting slow, ?_, ?_⟩
    · simp only [next, hget, fanStep, hphase]
      rfl
    · simp only [next, hget, fanStep, hphase]
      rfl
    · left
      by_cases hslow : slow = []
      · simp [Fanout.work, hphase, hslow]
      · simp [Fanout.work, hphase, hslow]
  | cons i rest =>
    have hmem : i ∈ i :: rest := List.mem_cons_self
    have hshort := length_rest_lt hmem
    obtain ⟨c, hc, _⟩ := h.present i (h.ahead fanout f hget i (by rw [hphase]; exact hmem))
    generalize i :: rest = left at hphase hmem hshort
    by_cases hexcluded : c.excluded f.event = true
    · refine ⟨.visit fanout i, trivial, ?_, .iterating (left.filter fun other => other ≠ i) slow,
        ?_, ?_⟩
      · simp only [next, hget, hphase, visit, hmem, hc, hexcluded, not_true_eq_false, if_true,
          if_false]
        rfl
      · simp only [next, hget, hphase, visit, hmem, hc, hexcluded, not_true_eq_false, if_true,
          if_false]
        rfl
      · left
        simp only [Fanout.work, hphase]
        omega
    · refine ⟨.visit fanout i, trivial, ?_, if (c.markSeen f.event.id).1
          then .sending i (left.filter fun other => other ≠ i) slow
          else .iterating (left.filter fun other => other ≠ i) slow, ?_, ?_⟩
      · simp only [next, hget, hphase, visit, hmem, hc, hexcluded, not_true_eq_false, if_false]
        rfl
      · simp only [next, hget, hphase, visit, hmem, hc, hexcluded, not_true_eq_false, if_false]
        rfl
      · left
        by_cases hnew : (c.markSeen f.event.id).1 = true
        · simp only [Fanout.work, hphase, hnew, if_true]
          omega
        · simp only [Fanout.work, hphase, hnew, if_false, Bool.false_eq_true]
          omega

/-- It sends to a client that is in the hub. -/
theorem moves_sending {i : Nat} (h : Structured s) (hget : s.fanouts.get? fanout = some f)
    (hphase : f.phase = .sending i left slow) :
    Moves s fanout f := by
  have hin : i ∈ s.clients := by
    apply h.ahead fanout f hget
    rw [hphase]
    exact List.mem_cons_self
  obtain ⟨c, hc, hopen⟩ := h.present i hin
  have hnext : next s (.fan fanout) = sendEvent s fanout i f left slow := by
    simp only [next, hget, fanStep, hphase]
  have hless : ∀ slow', f.Ahead { f with phase := .iterating left slow' } := by
    intro slow'
    left
    simp only [Fanout.work, hphase]
    omega
  refine ⟨.fan fanout, trivial, ?_⟩
  rw [hnext, sendEvent, hc]
  dsimp only
  rw [hopen, if_neg Bool.false_ne_true]
  by_cases hroom : c.send.length < sendCapacity
  · rw [if_pos hroom]
    exact ⟨rfl, .iterating left slow, rfl, hless slow⟩
  · rw [if_neg hroom]
    exact ⟨rfl, .iterating left (slow ++ [i]), rfl, hless _⟩

theorem moves_evicting (h : Structured s) (hfree : s.unlocked = true)
    (hget : s.fanouts.get? fanout = some f) (hphase : f.phase = .evicting slow) :
    Moves s fanout f := by
  have hdrops := (dropAll_drops h hfree slow).owe ((dropAll s slow).1.map .onLastSubscriber)
  have hnext : next s (.fan fanout) =
      (evictSlow s slow).2.setPhase fanout f (.calling (evictSlow s slow).1) := by
    simp only [next, hget, fanStep, hphase, hfree, if_true]
  refine ⟨.fan fanout, trivial, ?_, .calling (evictSlow s slow).1, ?_, ?_⟩
  · rw [hnext]
    exact hdrops.crashed h.open
  · rw [hnext]
    exact congrArg (fun m : OrderedMap Nat Fanout => m.set fanout _) hdrops.fanouts
  · left
    simp only [Fanout.work, hphase]
    exact Nat.zero_lt_one

theorem moves_calling {tickets : List Nat} (hget : s.fanouts.get? fanout = some f)
    (hphase : f.phase = .calling tickets) : Moves s fanout f := by
  cases tickets with
  | nil =>
    have hnext : next s (.fan fanout) = s.setPhase fanout f .done := by
      simp only [next, hget, fanStep, hphase]
    refine ⟨.fan fanout, trivial, by rw [hnext]; rfl, .done, by rw [hnext]; rfl, ?_⟩
    right
    simp [Fanout.work, Fanout.calls, hphase]
  | cons ticket tickets =>
    have hnext : next s (.fan fanout) =
        (s.callBack ticket).setPhase fanout f (.calling tickets) := by
      simp only [next, hget, fanStep, hphase]
    obtain ⟨hfanouts, _, hcrashed⟩ := callBack_fanouts s ticket
    refine ⟨.fan fanout, trivial, ?_, .calling tickets, ?_, ?_⟩
    · rw [hnext]
      exact hcrashed
    · rw [hnext]
      exact congrArg (fun m : OrderedMap Nat Fanout => m.set fanout _) hfanouts
    · right
      simp [Fanout.work, Fanout.calls, hphase]

/-- Where some fan-out has not ended, one can get on: the one that holds the
lock, or any if nobody does. -/
theorem exists_moves (h : Structured s) (hget : s.fanouts.get? fanout = some f)
    (hphase : f.phase ≠ .done) :
    ∃ fanout f, s.fanouts.get? fanout = some f ∧ Moves s fanout f := by
  by_cases hfree : s.unlocked = true
  · refine ⟨fanout, f, hget, ?_⟩
    cases hat : f.phase with
    | iterating left slow => exact moves_iterating h hget hat
    | sending i left slow => exact moves_sending h hget hat
    | evicting slow => exact moves_evicting h hfree hget hat
    | calling tickets => exact moves_calling hget hat
    | done => exact absurd hat hphase
  · have hheld : ∃ fo ∈ s.fanouts.values, fo.phase.locked = true := by
      simpa [State.unlocked] using hfree
    obtain ⟨fo, hmem, hlocked⟩ := hheld
    obtain ⟨entry, hentry, rfl⟩ := List.mem_map.mp hmem
    have hfo := OrderedMap.get?_eq_some_iff.mpr hentry
    refine ⟨entry.1, entry.2, hfo, ?_⟩
    cases hat : entry.2.phase with
    | iterating left slow => exact moves_iterating h hfo hat
    | sending i left slow => exact moves_sending h hfo hat
    | evicting slow =>
      rw [hat] at hlocked
      cases hlocked
    | calling tickets => exact moves_calling hfo hat
    | done =>
      rw [hat] at hlocked
      cases hlocked

/-- No fan-out is underway. -/
def State.Calm (s : State) : Prop := ∀ fanout f, s.fanouts.get? fanout = some f → f.phase = .done

theorem fanouts_end {c : Cfg} (h : Structured c.state) (hcrashed : c.state.crashed = false) :
    ∃ c', Reach step (fun _ action => action.OfFanout) c c' ∧ c'.state.Calm := by
  apply exists_reach (fun d : Cfg => d.state.underway)
    (I := fun d => Structured d.state ∧ d.state.crashed = false) _ c ⟨h, hcrashed⟩
  intro d hd hbusy
  obtain ⟨fanout, f, hget, hphase⟩ :
      ∃ fanout f, d.state.fanouts.get? fanout = some f ∧ f.phase ≠ .done := by
    by_contra hnone
    apply hbusy
    intro fanout f hget
    by_contra hphase
    exact hnone ⟨fanout, f, hget, hphase⟩
  obtain ⟨fanout, f, hget, action, hof, hsame, phase, hset, hahead⟩ :=
    exists_moves hd.1 hget hphase
  have hnext : (step d.state action).2 = next d.state action := by
    rw [step, hd.2, if_neg Bool.false_ne_true]
  refine ⟨action, hof, ⟨hd.1.step action, ?_⟩, ?_⟩
  · show (step d.state action).2.crashed = false
    rw [hnext, hsame, hd.2]
  · show (step d.state action).2.underway < d.state.underway
    rw [hnext]
    exact underway_lt hget hset hahead

end ClawMessenger.Ports.RealtimeHub
