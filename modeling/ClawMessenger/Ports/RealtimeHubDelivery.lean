import ClawMessenger.Ports.RealtimeHubFanouts

/-!
# What a client receives

An event comes by two paths, and by the second one perhaps more than once.  The
relay repeats what the local fan-out did (`DualWrite.loopBack_eq`), so both are
fan-outs of one event.  Every client lets an id through once, as long as it
remembers it, and what is let through is on its way: it is being sent, it was
put into the channel, or the channel was full and the client is on the list of
some fan-out to be evicted (`Settled`).  So nothing is marked that is neither
delivered nor the end of the client.
-/

namespace ClawMessenger.Ports.RealtimeHub

open ClawMessenger.Verified Machine RoomIndex List
open OrderedMap (forall_set get? get?_set_cases get?_set_ne get?_set_self)
open Output (arrived enqueued)

variable {s s' : State} {out : List Output}

/-! ## The history of a client -/

/-- The ids that have reached a client. -/
def arrivedIds (out : List Output) (i : Nat) : List String :=
  out.filterMap fun o =>
    match o with
    | .arrived j id => if j = i ∧ id ≠ "" then some id else none
    | .enqueued _ _ => none

/-- The events put into its channel. -/
def received (out : List Output) (i : Nat) : List Event :=
  out.filterMap fun o =>
    match o with
    | .arrived _ _ => none
    | .enqueued j e => if j = i then some e else none

/-- What a client remembers, and what it has let through. -/
def window (out : List Output) (i : Nat) : List String × List String :=
  RecentIds.arrivals dedupCapacity (arrivedIds out i)

/-- How often the client has received the event. -/
def times (out : List Output) (i : Nat) (id : String) : Nat :=
  (received out i).countP fun e => e.id = id

theorem arrivedIds_append (out out' : List Output) (i : Nat) :
    arrivedIds (out ++ out') i = arrivedIds out i ++ arrivedIds out' i := filterMap_append

theorem received_append (out out' : List Output) (i : Nat) :
    received (out ++ out') i = received out i ++ received out' i := filterMap_append

/-! ## Fan-outs underway -/

def Phase.left : Phase → List Nat
  | .iterating left _ => left
  | .sending _ left _ => left
  | _ => []

def Phase.sendsTo : Phase → Option Nat
  | .sending client _ _ => some client
  | _ => none

/-- The clients to be evicted. -/
def Phase.slow : Phase → List Nat
  | .iterating _ slow => slow
  | .sending _ _ slow => slow
  | .evicting slow => slow
  | _ => []

def Fanout.sends (i : Nat) (id : String) (f : Fanout) : Nat :=
  if f.phase.sendsTo = some i ∧ f.event.id = id then 1 else 0

/-- The clients a fan-out has to do with. -/
def Fanout.Involves (f : Fanout) (i : Nat) : Prop :=
  i ∈ f.clients ∨ i ∈ f.phase.left ∨ f.phase.sendsTo = some i ∨ i ∈ f.phase.slow

/-- The channel of the client is closed. -/
def State.Closed (s : State) (i : Nat) : Prop :=
  ∀ c, s.objects.get? i = some c → c.closed = true

/-- What has become of an event that a client has let through. -/
def Settled (out : List Output) (s : State) (i : Nat) (id : String) : Prop :=
  (∃ e ∈ received out i, e.id = id) ∨ s.Closed i ∨
    (∃ f fo, s.fanouts.get? f = some fo ∧ fo.event.id = id ∧ fo.phase.sendsTo = some i) ∨
      ∃ f fo, s.fanouts.get? f = some fo ∧ i ∈ fo.phase.slow

structure Delivers (out : List Output) (s : State) : Prop where
  unborn : ∀ i, s.nextClient ≤ i → arrivedIds out i = [] ∧ received out i = []
  freshFanout : ∀ f, s.nextFanout ≤ f → s.fanouts.get? f = none
  involved : ∀ f fo, s.fanouts.get? f = some fo → ∀ i, fo.Involves i → i < s.nextClient
  seen : ∀ i c, s.objects.get? i = some c → c.seenList = (window out i).1
  counted : ∀ i id, id ≠ "" →
    times out i id + s.fanouts.total (Fanout.sends i id) ≤ (window out i).2.count id
  spared : ∀ i, ∀ e ∈ received out i, ∀ c, s.objects.get? i = some c → c.excluded e = false
  sending : ∀ f fo, s.fanouts.get? f = some fo → ∀ i, fo.phase.sendsTo = some i →
    ∀ c, s.objects.get? i = some c → c.excluded fo.event = false
  slowed : ∀ f fo, s.fanouts.get? f = some fo → ∀ i ∈ fo.phase.slow, i ∈ s.clients ∨ s.Closed i
  settled : ∀ i, ∀ id ∈ (window out i).2, Settled out s i id
  visited : ∀ f fo, s.fanouts.get? f = some fo → fo.event.id ≠ "" → ∀ i ∈ fo.clients,
    i ∈ fo.phase.left ∨ (∀ c, s.objects.get? i = some c → c.excluded fo.event = true) ∨
      fo.event.id ∈ (window out i).2

/-! ## Steps in which no fan-out moves -/

/-- Clients live on, with the ids they have seen; their channels may be closed. -/
structure Ages (s s' : State) : Prop where
  objects : ∀ i c', s'.objects.get? i = some c' → ∃ c, s.objects.get? i = some c ∧
    c'.workspaceID = c.workspaceID ∧ c'.seenList = c.seenList ∧
      (c.closed = true → c'.closed = true)
  clients : ∀ i ∈ s.clients, i ∈ s'.clients ∨ s'.Closed i

variable {c : Client} {i fanout : Nat} {id : String} {f : Fanout} {slow : List Nat}

variable {c' : Client}

theorem excluded_eq (h : c'.workspaceID = c.workspaceID) (e : Event) :
    c'.excluded e = c.excluded e := by
  rw [Client.excluded, Client.excluded, h]

theorem Ages.closed (h : Ages s s') (hclosed : s.Closed i) : s'.Closed i := by
  intro c' hc'
  obtain ⟨c, hc, _, _, hmono⟩ := h.objects i c' hc'
  exact hmono (hclosed c hc)

theorem Settled.ages (h : Ages s s') (hfanouts : s'.fanouts = s.fanouts)
    (hsettled : Settled out s i id) : Settled out s' i id := by
  rcases hsettled with hreceived | hclosed | hsending | hslow
  · exact .inl hreceived
  · exact .inr (.inl (h.closed hclosed))
  · rw [← hfanouts] at hsending
    exact .inr (.inr (.inl hsending))
  · rw [← hfanouts] at hslow
    exact .inr (.inr (.inr hslow))

theorem Delivers.ages (h : Delivers out s) (hages : Ages s s')
    (hnextClient : s'.nextClient = s.nextClient) (hfanouts : s'.fanouts = s.fanouts)
    (hnextFanout : s'.nextFanout = s.nextFanout) : Delivers out s' := by
  apply Delivers.mk
  · rw [hnextClient]
    exact h.unborn
  · rw [hnextFanout, hfanouts]
    exact h.freshFanout
  · rw [hnextClient, hfanouts]
    exact h.involved
  · intro i c' hc'
    obtain ⟨c, hc, _, hseen, _⟩ := hages.objects i c' hc'
    exact hseen.trans (h.seen i c hc)
  · rw [hfanouts]
    exact h.counted
  · intro i e he c' hc'
    obtain ⟨c, hc, hworkspace, _⟩ := hages.objects i c' hc'
    rw [excluded_eq hworkspace]
    exact h.spared i e he c hc
  · intro f fo hfo i hi c' hc'
    obtain ⟨c, hc, hworkspace, _⟩ := hages.objects i c' hc'
    rw [excluded_eq hworkspace]
    exact h.sending f fo (hfanouts ▸ hfo) i hi c hc
  · intro f fo hfo i hi
    rcases h.slowed f fo (hfanouts ▸ hfo) i hi with hin | hclosed
    · exact hages.clients i hin
    · exact .inr (hages.closed hclosed)
  · intro i id hid
    exact (h.settled i id hid).ages hages hfanouts
  · intro f fo hfo hid i hi
    rcases h.visited f fo (hfanouts ▸ hfo) hid i hi with hleft | hexcluded | haccepted
    · exact .inl hleft
    · right
      left
      intro c' hc'
      obtain ⟨c, hc, hworkspace, _⟩ := hages.objects i c' hc'
      rw [excluded_eq hworkspace]
      exact hexcluded c hc
    · exact .inr (.inr haccepted)

/-- Nothing about the clients has changed. -/
theorem ages_same (hobjects : s'.objects = s.objects) (hclients : ∀ i ∈ s.clients, i ∈ s'.clients) :
    Ages s s' := by
  refine ⟨?_, fun i hi => .inl (hclients i hi)⟩
  rw [hobjects]
  exact fun i c' hc' => ⟨c', hc', rfl, rfl, fun hclosed => hclosed⟩

theorem ages_put (hget : s.objects.get? i = some c) (hworkspace : c'.workspaceID = c.workspaceID)
    (hseen : c'.seenList = c.seenList) (hclosed : c'.closed = c.closed) :
    Ages s (s.putClient i c') := by
  refine ⟨?_, fun i hi => .inl hi⟩
  intro j d hd
  rcases get?_set_cases hd with ⟨rfl, rfl⟩ | ⟨_, hold⟩
  · exact ⟨c, hget, hworkspace, hseen, fun h => hclosed.trans h⟩
  · exact ⟨d, hold, rfl, rfl, fun h => h⟩

theorem Ages.trans {s'' : State} (h : Ages s s') (h' : Ages s' s'') : Ages s s'' := by
  constructor
  · intro i c'' hc''
    obtain ⟨c', hc', hworkspace', hseen', hclosed'⟩ := h'.objects i c'' hc''
    obtain ⟨c, hc, hworkspace, hseen, hclosed⟩ := h.objects i c' hc'
    exact ⟨c, hc, hworkspace'.trans hworkspace, hseen'.trans hseen,
      fun hold => hclosed' (hclosed hold)⟩
  · intro i hi
    rcases h.clients i hi with hin | hclosed
    · exact h'.clients i hin
    · exact .inr (h'.closed hclosed)

theorem Reindexes.ages (h : Reindexes s s') (hclients : s'.clients = s.clients) : Ages s s' := by
  constructor
  · intro i c' hc'
    obtain ⟨c, hc, heq⟩ := h.objects i c' hc'
    refine ⟨c, hc, ?_, ?_, ?_⟩
    · rw [heq]
    · rw [heq]
    · intro hclosed
      rw [heq]
      exact hclosed
  · intro i hi
    rw [hclients]
    exact .inl hi

/-- Whoever leaves the hub has its channel closed. -/
theorem drop_ages (s : State) (i : Nat) : Ages s (drop s i).2 ∧
    ((∃ c, s.objects.get? i = some c) → i ∉ (drop s i).2.clients) := by
  have hdrops := drop_drops s i
  constructor
  · constructor
    · intro j c' hc'
      obtain ⟨c, hc, heq, hclosed⟩ := hdrops.objects j c' hc'
      refine ⟨c, hc, ?_, ?_, ?_⟩
      · rw [heq]
      · rw [heq]
      · intro hold
        rcases hclosed with hsame | ⟨_, _, hdone⟩
        · exact hsame.trans hold
        · exact hdone
    · intro j hj
      unfold drop
      by_cases hin : i ∉ s.clients
      · rw [if_pos hin]
        exact .inl hj
      · rw [if_neg hin]
        cases hget : s.objects.get? i with
        | none => exact .inl hj
        | some c =>
          by_cases hji : j = i
          · right
            intro c' hc'
            have hset : (s.objects.set i { c with subscriptions := [], closed := true }).get? j =
                some c' := hc'
            rw [hji, get?_set_self, Option.some.injEq] at hset
            rw [← hset]
          · left
            rw [mem_filter, decide_eq_true_eq]
            exact ⟨hj, hji⟩
  · rintro ⟨c, hget⟩
    unfold drop
    by_cases hin : i ∉ s.clients
    · rw [if_pos hin]
      exact hin
    · rw [if_neg hin, hget]
      rw [mem_filter, decide_eq_true_eq]
      exact fun habsurd => habsurd.2 rfl

theorem dropAll_ages (h : Structured s) (hunlocked : s.unlocked = true) (slow : List Nat) :
    Ages s (dropAll s slow).2 ∧ ∀ i ∈ slow, i ∈ s.clients → (dropAll s slow).2.Closed i := by
  induction slow generalizing s with
  | nil => exact ⟨ages_same rfl (fun _ hi => hi), nofun⟩
  | cons i slow ih =>
    obtain ⟨hstructured, hunlocked'⟩ := h.drop hunlocked i
    obtain ⟨hfirst, hout⟩ := drop_ages s i
    obtain ⟨hrest, hclosed⟩ := ih hstructured hunlocked'
    refine ⟨hfirst.trans hrest, ?_⟩
    intro j hj hin
    have hgone : j ∉ (drop s i).2.clients → (dropAll (drop s i).2 slow).2.Closed j := by
      intro hnot
      rcases hfirst.clients j hin with hstill | hdone
      · exact absurd hstill hnot
      · exact hrest.closed hdone
    rcases mem_cons.mp hj with rfl | hmem
    · obtain ⟨c, hget, _⟩ := h.present j hin
      exact hgone (hout ⟨c, hget⟩)
    · by_cases hstill : j ∈ (drop s i).2.clients
      · exact hclosed j hmem hstill
      · exact hgone hstill

/-! ## Steps of a fan-out -/

theorem total_setPhase (hget : s.fanouts.get? fanout = some f) (phase : Phase) (i : Nat)
    (id : String) :
    (s.setPhase fanout f phase).fanouts.total (Fanout.sends i id) + f.sends i id =
      s.fanouts.total (Fanout.sends i id) + Fanout.sends i id { f with phase := phase } := by
  have htotal := s.fanouts.total_set (Fanout.sends i id) fanout { f with phase := phase }
  rw [OrderedMap.weightAt_of_get? _ hget] at htotal
  exact htotal

variable {phase : Phase}

/-- A settled event stays settled when a fan-out moves on, given what becomes of
the client it was sending to and of those it has on its list. -/
theorem Settled.setPhase (hget : s.fanouts.get? fanout = some f) (h : Settled out s i id)
    (hsend : f.event.id = id → f.phase.sendsTo = some i → Settled out (s.setPhase fanout f phase) i id)
    (hslow : i ∈ f.phase.slow → i ∈ phase.slow ∨ s.Closed i) :
    Settled out (s.setPhase fanout f phase) i id := by
  have hself : (s.setPhase fanout f phase).fanouts.get? fanout = some { f with phase := phase } :=
    get?_set_self _ _ _
  have hother : ∀ f', f' ≠ fanout →
      (s.setPhase fanout f phase).fanouts.get? f' = s.fanouts.get? f' :=
    fun f' hne => get?_set_ne _ _ hne
  rcases h with hreceived | hclosed | ⟨f', fo, hfo, hid, hsends⟩ | ⟨f', fo, hfo, hmem⟩
  · exact .inl hreceived
  · exact .inr (.inl hclosed)
  · by_cases hf : f' = fanout
    · subst hf
      rw [hget, Option.some.injEq] at hfo
      subst hfo
      exact hsend hid hsends
    · exact .inr (.inr (.inl ⟨f', fo, (hother f' hf).trans hfo, hid, hsends⟩))
  · by_cases hf : f' = fanout
    · subst hf
      rw [hget, Option.some.injEq] at hfo
      subst hfo
      rcases hslow hmem with hkept | hclosed
      · exact .inr (.inr (.inr ⟨f', _, hself, hkept⟩))
      · exact .inr (.inl hclosed)
    · exact .inr (.inr (.inr ⟨f', fo, (hother f' hf).trans hfo, hmem⟩))

theorem sends_idle (h : f.phase.sendsTo ≠ some i) : f.sends i id = 0 := by
  rw [Fanout.sends, if_neg (fun hsends => h hsends.1)]

/-- A fan-out moves on: what comes out is for clients there are, what it lets
through it sends, whom it was sending to has the event or is on its list, and
whom it has done with was excluded or has let the event through. -/
theorem Delivers.move (h : Delivers out s) (hget : s.fanouts.get? fanout = some f)
    {out' : List Output} (objects : OrderedMap Nat Client)
    (hobjects : ∀ j d', objects.get? j = some d' → ∃ d, s.objects.get? j = some d ∧ d'.workspaceID = d.workspaceID ∧ d'.closed = d.closed ∧ d'.seenList = (window out' j).1)
    (hothers : ∀ j, s.nextClient ≤ j → arrivedIds out' j = arrivedIds out j ∧ received out' j = received out j)
    (hreceived : ∀ j, ∀ e ∈ received out j, e ∈ received out' j)
    (hspared : ∀ j, ∀ e ∈ received out' j, e ∈ received out j ∨ e = f.event ∧ f.phase.sendsTo = some j)
    (hwindow : ∀ j, ∀ id ∈ (window out j).2, id ∈ (window out' j).2)
    (haccepted : ∀ j, ∀ id ∈ (window out' j).2, id ∈ (window out j).2 ∨ f.event.id = id ∧ phase.sendsTo = some j)
    (hcounted : ∀ j id, id ≠ "" → times out' j id + Fanout.sends j id { f with phase := phase } + (window out j).2.count id ≤ times out j id + f.sends j id + (window out' j).2.count id)
    (hinvolved : ∀ j, Fanout.Involves { f with phase := phase } j → f.Involves j)
    (hsending : ∀ j, phase.sendsTo = some j → ∀ c, s.objects.get? j = some c → c.excluded f.event = false)
    (hsent : ∀ j, f.phase.sendsTo = some j → f.event ∈ received out' j ∨ j ∈ phase.slow)
    (hslow : ∀ j ∈ f.phase.slow, j ∈ phase.slow ∨ s.Closed j)
    (hslow' : ∀ j ∈ phase.slow, j ∈ f.phase.slow ∨ j ∈ s.clients)
    (hleft : f.event.id ≠ "" → ∀ j ∈ f.phase.left, j ∈ phase.left ∨ (∀ c, s.objects.get? j = some c → c.excluded f.event = true) ∨ f.event.id ∈ (window out' j).2) :
    Delivers out' ({ s with objects := objects }.setPhase fanout f phase) := by
  have hself : (s.fanouts.set fanout { f with phase := phase }).get? fanout =
      some { f with phase := phase } := get?_set_self _ _ _
  have hclosed : ∀ j, s.Closed j → State.Closed { s with objects := objects } j := by
    intro j hj d' hd'
    obtain ⟨d, hd, _, heq, _⟩ := hobjects j d' hd'
    rw [heq]
    exact hj d hd
  have hexcluded : ∀ {j d'}, objects.get? j = some d' →
      ∃ d, s.objects.get? j = some d ∧ ∀ e, d'.excluded e = d.excluded e := by
    intro j d' hd'
    obtain ⟨d, hd, hworkspace, _⟩ := hobjects j d' hd'
    exact ⟨d, hd, excluded_eq hworkspace⟩
  have hlater : ∀ j (e : Event),
      (∀ d, s.objects.get? j = some d → d.excluded e = true) ∨ e.id ∈ (window out' j).2 →
        (∀ d', objects.get? j = some d' → d'.excluded e = true) ∨ e.id ∈ (window out' j).2 := by
    intro j e hj
    refine hj.imp_left fun hout d' hd' => ?_
    obtain ⟨d, hd, heq⟩ := hexcluded hd'
    rw [heq]
    exact hout d hd
  apply Delivers.mk
  · intro j hj
    obtain ⟨harrived, hsame⟩ := hothers j hj
    rw [harrived, hsame]
    exact h.unborn j hj
  · intro f' hf'
    have hne : f' ≠ fanout := by
      rintro rfl
      rw [h.freshFanout f' hf'] at hget
      cases hget
    exact (get?_set_ne _ _ hne).trans (h.freshFanout f' hf')
  · exact forall_set h.involved fun j hj => h.involved fanout f hget j (hinvolved j hj)
  · intro j d' hd'
    obtain ⟨_, _, _, _, hseen⟩ := hobjects j d' hd'
    exact hseen
  · intro j id hid
    have htotal : (s.fanouts.set fanout { f with phase := phase }).total (Fanout.sends j id) +
        f.sends j id = s.fanouts.total (Fanout.sends j id) +
          Fanout.sends j id { f with phase := phase } := total_setPhase hget phase j id
    have hbefore := h.counted j id hid
    have hnow := hcounted j id hid
    show times out' j id + (s.fanouts.set fanout { f with phase := phase }).total
      (Fanout.sends j id) ≤ _
    omega
  · intro j e he d' hd'
    obtain ⟨d, hd, heq⟩ := hexcluded hd'
    rw [heq]
    rcases hspared j e he with hold | ⟨rfl, hsends⟩
    · exact h.spared j e hold d hd
    · exact h.sending fanout f hget j hsends d hd
  · intro f' fo hfo j hj d' hd'
    obtain ⟨d, hd, heq⟩ := hexcluded hd'
    rw [heq]
    rcases get?_set_cases hfo with ⟨_, rfl⟩ | ⟨_, hold⟩
    · exact hsending j hj d hd
    · exact h.sending f' fo hold j hj d hd
  · refine forall_set (fun f' fo hold j hj => (h.slowed f' fo hold j hj).imp_right (hclosed j)) ?_
    intro j hj
    rcases hslow' j hj with hold | hin
    · exact (h.slowed fanout f hget j hold).imp_right (hclosed j)
    · exact .inl hin
  · intro j id hid
    rcases haccepted j id hid with hold | ⟨rfl, hsends⟩
    · have hsettled : Settled out' { s with objects := objects } j id := by
        rcases h.settled j id hold with ⟨e, he, heq⟩ | hdone | hrest
        · exact .inl ⟨e, hreceived j e he, heq⟩
        · exact .inr (.inl (hclosed j hdone))
        · exact .inr (.inr hrest)
      apply hsettled.setPhase (s := { s with objects := objects }) hget
      · intro hid' hsends
        rcases hsent j hsends with hmem | hmem
        · exact .inl ⟨f.event, hmem, hid'⟩
        · exact .inr (.inr (.inr ⟨fanout, _, hself, hmem⟩))
      · exact fun hmem => (hslow j hmem).imp_right (hclosed j)
    · exact .inr (.inr (.inl ⟨fanout, _, hself, rfl, hsends⟩))
  · refine forall_set
      (fun f' fo hold hid j hj => (h.visited f' fo hold hid j hj).imp_right fun hrest =>
        hlater j _ (hrest.imp_right (hwindow j _))) ?_
    intro hid j hj
    rcases h.visited fanout f hget hid j hj with hmem | hrest
    · exact (hleft hid j hmem).imp_right (hlater j _)
    · exact .inr (hlater j _ (hrest.imp_right (hwindow j _)))

/-- Nothing comes out between two sends. -/
theorem Delivers.setPhase (h : Delivers out s) (hget : s.fanouts.get? fanout = some f)
    (hidle : f.phase.sendsTo = none) (hidle' : phase.sendsTo = none)
    (hleft : ∀ i ∈ f.phase.left, i ∈ phase.left ∨ ∀ c, s.objects.get? i = some c → c.excluded f.event = true)
    (hleft' : ∀ i ∈ phase.left, i ∈ f.phase.left)
    (hslow : ∀ i ∈ f.phase.slow, i ∈ phase.slow ∨ s.Closed i)
    (hslow' : ∀ i ∈ phase.slow, i ∈ f.phase.slow) : Delivers out (s.setPhase fanout f phase) := by
  have hnone : ∀ j, phase.sendsTo ≠ some j := by
    rw [hidle']
    nofun
  apply h.move hget s.objects (fun j d hd => ⟨d, hd, rfl, rfl, h.seen j d hd⟩)
    (fun _ _ => ⟨rfl, rfl⟩) (fun _ _ he => he) (fun _ _ he => .inl he) (fun _ _ hid => hid)
    (fun _ _ hid => .inl hid)
  · intro j id _
    rw [sends_idle (f := { f with phase := phase }) (hnone j)]
    omega
  · rintro j (hmem | hmem | hmem | hmem)
    · exact .inl hmem
    · exact .inr (.inl (hleft' j hmem))
    · exact absurd hmem (hnone j)
    · exact .inr (.inr (.inr (hslow' j hmem)))
  · exact fun j hj => absurd hj (hnone j)
  · rw [hidle]
    nofun
  · exact hslow
  · exact fun j hj => .inl (hslow' j hj)
  · exact fun _ j hj => (hleft j hj).imp_right .inl

theorem window_of_arrived {j : Nat} :
    window (out ++ [arrived i id]) j =
      if j = i ∧ id ≠ "" then RecentIds.arrive dedupCapacity (window out j) id
      else window out j := by
  unfold window
  rw [arrivedIds_append]
  by_cases hcond : j = i ∧ id ≠ ""
  · rw [if_pos hcond, ← RecentIds.arrivals_concat]
    have hlast : arrivedIds [.arrived i id] j = [id] := by
      simp [arrivedIds, hcond.1, hcond.2]
    rw [hlast]
  · rw [if_neg hcond]
    have hlast : arrivedIds [.arrived i id] j = [] := by
      unfold arrivedIds
      rw [filterMap_cons_none, filterMap_nil]
      dsimp only
      rw [if_neg]
      rintro ⟨rfl, hid⟩
      exact hcond ⟨rfl, hid⟩
    rw [hlast, append_nil]

theorem received_of_arrived (i j : Nat) (id : String) :
    received (out ++ [arrived i id]) j = received out j := by
  rw [received_append]
  exact append_nil _

/-- What `markSeen` does with the window of a client. -/
theorem markSeen_spec (id : String) (hseen : c.seenList = (window out i).1) :
    (c.markSeen id).2.seenList = (window (out ++ [arrived i id]) i).1 ∧
      (window (out ++ [arrived i id]) i).2 =
        (if (c.markSeen id).1 = true ∧ id ≠ "" then (window out i).2 ++ [id]
          else (window out i).2) ∧
      ((c.markSeen id).1 = false → id ∈ (window out i).2) := by
  rw [window_of_arrived]
  unfold Client.markSeen
  by_cases hid : id = ""
  · rw [if_pos hid, if_neg (fun h => h.2 hid)]
    refine ⟨hseen, ?_, nofun⟩
    rw [if_neg (fun h => h.2 hid)]
  · rw [if_neg hid, if_pos ⟨rfl, hid⟩, RecentIds.arrive, ← hseen]
    refine ⟨rfl, ?_, ?_⟩
    · by_cases hnew : (RecentIds.mark dedupCapacity c.seenList id).1 = true
      · rw [if_pos hnew, if_pos ⟨hnew, hid⟩]
      · rw [if_neg hnew, if_neg (fun h => hnew h.1)]
    · intro hold
      obtain ⟨forgotten, haccepted, _⟩ :=
        RecentIds.window_spec dedupCapacity (arrivedIds out i)
      have hmem : id ∈ c.seenList := by
        by_contra hnot
        rw [RecentIds.mark, if_neg hnot] at hold
        cases hold
      show id ∈ (RecentIds.arrivals dedupCapacity (arrivedIds out i)).2
      rw [haccepted]
      exact mem_append_right _ (hseen ▸ hmem)

variable {left : List Nat}

/-- The fan-out has looked at a client that is not excluded. -/
theorem Delivers.mark (h : Delivers out s) (hfanout : s.fanouts.get? fanout = some f)
    (hphase : f.phase = .iterating left slow) (hleft : i ∈ left)
    (hget : s.objects.get? i = some c) (hexcluded : c.excluded f.event = false) :
    Delivers (out ++ [arrived i f.event.id])
      ((s.putClient i (c.markSeen f.event.id).2).setPhase fanout f
        (if (c.markSeen f.event.id).1 then
            .sending i (left.filter fun other => other ≠ i) slow
          else .iterating (left.filter fun other => other ≠ i) slow)) := by
  obtain ⟨hseen', haccepted, hdup⟩ := markSeen_spec f.event.id (h.seen i c hget)
  have hsame := markSeen_frame c f.event.id
  generalize c.markSeen f.event.id = marked at hseen' haccepted hdup hsame ⊢
  generalize hphase' : (if marked.1 = true then
      Phase.sending i (left.filter fun other => other ≠ i) slow
    else Phase.iterating (left.filter fun other => other ≠ i) slow) = phase
  have hshape : phase.left = left.filter (fun other => other ≠ i) ∧ phase.slow = slow ∧
      phase.sendsTo = if marked.1 = true then some i else none := by
    rw [← hphase']
    by_cases hnew : marked.1 = true
    · rw [if_pos hnew, if_pos hnew]
      exact ⟨rfl, rfl, rfl⟩
    · rw [if_neg hnew, if_neg hnew]
      exact ⟨rfl, rfl, rfl⟩
  have hsent : ∀ j, phase.sendsTo = some j ↔ marked.1 = true ∧ i = j := by
    intro j
    rw [hshape.2.2]
    by_cases hnew : marked.1 = true
    · simp [hnew]
    · simp [hnew]
  have hfleft : f.phase.left = left := by rw [hphase]; rfl
  have hfslow : f.phase.slow = slow := by rw [hphase]; rfl
  have hidle : ∀ j, f.phase.sendsTo ≠ some j := by rw [hphase]; nofun
  have hlt : i < s.nextClient :=
    h.involved fanout f hfanout i (.inr (.inl (by rw [hfleft]; exact hleft)))
  have hother : ∀ j, j ≠ i → window (out ++ [arrived i f.event.id]) j = window out j := by
    intro j hne
    rw [window_of_arrived, if_neg (fun habsurd => hne habsurd.1)]
  have hwindow : ∀ j, (window (out ++ [arrived i f.event.id]) j).2 =
      if j = i ∧ marked.1 = true ∧ f.event.id ≠ "" then (window out j).2 ++ [f.event.id]
      else (window out j).2 := by
    intro j
    by_cases hj : j = i
    · subst hj
      simpa using haccepted
    · rw [hother j hj, if_neg (fun habsurd => hj habsurd.1)]
  apply h.move hfanout (s.objects.set i marked.2)
  · intro j d' hd'
    rcases get?_set_cases hd' with ⟨rfl, rfl⟩ | ⟨hne, hold⟩
    · rw [hsame] at hseen' ⊢
      exact ⟨c, hget, rfl, rfl, hseen'⟩
    · exact ⟨d', hold, rfl, rfl, by rw [hother j hne]; exact h.seen j d' hold⟩
  · intro j hj
    refine ⟨?_, received_of_arrived i j _⟩
    rw [arrivedIds_append]
    unfold arrivedIds
    rw [filterMap_cons_none, filterMap_nil, append_nil]
    exact if_neg fun hnow : i = j ∧ _ => absurd hlt (Nat.not_lt.mpr (hnow.1 ▸ hj))
  · exact fun j e he => by rw [received_of_arrived]; exact he
  · exact fun j e he => .inl (by rw [received_of_arrived] at he; exact he)
  · intro j id hid
    rw [hwindow]
    split
    · exact mem_append_left _ hid
    · exact hid
  · intro j id hid
    rw [hwindow] at hid
    by_cases hnow : j = i ∧ marked.1 = true ∧ f.event.id ≠ ""
    · rw [if_pos hnow, mem_append, mem_singleton] at hid
      exact hid.imp_right fun heq => ⟨heq.symm, (hsent j).mpr ⟨hnow.2.1, hnow.1.symm⟩⟩
    · rw [if_neg hnow] at hid
      exact .inl hid
  · intro j id hid
    -- The fan-out sends once more where the id was let through once more.
    rw [times, times, received_of_arrived, sends_idle (hidle j), hwindow]
    by_cases hnow : phase.sendsTo = some j ∧ f.event.id = id
    · obtain ⟨hnew, rfl⟩ := (hsent j).mp hnow.1
      rw [Fanout.sends, if_pos hnow, if_pos ⟨rfl, hnew, hnow.2 ▸ hid⟩, count_append, hnow.2,
        count_singleton_self]
      omega
    · rw [Fanout.sends, if_neg hnow]
      split
      · rw [count_append]
        omega
      · omega
  · rintro j (hmem | hmem | hmem | hmem)
    · exact .inl hmem
    · have hmem' : j ∈ phase.left := hmem
      rw [hshape.1] at hmem'
      exact .inr (.inl (hfleft ▸ mem_of_mem_filter hmem'))
    · exact .inr (.inl (hfleft ▸ ((hsent j).mp hmem).2 ▸ hleft))
    · have hmem' : j ∈ phase.slow := hmem
      rw [hshape.2.1] at hmem'
      exact .inr (.inr (.inr (hfslow ▸ hmem')))
  · intro j hj d hd
    rw [← ((hsent j).mp hj).2, hget, Option.some.injEq] at hd
    exact hd ▸ hexcluded
  · exact fun j hj => absurd hj (hidle j)
  · exact fun j hj => .inl (by rw [hshape.2.1, ← hfslow]; exact hj)
  · exact fun j hj => .inl (by rw [hfslow, ← hshape.2.1]; exact hj)
  · intro hid j hj
    by_cases hji : j = i
    · subst hji
      right
      right
      rw [haccepted]
      by_cases hnew : marked.1 = true
      · rw [if_pos ⟨hnew, hid⟩]
        exact mem_append_right _ (mem_singleton_self _)
      · rw [if_neg (fun habsurd => hnew habsurd.1)]
        exact hdup (by simpa using hnew)
    · left
      rw [hshape.1, mem_filter, decide_eq_true_eq]
      exact ⟨hfleft ▸ hj, hji⟩

theorem window_of_enqueued (i j : Nat) (e : Event) :
    window (out ++ [enqueued i e]) j = window out j := by
  unfold window
  rw [arrivedIds_append]
  congr 1
  exact append_nil _

theorem received_of_enqueued (i j : Nat) (e : Event) :
    received (out ++ [enqueued i e]) j =
      if j = i then received out j ++ [e] else received out j := by
  rw [received_append]
  by_cases hj : j = i
  · rw [if_pos hj]
    simp [received, hj]
  · rw [if_neg hj]
    have hlast : received [.enqueued i e] j = [] := by
      unfold received
      rw [filterMap_cons_none, filterMap_nil]
      dsimp only
      rw [if_neg (fun habsurd => hj habsurd.symm)]
    rw [hlast, append_nil]

/-- The fan-out has sent, or has put the client on its list. -/
theorem Delivers.send (h : Delivers out s) (hstructured : Structured s)
    (hfanout : s.fanouts.get? fanout = some f) (hphase : f.phase = .sending i left slow) :
    Delivers
      (out ++ match s.objects.get? i with
        | none => []
        | some c =>
          if !c.closed && c.send.length < sendCapacity then [.enqueued i f.event] else [])
      (sendEvent s fanout i f left slow) := by
  have hto : ∀ j, f.phase.sendsTo = some j ↔ i = j := by
    rw [hphase]
    exact fun j => Option.some.injEq i j ▸ Iff.rfl
  have hfslow : f.phase.slow = slow := by rw [hphase]; rfl
  have hfleft : f.phase.left = left := by rw [hphase]; rfl
  have hin : i ∈ s.clients := by
    apply hstructured.ahead fanout f hfanout
    rw [hphase]
    exact mem_cons_self
  obtain ⟨c, hget, hopen⟩ := hstructured.present i hin
  have hinvolved : f.Involves i := .inr (.inr (.inl ((hto i).mpr rfl)))
  have hlt : i < s.nextClient := h.involved fanout f hfanout i hinvolved
  have hafter : ∀ (slow' : List Nat) j id,
      Fanout.sends j id { f with phase := .iterating left slow' } = 0 := fun _ _ _ => sends_idle nofun
  unfold sendEvent
  rw [hget]
  dsimp only
  rw [hopen, if_neg Bool.false_ne_true, Bool.not_false, Bool.true_and]
  by_cases hroom : c.send.length < sendCapacity
  · rw [if_pos hroom, if_pos (decide_eq_true hroom)]
    apply h.move hfanout (s.objects.set i
      { c with send := c.send ++ [Message.event f.event], closed := false })
    · intro j d' hd'
      rw [window_of_enqueued]
      rcases get?_set_cases hd' with ⟨rfl, rfl⟩ | ⟨_, hold⟩
      · exact ⟨c, hget, rfl, hopen.symm, h.seen j c hget⟩
      · exact ⟨d', hold, rfl, rfl, h.seen j d' hold⟩
    · intro j hj
      rw [received_of_enqueued, if_neg (fun heq : j = i => absurd hlt (Nat.not_lt.mpr (heq ▸ hj)))]
      exact ⟨(arrivedIds_append _ _ _).trans (append_nil _), rfl⟩
    · intro j e he
      rw [received_append]
      exact mem_append_left _ he
    · intro j e he
      rw [received_of_enqueued] at he
      by_cases hj : j = i
      · rw [if_pos hj, mem_append, mem_singleton] at he
        exact he.imp_right fun heq => ⟨heq, (hto j).mpr hj.symm⟩
      · rw [if_neg hj] at he
        exact .inl he
    · exact fun j id hid => by rw [window_of_enqueued]; exact hid
    · exact fun j id hid => .inl (by rw [window_of_enqueued] at hid; exact hid)
    · intro j id _
      rw [window_of_enqueued, hafter, times, times, received_of_enqueued]
      by_cases hj : j = i
      · rw [if_pos hj, countP_append, countP_singleton, Fanout.sends]
        by_cases hid : f.event.id = id
        · rw [if_pos (decide_eq_true hid), if_pos ⟨(hto j).mpr hj.symm, hid⟩]
        · rw [if_neg (by simpa using hid)]
          omega
      · rw [if_neg hj]
        omega
    · rintro j (hmem | hmem | hmem | hmem)
      · exact .inl hmem
      · exact .inr (.inl (hfleft ▸ hmem))
      · cases hmem
      · exact .inr (.inr (.inr (hfslow ▸ hmem)))
    · nofun
    · intro j hj
      left
      rw [received_of_enqueued, if_pos ((hto j).mp hj).symm]
      exact mem_append_right _ (mem_singleton_self _)
    · exact fun j hj => .inl (hfslow ▸ hj)
    · exact fun j hj => .inl (hfslow ▸ hj)
    · exact fun _ j hj => .inl (hfleft ▸ hj)
  · rw [if_neg hroom, if_neg (by simpa using hroom), append_nil]
    apply h.move hfanout s.objects (fun j d hd => ⟨d, hd, rfl, rfl, h.seen j d hd⟩)
      (fun _ _ => ⟨rfl, rfl⟩) (fun _ _ he => he) (fun _ _ he => .inl he) (fun _ _ hid => hid)
      (fun _ _ hid => .inl hid)
    · intro j id _
      rw [hafter]
      omega
    · rintro j (hmem | hmem | hmem | hmem)
      · exact .inl hmem
      · exact .inr (.inl (hfleft ▸ hmem))
      · cases hmem
      · rcases mem_append.mp hmem with hold | hnew
        · exact .inr (.inr (.inr (hfslow ▸ hold)))
        · exact mem_singleton.mp hnew ▸ hinvolved
    · nofun
    · exact fun j hj => .inr (mem_append_right _ (mem_singleton.mpr ((hto j).mp hj).symm))
    · exact fun j hj => .inl (mem_append_left _ (hfslow ▸ hj))
    · intro j hj
      rcases mem_append.mp hj with hold | hnew
      · exact .inl (hfslow ▸ hold)
      · exact .inr (mem_singleton.mp hnew ▸ hin)
    · exact fun _ j hj => .inl (hfleft ▸ hj)

theorem Structured.targets_lt (h : Structured s) (target : Target)
    (hi : i ∈ s.targets target) : i < s.nextClient := by
  have hin : i ∈ s.clients := by
    cases target with
    | room key => exact h.listed i key hi
    | everyone => exact hi
  by_contra hge
  obtain ⟨c, hget, _⟩ := h.present i hin
  rw [h.fresh i (Nat.not_lt.mp hge)] at hget
  cases hget

/-- A new fan-out has all its clients still to see. -/
theorem Delivers.fanOut (h : Delivers out s) (hstructured : Structured s) (e : Event) :
    Delivers out (s.fanOut e) := by
  have hnone := h.freshFanout s.nextFanout (Nat.le_refl _)
  have hkept : ∀ f fo, s.fanouts.get? f = some fo → (s.fanOut e).fanouts.get? f = some fo := by
    intro f fo hfo
    have hne : f ≠ s.nextFanout := by
      rintro rfl
      rw [hnone] at hfo
      cases hfo
    exact (get?_set_ne _ _ hne).trans hfo
  apply Delivers.mk
  · exact h.unborn
  · intro f hf
    have hlt : s.nextFanout < f := hf
    exact (get?_set_ne _ _ (Nat.ne_of_gt hlt)).trans (h.freshFanout f (Nat.le_of_lt hlt))
  · refine forall_set h.involved fun i hi => ?_
    rcases hi with hmem | hmem | hmem | hmem
    · exact hstructured.targets_lt _ hmem
    · exact hstructured.targets_lt _ hmem
    · cases hmem
    · cases hmem
  · exact h.seen
  · intro i id hid
    have hcounted := h.counted i id hid
    have htotal := s.fanouts.total_set (Fanout.sends i id) s.nextFanout
      ⟨e, s.targets e.target, .iterating (s.targets e.target) []⟩
    rw [OrderedMap.weightAt_of_get?_none _ hnone] at htotal
    have hnew : Fanout.sends i id ⟨e, s.targets e.target, .iterating (s.targets e.target) []⟩ = 0 := by
      rw [Fanout.sends, if_neg (fun habsurd => by cases habsurd.1)]
    show times out i id + (s.fanouts.set s.nextFanout
      ⟨e, s.targets e.target, .iterating (s.targets e.target) []⟩).total (Fanout.sends i id) ≤ _
    omega
  · exact h.spared
  · exact forall_set h.sending fun i hi => by cases hi
  · exact forall_set h.slowed fun i hi => by cases hi
  · intro i id hid
    rcases h.settled i id hid with hreceived | hclosed | ⟨f, fo, hfo, hsend⟩ | ⟨f, fo, hfo, hslow⟩
    · exact .inl hreceived
    · exact .inr (.inl hclosed)
    · exact .inr (.inr (.inl ⟨f, fo, hkept f fo hfo, hsend⟩))
    · exact .inr (.inr (.inr ⟨f, fo, hkept f fo hfo, hslow⟩))
  · exact forall_set h.visited fun _ i hi => .inl hi

/-! ## The other steps -/

section

variable (h : Delivers out s)
include h

/-- Nobody has seen or received anything but the clients there are. -/
theorem Delivers.connect (userID workspaceID : String) :
    Delivers out { s.putClient s.nextClient (newClient userID workspaceID) with
      nextClient := s.nextClient + 1
      run := .registering s.nextClient } := by
  obtain ⟨harrived, hreceived⟩ := h.unborn s.nextClient (Nat.le_refl _)
  have hwindow : window out s.nextClient = ([], []) := by
    rw [window, harrived]
    rfl
  have hold : ∀ j, j ≠ s.nextClient →
      (s.objects.set s.nextClient (newClient userID workspaceID)).get? j = s.objects.get? j :=
    fun j hne => get?_set_ne _ _ hne
  have hknown : ∀ f fo, s.fanouts.get? f = some fo → ∀ j, fo.Involves j → j ≠ s.nextClient :=
    fun f fo hfo j hj => Nat.ne_of_lt (h.involved f fo hfo j hj)
  apply Delivers.mk
  · intro j hj
    exact h.unborn j (Nat.le_of_succ_le hj)
  · exact h.freshFanout
  · intro f fo hfo j hj
    exact Nat.lt_succ_of_lt (h.involved f fo hfo j hj)
  · refine forall_set h.seen ?_
    rw [hwindow]
    rfl
  · exact h.counted
  · intro j e he d hd
    have hne : j ≠ s.nextClient := by
      rintro rfl
      rw [hreceived] at he
      cases he
    exact h.spared j e he d ((hold j hne).symm.trans hd)
  · intro f fo hfo j hj d hd
    have hne := hknown f fo hfo j (.inr (.inr (.inl hj)))
    exact h.sending f fo hfo j hj d ((hold j hne).symm.trans hd)
  · intro f fo hfo j hj
    have hne := hknown f fo hfo j (.inr (.inr (.inr hj)))
    exact (h.slowed f fo hfo j hj).imp_right fun hclosed d hd => hclosed d ((hold j hne).symm.trans hd)
  · intro j id hid
    have hne : j ≠ s.nextClient := by
      rintro rfl
      rw [hwindow] at hid
      cases hid
    exact (h.settled j id hid).imp_right fun hrest =>
      hrest.imp_left fun hclosed d hd => hclosed d ((hold j hne).symm.trans hd)
  · intro f fo hfo hid j hj
    have hne := hknown f fo hfo j (.inl hj)
    exact (h.visited f fo hfo hid j hj).imp_right fun hrest =>
      hrest.imp_left fun hexcluded d hd => hexcluded d ((hold j hne).symm.trans hd)

/-- Nothing about clients or fan-outs has changed. -/
theorem Delivers.same (hobjects : s'.objects = s.objects)
    (hclients : ∀ i ∈ s.clients, i ∈ s'.clients) (hnextClient : s'.nextClient = s.nextClient)
    (hfanouts : s'.fanouts = s.fanouts) (hnextFanout : s'.nextFanout = s.nextFanout) :
    Delivers out s' :=
  h.ages (ages_same hobjects hclients) hnextClient hfanouts hnextFanout

theorem Delivers.touch (hget : s.objects.get? i = some c)
    (hworkspace : c'.workspaceID = c.workspaceID) (hseen : c'.seenList = c.seenList)
    (hclosed : c'.closed = c.closed) :
    Delivers out (s.putClient i c') :=
  h.ages (ages_put hget hworkspace hseen hclosed) rfl rfl rfl

theorem Delivers.reindexes (hs : Reindexes s s') : Delivers out s' :=
  h.ages (hs.ages hs.clients) hs.nextClient hs.fanouts hs.nextFanout

theorem Delivers.callBack (ticket : Nat) : Delivers out (s.callBack ticket) := by
  rw [callBack_eq]
  exact h.same rfl (fun _ hi => hi) rfl rfl rfl

end

theorem owe_ages (s : State) (calls : List Callback) : Ages s (s.owe calls).2 := by
  rw [owe_eq]
  exact ages_same rfl (fun _ hi => hi)

section

variable (h : Delivers out s)
include h

/-- The clients on the list of a fan-out are evicted, where they still are in
the hub. -/
theorem Delivers.evict (hstructured : Structured s) (hfanout : s.fanouts.get? fanout = some f)
    (hphase : f.phase = .evicting slow) (hfree : s.unlocked = true) :
    Delivers out ((evictSlow s slow).2.setPhase fanout f (.calling (evictSlow s slow).1)) := by
  have hdrops := (dropAll_drops hstructured hfree slow).owe
    ((dropAll s slow).1.map .onLastSubscriber)
  obtain ⟨hdropped, hclosed⟩ := dropAll_ages hstructured hfree slow
  have howed : Ages (dropAll s slow).2 (evictSlow s slow).2 := owe_ages _ _
  have hevicted : Delivers out (evictSlow s slow).2 :=
    h.ages (hdropped.trans howed) hdrops.nextClient hdrops.fanouts hdrops.nextFanout
  have hslow : f.phase.slow = slow := by rw [hphase]; rfl
  have hleft : f.phase.left = [] := by rw [hphase]; rfl
  have hfanout' : (evictSlow s slow).2.fanouts.get? fanout = some f :=
    (congrArg (fun fanouts => get? fanouts fanout) hdrops.fanouts).trans hfanout
  apply hevicted.setPhase hfanout'
  · rw [hphase]
    rfl
  · rfl
  · rw [hleft]
    nofun
  · nofun
  · intro i hi
    right
    rcases h.slowed fanout f hfanout i hi with hin | hdone
    · exact howed.closed (hclosed i (hslow ▸ hi) hin)
    · exact (hdropped.trans howed).closed hdone
  · nofun

theorem Delivers.visit (hfanout : s.fanouts.get? fanout = some f)
    (hphase : f.phase = .iterating left slow) :
    Delivers
      (out ++ if i ∉ left then []
        else
          match s.objects.get? i with
          | none => []
          | some c => if c.excluded f.event then [] else [.arrived i f.event.id])
      (visit s fanout i f left slow) := by
  unfold RealtimeHub.visit
  by_cases hmem : i ∉ left
  · rw [if_pos hmem, if_pos hmem, append_nil]
    exact h
  · rw [if_neg hmem, if_neg hmem]
    cases hget : s.objects.get? i with
    | none =>
      dsimp only
      rw [append_nil]
      exact h
    | some c =>
      dsimp only
      by_cases hexcluded : c.excluded f.event = true
      · rw [if_pos hexcluded, if_pos hexcluded, append_nil]
        apply h.setPhase hfanout
        · rw [hphase]
          rfl
        · rfl
        · intro j hj
          rw [hphase] at hj
          by_cases hji : j = i
          · right
            intro d hd
            rw [hji, hget, Option.some.injEq] at hd
            exact hd ▸ hexcluded
          · left
            show j ∈ left.filter fun other => other ≠ i
            rw [mem_filter, decide_eq_true_eq]
            exact ⟨hj, hji⟩
        · intro j hj
          rw [hphase]
          exact mem_of_mem_filter hj
        · intro j hj
          rw [hphase] at hj
          exact .inl hj
        · intro j hj
          rw [hphase]
          exact hj
      · rw [if_neg hexcluded, if_neg hexcluded]
        exact h.mark hfanout hphase (not_not.mp hmem) hget (by simpa using hexcluded)

theorem Delivers.setRun (run : RunLoop) : Delivers out { s with run := run } :=
  h.same rfl (fun _ hi => hi) rfl rfl rfl

theorem Delivers.finish (hfanout : s.fanouts.get? fanout = some f)
    (hphase : f.phase = .iterating [] slow) :
    Delivers out (s.setPhase fanout f (if slow = [] then .done else .evicting slow)) := by
  have hnext : (if slow = [] then Phase.done else .evicting slow).sendsTo = none ∧
      (if slow = [] then Phase.done else .evicting slow).left = [] ∧
        (if slow = [] then Phase.done else .evicting slow).slow = slow := by
    by_cases hslow : slow = []
    · rw [if_pos hslow, hslow]
      exact ⟨rfl, rfl, rfl⟩
    · rw [if_neg hslow]
      exact ⟨rfl, rfl, rfl⟩
  apply h.setPhase hfanout _ hnext.1
  · rw [hphase]
    nofun
  · rw [hnext.2.1]
    nofun
  · rw [hphase, hnext.2.2]
    exact fun j hj => .inl hj
  · rw [hphase, hnext.2.2]
    exact fun j hj => hj
  · rw [hphase]
    rfl

/-- A fan-out that makes its callbacks has no client left. -/
theorem Delivers.calling {tickets : List Nat} (hfanout : s.fanouts.get? fanout = some f)
    (hphase : f.phase = .calling tickets) (hleft : phase.left = []) (hslow : phase.slow = [])
    (hsends : phase.sendsTo = none) :
    Delivers out (s.setPhase fanout f phase) := by
  apply h.setPhase hfanout _ hsends
  · rw [hphase]
    nofun
  · rw [hleft]
    nofun
  · rw [hphase]
    nofun
  · rw [hslow]
    nofun
  · rw [hphase]
    rfl

theorem Delivers.stepped (hstructured : Structured s) {action : Action} (hs : Stepped s action s') :
    Delivers (out ++ outputs s action) s' := by
  have hquiet : outputs s action = [] → Delivers out s' →
      Delivers (out ++ outputs s action) s' := by
    intro hnil hnext
    rw [hnil, append_nil]
    exact hnext
  cases hs with
  | stay hnil => exact hquiet hnil h
  | connect userID workspaceID => exact hquiet rfl (h.connect userID workspaceID)
  | @unregister i c hget =>
    have htouched : Delivers out (s.setReader i c .gone) := h.touch hget rfl rfl rfl
    exact hquiet rfl (htouched.setRun _)
  | broadcast => exact hquiet rfl ((h.fanOut hstructured _).setRun _)
  | register =>
    exact hquiet rfl (h.same rfl (fun _ hi => mem_append_left _ hi) rfl rfl rfl)
  | subscribe i key => exact hquiet rfl ((h.reindexes (subscribe_reindexes s i key)).setRun _)
  | @remove i =>
    have hdrops := (drop_drops s i).owe ((drop s i).1.map .onLastSubscriber)
    have hages : Ages s (removeClient s i).2 := (drop_ages s i).1.trans (owe_ages _ _)
    have hremoved := h.ages hages hdrops.nextClient hdrops.fanouts hdrops.nextFanout
    exact hquiet rfl (hremoved.setRun _)
  | runCall => exact hquiet rfl ((h.callBack _).setRun _)
  | runIdle => exact hquiet rfl (h.setRun _)
  | frame hget => exact hquiet rfl (h.touch hget rfl rfl rfl)
  | handleGone i c frame => exact hquiet rfl (h.reindexes (handleFrame_reindexes s i c frame))
  | @handle i c _ frame _ _ hget' =>
    have hhandled := h.reindexes (handleFrame_reindexes s i c frame)
    exact hquiet rfl (hhandled.touch hget' rfl rfl rfl)
  | @answer i c hget =>
    have htouched : Delivers out (s.setReader i c .reading) := h.touch hget rfl rfl rfl
    have hget' : (s.setReader i c .reading).objects.get? i = some { c with reader := .reading } :=
      get?_set_self _ _ _
    apply hquiet rfl
    apply sendJSON_elim
    · exact fun _ => htouched.same rfl (fun _ hi => hi) rfl rfl rfl
    · exact htouched.touch hget' rfl rfl rfl
    · exact htouched
  | @readCall i c ticket _ _ hget =>
    have hget' : (s.callBack ticket).objects.get? i = some c := by
      rw [callBack_objects]
      exact hget
    exact hquiet rfl ((h.callBack ticket).touch hget' rfl rfl rfl)
  | hangUp hget | write hget => exact hquiet rfl (h.touch hget rfl rfl rfl)
  | fanOut e => exact hquiet rfl (h.fanOut hstructured e)
  | visit hfanout hphase =>
    simp only [outputs, hfanout, hphase]
    exact h.visit hfanout hphase
  | finish hfanout hphase =>
    exact hquiet (by simp only [outputs, hfanout, hphase]) (h.finish hfanout hphase)
  | send hfanout hphase =>
    simp only [outputs, hfanout, hphase]
    exact h.send hstructured hfanout hphase
  | evict hfanout hphase hfree =>
    exact hquiet (by simp only [outputs, hfanout, hphase])
      (h.evict hstructured hfanout hphase hfree)
  | @fanCall fanout f ticket _ _ hfanout hphase =>
    have hfanout' : (s.callBack ticket).fanouts.get? fanout = some f := by
      rw [callBack_eq]
      exact hfanout
    exact hquiet (by simp only [outputs, hfanout, hphase])
      ((h.callBack ticket).calling hfanout' hphase rfl rfl rfl)
  | fanDone hfanout hphase =>
    exact hquiet (by simp only [outputs, hfanout, hphase])
      (h.calling hfanout hphase rfl rfl rfl)
  | unset | stopRelay | cancelRelay => exact hquiet rfl (h.same rfl (fun _ hi => hi) rfl rfl rfl)

end

/-! ## Runs -/

theorem delivers_init : Delivers [] init := by
  refine ⟨fun _ _ => ⟨rfl, rfl⟩, fun _ _ => rfl, nofun, nofun, ?_, nofun, nofun, nofun, ?_, nofun⟩
  · intro i id _
    exact Nat.zero_le _
  · intro i id hid
    cases hid

/-- Everything that has come out in a run. -/
def outcome (c : Cfg) : List Output := (c.past.map Prod.snd).flatten

variable {allowed : Cfg → Action → Prop}

theorem delivers_of_reach {c : Cfg}
    (h : Reach step allowed (start init) c) :
    Delivers (outcome c) c.state := by
  have hboth : Structured c.state ∧ Delivers (outcome c) c.state := by
    apply Reach.invariant (I := fun c => Structured c.state ∧ Delivers (outcome c) c.state)
      _ h
    · exact ⟨structured_init, delivers_init⟩
    · intro d action _ hd
      refine ⟨hd.1.step action, ?_⟩
      have hlast : outcome (advance step d action) =
          outcome d ++ (step d.state action).1 := by
        simp [outcome]
      rw [hlast]
      show Delivers _ (step d.state action).2
      unfold step
      by_cases hcrashed : d.state.crashed = true
      · rw [if_pos hcrashed, append_nil]
        exact hd.2
      · rw [if_neg hcrashed]
        exact hd.2.stepped hd.1 (next_stepped _ action)
  exact hboth.2

theorem sends_of_calm (hcalm : s.Calm) (h : Settled out s i id) :
    (∃ e ∈ received out i, e.id = id) ∨ s.Closed i := by
  rcases h with hreceived | hclosed | ⟨f, fo, hfo, _, hsends⟩ | ⟨f, fo, hfo, hslow⟩
  · exact .inl hreceived
  · exact .inr hclosed
  · rw [hcalm f fo hfo] at hsends
    cases hsends
  · rw [hcalm f fo hfo] at hslow
    cases hslow

/-! ## The two paths -/

/-- A call whose scope the relay hands to the clients of the hub: broadcasts to
everyone and to the daemons have calls of their own. -/
def DualWrite.Routed : DualWrite → Prop
  | .broadcastToScope scopeType scopeID =>
    scopeType ≠ "global" ∧ scopeType ≠ scopeDaemonRuntime ∧ (scopeType = scopeUser → scopeID ≠ "")
  | _ => True

/-- What comes back from Redis is the local fan-out again. -/
theorem DualWrite.loopBack_eq {call : DualWrite} (hrouted : call.Routed) {frame : String}
    (hframe : frame ≠ "") (id : String) :
    deliverEnvelope (call.publish frame id) = call.localPath id := by
  cases call with
  | broadcastToScope scopeType scopeID =>
    obtain ⟨hglobal, hdaemon, huser⟩ := hrouted
    rw [publish, newEnvelope, deliverEnvelope, if_neg hframe, if_neg hdaemon, if_neg hglobal]
    by_cases hscope : scopeType = scopeUser
    · have hid := huser hscope
      subst hscope
      rw [if_pos rfl, localPath, broadcastToScopeDedup, if_neg (by simp [scopeUser, hid])]
      rfl
    · rw [if_neg hscope]
      rfl
  | sendToUser userID exclude =>
    rw [publish, newEnvelope, deliverEnvelope, if_neg hframe]
    rfl
  | broadcast =>
    rw [publish, newEnvelope, deliverEnvelope, if_neg hframe]
    rfl

/-! ## The result -/

/-- The client is in the hub and subscribed to where the event goes. -/
def State.Subscribed (s : State) (target : Target) (i : Nat) : Prop :=
  i ∈ s.clients ∧
    match target with
    | .room key => ∃ c, s.objects.get? i = some c ∧ key ∈ c.subscriptions
    | .everyone => True

theorem mem_targets (h : Structured s) {target : Target} (hi : s.Subscribed target i) :
    i ∈ s.targets target := by
  cases target with
  | room key => exact (h.member i key).mpr hi.2
  | everyone => exact hi.1

/-- The event has reached the client's channel, the client has left the hub, or
it is excluded. -/
def Reached (c : Cfg) (e : Event) (i : Nat) : Prop :=
  (∃ e' ∈ received (outcome c) i, e'.id = e.id) ∨ i ∉ c.state.clients ∨
    ∃ obj, c.state.objects.get? i = some obj ∧ obj.excluded e = true

theorem reached_of_calm {c : Cfg}
    (h : Reach step allowed (start init) c) (hcalm : c.state.Calm)
    {e : Event} {clients : List Nat} (hruns : Runs fanout e clients c.state) (hid : e.id ≠ "")
    (hi : i ∈ clients) : Reached c e i := by
  have hstructured := structured_of_reach h
  have hdelivers := delivers_of_reach h
  obtain ⟨_, fo, hfo, rfl, rfl⟩ := hruns
  by_cases hin : i ∈ c.state.clients
  · obtain ⟨obj, hobj, hopen⟩ := hstructured.present i hin
    rcases hdelivers.visited fanout fo hfo hid i hi with hleft | hexcluded | haccepted
    · rw [hcalm fanout fo hfo] at hleft
      cases hleft
    · exact .inr (.inr ⟨obj, hobj, hexcluded obj hobj⟩)
    · rcases sends_of_calm hcalm (hdelivers.settled i _ haccepted) with hreceived | hclosed
      · exact .inl hreceived
      · rw [hclosed obj hobj] at hopen
        cases hopen
  · exact .inr (.inl hin)

/-- Where fewer others than it remembers come between two arrivals of an id, a
client receives it at most once, and it never receives what it is excluded
from.  From wherever an event is fanned out, by either path, once no fan-out is
underway every client that was subscribed has it in its channel, is out of the
hub, or is excluded; and as long as the hub has not crashed, its fan-outs can
get there by their own steps.  The loop-back of a dual write fans out the same
event. -/
theorem delivered_once (c : Cfg) (h : Reach step (fun _ _ => True) (start init) c) :
    (∀ i id, id ≠ "" → RecentIds.Windowed dedupCapacity (arrivedIds (outcome c) i) id →
      times (outcome c) i id ≤ 1) ∧
    (∀ i, ∀ e ∈ received (outcome c) i, ∀ obj, c.state.objects.get? i = some obj →
      obj.excluded e = false) ∧
    (c.state.crashed = false → ∀ e, e.id ≠ "" →
      ∀ c', Reach step (fun _ _ => True) (advance step c (.fanOut e)) c' →
        (c'.state.Calm → ∀ i, c.state.Subscribed e.target i → Reached c' e i) ∧
        (c'.state.crashed = false → ∃ d,
          Reach step (fun _ action => action.OfFanout) c' d ∧ d.state.Calm)) ∧
    (∀ call : DualWrite, call.Routed → ∀ frame, frame ≠ "" → ∀ id,
      deliverEnvelope (call.publish frame id) = call.localPath id) := by
  have hstructured := structured_of_reach h
  have hdelivers := delivers_of_reach h
  refine ⟨?_, hdelivers.spared, ?_, ?_⟩
  · intro i id hid hwindowed
    have honce : (window (outcome c) i).2.count id ≤ 1 := RecentIds.accepted_once hwindowed
    have hcounted := hdelivers.counted i id hid
    omega
  · intro hcrashed e hid c' hreach
    have hall := (h.tail (.fanOut e) trivial).trans hreach
    have hnext : (advance step c (.fanOut e)).state = c.state.fanOut e := by
      rw [advance_state, step, hcrashed, if_neg Bool.false_ne_true]
      rfl
    have hruns : Runs c.state.nextFanout e (c.state.targets e.target) c'.state := by
      apply Runs.reach _ _ hreach
      · exact hstructured.step (.fanOut e)
      · rw [hnext]
        exact runs_fanOut c.state e
    constructor
    · intro hcalm i hi
      exact reached_of_calm hall hcalm hruns hid (mem_targets hstructured hi)
    · exact fanouts_end (structured_of_reach hall)
  · intro call hrouted frame hframe id
    exact DualWrite.loopBack_eq hrouted hframe id

instance decidableCalm (s : State) : Decidable s.Calm :=
  decidable_of_iff (∀ entry ∈ s.fanouts.entries, entry.2.phase = .done)
    ⟨fun h fanout f hget => h (fanout, f) (OrderedMap.get?_eq_some_iff.mp hget),
      fun h entry hentry => h entry.1 entry.2 (OrderedMap.get?_eq_some_iff.mpr hentry)⟩

def workspaceEvent : Event := ⟨.room ⟨scopeWorkspace, "workspace"⟩, "", "event"⟩

/-- After the local fan-out was begun: the same event once more from Redis. -/
def loopedBack : List Action :=
  [.visit 0 0, .fan 0, .fanOut workspaceEvent, .fan 0, .visit 1 0, .fan 1]

theorem delivered_once_twice :
    let c := exec step (start init) connected
    let c' := exec step (advance step c (.fanOut workspaceEvent)) loopedBack
    arrivedIds (outcome c') 0 = ["event", "event"] ∧ times (outcome c') 0 "event" ≤ 1 ∧
      c.state.Subscribed workspaceEvent.target 0 ∧ Reached c' workspaceEvent 0 ∧
      (∃ d, Reach step (fun _ action => action.OfFanout) c' d ∧ d.state.Calm) ∧
      deliverEnvelope ((DualWrite.broadcastToScope scopeWorkspace "workspace").publish "{}" "event") =
        some workspaceEvent := by
  intro c c'
  have hany : ∀ (d : Cfg) (inputs : List Action),
      Reach step (fun _ _ => True) d (exec step d inputs) :=
    fun d inputs => reach_exec (allAllowed_of_forall (fun _ _ => trivial) d inputs)
  have hc : Reach step (fun _ _ => True) (start init) c := hany _ connected
  have hc' : Reach step (fun _ _ => True)
      (advance step c (.fanOut workspaceEvent)) c' := hany _ loopedBack
  have harrived : arrivedIds (outcome c') 0 = ["event", "event"] := by decide +kernel
  have hsubscribed : c.state.Subscribed workspaceEvent.target 0 :=
    ⟨by decide +kernel, _, rfl, by decide +kernel⟩
  obtain ⟨_, _, hdelivered, hlooped⟩ := delivered_once c hc
  obtain ⟨hreached, hends⟩ := hdelivered (by decide +kernel) workspaceEvent (by decide) c' hc'
  refine ⟨harrived, ?_, hsubscribed, hreached (by decide +kernel) 0 hsubscribed,
    hends (by decide +kernel), ?_⟩
  · apply (delivered_once c' ((hc.tail _ trivial).trans hc')).1 0 "event" (by decide)
    rw [harrived]
    intro before between after heq
    have hlength := congrArg length heq
    have hnil : between = [] := by
      simp at hlength
      apply eq_nil_of_length_eq_zero
      omega
    rw [hnil]
    exact Nat.zero_lt_succ _
  · exact hlooped (.broadcastToScope scopeWorkspace "workspace")
      ⟨by decide, by decide, fun _ => by decide⟩ "{}" (by decide) "event"

end ClawMessenger.Ports.RealtimeHub
