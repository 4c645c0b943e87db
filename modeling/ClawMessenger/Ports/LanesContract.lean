import ClawMessenger.Ports.LanesInvariant

/-!
# What lanes promise

Every event keeps `Sound`, whether operations resolve or reject: counters,
order and resolution never go wrong.  While no operation rejects, a lane in
`#lanes` also keeps its runner (`Manned`), and each settling of its operation
takes the next item from the queue.  A rejection ends the runner and leaves the
lane as it is, so that whatever waits there stays (`lane_wedges`).
-/

namespace ClawMessenger.Ports.Lanes

open Verified Verified.Machine Verified.JsString Conversation List

/-- Every lane in `#lanes` has a runner. -/
def Manned (r : Router) : Prop :=
  ∀ key n, r.lanes.get? key = some n → ∃ runner ∈ r.runners, runner.lane = n

/-! ## Going on with a lane -/

variable {lane : Lane} {n : Nat} {r : Router}

variable {item : LaneItem}

theorem runLane_cons (rest : List LaneItem) (hstate : item.state = .waiting) :
    r.runLane n lane (item :: rest) =
      (r.decrementWaiting lane.bindingKey).execute n lane item rest := by
  rw [Router.runLane, hstate]

theorem runLane_nil (hmapped : r.lanes.get? lane.conversationKey = some n) :
    r.runLane n lane [] = { r with
      heap := r.heap.set n { lane with queue := [], running := false }
      lanes := r.lanes.erase lane.conversationKey } := by
  rw [Router.runLane]
  rw [if_pos hmapped]

section

variable (h : Sound r) (hlane : r.heap.get? n = some lane) (hrun : lane.running = true)
include h hlane hrun

theorem Sound.runLane (hfree : ∀ runner ∈ r.runners, runner.lane ≠ n) :
    Sound (r.runLane n lane lane.queue) := by
  cases hqueue : lane.queue with
  | nil =>
    rw [runLane_nil (h.placed.mapped hlane hrun)]
    exact h.finish hlane hrun hqueue hfree
  | cons item rest =>
    have hstate := h.placed.waiting hlane hqueue
    rw [runLane_cons rest hstate]
    exact h.take hlane hrun hqueue hfree

/-- Lanes but `n` have a runner: what is left when the operation of lane `n`
has settled. -/
theorem manned_runLane
    (hothers : ∀ key m, r.lanes.get? key = some m → m ≠ n → ∃ runner ∈ r.runners, runner.lane = m) :
    Manned (r.runLane n lane lane.queue) := by
  have hmapped := h.placed.mapped hlane hrun
  intro key m hm
  cases hqueue : lane.queue with
  | nil =>
    rw [hqueue, runLane_nil hmapped] at hm
    rw [runLane_nil hmapped]
    by_cases hkey : key = lane.conversationKey
    · rw [hkey, OrderedMap.get?_erase_self] at hm
      cases hm
    · rw [OrderedMap.get?_erase_ne _ hkey] at hm
      apply hothers key m hm
      intro heq
      obtain ⟨other, hother, hat, _⟩ := h.placed.lane key m hm
      rw [heq, hlane] at hother
      rw [← Option.some.inj hother] at hat
      exact hkey hat.symm
  | cons item rest =>
    have hstate := h.placed.waiting hlane hqueue
    rw [hqueue, runLane_cons rest hstate] at hm
    rw [runLane_cons rest hstate]
    by_cases heq : m = n
    · exact ⟨⟨n, item.id⟩, mem_append_right _ mem_cons_self, heq.symm⟩
    · obtain ⟨runner, hrunner, hat⟩ := hothers key m hm heq
      exact ⟨runner, mem_append_left _ hrunner, hat⟩

end

/-! ## Arrivals -/

theorem Sound.busy (h : Sound r) (key : JsString) : Sound (r.record [.busy key]) := by
  have hsame : ∀ read : Happening → Option Nat, read (.busy key) = none →
      (r.log ++ [Happening.busy key]).filterMap read = r.log.filterMap read := by
    intro read hread
    rw [filterMap_append, filterMap_cons_none hread, filterMap_nil, append_nil]
  have harrivals : ∀ k, arrivals k (r.log ++ [Happening.busy key]) = arrivals k r.log := by
    intro k
    exact hsame _ rfl
  have hstarts : ∀ k, starts k (r.log ++ [Happening.busy key]) = starts k r.log := by
    intro k
    exact hsame _ rfl
  have hreleases : releases (r.log ++ [Happening.busy key]) = releases r.log := hsame _ rfl
  have hended : ended (r.log ++ [Happening.busy key]) = ended r.log := hsame _ rfl
  have hresolutions : resolutions (r.log ++ [Happening.busy key]) = resolutions r.log := hsame _ rfl
  obtain ⟨hp, hc, ho⟩ := h
  refine ⟨⟨hp.lane, hp.idle, hp.queued, hp.owner, hp.fresh, hp.runner, hp.single⟩,
    ⟨hc.waiting, hc.byBinding, ?_⟩, ⟨?_, ?_, ?_, ?_, ?_, ?_⟩⟩
  · intro item
    rw [Router.record]
    rw [hended]
    exact hc.once item
  · intro k
    rw [Router.record]
    rw [harrivals, hreleases, hstarts]
    exact ho.order k
  · intro k
    rw [Router.record]
    rw [hstarts]
    exact ho.ascending k
  · intro k
    rw [Router.record]
    rw [harrivals]
    exact ho.arrived k
  · intro k k'
    rw [Router.record]
    rw [harrivals, harrivals]
    exact ho.apart k k'
  · intro k
    rw [Router.record]
    rw [runningAfter_append (ho.running k)]
    rfl
  · rw [Router.record]
    rw [hresolutions, hended]
    exact ho.resolved

variable {conversation : ConversationIdentity}

section

variable (hactive : bindingKey conversation.toBindingIdentity ∉ r.disposedBindings)
include hactive

/-- The first operation of a conversation is executed at once. -/
theorem enqueue_fresh (hnone : r.lanes.get? (conversationKey conversation) = none) :
    r.enqueue conversation.toBindingIdentity conversation = { r with
      heap := r.heap.set r.nextLane ⟨bindingKey conversation.toBindingIdentity,
        conversationKey conversation, true, []⟩
      lanes := r.lanes.set (conversationKey conversation) r.nextLane
      nextLane := r.nextLane + 1
      runners := r.runners ++ [⟨r.nextLane, r.nextItem⟩]
      nextItem := r.nextItem + 1
      log := r.log ++ [Happening.arrived (conversationKey conversation) r.nextItem,
        .started (conversationKey conversation) r.nextItem] } := by
  rw [Router.enqueue]
  rw [if_neg hactive, hnone]
  rw [Router.enqueueOn]
  simp [Router.runLane, Router.execute, OrderedMap.set_set]

/-- Another operation of a conversation at work waits, or is turned away. -/
theorem enqueue_running (hn : r.lanes.get? (conversationKey conversation) = some n)
    (hlane : r.heap.get? n = some lane) (hrun : lane.running = true) :
    r.enqueue conversation.toBindingIdentity conversation =
        r.record [.busy (conversationKey conversation)] ∨
      r.enqueue conversation.toBindingIdentity conversation =
        { r.incrementWaiting (bindingKey conversation.toBindingIdentity) with
          heap := r.heap.set n { lane with queue := lane.queue ++ [⟨r.nextItem, .waiting⟩] }
          nextItem := r.nextItem + 1
          log := r.log ++ [Happening.arrived (conversationKey conversation) r.nextItem] } := by
  rw [Router.enqueue]
  rw [if_neg hactive, hn]
  dsimp only
  rw [hlane]
  dsimp only
  rw [Router.enqueueOn, if_pos hrun]
  split
  · left
    rfl
  · right
    rfl

end

theorem Sound.enqueue (h : Sound r) (conversation : ConversationIdentity) :
    Sound (r.enqueue conversation.toBindingIdentity conversation) := by
  by_cases hactive : bindingKey conversation.toBindingIdentity ∈ r.disposedBindings
  · rw [Router.enqueue]
    rw [if_pos hactive]
    exact h
  cases hn : r.lanes.get? (conversationKey conversation) with
  | none =>
    rw [enqueue_fresh hactive hn]
    have hadded := h.addLane conversation hn
    apply hadded.arriveExecuting (n := r.nextLane) (OrderedMap.get?_set_self _ _ _) rfl rfl
    intro runner hrunner
    obtain ⟨other, hother, _⟩ := h.placed.runner runner hrunner
    have hlt := h.placed.fresh runner.lane other hother
    omega
  | some n =>
    obtain ⟨lane, hlane, hkey, hrun⟩ := h.placed.lane _ n hn
    obtain ⟨owner, hownerKey, hownerBinding⟩ := h.placed.owner n lane hlane
    have hbinding : lane.bindingKey = bindingKey conversation.toBindingIdentity := by
      rw [← hownerBinding, conversationKey_binding (hownerKey.trans hkey)]
    rcases enqueue_running hactive hn hlane hrun with hbusy | hwaits
    · rw [hbusy]
      exact h.busy _
    · rw [hwaits, ← hbinding, ← hkey]
      exact h.arriveWaiting hlane hrun

theorem manned_enqueue (h : Sound r) (hm : Manned r) (conversation : ConversationIdentity) :
    Manned (r.enqueue conversation.toBindingIdentity conversation) := by
  by_cases hactive : bindingKey conversation.toBindingIdentity ∈ r.disposedBindings
  · rw [Router.enqueue]
    rw [if_pos hactive]
    exact hm
  cases hn : r.lanes.get? (conversationKey conversation) with
  | none =>
    rw [enqueue_fresh hactive hn]
    intro key m hkey
    rw [OrderedMap.get?_set] at hkey
    by_cases hsame : key = conversationKey conversation
    · rw [if_pos hsame] at hkey
      exact ⟨⟨r.nextLane, r.nextItem⟩, mem_append_right _ mem_cons_self,
        Option.some.inj hkey⟩
    · rw [if_neg hsame] at hkey
      obtain ⟨runner, hrunner, hat⟩ := hm key m hkey
      exact ⟨runner, mem_append_left _ hrunner, hat⟩
  | some n =>
    obtain ⟨lane, hlane, _, hrun⟩ := h.placed.lane _ n hn
    rcases enqueue_running hactive hn hlane hrun with hbusy | hwaits
    · rw [hbusy]
      exact hm
    · rw [hwaits]
      exact hm

/-! ## Settling -/

/-- The state in which the loop of the settled runner goes on. -/
def settledState (r : Router) (runner : Runner) (lane : Lane) : Router :=
  { r with
    runners := r.runners.filter fun other => other.item ≠ runner.item
    log := r.log ++ [Happening.settled lane.conversationKey runner.item, .resolved runner.item] }

variable {runner : Runner}

theorem settle_eq (h : Sound r) (hrunner : runner ∈ r.runners)
    (hlane : r.heap.get? runner.lane = some lane) (rejected : Bool) :
    r.settle runner.item rejected =
      if rejected then settledState r runner lane
      else (settledState r runner lane).runLane runner.lane lane lane.queue := by
  have hsome : (r.runners.find? fun other => decide (other.item = runner.item)).isSome = true := by
    rw [find?_isSome]
    exact ⟨runner, hrunner, decide_eq_true rfl⟩
  obtain ⟨found, hfound⟩ := Option.isSome_iff_exists.mp hsome
  have hitem := find?_some hfound
  rw [decide_eq_true_eq] at hitem
  have heq := h.counted.eq_of_item hrunner (mem_of_find?_eq_some hfound) hitem
  rw [heq] at hfound
  rw [Router.settle, hfound]
  dsimp only
  rw [hlane]
  rfl

/-- A settled item no runner awaits changes nothing. -/
theorem settle_cases (h : Sound r) (item : Nat) (rejected : Bool) :
    r.settle item rejected = r ∨
      ∃ runner ∈ r.runners, runner.item = item ∧
        ∃ lane, r.heap.get? runner.lane = some lane ∧ lane.running = true := by
  cases hfound : r.runners.find? fun runner => decide (runner.item = item) with
  | none =>
    left
    rw [Router.settle, hfound]
  | some runner =>
    right
    have hitem := find?_some hfound
    rw [decide_eq_true_eq] at hitem
    have hrunner : runner ∈ r.runners := mem_of_find?_eq_some hfound
    exact ⟨runner, hrunner, hitem, h.placed.runner runner hrunner⟩

theorem settledState_free (h : Sound r) (hrunner : runner ∈ r.runners) (lane : Lane) :
    ∀ other ∈ (settledState r runner lane).runners, other.lane ≠ runner.lane := by
  intro other hother hat
  have hmem := mem_filter.mp hother
  rw [inj_on_of_nodup_map h.placed.single hmem.1 hrunner hat] at hmem
  exact absurd hmem.2 (by simp)

theorem Sound.settle (h : Sound r) (item : Nat) (rejected : Bool) :
    Sound (r.settle item rejected) := by
  rcases settle_cases h item rejected with hnone | ⟨runner, hrunner, hitem, lane, hlane, hrun⟩
  · rw [hnone]
    exact h
  · rw [← hitem, settle_eq h hrunner hlane]
    have hsettled : Sound (settledState r runner lane) := h.settled hrunner hlane
    cases rejected with
    | true => exact hsettled
    | false => exact hsettled.runLane hlane hrun (settledState_free h hrunner lane)

theorem manned_settle (h : Sound r) (hm : Manned r) (item : Nat) :
    Manned (r.settle item false) := by
  rcases settle_cases h item false with hnone | ⟨runner, hrunner, hitem, lane, hlane, hrun⟩
  · rw [hnone]
    exact hm
  · rw [← hitem, settle_eq h hrunner hlane]
    have hsettled : Sound (settledState r runner lane) := h.settled hrunner hlane
    apply manned_runLane hsettled hlane hrun
    intro key m hkey hne
    obtain ⟨other, hother, hat⟩ := hm key m hkey
    refine ⟨other, mem_filter.mpr ⟨hother, ?_⟩, hat⟩
    rw [decide_eq_true_eq]
    intro hsame
    rw [h.counted.eq_of_item hrunner hother hsame] at hat
    exact hne hat.symm

/-! ## Disposal -/

/-- Everything a lane holds is released, one item after the other. -/
theorem release_queue (queue : List LaneItem) (h : Sound r) (hlane : r.heap.get? n = some lane)
    (hrun : lane.running = true) (hqueue : lane.queue = queue) :
    let released := queue.foldl (Router.releaseItem lane.bindingKey lane.conversationKey)
      { r with heap := r.heap.set n { lane with queue := [] } }
    Sound released ∧ released.lanes = r.lanes ∧ released.runners = r.runners := by
  induction queue generalizing r lane with
  | nil =>
    have hsame : { lane with queue := [] } = lane := by rw [← hqueue]
    refine ⟨?_, rfl, rfl⟩
    rw [foldl_nil, hsame, OrderedMap.set_of_get? hlane]
    exact h
  | cons item rest ih =>
    have hstate := h.placed.waiting hlane hqueue
    have hreleased := h.release hlane hrun hqueue
    have hnow : (r.heap.set n { lane with queue := rest }).get? n =
        some { lane with queue := rest } := OrderedMap.get?_set_self _ _ _
    have hnext := ih hreleased hnow hrun rfl
    rw [OrderedMap.set_set] at hnext
    rw [foldl_cons, Router.releaseItem, if_pos hstate]
    exact hnext

theorem Sound.drainLane (h : Sound r) (bindKey : JsString) {entry : JsString × Nat}
    (hentry : r.lanes.get? entry.1 = some entry.2) :
    Sound (r.drainLane bindKey entry) ∧ (r.drainLane bindKey entry).lanes = r.lanes ∧
      (r.drainLane bindKey entry).runners = r.runners := by
  obtain ⟨lane, hlane, _, hrun⟩ := h.placed.lane entry.1 entry.2 hentry
  rw [Router.drainLane, hlane]
  dsimp only
  by_cases hbinding : lane.bindingKey = bindKey
  · rw [if_pos hbinding, if_pos hrun, ← hbinding]
    exact release_queue lane.queue h hlane hrun rfl
  · rw [if_neg hbinding]
    exact ⟨h, rfl, rfl⟩

theorem drain_lanes (entries : List (JsString × Nat)) (bindKey : JsString) (h : Sound r)
    (hentries : ∀ entry ∈ entries, r.lanes.get? entry.1 = some entry.2) :
    Sound (entries.foldl (Router.drainLane bindKey) r) ∧
      (entries.foldl (Router.drainLane bindKey) r).lanes = r.lanes ∧
      (entries.foldl (Router.drainLane bindKey) r).runners = r.runners := by
  induction entries generalizing r with
  | nil => exact ⟨h, rfl, rfl⟩
  | cons entry rest ih =>
    obtain ⟨hsound, hlanes, hrunners⟩ := h.drainLane bindKey (hentries entry mem_cons_self)
    have hrest : ∀ other ∈ rest,
        (r.drainLane bindKey entry).lanes.get? other.1 = some other.2 := by
      intro other hother
      rw [hlanes]
      exact hentries other (mem_cons_of_mem _ hother)
    obtain ⟨hsound', hlanes', hrunners'⟩ := ih hsound hrest
    exact ⟨hsound', hlanes'.trans hlanes, hrunners'.trans hrunners⟩

theorem Sound.disposeBinding (h : Sound r) (identity : BindingIdentity) :
    Sound (r.disposeBinding identity) ∧ (r.disposeBinding identity).lanes = r.lanes ∧
      (r.disposeBinding identity).runners = r.runners := by
  cases hdisposal : r.bindingDisposals.get? (bindingKey identity) with
  | some disposal =>
    have hsame : r.disposeBinding identity = r := by
      rw [Router.disposeBinding, hdisposal]
    rw [hsame]
    exact ⟨h, rfl, rfl⟩
  | none =>
    rw [Router.disposeBinding, hdisposal]
    obtain ⟨hp, hc, ho⟩ := h
    apply drain_lanes
    · exact ⟨⟨hp.lane, hp.idle, hp.queued, hp.owner, hp.fresh, hp.runner, hp.single⟩,
        ⟨hc.waiting, hc.byBinding, hc.once⟩,
        ⟨ho.order, ho.ascending, ho.arrived, ho.apart, ho.running, ho.resolved⟩⟩
    · intro entry hentry
      exact OrderedMap.get?_eq_some_iff.mpr hentry

theorem Sound.activateBinding (h : Sound r) (identity : BindingIdentity) (disposal : Option Nat) :
    Sound (r.activateBinding identity disposal) ∧
      (r.activateBinding identity disposal).lanes = r.lanes ∧
      (r.activateBinding identity disposal).runners = r.runners := by
  unfold Router.activateBinding
  dsimp only
  split
  · exact ⟨h, rfl, rfl⟩
  · split
    · exact ⟨h, rfl, rfl⟩
    · obtain ⟨hp, hc, ho⟩ := h
      exact ⟨⟨⟨hp.lane, hp.idle, hp.queued, hp.owner, hp.fresh, hp.runner, hp.single⟩,
        ⟨hc.waiting, hc.byBinding, hc.once⟩,
        ⟨ho.order, ho.ascending, ho.arrived, ho.apart, ho.running, ho.resolved⟩⟩, rfl, rfl⟩

/-! ## Runs -/

theorem Sound.step (h : Sound r) (event : Event) : Sound (step r event).2 := by
  cases event with
  | enqueue conversation => exact h.enqueue conversation
  | settle item rejected => exact h.settle item rejected
  | disposeBinding identity => exact (h.disposeBinding identity).1
  | activateBinding identity disposal => exact (h.activateBinding identity disposal).1

theorem manned_step (h : Sound r) (hm : Manned r) {event : Event}
    (hevent : event.rejects = false) : Manned (step r event).2 := by
  cases event with
  | enqueue conversation => exact manned_enqueue h hm conversation
  | settle item rejected =>
    have hresolved : rejected = false := hevent
    rw [hresolved]
    exact manned_settle h hm item
  | disposeBinding identity =>
    obtain ⟨_, hlanes, hrunners⟩ := h.disposeBinding identity
    intro key n hn
    rw [show (step r (.disposeBinding identity)).2 = r.disposeBinding identity from rfl] at *
    rw [hlanes] at hn
    rw [hrunners]
    exact hm key n hn
  | activateBinding identity disposal =>
    obtain ⟨_, hlanes, hrunners⟩ := h.activateBinding identity disposal
    intro key n hn
    rw [show (step r (.activateBinding identity disposal)).2 =
      r.activateBinding identity disposal from rfl] at *
    rw [hlanes] at hn
    rw [hrunners]
    exact hm key n hn

theorem manned_of_reach {c : Run} (h : Reach step resolving start c) :
    Sound c.state ∧ Manned c.state := by
  apply h.invariant (I := fun d => Sound d.state ∧ Manned d.state)
  · intro d event hevent hd
    exact ⟨hd.1.step event, manned_step hd.1 hd.2 hevent⟩
  · refine ⟨sound_new, ?_⟩
    intro key n hn
    cases hn

/-! ## The contract -/

/-- The operation of lane `n` resolves. -/
def settleLane (n : Nat) (r : Router) : Router :=
  match r.runners.find? fun runner => runner.lane = n with
  | some runner => r.settle runner.item false
  | none => r

structure LaneContract (r : Router) : Prop where
  /-- A lane with waiting items has a runner, and once the operations before it
  have settled, it executes the waiting item. -/
  served : ∀ n lane, r.heap.get? n = some lane → ∀ before item after,
    lane.queue = before ++ item :: after → item.state = .waiting →
      (∃ runner ∈ r.runners, runner.lane = n) ∧
        ⟨n, item.id⟩ ∈ ((settleLane n)^[before.length + 1] r).runners
  /-- Operations of a conversation run one at a time. -/
  oneAtATime : ∀ key, (runningAfter key r.log).isSome = true
  /-- They run in arrival order, and only a released one is passed over. -/
  inOrder : ∀ key, starts key r.log <+:
    (arrivals key r.log).filter fun item => item ∉ releases r.log
  resolvedOnce : ∀ item, (resolutions r.log).count item = if item ∈ ended r.log then 1 else 0
  waiting : r.waiting =
    r.heap.total fun lane => lane.queue.countP fun item => item.state = .waiting
  byBinding : ∀ bindKey, (r.waitingByBinding.get? bindKey).getD 0 = r.heap.total fun lane =>
    if lane.bindingKey = bindKey then lane.queue.countP fun item => item.state = .waiting else 0

/-- Settling the operation of a lane takes the first item that waits. -/
theorem settleLane_takes (h : Sound r) (hm : Manned r) (hlane : r.heap.get? n = some lane)
    {rest : List LaneItem} (hqueue : lane.queue = item :: rest) :
    Sound (settleLane n r) ∧ Manned (settleLane n r) ∧
      (settleLane n r).heap.get? n = some { lane with queue := rest } ∧
      ⟨n, item.id⟩ ∈ (settleLane n r).runners := by
  have hrun : lane.running = true := by
    by_contra hidle
    have hmapped : r.lanes.get? lane.conversationKey ≠ some n := by
      intro hat
      obtain ⟨other, hother, _, hrunning⟩ := h.placed.lane _ n hat
      rw [hlane] at hother
      rw [← Option.some.inj hother] at hrunning
      exact hidle hrunning
    have hempty := (h.placed.idle n lane hlane hmapped).2
    rw [hqueue] at hempty
    cases hempty
  have hstate := h.placed.waiting hlane hqueue
  obtain ⟨runner, hrunner, hat⟩ := hm _ n (h.placed.mapped hlane hrun)
  have hfound := h.placed.find?_runner hrunner
  rw [hat] at hfound
  have hlane' : r.heap.get? runner.lane = some lane := by rw [hat, hlane]
  have hsettle : settleLane n r = r.settle runner.item false := by
    rw [settleLane, hfound]
  refine ⟨?_, ?_, ?_⟩
  · rw [hsettle]
    exact h.settle runner.item false
  · rw [hsettle]
    exact manned_settle h hm runner.item
  · rw [hsettle, settle_eq h hrunner hlane', if_neg Bool.false_ne_true, hqueue,
      runLane_cons rest hstate, hat]
    refine ⟨?_, mem_append_right _ mem_cons_self⟩
    exact OrderedMap.get?_set_self _ _ _

theorem settleLane_serves {before : List LaneItem} (h : Sound r) (hm : Manned r)
    (hlane : r.heap.get? n = some lane) {after : List LaneItem}
    (hqueue : lane.queue = before ++ item :: after) :
    ⟨n, item.id⟩ ∈ ((settleLane n)^[before.length + 1] r).runners := by
  induction before generalizing r lane with
  | nil => exact (settleLane_takes h hm hlane hqueue).2.2.2
  | cons first before ih =>
    obtain ⟨hsound, hmanned, hnext, _⟩ := settleLane_takes h hm hlane hqueue
    rw [length_cons, Function.iterate_succ_apply]
    exact ih hsound hmanned hnext rfl

theorem contract_of_sound (h : Sound r) (hm : Manned r) : LaneContract r := by
  have hwaiting : ∀ n lane, r.heap.get? n = some lane →
      (lane.queue.countP fun item => item.state = .waiting) = lane.queue.length := by
    intro n lane hlane
    rw [countP_eq_length]
    intro item hitem
    rw [decide_eq_true_eq]
    exact h.placed.queued n lane hlane item hitem
  refine ⟨?_, ?_, ?_, ?_, ?_, ?_⟩
  · intro n lane hlane before item after hqueue _
    have hserved := settleLane_serves h hm hlane hqueue
    refine ⟨?_, hserved⟩
    apply hm lane.conversationKey n
    by_contra hmapped
    have hempty := (h.placed.idle n lane hlane hmapped).2
    rw [hqueue] at hempty
    exact absurd hempty (by simp)
  · intro key
    rw [h.ordered.running key]
    rfl
  · intro key
    rw [h.ordered.order key]
    exact prefix_append _ _
  · intro item
    rw [h.ordered.resolved]
    have honce := h.counted.once item
    by_cases hitem : item ∈ ended r.log
    · have hpos := count_pos_iff.mpr hitem
      rw [if_pos (h.counted.lt_of_mem_ended hitem)] at honce
      rw [if_pos hitem]
      omega
    · rw [if_neg hitem, count_eq_zero]
      exact hitem
  · rw [h.counted.waiting]
    apply OrderedMap.total_congr
    intro n lane hlane
    exact (hwaiting n lane hlane).symm
  · intro bindKey
    rw [h.counted.byBinding bindKey]
    apply OrderedMap.total_congr
    intro n lane hlane
    rw [hwaiting n lane hlane]

/-- Lanes never wedge as long as no operation rejects. -/
theorem lanes_never_wedge {c : Run} (h : Reach step resolving start c) :
    LaneContract c.state := by
  obtain ⟨hsound, hmanned⟩ := manned_of_reach h
  exact contract_of_sound hsound hmanned

def sampleConversation : ConversationIdentity :=
  { runtimeId := js "rt_00000000000000000000000000000001"
    nodeId := js "node"
    groupScope := false
    conversationType := .direct
    targetId := js "node"
    senderId := js "user" }

/-- Two messages, the first answered. -/
theorem lanes_never_wedge_two_messages :
    LaneContract (exec step start
      [.enqueue sampleConversation, .enqueue sampleConversation, .settle 0 false]).state :=
  lanes_never_wedge (reach_exec ⟨rfl, rfl, rfl, trivial⟩)

/-- An operation that rejects takes its runner with it: the message behind it
waits in a lane that nothing will take it from. -/
theorem lane_wedges :
    ¬ ∀ c : Run, Reach step anything start c → LaneContract c.state := by
  intro hall
  have hreach : Reach step anything start (exec step start
      [.enqueue sampleConversation, .enqueue sampleConversation, .settle 0 true]) :=
    reach_exec ⟨trivial, trivial, trivial, trivial⟩
  have hcontract := hall _ hreach
  have hserved := hcontract.served 0
    ⟨bindingKey sampleConversation.toBindingIdentity, conversationKey sampleConversation, true,
      [⟨1, .waiting⟩]⟩ (by decide +kernel) [] ⟨1, .waiting⟩ [] rfl rfl
  obtain ⟨runner, hrunner, _⟩ := hserved.1
  exact absurd hrunner (by
    have hnone : (exec step start [.enqueue sampleConversation,
        .enqueue sampleConversation, .settle 0 true]).state.runners = [] := by
      decide +kernel
    rw [hnone]
    exact not_mem_nil)

end ClawMessenger.Ports.Lanes
