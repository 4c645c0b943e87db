import ClawMessenger.Ports.Lanes
import ClawMessenger.Verified.Lookup

/-!
# What lanes keep true

`Placed` says where lanes, queues and runners are: the lanes in `#lanes` are
exactly the running ones, and a running lane has at most one runner.  `Counted`
ties the two counters to the queues and accounts for every item: it waits in a
queue, or a runner executes it, or it has ended.  `Ordered` reads the log, one
conversation at a time.

None of this needs operations to resolve.  A rejection only takes the runner
away, so what it breaks is that a running lane has one (`Manned`).
-/

namespace ClawMessenger.Ports.Lanes

open Verified Verified.JsString Conversation List
open OrderedMap (forall_set get?_erase_ne get?_erase_self get?_set get?_set_cases get?_set_ne
  get?_set_self total_set weightAt_of_get?)
open Option (bind_some getD_some map_eq_none_iff)

/-! ## Reading the log -/

def arrivals (key : JsString) (log : List Happening) : List Nat :=
  log.filterMap fun
    | .arrived k i => if k = key then some i else none
    | _ => none

def starts (key : JsString) (log : List Happening) : List Nat :=
  log.filterMap fun
    | .started k i => if k = key then some i else none
    | _ => none

def releases (log : List Happening) : List Nat :=
  log.filterMap fun
    | .released _ i => some i
    | _ => none

/-- Items whose operation has settled, and items released before they ran. -/
def ended (log : List Happening) : List Nat :=
  log.filterMap fun
    | .settled _ i => some i
    | .released _ i => some i
    | _ => none

def resolutions (log : List Happening) : List Nat :=
  log.filterMap fun
    | .resolved i => some i
    | _ => none

/-- What one entry of the log does to the operation that runs in a
conversation; `none` if two would run at once or one that does not run ends. -/
def occupy (key : JsString) (current : Option Nat) : Happening → Option (Option Nat)
  | .started k i =>
    if k = key then (if current = none then some (some i) else none) else some current
  | .settled k i =>
    if k = key then (if current = some i then some none else none) else some current
  | _ => some current

/-- The operation that runs in a conversation after all that has happened. -/
def runningAfter (key : JsString) (log : List Happening) : Option (Option Nat) :=
  log.foldlM (occupy key) none

theorem arrivals_append (key : JsString) (log more : List Happening) :
    arrivals key (log ++ more) = arrivals key log ++ arrivals key more := filterMap_append

theorem starts_append (key : JsString) (log more : List Happening) :
    starts key (log ++ more) = starts key log ++ starts key more := filterMap_append

theorem releases_append (log more : List Happening) :
    releases (log ++ more) = releases log ++ releases more := filterMap_append

theorem ended_append (log more : List Happening) :
    ended (log ++ more) = ended log ++ ended more := filterMap_append

theorem resolutions_append (log more : List Happening) :
    resolutions (log ++ more) = resolutions log ++ resolutions more := filterMap_append

variable {more : List Happening}

/-- Entries that are none of a kind add nothing of it. -/
theorem filterMap_silent {f : Happening → Option Nat} (h : more.filterMap f = [])
    (log : List Happening) :
    (log ++ more).filterMap f = log.filterMap f := by
  rw [filterMap_append, h, append_nil]

variable {log : List Happening} {key : JsString}

theorem runningAfter_append {current : Option Nat} (h : runningAfter key log = some current)
    (more : List Happening) :
    runningAfter key (log ++ more) = more.foldlM (occupy key) current := by
  rw [runningAfter, foldlM_append]
  rw [runningAfter] at h
  rw [h]
  rfl

variable {item : Nat}

theorem mem_ended_of_mem_releases (h : item ∈ releases log) :
    item ∈ ended log := by
  rw [releases, mem_filterMap] at h
  obtain ⟨happening, hmem, heq⟩ := h
  rw [ended, mem_filterMap]
  refine ⟨happening, hmem, ?_⟩
  cases happening with
  | released k i => exact heq
  | _ => cases heq

/-! ## Counters -/

theorem getD_incrementWaiting (r : Router) (bindKey k : JsString) :
    ((r.incrementWaiting bindKey).waitingByBinding.get? k).getD 0 =
      (r.waitingByBinding.get? k).getD 0 + if k = bindKey then 1 else 0 := by
  rw [Router.incrementWaiting]
  rw [get?_set]
  by_cases hk : k = bindKey
  · rw [if_pos hk, if_pos hk, hk, getD_some]
  · rw [if_neg hk, if_neg hk, Nat.add_zero]

theorem getD_decrementWaiting (r : Router) (bindKey k : JsString) :
    ((r.decrementWaiting bindKey).waitingByBinding.get? k).getD 0 =
      (r.waitingByBinding.get? k).getD 0 - if k = bindKey then 1 else 0 := by
  rw [Router.decrementWaiting]
  by_cases hnext : (r.waitingByBinding.get? bindKey).getD 0 - 1 = 0
  · rw [if_pos hnext]
    by_cases hk : k = bindKey
    · rw [if_pos hk, hk, get?_erase_self, hnext]
      rfl
    · rw [if_neg hk, get?_erase_ne _ hk, Nat.sub_zero]
  · rw [if_neg hnext, get?_set]
    by_cases hk : k = bindKey
    · rw [if_pos hk, if_pos hk, hk, getD_some]
    · rw [if_neg hk, if_neg hk, Nat.sub_zero]

/-! ## Where things are -/

/-- A new lane that runs. -/
def Router.addLane (r : Router) (conversation : ConversationIdentity) : Router :=
  { r with
    heap := r.heap.set r.nextLane ⟨bindingKey conversation.toBindingIdentity,
      conversationKey conversation, true, []⟩
    lanes := r.lanes.set (conversationKey conversation) r.nextLane
    nextLane := r.nextLane + 1 }

/-- The end of `#runLane`. -/
def Router.finish (r : Router) (n : Nat) (lane : Lane) : Router :=
  { r with
    heap := r.heap.set n { lane with queue := [], running := false }
    lanes := r.lanes.erase lane.conversationKey }

structure Placed (r : Router) : Prop where
  lane : ∀ key n, r.lanes.get? key = some n →
    ∃ lane, r.heap.get? n = some lane ∧ lane.conversationKey = key ∧ lane.running = true
  idle : ∀ n lane, r.heap.get? n = some lane → r.lanes.get? lane.conversationKey ≠ some n →
    lane.running = false ∧ lane.queue = []
  queued : ∀ n lane, r.heap.get? n = some lane → ∀ item ∈ lane.queue, item.state = .waiting
  owner : ∀ n lane, r.heap.get? n = some lane → ∃ conversation : ConversationIdentity,
    conversationKey conversation = lane.conversationKey ∧
      bindingKey conversation.toBindingIdentity = lane.bindingKey
  fresh : ∀ n lane, r.heap.get? n = some lane → n < r.nextLane
  runner : ∀ runner ∈ r.runners, ∃ lane, r.heap.get? runner.lane = some lane ∧ lane.running = true
  single : (r.runners.map Runner.lane).Nodup

namespace Placed

variable {r : Router} {n : Nat} {lane : Lane}

/-- The item that a runner takes next still waits. -/
theorem waiting (h : Placed r) (hlane : r.heap.get? n = some lane) {item : LaneItem} {rest : List LaneItem}
    (hqueue : lane.queue = item :: rest) : item.state = .waiting := by
  apply h.queued n lane hlane
  rw [hqueue]
  exact mem_cons_self

/-- The counters and the log do not matter. -/
theorem congr (h : Placed r) {r' : Router} (hlanes : r'.lanes = r.lanes) (hheap : r'.heap = r.heap)
    (hnext : r'.nextLane = r.nextLane) (hrunners : r'.runners = r.runners) : Placed r' := by
  obtain ⟨hlane, hidle, hqueued, howner, hfresh, hrunner, hsingle⟩ := h
  rw [← hlanes, ← hheap] at hlane hidle
  rw [← hheap] at hqueued howner hfresh hrunner
  rw [← hnext] at hfresh
  rw [← hrunners] at hrunner hsingle
  exact ⟨hlane, hidle, hqueued, howner, hfresh, hrunner, hsingle⟩

/-- A lane found under another conversation's key is another lane. -/
theorem lane_ne (h : Placed r) (hlane : r.heap.get? n = some lane) {m : Nat}
    (hm : r.lanes.get? key = some m) (hkey : key ≠ lane.conversationKey) : m ≠ n := by
  intro heq
  obtain ⟨other, hother, hat, _⟩ := h.lane key m hm
  rw [heq, hlane] at hother
  rw [← Option.some.inj hother] at hat
  exact hkey hat.symm

section

variable (h : Placed r) (hlane : r.heap.get? n = some lane) (hrun : lane.running = true)
include h hlane hrun

/-- A running lane is the one its conversation has in `#lanes`. -/
theorem mapped :
    r.lanes.get? lane.conversationKey = some n := by
  by_contra hne
  have hidle := (h.idle n lane hlane hne).1
  rw [hrun] at hidle
  cases hidle

/-- Change the queue of a running lane. -/
theorem setQueue {queue : List LaneItem} (hqueue : ∀ item ∈ queue, item.state = .waiting) :
    Placed { r with heap := r.heap.set n { lane with queue := queue } } := by
  have hmapped := h.mapped hlane hrun
  have hkeep : ∀ m old, r.heap.get? m = some old → ∃ now,
      (r.heap.set n { lane with queue := queue }).get? m = some now ∧
        now.conversationKey = old.conversationKey ∧ now.running = old.running := by
    intro m old hold
    by_cases hm : m = n
    · rw [hm, hlane] at hold
      refine ⟨{ lane with queue := queue }, ?_, ?_⟩
      · rw [hm, get?_set_self]
      · rw [← Option.some.inj hold]
        exact ⟨rfl, rfl⟩
    · exact ⟨old, by rw [get?_set_ne _ _ hm, hold], rfl, rfl⟩
  refine ⟨?_, forall_set h.idle (absurd hmapped), forall_set h.queued hqueue,
    forall_set h.owner (h.owner n lane hlane), forall_set h.fresh (h.fresh n lane hlane),
    ?_, h.single⟩
  · intro key m hm
    obtain ⟨old, hold, hkey, hrunning⟩ := h.lane key m hm
    obtain ⟨now, hnow, hsame, hsame'⟩ := hkeep m old hold
    exact ⟨now, hnow, hsame.trans hkey, hsame'.trans hrunning⟩
  · intro runner hrunner
    obtain ⟨old, hold, hrunning⟩ := h.runner runner hrunner
    obtain ⟨now, hnow, _, hsame'⟩ := hkeep runner.lane old hold
    exact ⟨now, hnow, hsame'.trans hrunning⟩

theorem addRunner (hfree : ∀ runner ∈ r.runners, runner.lane ≠ n) (item : Nat) :
    Placed { r with runners := r.runners ++ [⟨n, item⟩] } := by
  refine ⟨h.lane, h.idle, h.queued, h.owner, h.fresh, ?_, ?_⟩
  · intro runner hrunner
    rcases mem_append.mp hrunner with hold | hnew
    · exact h.runner runner hold
    · rw [mem_singleton.mp hnew]
      exact ⟨lane, hlane, hrun⟩
  · rw [map_append, map_singleton, nodup_append]
    refine ⟨h.single, nodup_singleton _, ?_⟩
    intro a ha b hb
    obtain ⟨runner, hrunner, hat⟩ := mem_map.mp ha
    rw [mem_singleton.mp hb, ← hat]
    exact hfree runner hrunner

end

theorem filterRunners (h : Placed r) (keep : Runner → Bool) :
    Placed { r with runners := r.runners.filter keep } := by
  refine ⟨h.lane, h.idle, h.queued, h.owner, h.fresh, ?_, ?_⟩
  · intro runner hrunner
    exact h.runner runner (mem_filter.mp hrunner).1
  · exact h.single.sublist (filter_sublist.map Runner.lane)

theorem addLane (h : Placed r) (conversation : ConversationIdentity)
    (hnone : r.lanes.get? (conversationKey conversation) = none) : Placed (r.addLane conversation) := by
  have hold : ∀ m other, r.heap.get? m = some other → m ≠ r.nextLane := by
    intro m other hget
    have hlt := h.fresh m other hget
    omega
  dsimp only [Router.addLane]
  refine ⟨?_, ?_, forall_set h.queued (forall_mem_nil _),
    forall_set h.owner ⟨conversation, rfl, rfl⟩,
    forall_set (fun m other hget => Nat.lt_succ_of_lt (h.fresh m other hget)) (Nat.lt_succ_self _),
    ?_, h.single⟩
  · refine forall_set ?_ ⟨_, get?_set_self _ _ _, rfl, rfl⟩
    intro key m hm
    obtain ⟨other, hother, hrest⟩ := h.lane key m hm
    rw [get?_set_ne _ _ (hold m other hother)]
    exact ⟨other, hother, hrest⟩
  · intro m other hget hne
    rcases get?_set_cases hget with ⟨hm, hother⟩ | ⟨_, hget⟩
    · rw [hother] at hne
      exact absurd (by rw [get?_set_self, hm]) hne
    · apply h.idle m other hget
      intro hmapped
      by_cases hkey : other.conversationKey = conversationKey conversation
      · rw [hkey, hnone] at hmapped
        cases hmapped
      · exact hne (by rw [get?_set_ne _ _ hkey, hmapped])
  · intro runner hrunner
    obtain ⟨other, hother, hrunning⟩ := h.runner runner hrunner
    rw [get?_set_ne _ _ (hold runner.lane other hother)]
    exact ⟨other, hother, hrunning⟩

theorem finish (h : Placed r) (hlane : r.heap.get? n = some lane) (hrun : lane.running = true)
    (hfree : ∀ runner ∈ r.runners, runner.lane ≠ n) : Placed (r.finish n lane) := by
  have hmapped := h.mapped hlane hrun
  dsimp only [Router.finish]
  refine ⟨?_, ?_, forall_set h.queued (forall_mem_nil _),
    forall_set h.owner (h.owner n lane hlane), forall_set h.fresh (h.fresh n lane hlane),
    ?_, h.single⟩
  · intro key m hm
    by_cases hkey : key = lane.conversationKey
    · rw [hkey, get?_erase_self] at hm
      cases hm
    · rw [get?_erase_ne _ hkey] at hm
      obtain ⟨other, hother, hat, hrunning⟩ := h.lane key m hm
      rw [get?_set_ne _ _ (h.lane_ne hlane hm hkey)]
      exact ⟨other, hother, hat, hrunning⟩
  · intro m other hget hne
    rcases get?_set_cases hget with ⟨_, hother⟩ | ⟨hm, hget⟩
    · rw [hother]
      exact ⟨rfl, rfl⟩
    · apply h.idle m other hget
      intro hat
      by_cases hkey : other.conversationKey = lane.conversationKey
      · rw [hkey, hmapped] at hat
        exact hm (Option.some.inj hat).symm
      · exact hne (by rw [get?_erase_ne _ hkey, hat])
  · intro runner hrunner
    obtain ⟨other, hother, hrunning⟩ := h.runner runner hrunner
    rw [get?_set_ne _ _ (hfree runner hrunner)]
    exact ⟨other, hother, hrunning⟩

variable {runner : Runner}

/-- A lane has one runner at most. -/
theorem find?_runner (h : Placed r) (hrunner : runner ∈ r.runners) :
    r.runners.find? (fun other => decide (other.lane = runner.lane)) = some runner := by
  have hsome : (r.runners.find? fun other => decide (other.lane = runner.lane)).isSome = true := by
    rw [find?_isSome]
    exact ⟨runner, hrunner, decide_eq_true rfl⟩
  obtain ⟨found, hfound⟩ := Option.isSome_iff_exists.mp hsome
  have hlane := find?_some hfound
  rw [decide_eq_true_eq] at hlane
  have hmem : found ∈ r.runners := mem_of_find?_eq_some hfound
  rw [hfound, inj_on_of_nodup_map h.single hmem hrunner hlane]

end Placed

/-! ## Where every item is -/

/-- How many times `item` waits in a queue. -/
def waitsIn (item : Nat) (lane : Lane) : Nat := lane.queue.countP fun other => other.id = item

structure Counted (r : Router) : Prop where
  waiting : r.waiting = r.heap.total fun lane => lane.queue.length
  byBinding : ∀ bindKey, (r.waitingByBinding.get? bindKey).getD 0 =
    r.heap.total fun lane => if lane.bindingKey = bindKey then lane.queue.length else 0
  once : ∀ item, r.heap.total (waitsIn item) + r.runners.countP (fun runner => runner.item = item) +
    (ended r.log).count item = if item < r.nextItem then 1 else 0

namespace Counted

variable {r : Router}

theorem lt_of_mem_ended (h : Counted r) (hmem : item ∈ ended r.log) :
    item < r.nextItem := by
  have honce := h.once item
  have hpos := count_pos_iff.mpr hmem
  by_contra hlt
  rw [if_neg hlt] at honce
  omega

/-- Two totals over the same lanes, up to the queue of lane `n`. -/
theorem total_setQueue {n : Nat} {lane : Lane} (hlane : r.heap.get? n = some lane)
    (queue : List LaneItem) (weight : Lane → Nat) :
    (r.heap.set n { lane with queue := queue }).total weight + weight lane =
      r.heap.total weight + weight { lane with queue := queue } := by
  have hset := total_set r.heap weight n { lane with queue := queue }
  rw [weightAt_of_get? weight hlane] at hset
  exact hset

variable {rest : List LaneItem}

/-- An item leaves a queue. -/
theorem dequeued (h : Counted r) {n : Nat} {lane : Lane} (hlane : r.heap.get? n = some lane)
    {item : LaneItem} (hqueue : lane.queue = item :: rest) :
    (r.waiting - 1 = (r.heap.set n { lane with queue := rest }).total fun lane => lane.queue.length) ∧
      ∀ bindKey, ((r.decrementWaiting lane.bindingKey).waitingByBinding.get? bindKey).getD 0 =
        (r.heap.set n { lane with queue := rest }).total fun lane =>
          if lane.bindingKey = bindKey then lane.queue.length else 0 := by
  constructor
  · have htotal := total_setQueue hlane rest fun lane => lane.queue.length
    have hbefore := h.waiting
    simp only [hqueue, length_cons] at htotal
    omega
  · intro bindKey
    have htotal := total_setQueue hlane rest
      fun lane => if lane.bindingKey = bindKey then lane.queue.length else 0
    have hbefore := h.byBinding bindKey
    dsimp only at htotal
    rw [getD_decrementWaiting, hbefore]
    rw [hqueue, length_cons] at htotal
    by_cases hkey : lane.bindingKey = bindKey
    · rw [if_pos hkey, if_pos hkey] at htotal
      rw [if_pos hkey.symm]
      omega
    · rw [if_neg hkey, if_neg hkey] at htotal
      rw [if_neg fun heq => hkey heq.symm]
      omega

/-- The next item comes in. -/
theorem once_succ {count next : Nat} (h : count = if item < next then 1 else 0) :
    (count + if next = item then 1 else 0) = if item < next + 1 then 1 else 0 := by
  rw [h]
  split_ifs <;> omega

end Counted

/-! ## The order of each conversation -/

namespace Router

/-- Arrival numbers of what waits in a conversation's lane. -/
def waitingItems (r : Router) (key : JsString) : List Nat :=
  match (r.lanes.get? key).bind r.heap.get? with
  | some lane => lane.queue.map LaneItem.id
  | none => []

/-- The item executed in a conversation's lane. -/
def executingItem (r : Router) (key : JsString) : Option Nat :=
  (r.lanes.get? key).bind fun n =>
    (r.runners.find? fun runner => runner.lane = n).map Runner.item

end Router

structure Ordered (r : Router) : Prop where
  order : ∀ key, (arrivals key r.log).filter (fun item => item ∉ releases r.log) =
    starts key r.log ++ r.waitingItems key
  ascending : ∀ key, (starts key r.log ++ r.waitingItems key).Pairwise (· < ·)
  arrived : ∀ key, ∀ item ∈ arrivals key r.log, item < r.nextItem
  apart : ∀ key key' item, item ∈ arrivals key r.log → item ∈ arrivals key' r.log → key = key'
  running : ∀ key, runningAfter key r.log = some (r.executingItem key)
  resolved : resolutions r.log = ended r.log

structure Sound (r : Router) : Prop where
  placed : Placed r
  counted : Counted r
  ordered : Ordered r

theorem sound_new : Sound Router.new := by
  have hnone : ∀ {n : Nat} {lane : Lane}, Router.new.heap.get? n ≠ some lane := Option.some_ne_none _ |>.symm
  refine ⟨⟨fun _ _ hn => ?_, fun _ _ hlane => absurd hlane hnone, fun _ _ hlane => absurd hlane hnone,
    fun _ _ hlane => absurd hlane hnone, fun _ _ hlane => absurd hlane hnone, fun _ => ?_, nodup_nil⟩,
    ⟨rfl, fun _ => rfl, fun _ => rfl⟩, ⟨fun _ => rfl, fun _ => Pairwise.nil, ?_, ?_, fun _ => rfl, rfl⟩⟩
  · cases hn
  · exact not_mem_nil.elim
  · exact fun key => forall_mem_nil _
  · exact fun key key' item hitem => (not_mem_nil hitem).elim

variable {r : Router} {lane : Lane} {n : Nat}

/-- Entries without an arrival leave what has arrived. -/
theorem Ordered.arrivals_same (h : Ordered r) (more : List Happening) (hmore : ∀ key, arrivals key more = []) :
    (∀ key, ∀ item ∈ arrivals key (r.log ++ more), item < r.nextItem) ∧
      ∀ key key' item, item ∈ arrivals key (r.log ++ more) →
        item ∈ arrivals key' (r.log ++ more) → key = key' := by
  have hsame : ∀ key, arrivals key (r.log ++ more) = arrivals key r.log :=
    fun key => filterMap_silent (hmore key) r.log
  simp only [hsame]
  exact ⟨h.arrived, h.apart⟩

/-- What is waiting and executing is as it was, and so is the log. -/
theorem Ordered.same (h : Ordered r) {r' : Router} (hwaiting : ∀ key, r'.waitingItems key = r.waitingItems key)
    (hexecuting : ∀ key, r'.executingItem key = r.executingItem key) (hlog : r'.log = r.log)
    (hnext : r'.nextItem = r.nextItem) : Ordered r' := by
  obtain ⟨horder, hascending, harrived, hapart, hrunning, hresolved⟩ := h
  simp only [← hwaiting, ← hexecuting, ← hlog, ← hnext] at horder hascending harrived hapart hrunning hresolved
  exact ⟨horder, hascending, harrived, hapart, hrunning, hresolved⟩

theorem Ordered.resolved_append (h : Ordered r) (hmore : resolutions more = ended more) :
    resolutions (r.log ++ more) = ended (r.log ++ more) := by
  rw [resolutions_append, ended_append, h.resolved, hmore]

/-- An item that arrives is new to every conversation. -/
theorem Ordered.arrive (h : Ordered r) (conversation : JsString)
    (hmore : ∀ key, arrivals key more = if conversation = key then [r.nextItem] else []) :
    (∀ key, ∀ item ∈ arrivals key (r.log ++ more), item < r.nextItem + 1) ∧
      ∀ key key' item, item ∈ arrivals key (r.log ++ more) →
        item ∈ arrivals key' (r.log ++ more) → key = key' := by
  have hcases : ∀ key, ∀ item ∈ arrivals key (r.log ++ more),
      (item ∈ arrivals key r.log ∧ item < r.nextItem) ∨
        (item = r.nextItem ∧ conversation = key) := by
    intro key item hitem
    rw [arrivals_append, hmore key] at hitem
    rcases mem_append.mp hitem with hold | hnew
    · exact .inl ⟨hold, h.arrived key item hold⟩
    · by_cases hkey : conversation = key
      · rw [if_pos hkey] at hnew
        exact .inr ⟨mem_singleton.mp hnew, hkey⟩
      · rw [if_neg hkey] at hnew
        cases hnew
  constructor
  · intro key item hitem
    rcases hcases key item hitem with ⟨_, hlt⟩ | ⟨heq, _⟩ <;> omega
  · intro key key' item hitem hitem'
    rcases hcases key item hitem with ⟨hold, hlt⟩ | ⟨heq, hkey⟩
    · rcases hcases key' item hitem' with ⟨hold', _⟩ | ⟨heq', _⟩
      · exact h.apart key key' item hold hold'
      · omega
    · rcases hcases key' item hitem' with ⟨_, hlt'⟩ | ⟨_, hkey'⟩
      · omega
      · exact hkey.symm.trans hkey'

/-! ## The steps of a lane -/

section

variable (h : Placed r) (hlane : r.heap.get? n = some lane) (hrun : lane.running = true)
include h hlane hrun

/-- What is found in `#lanes` after lane `n` got another queue. -/
theorem waitingItems_setQueue (queue : List LaneItem) (key : JsString) :
    Router.waitingItems { r with heap := r.heap.set n { lane with queue := queue } } key =
      if key = lane.conversationKey then queue.map LaneItem.id else r.waitingItems key := by
  rw [Router.waitingItems, Router.waitingItems]
  by_cases hkey : key = lane.conversationKey
  · rw [if_pos hkey, hkey, h.mapped hlane hrun, bind_some, get?_set_self]
  · rw [if_neg hkey]
    cases hm : r.lanes.get? key with
    | none => rfl
    | some m =>
      rw [bind_some, bind_some,
        get?_set_ne _ _ (h.lane_ne hlane hm hkey)]

theorem waitingItems_eq :
    r.waitingItems lane.conversationKey = lane.queue.map LaneItem.id := by
  rw [Router.waitingItems, h.mapped hlane hrun, bind_some, hlane]

theorem executingItem_of_free (hfree : ∀ runner ∈ r.runners, runner.lane ≠ n) :
    r.executingItem lane.conversationKey = none := by
  rw [Router.executingItem, h.mapped hlane hrun, bind_some, map_eq_none_iff,
    find?_eq_none]
  intro runner hrunner
  rw [decide_eq_true_eq]
  exact hfree runner hrunner

/-- A runner more on lane `n`, which had none. -/
theorem executingItem_addRunner (hfree : ∀ runner ∈ r.runners, runner.lane ≠ n) (item : Nat)
    (key : JsString) :
    Router.executingItem { r with runners := r.runners ++ [⟨n, item⟩] } key =
      if key = lane.conversationKey then some item else r.executingItem key := by
  rw [Router.executingItem, Router.executingItem]
  by_cases hkey : key = lane.conversationKey
  · have hnone : r.runners.find? (fun runner => decide (runner.lane = n)) = none := by
      rw [find?_eq_none]
      intro runner hrunner
      rw [decide_eq_true_eq]
      exact hfree runner hrunner
    rw [if_pos hkey, hkey, h.mapped hlane hrun, bind_some, find?_append, hnone]
    simp
  · rw [if_neg hkey]
    cases hm : r.lanes.get? key with
    | none => rfl
    | some m =>
      have hne : n ≠ m := (h.lane_ne hlane hm hkey).symm
      rw [bind_some, bind_some, find?_append]
      simp [hne]

end

/-- A lane that is new to the heap. -/
theorem Sound.addLane (h : Sound r) (conversation : ConversationIdentity)
    (hnone : r.lanes.get? (conversationKey conversation) = none) : Sound (r.addLane conversation) := by
  have hheap : r.heap.get? r.nextLane = none := by
    cases hget : r.heap.get? r.nextLane with
    | none => rfl
    | some lane =>
      have hlt := h.placed.fresh _ lane hget
      omega
  have htotal : ∀ weight : Lane → Nat, weight ⟨bindingKey conversation.toBindingIdentity,
      conversationKey conversation, true, []⟩ = 0 →
      (r.addLane conversation).heap.total weight = r.heap.total weight := by
    intro weight hzero
    have hset := total_set r.heap weight r.nextLane
      ⟨bindingKey conversation.toBindingIdentity, conversationKey conversation, true, []⟩
    rw [OrderedMap.weightAt_of_get?_none weight hheap, hzero] at hset
    exact hset
  have hothers : ∀ key, key ≠ conversationKey conversation →
      (r.lanes.set (conversationKey conversation) r.nextLane).get? key = r.lanes.get? key :=
    fun key hkey => get?_set_ne _ _ hkey
  have hwaiting : ∀ key, (r.addLane conversation).waitingItems key = r.waitingItems key := by
    intro key
    dsimp only [Router.waitingItems, Router.addLane]
    by_cases hkey : key = conversationKey conversation
    · rw [hkey, get?_set_self, bind_some, get?_set_self, hnone]
      rfl
    · rw [hothers key hkey]
      cases hm : r.lanes.get? key with
      | none => rfl
      | some m =>
        obtain ⟨other, hother, _⟩ := h.placed.lane key m hm
        have hlt := h.placed.fresh m other hother
        rw [bind_some, bind_some, get?_set_ne _ _ (by omega)]
  have hexecuting : ∀ key, (r.addLane conversation).executingItem key = r.executingItem key := by
    intro key
    dsimp only [Router.executingItem, Router.addLane]
    by_cases hkey : key = conversationKey conversation
    · rw [hkey, get?_set_self, hnone, bind_some, Option.bind_none,
        map_eq_none_iff, find?_eq_none]
      intro runner hrunner
      obtain ⟨other, hother, _⟩ := h.placed.runner runner hrunner
      have hlt := h.placed.fresh runner.lane other hother
      rw [decide_eq_true_eq]
      omega
    · rw [hothers key hkey]
  refine ⟨h.placed.addLane conversation hnone, ⟨?_, ?_, ?_⟩, h.ordered.same hwaiting hexecuting rfl rfl⟩
  · exact h.counted.waiting.trans (htotal _ rfl).symm
  · intro bindKey
    rw [htotal _ (by simp)]
    exact h.counted.byBinding bindKey
  · intro item
    rw [htotal _ (by simp [waitsIn])]
    exact h.counted.once item

section

variable (h : Sound r) (hlane : r.heap.get? n = some lane) (hrun : lane.running = true)
include h hlane hrun

/-- An item that arrives on a lane without waiting items and is executed at once. -/
theorem Sound.arriveExecuting (hqueue : lane.queue = [])
    (hfree : ∀ runner ∈ r.runners, runner.lane ≠ n) :
    Sound { r with
      runners := r.runners ++ [⟨n, r.nextItem⟩]
      nextItem := r.nextItem + 1
      log := r.log ++ [Happening.arrived lane.conversationKey r.nextItem,
        .started lane.conversationKey r.nextItem] } := by
  have hplaced := h.placed.addRunner hlane hrun hfree r.nextItem
  have hended : ended (r.log ++ [Happening.arrived lane.conversationKey r.nextItem,
      .started lane.conversationKey r.nextItem]) = ended r.log :=
    filterMap_silent rfl r.log
  have hreleases : releases (r.log ++ [Happening.arrived lane.conversationKey r.nextItem,
      .started lane.conversationKey r.nextItem]) = releases r.log :=
    filterMap_silent rfl r.log
  have hfresh : r.nextItem ∉ releases r.log := by
    intro hmem
    have hlt := h.counted.lt_of_mem_ended (mem_ended_of_mem_releases hmem)
    omega
  have hwaits : r.waitingItems lane.conversationKey = [] := by
    rw [waitingItems_eq h.placed hlane hrun, hqueue, map_nil]
  have hmore : ∀ key, arrivals key [.arrived lane.conversationKey r.nextItem,
      .started lane.conversationKey r.nextItem] =
        if lane.conversationKey = key then [r.nextItem] else [] := by
    intro key
    by_cases hkey : lane.conversationKey = key <;> simp [arrivals, hkey]
  have harrive := h.ordered.arrive lane.conversationKey hmore
  refine ⟨hplaced.congr rfl rfl rfl rfl, ⟨h.counted.waiting, h.counted.byBinding, ?_⟩,
    ⟨?_, ?_, harrive.1, harrive.2, ?_, h.ordered.resolved_append rfl⟩⟩
  · intro item
    rw [← Counted.once_succ (h.counted.once item), hended, countP_append, countP_singleton]
    simp only [decide_eq_true_eq]
    omega
  · intro key
    dsimp only
    rw [hreleases, arrivals_append, starts_append, filter_append, h.ordered.order key]
    show starts key r.log ++ r.waitingItems key ++ _ = starts key r.log ++ _ ++ r.waitingItems key
    by_cases hkey : lane.conversationKey = key
    · rw [← hkey, hwaits]
      simp [arrivals, starts, hfresh]
    · simp [arrivals, starts, hkey]
  · intro key
    dsimp only
    rw [starts_append]
    show (starts key r.log ++ _ ++ r.waitingItems key).Pairwise _
    have hascending := h.ordered.ascending key
    by_cases hkey : lane.conversationKey = key
    · rw [← hkey, hwaits, append_nil] at hascending ⊢
      rw [pairwise_append]
      refine ⟨hascending, ?_, ?_⟩
      · simp [starts]
      · intro a ha b hb
        have horder := h.ordered.order lane.conversationKey
        rw [hwaits, append_nil] at horder
        rw [← horder] at ha
        have hlt := h.ordered.arrived _ a (mem_filter.mp ha).1
        have hnew : b = r.nextItem := by simpa [starts] using hb
        omega
    · have hnone : starts key [.arrived lane.conversationKey r.nextItem,
          .started lane.conversationKey r.nextItem] = [] := by
        simp [starts, hkey]
      rw [hnone, append_nil]
      exact hascending
  · intro key
    dsimp only
    rw [runningAfter_append (h.ordered.running key)]
    show _ = some (Router.executingItem { r with runners := r.runners ++ [⟨n, r.nextItem⟩] } key)
    rw [executingItem_addRunner h.placed hlane hrun hfree]
    by_cases hkey : key = lane.conversationKey
    · rw [hkey, executingItem_of_free h.placed hlane hrun hfree]
      simp [occupy]
    · simp [occupy, hkey, Ne.symm hkey]

/-- An item that arrives on a lane that is at work. -/
theorem Sound.arriveWaiting :
    Sound { r.incrementWaiting lane.bindingKey with
      heap := r.heap.set n { lane with queue := lane.queue ++ [⟨r.nextItem, .waiting⟩] }
      nextItem := r.nextItem + 1
      log := r.log ++ [Happening.arrived lane.conversationKey r.nextItem] } := by
  have hqueued : ∀ item ∈ lane.queue ++ [⟨r.nextItem, .waiting⟩], item.state = .waiting := by
    intro item hitem
    rcases mem_append.mp hitem with hold | hnew
    · exact h.placed.queued n lane hlane item hold
    · rw [mem_singleton.mp hnew]
  have hplaced := h.placed.setQueue hlane hrun hqueued
  have hwaits := waitingItems_eq h.placed hlane hrun
  have hmore : ∀ key, arrivals key [.arrived lane.conversationKey r.nextItem] =
      if lane.conversationKey = key then [r.nextItem] else [] := by
    intro key
    by_cases hkey : lane.conversationKey = key <;> simp [arrivals, hkey]
  have harrive := h.ordered.arrive lane.conversationKey hmore
  have hwaiting := waitingItems_setQueue h.placed hlane hrun
    (lane.queue ++ [⟨r.nextItem, .waiting⟩])
  have hfresh : r.nextItem ∉ releases r.log := by
    intro hmem
    have hlt := h.counted.lt_of_mem_ended (mem_ended_of_mem_releases hmem)
    omega
  refine ⟨hplaced.congr rfl rfl rfl rfl, ⟨?_, ?_, ?_⟩,
    ⟨?_, ?_, harrive.1, harrive.2, ?_, h.ordered.resolved_append rfl⟩⟩
  · have htotal := Counted.total_setQueue hlane (lane.queue ++ [⟨r.nextItem, .waiting⟩])
      fun lane => lane.queue.length
    have hbefore := h.counted.waiting
    simp only [length_append, length_singleton] at htotal
    show r.waiting + 1 = (r.heap.set n { lane with queue := _ }).total _
    omega
  · intro bindKey
    have htotal := Counted.total_setQueue hlane (lane.queue ++ [⟨r.nextItem, .waiting⟩])
      fun lane => if lane.bindingKey = bindKey then lane.queue.length else 0
    have hbefore := h.counted.byBinding bindKey
    dsimp only at htotal ⊢
    rw [getD_incrementWaiting, hbefore]
    rw [length_append, length_singleton] at htotal
    by_cases hkey : lane.bindingKey = bindKey
    · rw [if_pos hkey, if_pos hkey] at htotal
      rw [if_pos hkey.symm]
      omega
    · rw [if_neg hkey, if_neg hkey] at htotal
      rw [if_neg fun heq => hkey heq.symm]
      omega
  · intro item
    have htotal := Counted.total_setQueue hlane (lane.queue ++ [⟨r.nextItem, .waiting⟩])
      (waitsIn item)
    have hended : ended (r.log ++ [Happening.arrived lane.conversationKey r.nextItem]) = ended r.log :=
      filterMap_silent rfl r.log
    show (r.heap.set n _).total _ + r.runners.countP _ + (ended _).count item =
      if item < r.nextItem + 1 then 1 else 0
    rw [← Counted.once_succ (h.counted.once item), hended]
    simp only [waitsIn, countP_append, countP_singleton, decide_eq_true_eq] at htotal ⊢
    omega
  · intro key
    show (arrivals key (r.log ++ _)).filter (fun item => item ∉ releases (r.log ++ _)) =
      starts key (r.log ++ _) ++ Router.waitingItems { r with heap := _ } key
    have hreleases : releases (r.log ++ [Happening.arrived lane.conversationKey r.nextItem]) =
        releases r.log :=
      filterMap_silent rfl r.log
    have hstarts : starts key (r.log ++ [Happening.arrived lane.conversationKey r.nextItem]) =
        starts key r.log :=
      filterMap_silent rfl r.log
    rw [hreleases, hstarts, arrivals_append, filter_append, h.ordered.order key, hwaiting key]
    by_cases hkey : key = lane.conversationKey
    · rw [if_pos hkey, hkey, hwaits]
      simp [arrivals, hfresh]
    · rw [if_neg hkey]
      simp [arrivals, Ne.symm hkey]
  · intro key
    show (starts key (r.log ++ _) ++ Router.waitingItems { r with heap := _ } key).Pairwise _
    have hstarts : starts key (r.log ++ [Happening.arrived lane.conversationKey r.nextItem]) =
        starts key r.log :=
      filterMap_silent rfl r.log
    have hascending := h.ordered.ascending key
    rw [hstarts, hwaiting key]
    by_cases hkey : key = lane.conversationKey
    · rw [if_pos hkey, hkey, map_append, ← append_assoc, pairwise_append]
      rw [hkey, hwaits] at hascending
      refine ⟨hascending, by simp, ?_⟩
      intro a ha b hb
      have horder := h.ordered.order lane.conversationKey
      rw [hwaits] at horder
      rw [← horder] at ha
      have hlt := h.ordered.arrived _ a (mem_filter.mp ha).1
      have hnew : b = r.nextItem := by simpa using hb
      omega
    · rw [if_neg hkey]
      exact hascending
  · intro key
    rw [runningAfter_append (h.ordered.running key)]
    rfl

end

section

variable (h : Sound r) {item : LaneItem} (hlane : r.heap.get? n = some lane)
  (hrun : lane.running = true) (hqueue : lane.queue = item :: rest)
include h hlane hrun hqueue

/-- The runner of a lane takes the first item that waits. -/
theorem Sound.take (hfree : ∀ runner ∈ r.runners, runner.lane ≠ n) :
    Sound ((r.decrementWaiting lane.bindingKey).execute n lane item rest) := by
  have hqueued : ∀ other ∈ rest, other.state = .waiting := by
    intro other hother
    apply h.placed.queued n lane hlane
    rw [hqueue]
    exact mem_cons_of_mem _ hother
  have hset := h.placed.setQueue hlane hrun hqueued
  have hplaced := hset.addRunner (get?_set_self _ _ _) hrun hfree item.id
  have hwaits := waitingItems_eq h.placed hlane hrun
  rw [hqueue, map_cons] at hwaits
  have hwaiting := waitingItems_setQueue h.placed hlane hrun rest
  have hlog : ∀ key, starts key (r.log ++ [Happening.started lane.conversationKey item.id]) =
      starts key r.log ++ if key = lane.conversationKey then [item.id] else [] := by
    intro key
    rw [starts_append]
    by_cases hkey : key = lane.conversationKey
    · simp [starts, hkey]
    · simp [starts, hkey, Ne.symm hkey]
  have hsplit : ∀ key, starts key (r.log ++ [Happening.started lane.conversationKey item.id]) ++
      Router.waitingItems { r with heap := r.heap.set n { lane with queue := rest } } key =
        starts key r.log ++ r.waitingItems key := by
    intro key
    rw [hlog key, hwaiting key]
    by_cases hkey : key = lane.conversationKey
    · rw [if_pos hkey, if_pos hkey, hkey, hwaits, append_assoc]
      rfl
    · rw [if_neg hkey, if_neg hkey, append_nil]
  have hother : ∀ key, arrivals key (r.log ++ [Happening.started lane.conversationKey item.id]) =
      arrivals key r.log :=
    fun key => filterMap_silent rfl r.log
  have hsame := h.ordered.arrivals_same [Happening.started lane.conversationKey item.id] fun _ => rfl
  have hcounters := h.counted.dequeued hlane hqueue
  refine ⟨hplaced.congr rfl rfl rfl rfl, ⟨hcounters.1, hcounters.2, ?_⟩,
    ⟨?_, ?_, hsame.1, hsame.2, ?_, h.ordered.resolved_append rfl⟩⟩
  · intro i
    have htotal := Counted.total_setQueue hlane rest (waitsIn i)
    have honce := h.counted.once i
    have hended : ended (r.log ++ [Happening.started lane.conversationKey item.id]) = ended r.log :=
      filterMap_silent rfl r.log
    show (r.heap.set n { lane with queue := rest }).total _ + (r.runners ++ [_]).countP _ +
      (ended (r.log ++ _)).count i = if i < r.nextItem then 1 else 0
    rw [hended, countP_append, countP_singleton]
    simp only [waitsIn, hqueue, countP_cons] at htotal
    simp only [decide_eq_true_eq] at htotal ⊢
    omega
  · intro key
    show (arrivals key (r.log ++ _)).filter (fun i => i ∉ releases (r.log ++ _)) =
      starts key (r.log ++ _) ++
        Router.waitingItems { r with heap := r.heap.set n { lane with queue := rest } } key
    have hreleases : releases (r.log ++ [Happening.started lane.conversationKey item.id]) =
        releases r.log :=
      filterMap_silent rfl r.log
    rw [hsplit key, hother key, hreleases]
    exact h.ordered.order key
  · intro key
    show (starts key (r.log ++ _) ++ Router.waitingItems
      { r with heap := r.heap.set n { lane with queue := rest } } key).Pairwise _
    rw [hsplit key]
    exact h.ordered.ascending key
  · intro key
    show runningAfter key (r.log ++ _) =
      some (Router.executingItem { r with runners := r.runners ++ [⟨n, item.id⟩] } key)
    rw [runningAfter_append (h.ordered.running key),
      executingItem_addRunner h.placed hlane hrun hfree]
    by_cases hkey : key = lane.conversationKey
    · rw [hkey, executingItem_of_free h.placed hlane hrun hfree]
      simp [occupy]
    · simp [occupy, hkey, Ne.symm hkey]

/-- Disposal releases the first item that waits. -/
theorem Sound.release :
    Sound { r.decrementWaiting lane.bindingKey with
      heap := r.heap.set n { lane with queue := rest }
      log := r.log ++ [Happening.released lane.conversationKey item.id, .resolved item.id] } := by
  have hqueued : ∀ other ∈ rest, other.state = .waiting := by
    intro other hother
    apply h.placed.queued n lane hlane
    rw [hqueue]
    exact mem_cons_of_mem _ hother
  have hplaced := h.placed.setQueue hlane hrun hqueued
  have hwaits := waitingItems_eq h.placed hlane hrun
  rw [hqueue, map_cons] at hwaits
  have hwaiting := waitingItems_setQueue h.placed hlane hrun rest
  have hended : ended (r.log ++ [Happening.released lane.conversationKey item.id, .resolved item.id]) =
      ended r.log ++ [item.id] := by
    rw [ended_append]
    rfl
  have hreleases : releases (r.log ++ [Happening.released lane.conversationKey item.id,
      .resolved item.id]) = releases r.log ++ [item.id] := by
    rw [releases_append]
    rfl
  have hstarts : ∀ key, starts key (r.log ++ [Happening.released lane.conversationKey item.id,
      .resolved item.id]) = starts key r.log :=
    fun key => filterMap_silent rfl r.log
  have harrivals : ∀ key, arrivals key (r.log ++ [Happening.released lane.conversationKey item.id,
      .resolved item.id]) = arrivals key r.log :=
    fun key => filterMap_silent rfl r.log
  have hsame := h.ordered.arrivals_same
    [Happening.released lane.conversationKey item.id, .resolved item.id] fun _ => rfl
  have hcounters := h.counted.dequeued hlane hqueue
  refine ⟨hplaced.congr rfl rfl rfl rfl, ⟨hcounters.1, hcounters.2, ?_⟩,
    ⟨?_, ?_, hsame.1, hsame.2, ?_, h.ordered.resolved_append rfl⟩⟩
  · intro i
    have htotal := Counted.total_setQueue hlane rest (waitsIn i)
    have honce := h.counted.once i
    show (r.heap.set n { lane with queue := rest }).total _ + r.runners.countP _ +
      (ended (r.log ++ _)).count i = if i < r.nextItem then 1 else 0
    rw [hended, count_append, count_singleton]
    simp only [waitsIn, hqueue, countP_cons] at htotal
    simp only [decide_eq_true_eq, beq_iff_eq] at htotal ⊢
    omega
  · intro key
    show (arrivals key (r.log ++ _)).filter (fun i => i ∉ releases (r.log ++ _)) =
      starts key (r.log ++ _) ++
        Router.waitingItems { r with heap := r.heap.set n { lane with queue := rest } } key
    have hascending := h.ordered.ascending key
    have hfilter : (arrivals key r.log).filter (fun i => i ∉ releases r.log ++ [item.id]) =
        (starts key r.log ++ r.waitingItems key).filter (fun i => i ≠ item.id) := by
      rw [← h.ordered.order key, filter_filter]
      apply filter_congr
      intro i _
      simp [and_comm]
    rw [hstarts key, harrivals key, hreleases, hfilter, hwaiting key]
    by_cases hkey : key = lane.conversationKey
    · rw [if_pos hkey, hkey, hwaits]
      rw [hkey, hwaits, pairwise_append, pairwise_cons] at hascending
      obtain ⟨_, ⟨hrest, _⟩, hstart⟩ := hascending
      rw [filter_append, filter_cons_of_neg (by simp), filter_eq_self.mpr,
        filter_eq_self.mpr]
      · intro i hi
        have hlt := hrest i hi
        simp only [ne_eq, decide_eq_true_eq]
        omega
      · intro i hi
        have hlt := hstart i hi item.id mem_cons_self
        simp only [ne_eq, decide_eq_true_eq]
        omega
    · rw [if_neg hkey, filter_eq_self]
      intro i hi
      -- items of another conversation are other items
      have hnot : i ≠ item.id := by
        intro heq
        rw [← h.ordered.order key, mem_filter] at hi
        have hhere : item.id ∈ starts lane.conversationKey r.log ++
            r.waitingItems lane.conversationKey := by
          rw [hwaits]
          exact mem_append_right _ mem_cons_self
        rw [← h.ordered.order lane.conversationKey, mem_filter] at hhere
        rw [heq] at hi
        exact hkey (h.ordered.apart _ _ _ hi.1 hhere.1)
      simpa using hnot
  · intro key
    show (starts key (r.log ++ _) ++ Router.waitingItems
      { r with heap := r.heap.set n { lane with queue := rest } } key).Pairwise _
    have hascending := h.ordered.ascending key
    rw [hstarts key, hwaiting key]
    by_cases hkey : key = lane.conversationKey
    · rw [if_pos hkey, hkey]
      rw [hkey, hwaits] at hascending
      exact hascending.sublist ((sublist_cons_self _ _).append_left _)
    · rw [if_neg hkey]
      exact hascending
  · intro key
    rw [runningAfter_append (h.ordered.running key)]
    rfl

end

/-- The end of `#runLane`: nothing waits, and the lane goes. -/
theorem Sound.finish (h : Sound r) (hlane : r.heap.get? n = some lane) (hrun : lane.running = true)
    (hqueue : lane.queue = []) (hfree : ∀ runner ∈ r.runners, runner.lane ≠ n) : Sound (r.finish n lane) := by
  have htotal : ∀ weight : Lane → Nat, weight { lane with queue := [], running := false } =
      weight lane → (r.finish n lane).heap.total weight = r.heap.total weight := by
    intro weight hsame
    have hset := total_set r.heap weight n { lane with queue := [], running := false }
    rw [weightAt_of_get? weight hlane, hsame] at hset
    exact Nat.add_right_cancel hset
  have hwaiting : ∀ key, (r.finish n lane).waitingItems key = r.waitingItems key := by
    intro key
    dsimp only [Router.waitingItems, Router.finish]
    by_cases hkey : key = lane.conversationKey
    · rw [hkey, get?_erase_self, h.placed.mapped hlane hrun, bind_some, hlane]
      dsimp only
      rw [hqueue]
      rfl
    · rw [get?_erase_ne _ hkey]
      cases hm : r.lanes.get? key with
      | none => rfl
      | some m =>
        rw [bind_some, bind_some,
          get?_set_ne _ _ (h.placed.lane_ne hlane hm hkey)]
  have hexecuting : ∀ key, (r.finish n lane).executingItem key = r.executingItem key := by
    intro key
    by_cases hkey : key = lane.conversationKey
    · rw [hkey, executingItem_of_free h.placed hlane hrun hfree]
      dsimp only [Router.executingItem, Router.finish]
      rw [get?_erase_self]
      rfl
    · dsimp only [Router.executingItem, Router.finish]
      rw [get?_erase_ne _ hkey]
  refine ⟨h.placed.finish hlane hrun hfree, ⟨?_, ?_, ?_⟩, h.ordered.same hwaiting hexecuting rfl rfl⟩
  · exact h.counted.waiting.trans (htotal _ (by rw [hqueue])).symm
  · intro bindKey
    rw [htotal _ (by rw [hqueue])]
    exact h.counted.byBinding bindKey
  · intro item
    rw [htotal _ (by rw [waitsIn, waitsIn, hqueue])]
    exact h.counted.once item

/-- Runners execute different items. -/
theorem Counted.eq_of_item (h : Counted r) {other : Runner} (hrunner : runner ∈ r.runners)
    (hother : other ∈ r.runners) (hitem : other.item = runner.item) :
    other = runner := by
  have hnodup : (r.runners.map Runner.item).Nodup := by
    rw [nodup_iff_count_le_one]
    intro item
    have honce := h.once item
    have hcount : (r.runners.map Runner.item).count item =
        r.runners.countP fun runner => runner.item = item := by
      rw [count, countP_map]
      apply countP_congr
      intro runner _
      simp
    rw [hcount]
    by_cases hlt : item < r.nextItem
    · rw [if_pos hlt] at honce
      omega
    · rw [if_neg hlt] at honce
      omega
  exact inj_on_of_nodup_map hnodup hother hrunner hitem

/-- The awaited operation of a runner has settled: its item is resolved, and
the runner is gone until the loop goes on. -/
theorem Sound.settled (h : Sound r) (hrunner : runner ∈ r.runners)
    (hlane : r.heap.get? runner.lane = some lane) :
    Sound { r with
      runners := r.runners.filter fun other => other.item ≠ runner.item
      log := r.log ++ [Happening.settled lane.conversationKey runner.item, .resolved runner.item] } := by
  have hrun : lane.running = true := by
    obtain ⟨other, hother, hrunning⟩ := h.placed.runner runner hrunner
    rw [hlane] at hother
    rw [Option.some.inj hother]
    exact hrunning
  have hplaced := h.placed.filterRunners fun other => decide (other.item ≠ runner.item)
  have hended : ended (r.log ++ [Happening.settled lane.conversationKey runner.item,
      .resolved runner.item]) = ended r.log ++ [runner.item] := by
    rw [ended_append]
    rfl
  have hreleases : releases (r.log ++ [Happening.settled lane.conversationKey runner.item,
      .resolved runner.item]) = releases r.log :=
    filterMap_silent rfl r.log
  have hstarts : ∀ key, starts key (r.log ++ [Happening.settled lane.conversationKey runner.item,
      .resolved runner.item]) = starts key r.log :=
    fun key => filterMap_silent rfl r.log
  have harrivals : ∀ key, arrivals key (r.log ++ [Happening.settled lane.conversationKey runner.item,
      .resolved runner.item]) = arrivals key r.log :=
    fun key => filterMap_silent rfl r.log
  have hfound := h.placed.find?_runner hrunner
  have hkept := h.ordered.arrivals_same
    [Happening.settled lane.conversationKey runner.item, .resolved runner.item] fun _ => rfl
  refine ⟨hplaced.congr rfl rfl rfl rfl, ⟨h.counted.waiting, h.counted.byBinding, ?_⟩,
    ⟨?_, ?_, hkept.1, hkept.2, ?_, h.ordered.resolved_append rfl⟩⟩
  · intro item
    dsimp only
    rw [hended, count_append, count_singleton, countP_filter]
    have honce := h.counted.once item
    by_cases hitem : item = runner.item
    · have hpos : 0 < r.runners.countP fun other => other.item = item := by
        rw [countP_pos_iff]
        exact ⟨runner, hrunner, by simp [hitem]⟩
      have hnone : (r.runners.countP fun other =>
          decide (other.item = item) && decide (other.item ≠ runner.item)) = 0 := by
        rw [countP_eq_zero]
        intro other _
        simp [hitem]
      rw [hnone, if_pos (by simp [hitem])]
      by_cases hlt : item < r.nextItem
      · rw [if_pos hlt] at honce ⊢
        omega
      · rw [if_neg hlt] at honce
        omega
    · have hsame : (r.runners.countP fun other =>
          decide (other.item = item) && decide (other.item ≠ runner.item)) =
            r.runners.countP fun other => other.item = item := by
        apply countP_congr
        intro other _
        simp only [Bool.and_eq_true, decide_eq_true_eq, and_iff_left_iff_imp]
        intro heq heq'
        exact hitem (heq.symm.trans heq')
      rw [hsame, if_neg (by simpa using fun heq => hitem heq.symm), Nat.add_zero]
      exact honce
  · intro key
    rw [harrivals key, hreleases, hstarts key]
    exact h.ordered.order key
  · intro key
    rw [hstarts key]
    exact h.ordered.ascending key
  · intro key
    have hmapped := h.placed.mapped hlane hrun
    show runningAfter key (r.log ++ _) = some (Router.executingItem
      { r with runners := r.runners.filter fun other => other.item ≠ runner.item } key)
    rw [runningAfter_append (h.ordered.running key)]
    by_cases hkey : key = lane.conversationKey
    · have hbefore : r.executingItem key = some runner.item := by
        rw [Router.executingItem, hkey, hmapped, bind_some, hfound]
        rfl
      have hafter : Router.executingItem { r with
          runners := r.runners.filter fun other => other.item ≠ runner.item } key = none := by
        rw [Router.executingItem]
        dsimp only
        rw [hkey, hmapped, bind_some, map_eq_none_iff, find?_eq_none]
        intro other hother
        rw [decide_eq_true_eq]
        intro hat
        have hmem := mem_filter.mp hother
        have hsame := inj_on_of_nodup_map h.placed.single hmem.1 hrunner hat
        rw [hsame] at hmem
        exact absurd hmem.2 (by simp)
      rw [hbefore, hafter, hkey]
      simp [occupy]
    · have hafter : Router.executingItem { r with
          runners := r.runners.filter fun other => other.item ≠ runner.item } key =
            r.executingItem key := by
        rw [Router.executingItem, Router.executingItem]
        dsimp only
        cases hm : r.lanes.get? key with
        | none => rfl
        | some m =>
          have hne : runner.lane ≠ m := (h.placed.lane_ne hlane hm hkey).symm
          rw [bind_some, bind_some, find?_filter]
          congr 1
          apply find?_congr
          intro other hother
          have hiff : decide (other.lane = m) = true → decide (other.item ≠ runner.item) = true := by
            intro hat
            rw [decide_eq_true_eq] at hat ⊢
            intro hitem
            rw [h.counted.eq_of_item hrunner hother hitem] at hat
            exact hne hat
          by_cases hat : other.lane = m
          · simpa [hat] using hiff
          · simp [hat]
      rw [hafter]
      simp [occupy, Ne.symm hkey]

end ClawMessenger.Ports.Lanes
