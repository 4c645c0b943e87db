import ClawMessenger.Ports.BridgeTaskManager

/-!
# Request ids start at most one task

A request id carries the moment it was issued and is accepted for 24 hours.
`Start` looks at the id's age before its slow path and at the tables of
requests and fences before and after it.  While an id is in its lifetime the
tables remember what happened to it; `pruneExpired` may forget it later.  So
the tables suffice as long as no task is made for an id whose lifetime ended
during the slow path (`timely`), and nothing in the source ensures that
(`request_started_after_fence`).

`Known` is the invariant: what the log says of an id stands in the tables, or
the id's lifetime is over.  It holds in every run; `Once` needs the condition.
-/

namespace ClawMessenger.Ports.Bridge

open Verified Verified.Machine List
open OrderedMap (get?_filter get?_set get?_set_self has)

/-! ## The lifetime of an id -/

/-- An id that was accepted at some time: it is not from the future. -/
def Seen (clock : Int) (id : GoString) : Prop :=
  ∃ issued : Nat, issued? id = some issued ∧ (0 : Int) < issued ∧
    issued * millisecond ≤ clock + 5 * 60 * 1000 * millisecond

def LifetimeOver (clock : Int) (id : GoString) : Prop :=
  ∃ issued : Nat, issued? id = some issued ∧ issued * millisecond + bridgeRequestLifetime ≤ clock

variable {clock : Int} {id : GoString} {req : BridgeTaskRequest} {c : StartCall} {m m' : Manager}
  {call : Nat} {deps : Deps}

variable {clock' : Int}

theorem Seen.mono (h : Seen clock id) (hle : clock ≤ clock') :
    Seen clock' id := by
  obtain ⟨issued, hissued, hpos, hpast⟩ := h
  exact ⟨issued, hissued, hpos, by omega⟩

theorem LifetimeOver.mono (h : LifetimeOver clock id) (hle : clock ≤ clock') :
    LifetimeOver clock' id := by
  obtain ⟨issued, hissued, hover⟩ := h
  exact ⟨issued, hissued, hover.trans hle⟩

theorem seen_of_valid (h : validRequestID clock id = none) :
    Seen clock id := by
  unfold validRequestID at h
  cases hissued : issued? id with
  | none =>
    rw [hissued] at h
    cases h
  | some issued =>
    rw [hissued] at h
    dsimp only at h
    split at h
    · cases h
    · rename_i hage
      refine ⟨issued, hissued, ?_, ?_⟩
      · omega
      · omega

theorem LifetimeOver.not_valid (h : LifetimeOver clock id) :
    validRequestID clock id ≠ none := by
  obtain ⟨issued, hissued, hover⟩ := h
  unfold validRequestID
  rw [hissued]
  dsimp only
  rw [if_pos (.inr (.inr hover))]
  exact Option.some_ne_none _

/-- An id that was accepted once and no longer is, never will be again. -/
theorem Seen.over (h : Seen clock id)
    (hinvalid : validRequestID clock id ≠ none) : LifetimeOver clock id := by
  obtain ⟨issued, hissued, hpos, hpast⟩ := h
  unfold validRequestID at hinvalid
  rw [hissued] at hinvalid
  dsimp only at hinvalid
  by_cases hover : issued * millisecond + bridgeRequestLifetime ≤ clock
  · exact ⟨issued, hissued, hover⟩
  · rw [if_neg (by omega)] at hinvalid
    exact absurd rfl hinvalid

/-! ## One task for each id -/

def createdIds (log : List Entry) : List GoString :=
  log.filterMap fun
    | .created id _ _ => some id
    | _ => none

structure OneTaskEach (deps : Deps) (m : Manager) : Prop where
  /-- At most one task is made for an id. -/
  once : (createdIds m.log).Nodup
  /-- None is made once a fence has answered that there is none. -/
  fenced : m.log.Pairwise fun earlier later =>
    ∀ id req task, earlier = .fenceReturned id .notStarted → later ≠ .created id req task
  /-- `Start` returns the id it was given. -/
  sameId : ∀ call c id, m.starts.get? call = some c → c.req.requestId ≠ [] →
    c.pc = .returned (.ok id) → id = c.req.requestId
  /-- What succeeds under one id is one request. -/
  sameRequest : ∀ call call' c c' id, m.starts.get? call = some c → m.starts.get? call' = some c' →
    c.req.requestId ≠ [] → c'.req.requestId ≠ [] → c.pc = .returned (.ok id) →
    c'.pc = .returned (.ok id) → c.req = c'.req
  /-- A call with another request under a retained id changes only itself and does not succeed. -/
  unchanged : ∀ call c previous action, m.starts.get? call = some c → c.req.requestId ≠ [] →
    m.requests.get? c.req.requestId = some previous → previous ≠ c.req →
    action.start? = some call →
    ∃ pc, (step deps m action).2 = m.setStart call c pc ∧
      (pc = c.pc ∨ ∀ id, pc ≠ .returned (.ok id))
  /-- It fails where it looks at the tables. -/
  refused : ∀ call c previous, m.starts.get? call = some c → c.req.requestId ≠ [] →
    m.requests.get? c.req.requestId = some previous → previous ≠ c.req →
    (c.pc = .validated → ∃ error,
      (step deps m (.startCheck call)).2 = m.setStart call c (.returned (.error error))) ∧
    (c.pc = .prepared → ∀ newTaskId, ∃ error,
      (step deps m (.startCommit call newTaskId)).2 = m.setStart call c (.returned (.error error)))

/-- No task is made for an id that is no longer accepted. -/
def timely (run : Run) : Action → Prop
  | .startCommit call _ => ∀ c, run.state.starts.get? call = some c → run.state.Creates c →
      validRequestID run.state.clock c.req.requestId = none
  | _ => True

/-! ## The invariant -/

/-- What is known of a call with an id. -/
def CallSound (clock : Int) (log : List Entry) (c : StartCall) : Prop :=
  match c.pc with
  | .called => True
  | .validated => Seen clock c.req.requestId
  | .preparing => Seen clock c.req.requestId
  | .prepared => Seen clock c.req.requestId
  | .returned (.ok id) => id = c.req.requestId ∧ ∃ task, .created id c.req task ∈ log
  | .returned (.error _) => True

/-- What the tables still know of what happened to an id. -/
structure Known (m : Manager) : Prop where
  starts : ∀ call c, m.starts.get? call = some c → c.req.requestId ≠ [] →
    CallSound m.clock m.log c
  fencing : ∀ call c, m.fenceCalls.get? call = some c → c.pc = .validated → Seen m.clock c.id
  created : ∀ id req task, .created id req task ∈ m.log → Seen m.clock id ∧
    (m.requests.get? id = some req ∨ LifetimeOver m.clock id)
  answered : ∀ id, .fenceReturned id .notStarted ∈ m.log → Seen m.clock id ∧
    (m.fences.has id = true ∨ LifetimeOver m.clock id)
  requests : ∀ id req, m.requests.get? id = some req →
    req.requestId = id ∧ (∃ task, .created id req task ∈ m.log) ∧ m.tasks.has id = true

structure Once (m : Manager) : Prop where
  created : (createdIds m.log).Nodup
  fenced : m.log.Pairwise fun earlier later =>
    ∀ id req task, earlier = .fenceReturned id .notStarted → later ≠ .created id req task

variable {log : List Entry}

theorem mem_createdIds :
    id ∈ createdIds log ↔ ∃ req task, .created id req task ∈ log := by
  unfold createdIds
  rw [mem_filterMap]
  constructor
  · rintro ⟨entry, hentry, hid⟩
    cases entry with
    | created id' req task =>
      rw [← Option.some.inj hid]
      exact ⟨req, task, hentry⟩
    | fenceReturned | ended => cases hid
  · rintro ⟨req, task, hentry⟩
    exact ⟨_, hentry, rfl⟩

/-- An id that was created once has one request. -/
theorem created_unique (h : (createdIds log).Nodup) {req' : BridgeTaskRequest} {task task' : Nat}
    (hcreated : .created id req task ∈ log) (hcreated' : .created id req' task' ∈ log) :
    req = req' := by
  induction log with
  | nil => exact absurd hcreated not_mem_nil
  | cons entry rest ih =>
    have hrest : (createdIds rest).Nodup :=
      Nodup.sublist (Sublist.filterMap _ (sublist_cons_self _ _)) h
    have hfirst : ∀ r t r' t', entry = .created id r t → .created id r' t' ∉ rest := by
      intro r t r' t' hentry hmem
      rw [hentry] at h
      exact (nodup_cons.mp h).1 (mem_createdIds.mpr ⟨r', t', hmem⟩)
    rcases mem_cons.mp hcreated with heq | hmem
    · rcases mem_cons.mp hcreated' with heq' | hmem'
      · exact (Entry.created.inj (heq.trans heq'.symm)).2.1
      · exact absurd hmem' (hfirst _ _ _ _ heq.symm)
    · rcases mem_cons.mp hcreated' with heq' | hmem'
      · exact absurd hmem (hfirst _ _ _ _ heq'.symm)
      · exact ih hrest hmem hmem'

theorem CallSound.mono {log' : List Entry} (h : CallSound clock log c) (hclock : clock ≤ clock')
    (hlog : ∀ e ∈ log, e ∈ log') :
    CallSound clock' log' c := by
  unfold CallSound at h ⊢
  cases hpc : c.pc with
  | called => exact trivial
  | validated =>
    rw [hpc] at h
    exact h.mono hclock
  | preparing =>
    rw [hpc] at h
    exact h.mono hclock
  | prepared =>
    rw [hpc] at h
    exact h.mono hclock
  | returned outcome =>
    rw [hpc] at h
    cases outcome with
    | error error => exact trivial
    | ok id =>
      obtain ⟨hid, task, htask⟩ := h
      exact ⟨hid, task, hlog _ htask⟩

/-! ## Steps that leave the tables alone -/

/-- Nothing is created and no fence answers that nothing was started. -/
def Entry.quiet : Entry → Bool
  | .created .. => false
  | .fenceReturned _ .notStarted => false
  | _ => true

structure Quiet (m m' : Manager) : Prop where
  clock : m.clock ≤ m'.clock
  requests : m'.requests = m.requests
  fences : m'.fences = m.fences
  log : ∃ new, m'.log = m.log ++ new ∧ ∀ entry ∈ new, entry.quiet = true

theorem createdIds_append (log new : List Entry) :
    createdIds (log ++ new) = createdIds log ++ createdIds new :=
  filterMap_append

theorem createdIds_quiet {new : List Entry} (h : ∀ entry ∈ new, entry.quiet = true) :
    createdIds new = [] := by
  rw [eq_nil_iff_forall_not_mem]
  intro id hid
  obtain ⟨req, task, hmem⟩ := mem_createdIds.mp hid
  exact absurd (h _ hmem) Bool.false_ne_true

theorem Known.quiet (h : Known m) (hquiet : Quiet m m')
    (htasks : ∀ id, m.tasks.has id = true → m'.tasks.has id = true)
    (hstarts : ∀ call c, m'.starts.get? call = some c → c.req.requestId ≠ [] →
      CallSound m'.clock m'.log c)
    (hfencing : ∀ call c, m'.fenceCalls.get? call = some c → c.pc = .validated →
      Seen m'.clock c.id) : Known m' := by
  obtain ⟨hclock, hrequests, hfences, new, hlog, hnew⟩ := hquiet
  have hold : ∀ entry, entry ∈ m'.log → entry.quiet = false → entry ∈ m.log := by
    intro entry hentry hloud
    rw [hlog] at hentry
    rcases mem_append.mp hentry with hentry | hentry
    · exact hentry
    · rw [hnew entry hentry] at hloud
      cases hloud
  refine ⟨hstarts, hfencing, ?_, ?_, ?_⟩
  · intro id req task hmem
    obtain ⟨hseen, hknown⟩ := h.created id req task (hold _ hmem rfl)
    refine ⟨hseen.mono hclock, ?_⟩
    rw [hrequests]
    exact hknown.imp_right fun hover => hover.mono hclock
  · intro id hmem
    obtain ⟨hseen, hknown⟩ := h.answered id (hold _ hmem rfl)
    refine ⟨hseen.mono hclock, ?_⟩
    rw [hfences]
    exact hknown.imp_right fun hover => hover.mono hclock
  · intro id req hreq
    rw [hrequests] at hreq
    obtain ⟨hid, ⟨task, htask⟩, hlisted⟩ := h.requests id req hreq
    refine ⟨hid, ⟨task, ?_⟩, htasks id hlisted⟩
    rw [hlog]
    exact mem_append_left _ htask

theorem Once.quiet (h : Once m) (hquiet : Quiet m m') : Once m' := by
  obtain ⟨new, hlog, hnew⟩ := hquiet.log
  constructor
  · rw [hlog, createdIds_append, createdIds_quiet hnew, append_nil]
    exact h.created
  · rw [hlog, pairwise_append]
    refine ⟨h.fenced, ?_, ?_⟩
    · apply Pairwise.imp_of_mem (R := fun _ _ => True)
      · intro a b _ hb _ id req task _ heq
        rw [heq] at hb
        exact absurd (hnew _ hb) Bool.false_ne_true
      · exact pairwise_of_forall fun _ _ => trivial
    · intro a _ b hb id req task _ heq
      rw [heq] at hb
      exact absurd (hnew _ hb) Bool.false_ne_true

theorem Quiet.of_fields (hclock : m'.clock = m.clock) (hrequests : m'.requests = m.requests)
    (hfences : m'.fences = m.fences) (hlog : m'.log = m.log) : Quiet m m' :=
  ⟨hclock.ge, hrequests, hfences, [], by rw [hlog, append_nil], by simp⟩

/-- The calls are as they were. -/
theorem Known.same (h : Known m) (hquiet : Quiet m m')
    (htasks : ∀ id, m.tasks.has id = true → m'.tasks.has id = true) (hstarts : m'.starts = m.starts)
    (hfenceCalls : m'.fenceCalls = m.fenceCalls) : Known m' := by
  have hlog : ∀ entry ∈ m.log, entry ∈ m'.log := by
    obtain ⟨new, hnew, _⟩ := hquiet.log
    intro entry hentry
    rw [hnew]
    exact mem_append_left _ hentry
  apply h.quiet hquiet htasks
  · intro call c hc hid
    rw [hstarts] at hc
    exact (h.starts call c hc hid).mono hquiet.clock hlog
  · intro call c hc hpc
    rw [hfenceCalls] at hc
    exact (h.fencing call c hc hpc).mono hquiet.clock

theorem quiet_setStart (m : Manager) (call : Nat) (c : StartCall) (pc : StartPc) :
    Quiet m (m.setStart call c pc) := Quiet.of_fields rfl rfl rfl rfl

theorem quiet_setFence (m : Manager) (call : Nat) (c : FenceCall) (pc : FencePc) :
    Quiet m (m.setFence call c pc) := Quiet.of_fields rfl rfl rfl rfl

theorem quiet_cancelTask (m : Manager) (n : Nat) : Quiet m (m.cancelTask n) :=
  Quiet.of_fields (sameTables_cancelTask m n).clock (sameTables_cancelTask m n).requests
    (sameTables_cancelTask m n).fences (log_cancelTask m n)

variable {pc : StartPc}

theorem Known.setStart (h : Known m)
    (hsound : c.req.requestId ≠ [] → CallSound m.clock m.log { c with pc := pc }) :
    Known (m.setStart call c pc) := by
  apply h.quiet (quiet_setStart m call c pc) (fun _ => id)
  · intro call' c' hc' hid
    rw [Manager.setStart, get?_set] at hc'
    split at hc'
    · rw [← Option.some.inj hc'] at hid ⊢
      exact hsound hid
    · exact h.starts call' c' hc' hid
  · exact h.fencing

theorem Known.setFence (h : Known m) {c : FenceCall} {pc : FencePc}
    (hpc : pc = .validated → Seen m.clock c.id) : Known (m.setFence call c pc) := by
  apply h.quiet (quiet_setFence m call c pc) (fun _ => id)
  · exact h.starts
  · intro call' c' hc' hvalidated
    rw [Manager.setFence, get?_set] at hc'
    split at hc'
    · rw [← Option.some.inj hc'] at hvalidated ⊢
      exact hpc hvalidated
    · exact h.fencing call' c' hc' hvalidated

theorem Known.spawn (h : Known m) (deps : Deps) (req : BridgeTaskRequest)
    (taskId : GoString) : Known (m.spawn deps req taskId) := by
  refine h.same (Quiet.of_fields rfl rfl rfl rfl) ?_ rfl rfl
  intro id hid
  rw [has, Manager.spawn, get?_set]
  split
  · rfl
  · exact hid

/-! ## Steps that change the tables -/

/-- A task that is in the table of tasks is kept for an id that has no request. -/
theorem Known.keep (h : Known m) (task : Nat) (hseen : Seen m.clock req.requestId)
    (hlisted : m.tasks.has req.requestId = true)
    (hnew : m.requests.get? req.requestId = none) : Known (m.keep req task) := by
  have hlog : ∀ entry ∈ m.log, entry ∈ (m.keep req task).log := by
    intro entry hentry
    exact mem_append_left _ hentry
  refine ⟨?_, h.fencing, ?_, ?_, ?_⟩
  · intro call c hc hid
    exact (h.starts call c hc hid).mono le_rfl hlog
  · intro id r t hmem
    rw [Manager.keep, get?_set]
    rcases mem_append.mp hmem with hmem | hmem
    · obtain ⟨hs, hknown⟩ := h.created id r t hmem
      refine ⟨hs, ?_⟩
      by_cases heq : id = req.requestId
      · rw [heq, hnew] at hknown
        rw [heq]
        exact .inr (hknown.resolve_left (by simp))
      · rw [if_neg heq]
        exact hknown
    · obtain ⟨hid, hr, _⟩ := Entry.created.inj (mem_singleton.mp hmem)
      rw [hid, hr, if_pos rfl]
      exact ⟨hseen, .inl rfl⟩
  · intro id hmem
    rcases mem_append.mp hmem with hmem | hmem
    · exact h.answered id hmem
    · exact absurd (mem_singleton.mp hmem) (by simp)
  · intro id r hr
    rw [Manager.keep, get?_set] at hr
    split at hr
    · rename_i heq
      rw [← Option.some.inj hr, heq]
      exact ⟨rfl, ⟨task, mem_append_right _ mem_cons_self⟩, hlisted⟩
    · obtain ⟨hid, ⟨t, ht⟩, htasks⟩ := h.requests id r hr
      exact ⟨hid, ⟨t, hlog _ ht⟩, htasks⟩

/-- Nothing was made or fenced under an id that is in its lifetime and in neither table. -/
theorem Once.keep (h : Once m) (hknown : Known m) (task : Nat)
    (hvalid : validRequestID m.clock req.requestId = none)
    (hfence : m.fences.has req.requestId = false)
    (hnew : m.requests.get? req.requestId = none) : Once (m.keep req task) := by
  have hover : ¬LifetimeOver m.clock req.requestId := fun hover => hover.not_valid hvalid
  have hnone : ∀ r t, .created req.requestId r t ∉ m.log := by
    intro r t hmem
    rcases (hknown.created _ _ _ hmem).2 with hreq | hdead
    · rw [hnew] at hreq
      cases hreq
    · exact hover hdead
  constructor
  · rw [Manager.keep, createdIds_append, nodup_append]
    refine ⟨h.created, nodup_singleton _, ?_⟩
    intro id hid id' hid' heq
    obtain ⟨r, t, hmem⟩ := mem_createdIds.mp hid
    rw [heq, mem_singleton.mp hid'] at hmem
    exact hnone r t hmem
  · rw [Manager.keep, pairwise_append]
    refine ⟨h.fenced, pairwise_singleton _ _, ?_⟩
    intro earlier hearlier later hlater id r t heq hcreated
    rw [mem_singleton.mp hlater] at hcreated
    rw [heq, ← (Entry.created.inj hcreated).1] at hearlier
    rcases (hknown.answered _ hearlier).2 with hhas | hdead
    · rw [hfence] at hhas
      exact Bool.false_ne_true hhas
    · exact hover hdead

/-- A fence is set and its caller is told that nothing was started. -/
theorem Known.reserve (h : Known m) {c : FenceCall} (hseen : Seen m.clock c.id) :
    Known ({ m with fences := m.fences.set c.id () }.fenceReturns call c none .notStarted) := by
  have hkept : ∀ entry ∈ m.log, entry ∈ m.log ++ [Entry.fenceReturned c.id .notStarted] := by
    intro entry hentry
    exact mem_append_left _ hentry
  refine ⟨?_, ?_, ?_, ?_, ?_⟩
  · intro call' c' hc' hid
    exact (h.starts call' c' hc' hid).mono le_rfl hkept
  · intro call' c' hc' hvalidated
    rw [Manager.fenceReturns, Manager.setFence, get?_set] at hc'
    split at hc'
    · rw [← Option.some.inj hc'] at hvalidated
      cases hvalidated
    · exact h.fencing call' c' hc' hvalidated
  · intro i r t hmem
    rcases mem_append.mp hmem with hmem | hmem
    · exact h.created i r t hmem
    · exact absurd (mem_singleton.mp hmem) (by simp)
  · intro i hmem
    show Seen m.clock i ∧ ((m.fences.set c.id ()).has i = true ∨ LifetimeOver m.clock i)
    by_cases heq : i = c.id
    · rw [heq]
      refine ⟨hseen, .inl ?_⟩
      rw [has, get?_set_self]
      rfl
    · rw [has, OrderedMap.get?_set_ne _ _ heq]
      rcases mem_append.mp hmem with hmem | hmem
      · exact h.answered i hmem
      · exact absurd (Entry.fenceReturned.inj (mem_singleton.mp hmem)).1 heq
  · intro i r hr
    obtain ⟨hid, ⟨t, ht⟩, htasks⟩ := h.requests i r hr
    exact ⟨hid, ⟨t, hkept _ ht⟩, htasks⟩

variable {answer : FenceAnswer}

theorem Once.fenceReturns (h : Once m) (hlog : m'.log = m.log ++ [Entry.fenceReturned id answer]) :
    Once m' := by
  constructor
  · rw [hlog, createdIds_append]
    show (createdIds m.log ++ []).Nodup
    rw [append_nil]
    exact h.created
  · rw [hlog, pairwise_append]
    refine ⟨h.fenced, pairwise_singleton _ _, ?_⟩
    intro earlier _ later hlater i r t _ heq
    rw [mem_singleton.mp hlater] at heq
    cases heq

/-- Pruning forgets no id that is in its lifetime. -/
theorem Known.prune (h : Known m) (deps : Deps) (now : Int) :
    Known (m.pruneExpired deps now) := by
  have hkeep : ∀ id req, m.requests.get? id = some req → validRequestID m.clock id = none →
      m.prunes deps now id = false := by
    intro id req hreq hvalid
    have hid : req.requestId ≠ [] := by
      intro hempty
      rw [← (h.requests id req hreq).1, hempty] at hvalid
      exact absurd hvalid (Option.some_ne_none BridgeTaskError.invalidRequest)
    rw [Manager.prunes, hvalid, hreq]
    simp [hid]
  refine ⟨h.starts, h.fencing, ?_, ?_, ?_⟩
  · intro id req task hmem
    obtain ⟨hseen, hknown⟩ := h.created id req task hmem
    refine ⟨hseen, ?_⟩
    rcases hknown with hreq | hover
    · by_cases hvalid : validRequestID m.clock id = none
      · refine .inl ?_
        rw [Manager.pruneExpired, get?_filter, hreq]
        simp [hkeep id req hreq hvalid]
      · exact .inr (hseen.over hvalid)
    · exact .inr hover
  · intro id hmem
    obtain ⟨hseen, hknown⟩ := h.answered id hmem
    refine ⟨hseen, ?_⟩
    rcases hknown with hhas | hover
    · by_cases hvalid : validRequestID m.clock id = none
      · refine .inl ?_
        rw [has, Option.isSome_iff_exists] at hhas
        obtain ⟨fence, hfence⟩ := hhas
        rw [has, Manager.pruneExpired, get?_filter, hfence]
        simp [hvalid]
      · exact .inr (hseen.over hvalid)
    · exact .inr hover
  · intro id req hreq
    rw [Manager.pruneExpired, get?_filter, Option.filter_eq_some_iff] at hreq
    obtain ⟨hid, htask, hlisted⟩ := h.requests id req hreq.1
    refine ⟨hid, htask, ?_⟩
    rw [has, Option.isSome_iff_exists] at hlisted
    obtain ⟨n, hn⟩ := hlisted
    rw [has, Manager.pruneExpired, get?_filter, hn]
    simpa using hreq.2

/-! ## Steps -/

variable {runner : Runner} {action : Action}

theorem Turn.quiet {n : Nat} (hturn : Turn deps m n runner action m') : Quiet m m' := by
  have hsame := hturn.sameTables
  refine ⟨hsame.clock.ge, hsame.requests, hsame.fences, ?_⟩
  rcases hturn.log with hlog | ⟨last, hlog⟩
  · exact ⟨[], by rw [hlog, append_nil], by simp⟩
  · exact ⟨[.ended n last], hlog, by simp [Entry.quiet]⟩

theorem Known.turn {n : Nat} (h : Known m) (hturn : Turn deps m n runner action m') : Known m' := by
  have hsame := hturn.sameTables
  refine h.same hturn.quiet ?_ hsame.starts hsame.fenceCalls
  intro id hid
  rw [hsame.tasks]
  exact hid

/-- The sections before have accepted the id. -/
theorem Known.seen (h : Known m) (hc : m.starts.get? call = some c) (hpc : c.pc = pc)
    (hpassed : pc = .validated ∨ pc = .preparing ∨ pc = .prepared) (hid : c.req.requestId ≠ []) :
    Seen m.clock c.req.requestId := by
  have hsound := h.starts call c hc hid
  unfold CallSound at hsound
  rw [hpc] at hsound
  rcases hpassed with heq | heq | heq <;> rw [heq] at hsound <;> exact hsound

theorem requestError_seen (h : requestError clock req = none)
    (hid : req.requestId ≠ []) : Seen clock req.requestId := by
  apply seen_of_valid
  unfold requestError at h
  split at h
  · cases h
  · split at h
    · rename_i hinvalid
      rw [h] at hinvalid
      exact absurd hinvalid.2 (by simp)
    · rename_i hvalid
      by_contra hne
      exact hvalid ⟨hid, Option.isSome_iff_ne_none.mpr hne⟩

variable {previous : BridgeTaskRequest}

section

variable (h : Known m)
include h

/-- A retained request was created, so that `Start` may return its id. -/
theorem Known.retained (hprevious : m.requests.get? c.req.requestId = some previous)
    (hsame : previous = c.req) :
    Known (m.setStart call c (.returned (.ok c.req.requestId))) := by
  apply h.setStart
  intro _
  obtain ⟨_, ⟨task, htask⟩, _⟩ := h.requests _ _ hprevious
  rw [hsame] at htask
  exact ⟨rfl, task, htask⟩

theorem Known.startCheck (hc : m.starts.get? call = some c) (hpc : c.pc = .validated) :
    Known (m.startCheck call c) := by
  have hgo : Known (m.setStart call c .preparing) := by
    apply h.setStart
    intro hid
    have hseen : Seen m.clock c.req.requestId := h.seen hc hpc (.inl rfl) hid
    exact hseen
  unfold Manager.startCheck
  split
  · exact hgo
  · split
    · exact h.setStart fun _ => trivial
    · split
      · rename_i previous hprevious
        split
        · exact h.setStart fun _ => trivial
        · rename_i hsame
          exact h.retained hprevious (not_not.mp hsame)
      · exact hgo

theorem Known.startCommit (deps : Deps) (hc : m.starts.get? call = some c)
    (hpc : c.pc = .prepared) (newTaskId : GoString) :
    Known (m.startCommit deps call c newTaskId) := by
  unfold Manager.startCommit
  split
  · rename_i hempty
    apply (h.spawn deps c.req newTaskId).setStart
    intro hid
    exact absurd hempty hid
  · rename_i hid
    split
    · exact h.setStart fun _ => trivial
    · split
      · rename_i previous hprevious
        split
        · exact h.setStart fun _ => trivial
        · rename_i hsame
          exact h.retained hprevious (not_not.mp hsame)
      · rename_i hnew
        split
        · exact h.setStart fun _ => trivial
        · have hseen := h.seen hc hpc (.inr (.inr rfl)) hid
          have hlisted : (m.spawn deps c.req c.req.requestId).tasks.has c.req.requestId = true := by
            rw [has, Manager.spawn, get?_set_self]
            rfl
          have hkeep := (h.spawn deps c.req c.req.requestId).keep m.nextTask hseen hlisted hnew
          apply hkeep.setStart
          intro _
          exact ⟨rfl, m.nextTask, mem_append_right _ mem_cons_self⟩

theorem Known.stepStart (deps : Deps) (hc : m.starts.get? call = some c) (action : Action) :
    Known (stepStart deps m call c action) := by
  cases action <;> unfold Bridge.stepStart <;> dsimp only <;> try exact h
  case startValidate =>
      split
      · apply h.setStart
        intro hid
        unfold CallSound
        cases herror : requestError m.clock c.req with
        | some error => exact trivial
        | none => exact requestError_seen herror hid
      · exact h
  case startCheck =>
      split
      · exact h.startCheck hc ‹_›
      · exact h
  case startPrepare _ error =>
      split
      · rename_i hpc
        apply h.setStart
        intro hid
        have hseen : Seen m.clock c.req.requestId := h.seen hc hpc (.inr (.inl rfl)) hid
        cases error with
        | some error => exact trivial
        | none => exact hseen
      · exact h
  case startCommit _ newTaskId =>
      split
      · exact h.startCommit deps hc ‹_› newTaskId
      · exact h

theorem Known.cancelTask (n : Nat) : Known (m.cancelTask n) := by
  have hsame := sameTables_cancelTask m n
  refine h.same (quiet_cancelTask m n) ?_ hsame.starts hsame.fenceCalls
  intro id hid
  rw [hsame.tasks]
  exact hid

/-- A fence that finds a task answers with how that task ended. -/
theorem Known.fenceReturns (call : Nat) (c : FenceCall) (task : Option Nat)
    (hanswer : answer ≠ .notStarted) :
    Known (m.fenceReturns call c task answer) := by
  have hset : Known (m.setFence call c (.returned task (.ok answer))) :=
    h.setFence (fun hpc => absurd hpc (by simp))
  have hquiet : Quiet (m.setFence call c (.returned task (.ok answer)))
      (m.fenceReturns call c task answer) := by
    refine ⟨le_rfl, rfl, rfl, [.fenceReturned c.id answer], rfl, ?_⟩
    intro entry hentry
    rw [mem_singleton.mp hentry]
    cases answer with
    | notStarted => exact absurd rfl hanswer
    | alreadyTerminal | cancelled => rfl
  exact hset.same hquiet (fun _ => id) rfl rfl

theorem Known.fenceLookup {c : FenceCall} (hc : m.fenceCalls.get? call = some c)
    (hpc : c.pc = .validated) :
    Known (m.fenceLookup call c) := by
  unfold Manager.fenceLookup
  split
  · exact h.setFence fun hpc => absurd hpc (by simp)
  · split
    · exact h.setFence fun hpc => absurd hpc (by simp)
    · exact h.reserve (h.fencing call c hc hpc)

theorem Known.fenceAnswer (call : Nat) (c : FenceCall) (n : Nat) (wasTerminal : Bool) :
    Known (m.fenceAnswer call c n wasTerminal) := by
  unfold Manager.fenceAnswer
  split
  · split
    · split
      · exact h.setFence fun hpc => absurd hpc (by simp)
      · split
        · exact h.fenceReturns call c _ (by simp)
        · exact h.fenceReturns call c _ (by simp)
    · exact h
  · exact h

theorem Known.stepFence {c : FenceCall} (hc : m.fenceCalls.get? call = some c) (action : Action) :
    Known (stepFence m call c action) := by
  cases action <;> unfold Bridge.stepFence <;> dsimp only <;> try exact h
  case fenceValidate =>
      split
      · apply h.setFence
        intro hvalidated
        cases hvalid : validRequestID m.clock c.id with
        | some error =>
          rw [hvalid] at hvalidated
          exact absurd hvalidated (by simp)
        | none => exact seen_of_valid hvalid
      · exact h
  case fenceLookup =>
      split
      · exact h.fenceLookup hc ‹_›
      · exact h
  case fenceRead =>
      split
      · exact h.setFence fun hpc => absurd hpc (by simp)
      · exact h
  case fenceCancel =>
      split
      · exact (h.cancelTask _).setFence fun hpc => absurd hpc (by simp)
      · exact h
  case fenceGiveUp =>
      split
      · exact h.setFence fun hpc => absurd hpc (by simp)
      · exact h
  case fenceAnswer =>
      split
      · exact h.fenceAnswer call c _ _
      · exact h

end

theorem quiet_tick (m : Manager) (now : Int) : Quiet m { m with clock := max m.clock now } :=
  ⟨le_max_left _ _, rfl, rfl, [], by rw [append_nil], by simp⟩

theorem Known.stepOther (h : Known m) (deps : Deps) (action : Action) :
    Known (stepOther deps m action) := by
  cases action <;> unfold Bridge.stepOther <;> dsimp only <;> try exact h
  case tick now => exact h.same (quiet_tick m now) (fun _ => id) rfl rfl
  case cancelRoot => exact h.same (Quiet.of_fields rfl rfl rfl rfl) (fun _ => id) rfl rfl
  case prune now => exact h.prune deps _
  case start req =>
      have hquiet : Quiet m { m with
          starts := m.starts.set m.nextStart ⟨req, .called⟩
          nextStart := m.nextStart + 1 } := Quiet.of_fields rfl rfl rfl rfl
      apply h.quiet hquiet (fun _ => id)
      · intro call c hc hid
        rw [get?_set] at hc
        split at hc
        · rw [← Option.some.inj hc]
          exact trivial
        · exact h.starts call c hc hid
      · exact h.fencing
  case fence id =>
      have hquiet : Quiet m { m with
          fenceCalls := m.fenceCalls.set m.nextFence ⟨id, m.log.length, .called⟩
          nextFence := m.nextFence + 1 } := Quiet.of_fields rfl rfl rfl rfl
      apply h.quiet hquiet (fun _ => fun hid => hid)
      · exact h.starts
      · intro call c hc hpc
        rw [get?_set] at hc
        split at hc
        · rw [← Option.some.inj hc] at hpc
          exact absurd hpc (by simp)
        · exact h.fencing call c hc hpc
  case cancel id =>
      split
      · exact h.cancelTask _
      · exact h

theorem Known.step (h : Known m) (deps : Deps) (action : Action) :
    Known (step deps m action).2 := by
  apply step_cases deps m action h
  · intro call c _ hc _
    exact h.stepStart deps hc action
  · intro call c _ hc _
    exact h.stepFence hc action
  · intro n runner m' _ _ hturn
    exact h.turn hturn
  · exact h.stepOther deps action

theorem Once.step (h : Once m) (hknown : Known m) (deps : Deps) (action : Action)
    (htimely : ∀ call newTaskId c, action = .startCommit call newTaskId →
      m.starts.get? call = some c → m.Creates c → validRequestID m.clock c.req.requestId = none) :
    Once (step deps m action).2 := by
  apply step_cases deps m action h
  · intro call c hcall hc hsection
    generalize stepStart deps m call c action = m' at hsection
    cases hsection with
    | goOn pc => exact h.quiet (quiet_setStart m call c pc)
    | make taskId pc =>
      have hquiet : Quiet m ((m.spawn deps c.req taskId).setStart call c pc) :=
        Quiet.of_fields rfl rfl rfl rfl
      exact h.quiet hquiet
    | makeKept at' newTaskId haction hpc hcreates pc =>
      rw [haction] at hcall
      rw [Option.some.inj hcall] at haction
      have hvalid := htimely call newTaskId c haction hc hcreates
      have hspawn : Quiet m (m.spawn deps c.req c.req.requestId) :=
        Quiet.of_fields rfl rfl rfl rfl
      have hkeep := (h.quiet hspawn).keep (hknown.spawn deps c.req c.req.requestId) m.nextTask
        hvalid hcreates.2.1 hcreates.2.2.1
      exact hkeep.quiet (quiet_setStart _ call c pc)
  · intro call c _ _ hsection
    generalize stepFence m call c action = m' at hsection
    cases hsection with
    | goOn pc => exact h.quiet (quiet_setFence m call c pc)
    | reserve => exact h.fenceReturns rfl
    | signal n pc => exact (h.quiet (quiet_cancelTask m n)).quiet (quiet_setFence _ call c pc)
    | answer n answer => exact h.fenceReturns rfl
  · intro n runner m' _ _ hturn
    exact h.quiet hturn.quiet
  · cases action <;> unfold stepOther <;> dsimp only
    case tick now => exact h.quiet (quiet_tick m now)
    case cancel id =>
        split
        · exact h.quiet (quiet_cancelTask m _)
        · exact h
    all_goals exact ⟨h.created, h.fenced⟩

theorem known_start (now : Int) : Known (start now).state := by
  refine ⟨?_, ?_, ?_, ?_, ?_⟩
  · intro call c hc
    cases hc
  · intro call c hc
    cases hc
  · intro id req task hmem
    exact absurd hmem not_mem_nil
  · intro id hmem
    exact absurd hmem not_mem_nil
  · intro id req hreq
    cases hreq

variable {now : Int}

theorem reach_known {allowed : Run → Action → Prop} {run : Run}
    (h : Reach (step deps) allowed (start now) run) : Known run.state :=
  Reach.invariant (I := fun d => Known d.state) (fun _ action _ hd => hd.step deps action) h
    (known_start now)

theorem reach_once {run : Run} (h : Reach (step deps) timely (start now) run) :
    Once run.state := by
  have hboth : Known run.state ∧ Once run.state := by
    refine Reach.invariant (I := fun d => Known d.state ∧ Once d.state) ?_ h
      ⟨known_start now, nodup_nil, Pairwise.nil⟩
    intro d action hallowed hd
    refine ⟨hd.1.step deps action, hd.2.step hd.1 deps action ?_⟩
    intro call newTaskId c haction hc hcreates
    rw [haction] at hallowed
    exact hallowed c hc hcreates
  exact hboth.2

/-! ## Conflicts -/

/-- A call under a retained id with another request: whatever its section, it
changes itself only and does not come to succeed. -/
theorem conflict_unchanged (deps : Deps) (hc : m.starts.get? call = some c)
    (hid : c.req.requestId ≠ []) (hprevious : m.requests.get? c.req.requestId = some previous)
    (hother : previous ≠ c.req) (action : Action) :
    ∃ pc, stepStart deps m call c action = m.setStart call c pc ∧
      (pc = c.pc ∨ ∀ id, pc ≠ .returned (.ok id)) := by
  have hstay : m.setStart call c c.pc = m := by
    rw [Manager.setStart, OrderedMap.set_of_get? hc]
  cases action <;> unfold stepStart <;> dsimp only <;> try exact ⟨c.pc, hstay.symm, .inl rfl⟩
  case startValidate =>
      split
      · refine ⟨_, rfl, .inr ?_⟩
        intro id
        split <;> simp
      · exact ⟨c.pc, hstay.symm, .inl rfl⟩
  case startCheck =>
      split
      · unfold Manager.startCheck
        rw [if_neg hid, hprevious]
        dsimp only
        rw [if_pos hother]
        split <;> exact ⟨_, rfl, .inr (by simp)⟩
      · exact ⟨c.pc, hstay.symm, .inl rfl⟩
  case startPrepare _ error =>
      split
      · refine ⟨_, rfl, .inr ?_⟩
        intro id
        split <;> simp
      · exact ⟨c.pc, hstay.symm, .inl rfl⟩
  case startCommit =>
      split
      · unfold Manager.startCommit
        rw [if_neg hid, hprevious]
        dsimp only
        rw [if_pos hother]
        split <;> exact ⟨_, rfl, .inr (by simp)⟩
      · exact ⟨c.pc, hstay.symm, .inl rfl⟩

theorem conflict_refused (deps : Deps) (call : Nat) (hid : c.req.requestId ≠ [])
    (hprevious : m.requests.get? c.req.requestId = some previous) (hother : previous ≠ c.req) :
    (∃ error, m.startCheck call c = m.setStart call c (.returned (.error error))) ∧
      ∀ newTaskId, ∃ error, m.startCommit deps call c newTaskId =
        m.setStart call c (.returned (.error error)) := by
  unfold Manager.startCheck Manager.startCommit
  rw [if_neg hid, hprevious]
  dsimp only
  rw [if_pos hother]
  by_cases hfence : m.fences.has c.req.requestId = true
  · rw [if_pos hfence]
    exact ⟨⟨_, rfl⟩, fun _ => ⟨.requestFenced, by rw [if_neg hid]⟩⟩
  · rw [if_neg hfence]
    exact ⟨⟨_, rfl⟩, fun _ => ⟨.requestConflict, by rw [if_neg hid]⟩⟩

theorem step_of_start (hc : m.starts.get? call = some c) (haction : action.start? = some call) :
    (step deps m action).2 = stepStart deps m call c action := by
  unfold step
  rw [haction]
  dsimp only
  rw [hc]
  rfl

/-! ## Main results -/

/-- As long as no task is made for an id whose lifetime ended on the way, an id
starts at most one task, whatever the interleaving. -/
theorem requestId_starts_once (deps : Deps) (now : Int) (run : Run)
    (h : Reach (step deps) timely (start now) run) : OneTaskEach deps run.state := by
  have hknown := reach_known h
  have honce := reach_once h
  have hreturned : ∀ call c id, run.state.starts.get? call = some c → c.req.requestId ≠ [] →
      c.pc = .returned (.ok id) → id = c.req.requestId ∧
        ∃ task, .created id c.req task ∈ run.state.log := by
    intro call c id hc hid hpc
    have hsound := hknown.starts call c hc hid
    unfold CallSound at hsound
    rw [hpc] at hsound
    exact hsound
  refine ⟨honce.created, honce.fenced, ?_, ?_, ?_, ?_⟩
  · intro call c id hc hid hpc
    exact (hreturned call c id hc hid hpc).1
  · intro call call' c c' id hc hc' hid hid' hpc hpc'
    obtain ⟨_, task, htask⟩ := hreturned call c id hc hid hpc
    obtain ⟨_, task', htask'⟩ := hreturned call' c' id hc' hid' hpc'
    exact created_unique honce.created htask htask'
  · intro call c previous action hc hid hprevious hother haction
    rw [step_of_start hc haction]
    exact conflict_unchanged deps hc hid hprevious hother action
  · intro call c previous hc hid hprevious hother
    have hrefused := conflict_refused deps call hid hprevious hother
    constructor
    · intro hpc
      rw [step_of_start hc rfl]
      unfold stepStart
      rw [hpc]
      exact hrefused.1
    · intro hpc newTaskId
      rw [step_of_start hc rfl]
      unfold stepStart
      rw [hpc]
      exact hrefused.2 newTaskId

/-! ### Runs -/

/-- A start and a fence of one id, the start being the first. -/
def startThenFence : List Action :=
  [.start exampleRequest, .startValidate 0, .startCheck 0, .startPrepare 0 none, .startCommit 0 [],
    .fence (go "task_1_a"), .fenceValidate 0, .fenceLookup 0]

theorem requestId_starts_once_startThenFence :
    createdIds (exec (step exampleDeps) (start 0) startThenFence).state.log =
        [go "task_1_a"] ∧
      OneTaskEach exampleDeps (exec (step exampleDeps) (start 0) startThenFence).state := by
  have hallowed : AllAllowed (step exampleDeps) timely (start 0) startThenFence := by
    refine ⟨trivial, trivial, trivial, trivial, ?_, trivial, trivial, trivial, trivial⟩
    intro c hc _
    have hcall : (exec (step exampleDeps) (start 0)
        (startThenFence.take 4)).state.starts.get? 0 = some ⟨exampleRequest, .prepared⟩ := rfl
    have hreq : c = ⟨exampleRequest, .prepared⟩ := Option.some.inj (hc.symm.trans hcall)
    rw [hreq]
    decide +kernel
  exact ⟨by decide +kernel,
    requestId_starts_once exampleDeps 0 _ (reach_exec hallowed)⟩

/-- The id's lifetime ends while a start of it is in its slow path, after a
fence has answered that nothing was started. -/
def lateStart : List Action :=
  [.start exampleRequest, .startValidate 0, .startCheck 0,
    .fence (go "task_1_a"), .fenceValidate 0, .fenceLookup 0,
    .tick (millisecond + bridgeRequestLifetime), .prune (millisecond + bridgeRequestLifetime),
    .startPrepare 0 none, .startCommit 0 []]

theorem request_started_after_fence :
    ¬∀ deps now run, Reach (step deps) anything (start now) run →
      OneTaskEach deps run.state := by
  intro h
  have hallowed : AllAllowed (step exampleDeps) anything (start 0) lateStart := by
    exact allAllowed_of_forall (fun _ _ => trivial) _ _
  have hfenced := (h exampleDeps 0 _ (reach_exec hallowed)).fenced
  have hlog : (exec (step exampleDeps) (start 0) lateStart).state.log =
      [.fenceReturned (go "task_1_a") .notStarted,
        .created (go "task_1_a") exampleRequest 0] := by decide +kernel
  rw [hlog] at hfenced
  have hafter := (pairwise_cons.mp hfenced).1 _ mem_cons_self
  exact hafter _ _ _ rfl rfl

end ClawMessenger.Ports.Bridge
