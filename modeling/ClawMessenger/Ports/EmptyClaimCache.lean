import ClawMessenger.Verified.ExpiringStore
import ClawMessenger.Verified.Machine
import ClawMessenger.Verified.OrderedMap

/-!
# The cache of empty claims

A claim poll that finds no task queued for a runtime caches this verdict under
the version of the runtime, which every enqueue bumps; a lookup trusts the
verdict if it carries the current version.  The poll reads the version before it
selects, so a task that it has not seen is bumped after the read.

Both keys expire, and a version key that has expired counts from zero again.
Polls, enqueues, claims and the clock take turns, one command of Redis or one
statement of the database at a time.

A task is what the select may return: a queued row that passes the
authorization fence of the claim statements, which does not change.  The keys
hold integers; their decimal texts are equal when they are.  Times are in
milliseconds.
-/

namespace ClawMessenger.Ports.EmptyClaimCache

open Verified Verified.Machine List
open ExpiringStore (get_modify get_put get_renew)

/-! ## The keys -/

def emptyClaimKey (runtimeId : String) : String := "mul:claim:runtime:empty:" ++ runtimeId

def emptyClaimVersion (runtimeId : String) : String := "mul:claim:runtime:version:" ++ runtimeId

def emptyClaimCacheTTL : Nat := 3 * 60 * 1000

def emptyClaimVersionTTL : Nat := 24 * 3600 * 1000

abbrev Redis := ExpiringStore String Int

section

variable (redis : Redis) (runtimeId : String)

/-- The version that a lookup compares with. -/
def version : Int :=
  (redis.get (emptyClaimVersion runtimeId)).getD 0

/-- `IsEmpty`: one MGET. -/
def isEmpty : Bool :=
  if runtimeId = "" then false
  else
    match redis.get (emptyClaimKey runtimeId) with
    | none => false
    | some emptyVer => emptyVer == version redis runtimeId

/-- `MarkEmpty`. -/
def markEmpty (observedVersion : Int) (now : Nat) : Redis :=
  if runtimeId = "" then redis
  else redis.put (emptyClaimKey runtimeId) observedVersion (now + emptyClaimCacheTTL)

/-- The EXPIRE of `CurrentVersion` and of `Bump`. -/
def renewVersion (now : Nat) : Redis :=
  redis.renew (emptyClaimVersion runtimeId) (now + emptyClaimVersionTTL)

/-- The INCR of `Bump`. -/
def incrVersion : Redis :=
  redis.modify (emptyClaimVersion runtimeId) fun value => value.getD 0 + 1

end

/-! ## Tasks and polls -/

/-- The next command of a `Bump`. -/
inductive BumpPc where
  | incr
  | expire
  | completed
deriving DecidableEq, Repr

/-- A task that has been enqueued, or the notice that one has finished. -/
structure Task where
  runtimeId : String
  /-- It is queued and no claim has taken it. -/
  queued : Bool
  /-- It passes the fence of the claim statements. -/
  authorized : Bool
  bump : BumpPc
deriving DecidableEq, Repr

/-- A version that a poll has read. -/
structure Observed where
  runtimeId : String
  version : Int
  /-- How often the version key had expired by then; nothing reads it. -/
  life : Nat

/-- The next command of `ClaimTasksForRuntimes`; `ClaimTaskForRuntime` is the poll
of one runtime. -/
inductive PollPc where
  | looking (runtimeId : String) (rest : List String) (observed : List Observed)
  | reading (runtimeId : String) (rest : List String) (observed : List Observed)
  | renewing (read : Observed) (rest : List String) (observed : List Observed)
  | selecting (observed : List Observed)
  | marking (observed : List Observed)

structure State where
  clock : Nat := 0
  redis : Redis := fun _ => none
  tasks : OrderedMap Nat Task := ∅
  polls : OrderedMap Nat PollPc := ∅
  /-- How often the version key of a runtime has expired; nothing reads it. -/
  expiries : String → Nat := fun _ => 0
  /-- The life in which the version of a verdict was read; nothing reads it. -/
  markedIn : String → Nat := fun _ => 0

/-- After the sampling of a runtime comes the next runtime, then the select. -/
def nextRuntime (rest : List String) (observed : List Observed) : PollPc :=
  match rest with
  | runtimeId :: rest => .looking runtimeId rest observed
  | [] => if observed = [] then .marking [] else .selecting observed

/-- Whether the select returns a task of a runtime. -/
def hasCandidate (tasks : OrderedMap Nat Task) (runtimeId : String) : Bool :=
  tasks.values.any fun task => task.queued && task.authorized && task.runtimeId == runtimeId

/-- The next command of a poll. -/
def State.poll (s : State) (n : Nat) : PollPc → State
  | .looking runtimeId rest observed =>
    if isEmpty s.redis runtimeId then
      { s with polls := s.polls.set n (nextRuntime rest observed) }
    else { s with polls := s.polls.set n (.reading runtimeId rest observed) }
  | .reading runtimeId rest observed =>
    let read : Observed := ⟨runtimeId, version s.redis runtimeId, s.expiries runtimeId⟩
    if runtimeId = "" then
      { s with polls := s.polls.set n (nextRuntime rest (observed ++ [{ read with version := 0 }])) }
    else
      match s.redis.get (emptyClaimVersion runtimeId) with
      | none => { s with polls := s.polls.set n (nextRuntime rest (observed ++ [read])) }
      | some _ => { s with polls := s.polls.set n (.renewing read rest observed) }
  | .renewing read rest observed =>
    { s with
      redis := renewVersion s.redis read.runtimeId s.clock
      polls := s.polls.set n (nextRuntime rest (observed ++ [read])) }
  | .selecting observed =>
    { s with
      polls := s.polls.set n
        (.marking (observed.filter fun o => !hasCandidate s.tasks o.runtimeId)) }
  | .marking (o :: observed) =>
    { s with
      redis := markEmpty s.redis o.runtimeId o.version s.clock
      polls := s.polls.set n (.marking observed)
      markedIn := Function.update s.markedIn o.runtimeId o.life }
  | .marking [] => s

/-- The next command of the `Bump` of a task. -/
def State.bump (s : State) (n : Nat) (task : Task) : State :=
  if task.runtimeId = "" then { s with tasks := s.tasks.set n { task with bump := .completed } }
  else
    match task.bump with
    | .incr =>
      { s with
        redis := incrVersion s.redis task.runtimeId
        tasks := s.tasks.set n { task with bump := .expire } }
    | .expire =>
      { s with
        redis := renewVersion s.redis task.runtimeId s.clock
        tasks := s.tasks.set n { task with bump := .completed } }
    | .completed => s

/-- The version key of a runtime expires before `now`. -/
def expires (redis : Redis) (now : Nat) (runtimeId : String) : Bool :=
  (redis.get (emptyClaimVersion runtimeId)).isSome &&
    ((redis.purge now).get (emptyClaimVersion runtimeId)).isNone

inductive Action where
  | setClock (now : Nat)
  /-- A row is committed to the queue; its notification is still to come. -/
  | enqueue (n : Nat) (runtimeId : String) (authorized : Bool)
  /-- `NotifyTaskFinished`. -/
  | finished (n : Nat) (runtimeId : String)
  | bump (n : Nat)
  /-- A claim takes a task, or the task leaves the queue otherwise. -/
  | take (n : Nat)
  | begin (n : Nat) (runtimeIds : List String)
  | poll (n : Nat)
  /-- A poll fails. -/
  | abandon (n : Nat)

def step (s : State) : Action → Unit × State
  | .setClock now =>
    ((), { s with
      clock := now
      redis := s.redis.purge now
      expiries := fun runtimeId =>
        if expires s.redis now runtimeId then s.expiries runtimeId + 1 else s.expiries runtimeId })
  | .enqueue n runtimeId authorized =>
    ((), { s with tasks := s.tasks.set n ⟨runtimeId, true, authorized, .incr⟩ })
  | .finished n runtimeId => ((), { s with tasks := s.tasks.set n ⟨runtimeId, false, false, .incr⟩ })
  | .bump n => ((), (s.tasks.get? n).elim s fun task => s.bump n task)
  | .take n =>
    ((), (s.tasks.get? n).elim s fun task =>
      { s with tasks := s.tasks.set n { task with queued := false } })
  | .begin n runtimeIds => ((), { s with polls := s.polls.set n (nextRuntime runtimeIds []) })
  | .poll n => ((), (s.polls.get? n).elim s fun pc => s.poll n pc)
  | .abandon n => ((), { s with polls := s.polls.erase n })

abbrev Run := Config State Action Unit

/-- The clock advances, and polls and tasks have fresh names. -/
def allowed (c : Run) : Action → Prop
  | .setClock now => c.state.clock ≤ now
  | .enqueue n _ _ => c.state.tasks.get? n = none
  | .finished n _ => c.state.tasks.get? n = none
  | .begin n _ => c.state.polls.get? n = none
  | _ => True

instance (c : Run) (action : Action) : Decidable (allowed c action) := by
  cases action <;> (unfold allowed; infer_instance)

/-! ## What the commands do to a version -/

variable {a b : String}

theorem emptyClaimVersion_injective (h : emptyClaimVersion a = emptyClaimVersion b) :
    a = b := by
  unfold emptyClaimVersion at h
  have hlist := congrArg String.toList h
  rw [String.toList_append, String.toList_append] at hlist
  exact String.toList_inj.mp (append_cancel_left hlist)

theorem emptyClaimKey_injective (h : emptyClaimKey a = emptyClaimKey b) : a = b := by
  unfold emptyClaimKey at h
  have hlist := congrArg String.toList h
  rw [String.toList_append, String.toList_append] at hlist
  exact String.toList_inj.mp (append_cancel_left hlist)

/-- The two kinds of keys part at the letter after the common prefix. -/
theorem emptyClaimVersion_ne_emptyClaimKey (a b : String) :
    emptyClaimVersion a ≠ emptyClaimKey b := by
  intro h
  unfold emptyClaimVersion emptyClaimKey at h
  have hlists := congrArg String.toList h
  rw [String.toList_append, String.toList_append] at hlists
  simp at hlists

theorem version_markEmpty (redis : Redis) (runtimeId other : String) (observedVersion : Int)
    (now : Nat) :
    version (markEmpty redis runtimeId observedVersion now) other = version redis other := by
  unfold markEmpty
  split
  · rfl
  · unfold version
    rw [get_put, if_neg (emptyClaimVersion_ne_emptyClaimKey other runtimeId)]

theorem version_renewVersion (redis : Redis) (runtimeId other : String) (now : Nat) :
    version (renewVersion redis runtimeId now) other = version redis other := by
  unfold renewVersion version
  rw [get_renew]

theorem version_incrVersion (redis : Redis) (runtimeId other : String) :
    version (incrVersion redis runtimeId) other =
      if other = runtimeId then version redis runtimeId + 1 else version redis other := by
  unfold incrVersion version
  rw [get_modify]
  by_cases heq : other = runtimeId
  · rw [if_pos (congrArg emptyClaimVersion heq), if_pos heq]
    rfl
  · rw [if_neg fun h => heq (emptyClaimVersion_injective h), if_neg heq]

theorem version_purge (redis : Redis) (runtimeId : String) (now : Nat) :
    version (redis.purge now) runtimeId =
      if expires redis now runtimeId then 0 else version redis runtimeId := by
  unfold version expires
  rcases redis.get_purge now (emptyClaimVersion runtimeId) with hkept | ⟨hthere, hgone⟩
  · rw [hkept]
    cases redis.get (emptyClaimVersion runtimeId) with
    | none | some value => rfl
  · rw [hthere, hgone]
    rfl

/-- The verdicts that a command leaves alone. -/
theorem get_emptyClaimKey_incrVersion (redis : Redis) (runtimeId other : String) :
    (incrVersion redis runtimeId).get (emptyClaimKey other) = redis.get (emptyClaimKey other) := by
  unfold incrVersion
  rw [get_modify, if_neg (emptyClaimVersion_ne_emptyClaimKey runtimeId other).symm]

/-! ## Versions that polls and verdicts carry -/

/-- What a poll has read and not yet stored. -/
def PollPc.observed : PollPc → List Observed
  | .looking _ _ observed => observed
  | .reading _ _ observed => observed
  | .renewing read _ observed => read :: observed
  | .selecting observed => observed
  | .marking observed => observed

/-- What a poll has read for a runtime without tasks. -/
def PollPc.foundEmpty : PollPc → List Observed
  | .marking observed => observed
  | _ => []

/-- The version of a living verdict. -/
def State.verdict (s : State) (o : Observed) : Prop :=
  s.redis.get (emptyClaimKey o.runtimeId) = some o.version ∧ s.markedIn o.runtimeId = o.life

/-- A poll or a verdict carries the version. -/
def State.outstanding (s : State) (o : Observed) : Prop :=
  (∃ n pc, s.polls.get? n = some pc ∧ o ∈ pc.observed) ∨ s.verdict o

/-- The same, of a runtime that a select has found empty. -/
def State.foundEmpty (s : State) (o : Observed) : Prop :=
  (∃ n pc, s.polls.get? n = some pc ∧ o ∈ pc.foundEmpty) ∨ s.verdict o

/-- A task is queued for the runtime whose INCR has been executed. -/
def State.announced (s : State) (runtimeId : String) : Prop :=
  ∃ n task, s.tasks.get? n = some task ∧ task.runtimeId = runtimeId ∧ task.queued = true ∧
    task.authorized = true ∧ task.bump ≠ .incr

/-- No version key counts up again, after it has expired, to a version that a poll
or a verdict still carries from before. -/
def unrepeated (c : Run) : Action → Prop
  | .setClock now => ∀ o : Observed, o.runtimeId ≠ "" →
      expires c.state.redis now o.runtimeId = true →
      (step c.state (.setClock now)).2.outstanding o → o.version ≠ 0
  | .bump n => ∀ task, c.state.tasks.get? n = some task → task.bump = .incr →
      ∀ o : Observed, o.runtimeId ≠ "" → o.runtimeId = task.runtimeId → c.state.outstanding o →
      o.life < c.state.expiries o.runtimeId → o.version ≠ version c.state.redis o.runtimeId + 1
  | _ => True

/-- A version that is carried has been reached in its life of the key, or it is
from an earlier life and not the current one; and in its life it has been passed
once a task is announced that the select has not seen. -/
structure Sound (s : State) : Prop where
  life : ∀ o : Observed, o.runtimeId ≠ "" → s.outstanding o → o.life ≤ s.expiries o.runtimeId
  reached : ∀ o : Observed, o.runtimeId ≠ "" → s.outstanding o →
    o.life = s.expiries o.runtimeId → o.version ≤ version s.redis o.runtimeId
  earlier : ∀ o : Observed, o.runtimeId ≠ "" → s.outstanding o →
    o.life < s.expiries o.runtimeId → o.version ≠ version s.redis o.runtimeId
  passed : ∀ o : Observed, o.runtimeId ≠ "" → s.foundEmpty o →
    o.life = s.expiries o.runtimeId → s.announced o.runtimeId →
    o.version < version s.redis o.runtimeId

variable {pc : PollPc} {o : Observed}

theorem foundEmpty_observed (h : o ∈ pc.foundEmpty) :
    o ∈ pc.observed := by
  cases pc with
  | marking observed => exact h
  | looking _ _ _ | reading _ _ _ | renewing _ _ _ | selecting _ => cases h

variable {s : State} {n : Nat}

theorem State.foundEmpty.outstanding (h : s.foundEmpty o) :
    s.outstanding o := by
  rcases h with ⟨n, pc, hn, ho⟩ | hverdict
  · exact .inl ⟨n, pc, hn, foundEmpty_observed ho⟩
  · exact .inr hverdict

theorem Sound.start : Sound {} := by
  have hnone : ∀ o : Observed, ¬({} : State).outstanding o := by
    rintro o (⟨n, pc, hn, _⟩ | ⟨hverdict, _⟩)
    · cases hn
    · cases hverdict
  exact ⟨fun o _ h => absurd h (hnone o), fun o _ h => absurd h (hnone o),
    fun o _ h => absurd h (hnone o), fun o _ h => absurd h.outstanding (hnone o)⟩

/-- A step that leaves the versions alone, carries on what was carried or reads a
current version, and announces nothing. -/
theorem Sound.keep {s' : State} (h : Sound s)
    (hversion : ∀ runtimeId, version s'.redis runtimeId = version s.redis runtimeId)
    (hexpiries : s'.expiries = s.expiries)
    (hannounced : ∀ runtimeId, runtimeId ≠ "" → s'.announced runtimeId → s.announced runtimeId)
    (houtstanding : ∀ o : Observed, o.runtimeId ≠ "" → s'.outstanding o → s.outstanding o ∨
      (o.life = s.expiries o.runtimeId ∧ o.version = version s.redis o.runtimeId))
    (hfound : ∀ o : Observed, o.runtimeId ≠ "" → s'.foundEmpty o →
      s.foundEmpty o ∨ ¬s.announced o.runtimeId) :
    Sound s' where
  life := by
    intro o hid ho
    rw [hexpiries]
    rcases houtstanding o hid ho with hold | ⟨hlife, _⟩
    · exact h.life o hid hold
    · exact le_of_eq hlife
  reached := by
    intro o hid ho
    rw [hexpiries, hversion]
    intro hlife
    rcases houtstanding o hid ho with hold | ⟨_, hcurrent⟩
    · exact h.reached o hid hold hlife
    · exact le_of_eq hcurrent
  earlier := by
    intro o hid ho
    rw [hexpiries, hversion]
    intro hlife
    rcases houtstanding o hid ho with hold | ⟨hsame, _⟩
    · exact h.earlier o hid hold hlife
    · exact absurd hsame (ne_of_lt hlife)
  passed := by
    intro o hid ho
    rw [hexpiries, hversion]
    intro hlife hnews
    rcases hfound o hid ho with hold | hnone
    · exact h.passed o hid hold hlife (hannounced _ hid hnews)
    · exact absurd (hannounced _ hid hnews) hnone

/-! ## The steps -/

/-- What a poll carries after its next command. -/
theorem observed_nextRuntime (rest : List String) (observed : List Observed) :
    (nextRuntime rest observed).observed = observed ∧ (nextRuntime rest observed).foundEmpty = [] := by
  unfold nextRuntime
  cases rest with
  | cons runtimeId rest => exact ⟨rfl, rfl⟩
  | nil =>
    show (if observed = [] then PollPc.marking [] else .selecting observed).observed = observed ∧ _
    split
    · rename_i hnone
      exact ⟨hnone.symm, rfl⟩
    · exact ⟨rfl, rfl⟩

/-- A poll that moves on and touches neither tasks nor versions. -/
theorem Sound.setPoll (h : Sound s)
    (hobserved : ∀ o ∈ pc.observed, o.runtimeId ≠ "" → s.outstanding o ∨ (o.life = s.expiries o.runtimeId ∧ o.version = version s.redis o.runtimeId))
    (hfound : ∀ o ∈ pc.foundEmpty, s.foundEmpty o ∨ ¬s.announced o.runtimeId) :
    Sound { s with polls := s.polls.set n pc } := by
  refine h.keep (fun _ => rfl) rfl (fun _ _ hnews => hnews) ?_ ?_
  · rintro o hid (⟨k, pc', hk, ho⟩ | hverdict)
    · rw [OrderedMap.get?_set] at hk
      split at hk
      · cases hk
        exact hobserved o ho hid
      · exact .inl (.inl ⟨k, pc', hk, ho⟩)
    · exact .inl (.inr hverdict)
  · rintro o hid (⟨k, pc', hk, ho⟩ | hverdict)
    · rw [OrderedMap.get?_set] at hk
      split at hk
      · cases hk
        exact hfound o ho
      · exact .inl (.inl ⟨k, pc', hk, ho⟩)
    · exact .inl (.inr hverdict)

/-- Renewing the version key of a runtime changes no version and no verdict. -/
theorem Sound.renew (h : Sound s) (runtimeId : String) :
    Sound { s with redis := renewVersion s.redis runtimeId s.clock } := by
  have hverdict : ∀ o : Observed,
      ({ s with redis := renewVersion s.redis runtimeId s.clock } : State).verdict o → s.verdict o := by
    rintro o ⟨hvalue, hlife⟩
    refine ⟨?_, hlife⟩
    rw [← hvalue]
    exact (get_renew _ _ _ _).symm
  refine h.keep (fun other => version_renewVersion _ _ other _) rfl (fun _ _ hnews => hnews) ?_ ?_
  · rintro o _ (hpoll | ho)
    · exact .inl (.inl hpoll)
    · exact .inl (.inr (hverdict o ho))
  · rintro o _ (hpoll | ho)
    · exact .inl (.inl hpoll)
    · exact .inl (.inr (hverdict o ho))

/-- A task that changes and is announced only if it was. -/
theorem Sound.setTask (h : Sound s) {task : Task}
    (hannounced : task.runtimeId ≠ "" → task.queued = true → task.authorized = true →
      task.bump ≠ .incr → s.announced task.runtimeId) :
    Sound { s with tasks := s.tasks.set n task } := by
  refine h.keep (fun _ => rfl) rfl ?_ (fun _ _ ho => .inl ho) (fun _ _ ho => .inl ho)
  rintro runtimeId hid ⟨k, other, hk, rfl, hqueued, hauthorized, hbump⟩
  rw [OrderedMap.get?_set] at hk
  split at hk
  · cases hk
    exact hannounced hid hqueued hauthorized hbump
  · exact ⟨k, other, hk, rfl, hqueued, hauthorized, hbump⟩

/-- The runtime of an announced task is not found empty. -/
theorem hasCandidate_of_announced {runtimeId : String} (h : s.announced runtimeId) :
    hasCandidate s.tasks runtimeId = true := by
  obtain ⟨n, task, hn, hid, hqueued, hauthorized, _⟩ := h
  unfold hasCandidate
  rw [any_eq_true]
  refine ⟨task, ?_, ?_⟩
  · exact mem_map_of_mem (OrderedMap.get?_eq_some_iff.mp hn)
  · rw [hqueued, hauthorized, hid]
    simp

/-- Storing the verdict of a poll. -/
theorem Sound.mark (h : Sound s) {rest : List Observed}
    (hn : s.polls.get? n = some (.marking (o :: rest))) :
    Sound { s with
      redis := markEmpty s.redis o.runtimeId o.version s.clock
      polls := s.polls.set n (.marking rest)
      markedIn := Function.update s.markedIn o.runtimeId o.life } := by
  have hfound : ∀ o' : Observed, o'.runtimeId ≠ "" →
      ({ s with
        redis := markEmpty s.redis o.runtimeId o.version s.clock
        polls := s.polls.set n (.marking rest)
        markedIn := Function.update s.markedIn o.runtimeId o.life } : State).verdict o' →
      s.foundEmpty o' := by
    rintro o' hid ⟨hvalue, hlife⟩
    by_cases hsame : o'.runtimeId = o.runtimeId
    · -- the verdict is the one that the poll has carried
      have hne : o.runtimeId ≠ "" := hsame ▸ hid
      simp only [markEmpty, if_neg hne, get_put, hsame, if_true,
        Option.some_inj] at hvalue
      simp only [hsame, Function.update_self] at hlife
      have heq : o' = o := by
        cases o'
        cases o
        simp_all
      rw [heq]
      exact .inl ⟨n, _, hn, mem_cons_self⟩
    · right
      refine ⟨?_, ?_⟩
      · unfold markEmpty at hvalue
        split at hvalue
        · exact hvalue
        · rw [get_put, if_neg fun h => hsame (emptyClaimKey_injective h)] at hvalue
          exact hvalue
      · simp only [Function.update_of_ne hsame] at hlife
        exact hlife
  have hpoll : ∀ o' : Observed, (∃ k pc, (s.polls.set n (.marking rest)).get? k = some pc ∧
      o' ∈ pc.observed) → ∃ k pc, s.polls.get? k = some pc ∧ o' ∈ pc.observed := by
    rintro o' ⟨k, pc, hk, ho⟩
    rw [OrderedMap.get?_set] at hk
    split at hk
    · cases hk
      exact ⟨n, _, hn, mem_cons_of_mem _ ho⟩
    · exact ⟨k, pc, hk, ho⟩
  refine h.keep (fun other => version_markEmpty _ _ other _ _) rfl (fun _ _ hnews => hnews) ?_ ?_
  · rintro o' hid (ho | ho)
    · exact .inl (.inl (hpoll o' ho))
    · exact .inl (hfound o' hid ho).outstanding
  · rintro o' hid (⟨k, pc, hk, ho⟩ | ho)
    · rw [OrderedMap.get?_set] at hk
      split at hk
      · cases hk
        exact .inl (.inl ⟨n, _, hn, mem_cons_of_mem _ ho⟩)
      · exact .inl (.inl ⟨k, pc, hk, ho⟩)
    · exact .inl (hfound o' hid ho)

theorem Sound.poll (h : Sound s) (hn : s.polls.get? n = some pc) : Sound (s.poll n pc) := by
  have hheld : ∀ o ∈ pc.observed, s.outstanding o := fun o ho => .inl ⟨n, pc, hn, ho⟩
  have hnext : ∀ rest observed, (∀ o ∈ observed, o.runtimeId ≠ "" → s.outstanding o ∨
      (o.life = s.expiries o.runtimeId ∧ o.version = version s.redis o.runtimeId)) →
      Sound { s with polls := s.polls.set n (nextRuntime rest observed) } := by
    intro rest observed hobserved
    obtain ⟨hsame, hnone⟩ := observed_nextRuntime rest observed
    apply h.setPoll
    · rw [hsame]
      exact hobserved
    · rw [hnone]
      intro o ho
      cases ho
  have happend : ∀ (observed : List Observed) (read : Observed),
      (∀ o ∈ observed, s.outstanding o) →
      (read.runtimeId ≠ "" → s.outstanding read ∨
        (read.life = s.expiries read.runtimeId ∧
          read.version = version s.redis read.runtimeId)) →
      ∀ o ∈ observed ++ [read], o.runtimeId ≠ "" → s.outstanding o ∨
        (o.life = s.expiries o.runtimeId ∧ o.version = version s.redis o.runtimeId) := by
    intro observed read hold hread o ho hid
    rcases mem_append.mp ho with hearlier | hlast
    · exact .inl (hold o hearlier)
    · rw [mem_singleton.mp hlast] at hid ⊢
      exact hread hid
  cases pc with
  | looking runtimeId rest observed =>
    simp only [State.poll]
    split
    · exact hnext rest observed fun o ho _ => .inl (hheld o ho)
    · apply h.setPoll
      · exact fun o ho _ => .inl (hheld o ho)
      · intro o ho
        cases ho
  | reading runtimeId rest observed =>
    simp only [State.poll]
    split
    · rename_i hempty
      apply hnext
      exact happend _ _ hheld fun hid => absurd hempty hid
    · split
      · apply hnext
        exact happend _ _ hheld fun _ => .inr ⟨rfl, rfl⟩
      · apply h.setPoll
        · intro o ho _
          rcases mem_cons.mp ho with heq | hearlier
          · rw [heq]
            exact .inr ⟨rfl, rfl⟩
          · exact .inl (hheld o hearlier)
        · intro o ho
          cases ho
  | renewing read rest observed =>
    have hmoved : Sound { s with polls := s.polls.set n (nextRuntime rest (observed ++ [read])) } := by
      apply hnext
      exact happend _ _ (fun o ho => hheld o (mem_cons_of_mem _ ho))
        fun _ => .inl (hheld read mem_cons_self)
    exact hmoved.renew read.runtimeId
  | selecting observed =>
    apply h.setPoll
    · intro o ho _
      exact .inl (hheld o (mem_filter.mp ho).1)
    · intro o ho
      right
      intro hnews
      have hnone := (mem_filter.mp ho).2
      rw [hasCandidate_of_announced hnews] at hnone
      cases hnone
  | marking observed =>
    cases observed with
    | nil => exact h
    | cons o rest => exact h.mark hn

/-- The INCR of a bump passes every version that is carried. -/
theorem Sound.incr (h : Sound s) {task : Task} {s' : State}
    (hs' : s' = { s with
      redis := incrVersion s.redis task.runtimeId
      tasks := s.tasks.set n { task with bump := .expire } })
    (hfresh : ∀ o : Observed, o.runtimeId ≠ "" → o.runtimeId = task.runtimeId → s.outstanding o →
      o.life < s.expiries o.runtimeId → o.version ≠ version s.redis o.runtimeId + 1) :
    Sound s' := by
  have hverdict : ∀ o, s'.verdict o → s.verdict o := by
    rw [hs']
    rintro o ⟨hvalue, hlife⟩
    refine ⟨?_, hlife⟩
    rw [← hvalue]
    exact (get_emptyClaimKey_incrVersion _ _ _).symm
  have hout : ∀ o, s'.outstanding o → s.outstanding o := by
    rw [hs'] at hverdict ⊢
    rintro o (hpoll | ho)
    · exact .inl hpoll
    · exact .inr (hverdict o ho)
  subst hs'
  constructor
  case life => exact fun o hid ho => h.life o hid (hout o ho)
  case reached =>
    intro o hid ho hlife
    have hle := h.reached o hid (hout o ho) hlife
    rw [version_incrVersion]
    split
    · rename_i hsame
      rw [← hsame]
      exact le_trans hle (Int.le_add_one le_rfl)
    · exact hle
  case earlier =>
    intro o hid ho hlife
    rw [version_incrVersion]
    split
    · rename_i hsame
      rw [← hsame]
      exact hfresh o hid hsame (hout o ho) hlife
    · exact h.earlier o hid (hout o ho) hlife
  case passed =>
    intro o hid ho hlife hnews
    have hfound : s.foundEmpty o := by
      rcases ho with hpoll | hv
      · exact .inl hpoll
      · exact .inr (hverdict o hv)
    rw [version_incrVersion]
    split
    · rename_i hsame
      rw [← hsame]
      exact Int.lt_add_one_of_le (h.reached o hid hfound.outstanding hlife)
    · -- the runtime of another task, which was announced before
      rename_i hother
      apply h.passed o hid hfound hlife
      obtain ⟨k, other, hk, hkid, hrest⟩ := hnews
      rw [OrderedMap.get?_set] at hk
      split at hk
      · cases hk
        exact absurd hkid.symm hother
      · exact ⟨k, other, hk, hkid, hrest⟩

/-- Time passes, and keys expire. -/
theorem Sound.setClock (h : Sound s) {now : Nat}
    (hfresh : ∀ o : Observed, o.runtimeId ≠ "" → expires s.redis now o.runtimeId = true →
      (step s (.setClock now)).2.outstanding o → o.version ≠ 0) :
    Sound (step s (.setClock now)).2 := by
  have hverdict : ∀ o : Observed, (step s (.setClock now)).2.verdict o → s.verdict o := by
    rintro o ⟨hvalue, hlife⟩
    exact ⟨ExpiringStore.get_of_get_purge hvalue, hlife⟩
  have hout : ∀ o : Observed, (step s (.setClock now)).2.outstanding o → s.outstanding o := by
    rintro o (hpoll | ho)
    · exact .inl hpoll
    · exact .inr (hverdict o ho)
  have hfound : ∀ o : Observed, (step s (.setClock now)).2.foundEmpty o → s.foundEmpty o := by
    rintro o (hpoll | ho)
    · exact .inl hpoll
    · exact .inr (hverdict o ho)
  have hversion : ∀ runtimeId, version (step s (.setClock now)).2.redis runtimeId =
      if expires s.redis now runtimeId then 0 else version s.redis runtimeId := fun runtimeId =>
    version_purge s.redis runtimeId now
  have hexpiries : ∀ runtimeId, (step s (.setClock now)).2.expiries runtimeId =
      if expires s.redis now runtimeId then s.expiries runtimeId + 1 else s.expiries runtimeId :=
    fun _ => rfl
  constructor
  case life =>
    intro o hid ho
    have hle := h.life o hid (hout o ho)
    rw [hexpiries]
    split
    · exact Nat.le_succ_of_le hle
    · exact hle
  case reached =>
    intro o hid ho hlife
    have hle := h.life o hid (hout o ho)
    rw [hexpiries] at hlife
    rw [hversion]
    split at hlife
    · omega
    · rename_i hkept
      rw [if_neg hkept]
      exact h.reached o hid (hout o ho) hlife
  case earlier =>
    intro o hid ho hlife
    rw [hexpiries] at hlife
    rw [hversion]
    split at hlife
    · rename_i hgone
      rw [if_pos hgone]
      exact hfresh o hid hgone ho
    · rename_i hkept
      rw [if_neg hkept]
      exact h.earlier o hid (hout o ho) hlife
  case passed =>
    intro o hid ho hlife hnews
    have hle := h.life o hid (hfound o ho).outstanding
    rw [hexpiries] at hlife
    rw [hversion]
    split at hlife
    · omega
    · rename_i hkept
      rw [if_neg hkept]
      exact h.passed o hid (hfound o ho) hlife hnews

theorem Sound.abandon (h : Sound s) (n : Nat) :
    Sound { s with polls := s.polls.erase n } := by
  have herased : ∀ {k pc}, (s.polls.erase n).get? k = some pc → s.polls.get? k = some pc := by
    intro k pc hk
    by_cases heq : k = n
    · rw [heq, OrderedMap.get?_erase_self] at hk
      cases hk
    · rwa [OrderedMap.get?_erase_ne _ heq] at hk
  refine h.keep (fun _ => rfl) rfl (fun _ _ hnews => hnews) ?_ ?_
  · rintro o _ (⟨k, pc, hk, ho⟩ | ho)
    · exact .inl (.inl ⟨k, pc, herased hk, ho⟩)
    · exact .inl (.inr ho)
  · rintro o _ (⟨k, pc, hk, ho⟩ | ho)
    · exact .inl (.inl ⟨k, pc, herased hk, ho⟩)
    · exact .inl (.inr ho)

theorem Sound.step {c : Run} {action : Action} (h : Sound c.state) (hfresh : unrepeated c action) :
    Sound (EmptyClaimCache.step c.state action).2 := by
  cases action with
  | setClock now => exact h.setClock hfresh
  | enqueue n runtimeId authorized =>
    apply h.setTask
    intro _ _ _ hbump
    exact absurd rfl hbump
  | finished n runtimeId =>
    apply h.setTask
    intro _ _ _ hbump
    exact absurd rfl hbump
  | bump n =>
    cases hn : c.state.tasks.get? n with
    | none => simpa only [EmptyClaimCache.step, hn, Option.elim_none] using h
    | some task =>
      simp only [EmptyClaimCache.step, hn, Option.elim_some, State.bump]
      have hannounced : task.bump ≠ .incr → task.queued = true → task.authorized = true →
          c.state.announced task.runtimeId := fun hbump hqueued hauthorized =>
        ⟨n, task, hn, rfl, hqueued, hauthorized, hbump⟩
      split
      · rename_i hnone
        apply h.setTask
        intro hid
        exact absurd hnone hid
      · cases hbump : task.bump with
        | incr => exact h.incr rfl (hfresh task hn hbump)
        | expire =>
          have hset : Sound { c.state with
              tasks := c.state.tasks.set n { task with bump := .completed } } := by
            apply h.setTask
            intro _ hqueued hauthorized _
            apply hannounced _ hqueued hauthorized
            rw [hbump]
            exact BumpPc.noConfusion
          exact hset.renew task.runtimeId
        | completed => exact h
  | take n =>
    cases hn : c.state.tasks.get? n with
    | none => simpa only [EmptyClaimCache.step, hn, Option.elim_none] using h
    | some task =>
      simp only [EmptyClaimCache.step, hn, Option.elim_some]
      apply h.setTask
      intro _ hqueued
      cases hqueued
  | begin n runtimeIds =>
    obtain ⟨hsame, hnone⟩ := observed_nextRuntime runtimeIds []
    apply h.setPoll
    · rw [hsame]
      intro o ho
      cases ho
    · rw [hnone]
      intro o ho
      cases ho
  | poll n =>
    cases hn : c.state.polls.get? n with
    | none => simpa only [EmptyClaimCache.step, hn, Option.elim_none] using h
    | some pc =>
      simp only [EmptyClaimCache.step, hn, Option.elim_some]
      exact h.poll hn
  | abandon n => exact h.abandon n

/-! ## Hidden tasks -/

/-- A lookup answers that a runtime is empty while a task is queued for it whose
`Bump` has completed. -/
def State.hidden (s : State) (runtimeId : String) : Prop :=
  isEmpty s.redis runtimeId = true ∧
    ∃ n task, s.tasks.get? n = some task ∧ task.runtimeId = runtimeId ∧ task.queued = true ∧
      task.authorized = true ∧ task.bump = .completed

/-- A verdict that is trusted carries the version of its life, which the bump of
an announced task has passed. -/
theorem Sound.not_hidden (h : Sound s) (runtimeId : String) : ¬s.hidden runtimeId := by
  rintro ⟨hempty, n, task, hn, hid, hqueued, hauthorized, hbump⟩
  unfold isEmpty at hempty
  split at hempty
  · cases hempty
  · rename_i hne
    split at hempty
    · cases hempty
    · rename_i emptyVer hverdict
      have hcurrent : emptyVer = version s.redis runtimeId := by simpa using hempty
      have hcarried : s.verdict ⟨runtimeId, emptyVer, s.markedIn runtimeId⟩ := ⟨hverdict, rfl⟩
      have hannounced : s.announced runtimeId := by
        refine ⟨n, task, hn, hid, hqueued, hauthorized, ?_⟩
        rw [hbump]
        exact BumpPc.noConfusion
      rcases Nat.lt_or_eq_of_le (h.life _ hne (.inr hcarried)) with hearlier | hsame
      · exact h.earlier _ hne (.inr hcarried) hearlier hcurrent
      · exact absurd hcurrent (ne_of_lt (h.passed _ hne (.inr hcarried) hsame hannounced))

/-- In a run in which no expired version key counts up again to a version that is
still carried, no lookup ever hides a task. -/
theorem never_hidden {c : Run}
    (hc : Reach step (fun d action => allowed d action ∧ unrepeated d action)
      (start {}) c) (runtimeId : String) :
    ¬c.state.hidden runtimeId := by
  have hsound : Sound c.state :=
    Reach.invariant (I := fun d : Run => Sound d.state)
      (fun _ _ hallowed hd => hd.step hallowed.2) hc Sound.start
  exact hsound.not_hidden runtimeId

/-! ## Two runs -/

/-- A task is enqueued while a poll is between its select and its verdict. -/
def slowPoll : List Action :=
  [.begin 0 ["r"], .poll 0, .poll 0, .poll 0, .enqueue 0 "r" true, .bump 0, .bump 0, .poll 0]

theorem never_hidden_slowPoll :
    ¬(exec step (start {}) slowPoll).state.hidden "r" := by
  have hnever : ∀ {s : State} {o : Observed}, s.expiries = (fun _ => 0) →
      ¬o.life < s.expiries o.runtimeId := by
    intro s o hnone hlife
    rw [hnone] at hlife
    exact absurd hlife (Nat.not_lt_zero _)
  refine never_hidden (reach_exec ?_) "r"
  refine ⟨⟨rfl, trivial⟩, ⟨trivial, trivial⟩, ⟨trivial, trivial⟩, ⟨trivial, trivial⟩,
    ⟨rfl, trivial⟩, ⟨trivial, ?_⟩, ⟨trivial, ?_⟩, ⟨trivial, trivial⟩, trivial⟩
  · exact fun _ _ _ _ _ _ _ hlife => absurd hlife (hnever rfl)
  · exact fun _ _ _ _ _ _ _ hlife => absurd hlife (hnever rfl)

/-- The version key of a runtime expires after a poll has read it and before the
poll renews it; the next enqueue counts to the same version. -/
def versionReborn : List Action :=
  [.enqueue 0 "r" true, .bump 0, .bump 0, .take 0, .setClock emptyClaimVersionTTL,
    .begin 1 ["r"], .poll 1, .poll 1, .setClock (emptyClaimVersionTTL + 1), .poll 1, .poll 1,
    .enqueue 1 "r" true, .bump 1, .bump 1, .poll 1]

/-- The verdict of that poll hides the task of the enqueue. -/
theorem versionReborn_hidden :
    ¬∀ c : Run, Reach step allowed (start {}) c →
      ∀ runtimeId, ¬c.state.hidden runtimeId := by
  intro h
  have hallowed : AllAllowed step allowed (start {}) versionReborn := by
    decide +kernel
  apply h _ (reach_exec hallowed) "r"
  refine ⟨by decide +kernel, 1, ⟨"r", true, true, .completed⟩, ?_, rfl, rfl, rfl, rfl⟩
  decide +kernel

end ClawMessenger.Ports.EmptyClaimCache
