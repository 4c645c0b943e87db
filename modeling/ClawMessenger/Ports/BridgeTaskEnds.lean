import ClawMessenger.Ports.BridgeTaskManager

/-!
# How a task ends

A task's goroutine publishes one terminal event, in `execute` or instead of it,
and nothing terminal before.  `Ends` ties together the goroutine's place, the
task's fields and the log: the log holds the task's terminal event once it is
published, and only once.
-/

namespace ClawMessenger.Ports.Bridge

open Verified List
open OrderedMap (exists_set forall_set get?_set get?_set_cases get?_set_ne get?_set_self)

/-- The terminal event is published. -/
def RunnerPc.published : RunnerPc → Bool
  | .releasing _ => true
  | .released _ => true
  | .ended => true
  | _ => false

def Entry.endOf? (n : Nat) : Entry → Option BridgeTaskEvent
  | .ended task event => if task = n then some event else none
  | _ => none

/-- The terminal events a task has published. -/
def endEvents (n : Nat) (log : List Entry) : List BridgeTaskEvent := log.filterMap (Entry.endOf? n)

variable {n : Nat} {m m' : Manager} {runner : Runner}

variable {event : BridgeTaskEvent}

theorem mem_endEvents {log : List Entry} :
    event ∈ endEvents n log ↔ .ended n event ∈ log := by
  unfold endEvents
  rw [mem_filterMap]
  constructor
  · rintro ⟨entry, hentry, hend⟩
    cases entry with
    | ended task last =>
      by_cases heq : task = n
      · rw [Entry.endOf?, if_pos heq] at hend
        rw [← Option.some.inj hend, ← heq]
        exact hentry
      · rw [Entry.endOf?, if_neg heq] at hend
        cases hend
    | created | fenceReturned => cases hend
  · intro hentry
    exact ⟨_, hentry, if_pos rfl⟩

theorem endEvents_append (n : Nat) (log new : List Entry) :
    endEvents n (log ++ new) = endEvents n log ++ endEvents n new :=
  filterMap_append

structure Ended (log : List Entry) (n : Nat) (task : BridgeTask) (pc : RunnerPc) : Prop where
  logged : endEvents n log = task.terminalEvent.toList
  terminal : task.terminalEvent.isSome = task.terminal
  done : task.done = task.terminal
  published : pc.published = task.terminal

structure Ends (m : Manager) : Prop where
  task : ∀ n runner, m.runners.get? n = some runner →
    ∃ task, m.heap.get? n = some task ∧ Ended m.log n task runner.pc
  runner : ∀ n task, m.heap.get? n = some task → ∃ runner, m.runners.get? n = some runner
  finishing : ∀ n runner g event, m.runners.get? n = some runner → runner.pc = .finishing g event →
    event.terminal = true
  fresh : ∀ n, m.nextTask ≤ n → m.runners.get? n = none
  silent : ∀ n, m.runners.get? n = none → endEvents n m.log = []

/-! ## Steps of other tasks and of calls -/

/-- What a step that publishes nothing leaves as it is. -/
theorem Ends.same (h : Ends m) (hheap : m'.heap = m.heap) (hrunners : m'.runners = m.runners)
    (hnext : m'.nextTask = m.nextTask)
    (hlog : ∀ n, endEvents n m'.log = endEvents n m.log) : Ends m' := by
  refine ⟨?_, ?_, ?_, ?_, ?_⟩
  · intro n runner hn
    rw [hrunners] at hn
    obtain ⟨task, htask, hended⟩ := h.task n runner hn
    rw [hheap]
    exact ⟨task, htask, (hlog n).trans hended.logged, hended.terminal, hended.done,
      hended.published⟩
  · rw [hheap, hrunners]
    exact h.runner
  · rw [hrunners]
    exact h.finishing
  · rw [hnext, hrunners]
    exact h.fresh
  · intro n hn
    rw [hrunners] at hn
    rw [hlog]
    exact h.silent n hn

theorem Ends.lt (h : Ends m) (hn : m.runners.get? n = some runner) : n < m.nextTask := by
  by_contra hge
  have hnone := h.fresh n (Nat.le_of_not_lt hge)
  rw [hn] at hnone
  cases hnone

/-- A task changes in a field that says nothing about its end. -/
theorem Ends.setTask (h : Ends m) {task task' : BridgeTask} (htask : m.heap.get? n = some task)
    (hevent : task'.terminalEvent = task.terminalEvent) (hterminal : task'.terminal = task.terminal)
    (hdone : task'.done = task.done) :
    Ends { m with heap := m.heap.set n task' } := by
  refine ⟨?_, ?_, h.finishing, h.fresh, h.silent⟩
  · intro k runner hk
    obtain ⟨other, hother, hended⟩ := h.task k runner hk
    by_cases heq : k = n
    · rw [heq, get?_set_self]
      rw [heq, htask] at hother
      rw [← Option.some.inj hother, heq] at hended
      refine ⟨task', rfl, ?_, ?_, ?_, ?_⟩
      · rw [hevent]
        exact hended.logged
      · rw [hevent, hterminal]
        exact hended.terminal
      · rw [hdone, hterminal]
        exact hended.done
      · rw [hterminal]
        exact hended.published
    · rw [get?_set_ne _ _ heq]
      exact ⟨other, hother, hended⟩
  · exact forall_set h.runner (h.runner n task htask)

theorem Ends.cancelTask (h : Ends m) (n : Nat) : Ends (m.cancelTask n) := by
  unfold Manager.cancelTask
  split
  · rename_i task htask
    exact h.setTask htask rfl rfl rfl
  · exact h

theorem Ends.spawn (h : Ends m) (deps : Deps) (req : BridgeTaskRequest)
    (taskId : GoString) : Ends (m.spawn deps req taskId) := by
  refine ⟨?_, ?_, ?_, ?_, ?_⟩
  · intro n runner hn
    dsimp only [Manager.spawn]
    rcases get?_set_cases hn with ⟨heq, hnew⟩ | ⟨hne, hold⟩
    · rw [hnew, heq, get?_set_self]
      exact ⟨_, rfl, h.silent m.nextTask (h.fresh m.nextTask le_rfl), rfl, rfl, rfl⟩
    · rw [get?_set_ne _ _ hne]
      exact h.task n runner hold
  · exact forall_set (fun n task hn => exists_set _ _ (h.runner n task hn))
      ⟨_, get?_set_self _ _ _⟩
  · intro n runner g event hn hpc
    rcases get?_set_cases hn with ⟨_, hnew⟩ | ⟨_, hold⟩
    · rw [hnew] at hpc
      cases hpc
    · exact h.finishing n runner g event hold hpc
  · intro n hn
    have hlt : m.nextTask < n := hn
    dsimp only [Manager.spawn]
    rw [get?_set_ne _ _ hlt.ne']
    exact h.fresh n hlt.le
  · intro n hn
    dsimp only [Manager.spawn] at hn
    rw [get?_set] at hn
    split at hn
    · cases hn
    · exact h.silent n hn

/-! ## Steps of a task's goroutine -/

/-- The goroutine goes on and publishes nothing. -/
theorem Ends.goOn (h : Ends m) {pc old : RunnerPc} (hn : m.runners.get? n = some runner)
    (hpc : runner.pc = old) (hpublished : pc.published = old.published)
    (hfinishing : ∀ g event, pc = .finishing g event → event.terminal = true) :
    Ends (m.setRunner n runner pc) := by
  subst hpc
  refine ⟨?_, ?_, ?_, ?_, ?_⟩
  · apply forall_set h.task
    obtain ⟨task, htask, hended⟩ := h.task n runner hn
    exact ⟨task, htask, hended.logged, hended.terminal, hended.done, hpublished.trans hended.published⟩
  · exact fun k task hk => exists_set _ _ (h.runner k task hk)
  · intro k other g event hk hpc
    rcases get?_set_cases hk with ⟨_, hnew⟩ | ⟨_, hold⟩
    · rw [hnew] at hpc
      exact hfinishing g event hpc
    · exact h.finishing k other g event hold hpc
  · intro k hk
    dsimp only [Manager.setRunner]
    have hlt := h.lt hn
    have hle : m.nextTask ≤ k := hk
    rw [get?_set_ne _ _ (by omega)]
    exact h.fresh k hle
  · intro k hk
    dsimp only [Manager.setRunner] at hk
    rw [get?_set] at hk
    split at hk
    · cases hk
    · exact h.silent k hk

theorem publish_of_get? {task : BridgeTask} (htask : m.heap.get? n = some task)
    (event : BridgeTaskEvent) :
    m.publish n event = { m with
      heap := m.heap.set n (task.publish m.clock event)
      log :=
        if !task.terminal && event.terminal then
          m.log ++ [Entry.ended n (task.numbered m.clock event)]
        else
          m.log } := by
  rw [Manager.publish, htask]

/-- An event that is not terminal is published. -/
theorem Ends.publishStatus (h : Ends m) (n : Nat) (hevent : event.terminal = false) :
    Ends (m.publish n event) := by
  cases htask : m.heap.get? n with
  | none =>
    rw [Manager.publish, htask]
    exact h
  | some task =>
    obtain ⟨_, hterminal, _, hlast, hdone, _⟩ :=
      @BridgeTask.publish_status task event m.clock hevent
    rw [publish_of_get? htask, hevent, Bool.and_false, if_neg Bool.false_ne_true]
    exact h.setTask htask hlast hterminal hdone

/-- The goroutine publishes the event that ends its task. -/
theorem Ends.publishLast (h : Ends m) {pc : RunnerPc} (hn : m.runners.get? n = some runner)
    (hevent : event.terminal = true) (hbefore : runner.pc.published = false)
    (hafter : pc.published = true) : Ends ((m.publish n event).setRunner n runner pc) := by
  obtain ⟨task, htask, hended⟩ := h.task n runner hn
  have hopen : task.terminal = false := hended.published.symm.trans hbefore
  have hnone : task.terminalEvent = none := by
    rw [← Option.isNone_iff_eq_none, ← Option.not_isSome, hended.terminal, hopen]
    rfl
  obtain ⟨_, hterminal, _, hlast, hdone, _⟩ := BridgeTask.publish_terminal hopen m.clock hevent
  have hlogged : ∀ k, endEvents k (m.log ++ [Entry.ended n (task.numbered m.clock event)]) =
      endEvents k m.log ++ if n = k then [task.numbered m.clock event] else [] := by
    intro k
    rw [endEvents_append]
    by_cases hk : n = k
    · rw [if_pos hk]
      simp [endEvents, Entry.endOf?, hk]
    · rw [if_neg hk]
      simp [endEvents, Entry.endOf?, hk]
  rw [publish_of_get? htask, hopen, hevent, if_pos (by rfl)]
  refine ⟨?_, ?_, ?_, ?_, ?_⟩
  · intro k other hk
    dsimp only [Manager.setRunner]
    rcases get?_set_cases hk with ⟨heq, hnew⟩ | ⟨hne, hsame⟩
    · rw [hnew, heq, get?_set_self]
      refine ⟨_, rfl, ?_, ?_, ?_, ?_⟩
      · rw [hlogged, if_pos rfl, hended.logged, hnone, hlast]
        rfl
      · rw [hlast, hterminal]
        rfl
      · rw [hdone, hterminal]
      · rw [hterminal]
        exact hafter
    · obtain ⟨old, hold, hended'⟩ := h.task k other hsame
      rw [get?_set_ne _ _ hne]
      refine ⟨old, hold, ?_, hended'.terminal, hended'.done, hended'.published⟩
      rw [hlogged, if_neg (Ne.symm hne), append_nil]
      exact hended'.logged
  · exact forall_set (fun k other hk => exists_set _ _ (h.runner k other hk))
      ⟨_, get?_set_self _ _ _⟩
  · intro k other g last hk hpc
    rcases get?_set_cases hk with ⟨_, hnew⟩ | ⟨_, hold⟩
    · rw [hnew] at hpc
      dsimp only at hpc
      rw [hpc] at hafter
      exact absurd hafter Bool.false_ne_true
    · exact h.finishing k other g last hold hpc
  · intro k hk
    have hlt := h.lt hn
    have hle : m.nextTask ≤ k := hk
    dsimp only [Manager.setRunner]
    rw [get?_set_ne _ _ (by omega)]
    exact h.fresh k hle
  · intro k hk
    dsimp only [Manager.setRunner] at hk ⊢
    rw [get?_set] at hk
    split at hk
    · cases hk
    · rename_i hne
      rw [hlogged, if_neg (Ne.symm hne), append_nil]
      exact h.silent k hk

variable {action : Action}

theorem Ends.turn {deps : Deps} (h : Ends m) (hn : m.runners.get? n = some runner)
    (hturn : Turn deps m n runner action m') : Ends m' := by
  have hpublish : ∀ (event : BridgeTaskEvent) (pc : RunnerPc) {old : RunnerPc}, event.terminal = false →
      runner.pc = old → pc.published = old.published →
      (∀ g event, pc = .finishing g event → event.terminal = true) →
      Ends ((m.publish n event).setRunner n runner pc) := by
    intro event pc old hevent hpc hpublished hfinishing
    have hsame : (m.publish n event).runners.get? n = some runner := by
      unfold Manager.publish
      split <;> exact hn
    exact (h.publishStatus n hevent).goOn hsame hpc hpublished hfinishing
  have hheap : ∀ {m₁ : Manager} (pc : RunnerPc) {old : RunnerPc}, m₁.heap = m.heap ∧ m₁.runners = m.runners →
      m₁.nextTask = m.nextTask → m₁.log = m.log → runner.pc = old → pc.published = old.published →
      (∀ g event, pc = .finishing g event → event.terminal = true) →
      Ends (m₁.setRunner n runner pc) := by
    intro m₁ pc old hsame hnext hlog hpc hpublished hfinishing
    have h₁ : Ends m₁ := h.same hsame.1 hsame.2 hnext fun k => by rw [hlog]
    exact h₁.goOn (by rw [hsame.2]; exact hn) hpc hpublished hfinishing
  have hrelease : ∀ key g, (m.releaseConversation key g).heap = m.heap ∧
      (m.releaseConversation key g).runners = m.runners := by
    intro key g
    unfold Manager.releaseConversation
    split
    · dsimp only
      split <;> exact ⟨rfl, rfl⟩
    · exact ⟨rfl, rfl⟩
  have hgate : ∀ g gate, (m.setGate g gate).heap = m.heap ∧
      (m.setGate g gate).runners = m.runners := by
    intro g gate
    unfold Manager.setGate
    split <;> exact ⟨rfl, rfl⟩
  cases hturn with
  | acquire hpc =>
    unfold Manager.acquireConversation
    have hgo : ∀ g, Ends (m.setRunner n runner (.waiting g)) := fun g => h.goOn hn hpc rfl (by simp)
    split
    · exact (hgo _).same rfl rfl rfl fun _ => rfl
    · exact (hgo _).same rfl rfl rfl fun _ => rfl
  | take g hpc =>
    exact hheap _ (hgate g true) (sameTables_setGate m g true).nextTask (log_setGate m g true) hpc rfl (by simp)
  | giveUp g hpc => exact h.goOn hn hpc rfl (by simp)
  | leave g hpc =>
    exact hheap _ (hrelease _ g) (sameTables_releaseConversation m _ g).nextTask
      (log_releaseConversation m _ g) hpc rfl (by simp)
  | refused hpc =>
    apply h.publishLast hn
    · rfl
    · rw [hpc]
      rfl
    · rfl
  | skip g hpc =>
    refine h.goOn hn hpc rfl ?_
    intro g event heq
    rw [← (RunnerPc.finishing.inj heq).2]
    rfl
  | enter g hpc => exact h.goOn hn hpc rfl (by simp)
  | started g hpc => exact hpublish _ _ rfl hpc rfl (by simp)
  | message g status tools tools' hpc event hevent => exact hpublish event _ hevent hpc rfl (by simp)
  | retry g tools hpc => exact h.goOn hn hpc rfl (by simp)
  | outcome g status tools hpc _ outcome =>
    refine h.goOn hn hpc rfl ?_
    intro g event heq
    rw [← (RunnerPc.finishing.inj heq).2]
    exact outcomeEvent_terminal _ _ _ _
  | finish g event hpc =>
    apply h.publishLast hn (h.finishing n runner g event hn hpc)
    · rw [hpc]
      rfl
    · rfl
  | giveBack g hpc =>
    exact hheap _ (hgate g false) (sameTables_setGate m g false).nextTask (log_setGate m g false) hpc rfl (by simp)
  | release g hpc =>
    exact hheap _ (hrelease _ g) (sameTables_releaseConversation m _ g).nextTask
      (log_releaseConversation m _ g) hpc rfl (by simp)

/-! ## All steps -/

theorem endEvents_created (n : Nat) (log : List Entry) (id : GoString) (req : BridgeTaskRequest)
    (task : Nat) : endEvents n (log ++ [Entry.created id req task]) = endEvents n log := by
  rw [endEvents_append]
  exact append_nil _

theorem endEvents_fenceReturned (n : Nat) (log : List Entry) (id : GoString)
    (answer : FenceAnswer) :
    endEvents n (log ++ [Entry.fenceReturned id answer]) = endEvents n log := by
  rw [endEvents_append]
  exact append_nil _

theorem Ends.section {deps : Deps} {call : Nat} {c : StartCall} (h : Ends m)
    (hsection : StartSection deps m call c action m') : Ends m' := by
  cases hsection with
  | goOn pc => exact h.same rfl rfl rfl fun _ => rfl
  | make taskId pc => exact (h.spawn deps c.req taskId).same rfl rfl rfl fun _ => rfl
  | makeKept =>
    exact (h.spawn deps c.req c.req.requestId).same rfl rfl rfl
      fun n => endEvents_created n _ _ _ _

theorem Ends.fence {call : Nat} {c : FenceCall} (h : Ends m)
    (hsection : FenceSection m call c m') : Ends m' := by
  cases hsection with
  | goOn pc => exact h.same rfl rfl rfl fun _ => rfl
  | reserve => exact h.same rfl rfl rfl fun n => endEvents_fenceReturned n _ _ _
  | signal n pc => exact (h.cancelTask n).same rfl rfl rfl fun _ => rfl
  | answer n answer => exact h.same rfl rfl rfl fun n => endEvents_fenceReturned n _ _ _

theorem Ends.step (h : Ends m) (deps : Deps) (action : Action) :
    Ends (step deps m action).2 := by
  apply step_cases deps m action h
  · intro call c _ _ hsection
    exact h.section hsection
  · intro call c _ _ hsection
    exact h.fence hsection
  · intro n runner m' _ hn hturn
    exact h.turn hn hturn
  · cases action <;> unfold stepOther <;> dsimp only
    case cancel id =>
        split
        · exact h.cancelTask _
        · exact h
    all_goals exact h.same rfl rfl rfl fun _ => rfl

theorem ends_start (now : Int) : Ends (start now).state := by
  refine ⟨?_, ?_, ?_, ?_, ?_⟩
  · intro n runner hn
    cases hn
  · intro n task hn
    cases hn
  · intro n runner g event hn
    cases hn
  · intro n _
    rfl
  · intro n _
    rfl

end ClawMessenger.Ports.Bridge
