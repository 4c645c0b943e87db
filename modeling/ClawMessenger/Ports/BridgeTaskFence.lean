import ClawMessenger.Ports.BridgeTaskEnds
import ClawMessenger.Ports.BridgeTaskIdentity

/-!
# What a fence answers

`Fence` of an id that has a task reads whether the task is terminal, cancels
it, waits for its end and labels its answer by what it read.  Between the
reading and the cancelling the task may end in any way, and after the
cancelling a backend may still confirm a completion; the answer is `cancelled`
all the same (`completed_task_fenced_cancelled`).

`undisputed` excludes these steps.  Then a signalled task that a fence waits
for is `Stopping`: whatever end it has, has been decided or will be decided, is
a cancellation or a stop that is not confirmed.
-/

namespace ClawMessenger.Ports.Bridge

open Verified Verified.Machine List
open OrderedMap (get?_set get?_set_ne get?_set_self has)

/-- A task's end that a fence may report as cancelled, or as not confirmed. -/
def ByCancel (event : BridgeTaskEvent) : Prop :=
  event.type = .cancelled ∨ event.error = some stopUnconfirmed

/-- What has ended a task, or is about to, is a cancellation. -/
def EndsByCancel (m : Manager) (n : Nat) : Prop :=
  (∀ task event, m.heap.get? n = some task → task.terminalEvent = some event → ByCancel event) ∧
    ∀ runner g event, m.runners.get? n = some runner → runner.pc = .finishing g event →
      ByCancel event

def EndedBefore (m : Manager) (c : FenceCall) (n : Nat) : Prop :=
  ∃ event, .ended n event ∈ m.log.take c.begun

/-- A completion the backend vouches for. -/
def Result.confirmed (result : Result) : Bool :=
  !result.cancelUnconfirmed && result.completionConfirmed && result.status == go "completed"

/-- A fence's three steps meet no end of the task but the one it reports: a
terminal task was terminal when the call began, the task to be cancelled has
not ended otherwise, and no completion of a cancelled task is confirmed. -/
def undisputed (run : Run) : Action → Prop
  | .fenceRead call => ∀ c n task, run.state.fenceCalls.get? call = some c → c.pc = .found n →
      run.state.heap.get? n = some task → task.terminal = true → EndedBefore run.state c n
  | .fenceCancel call => ∀ c n, run.state.fenceCalls.get? call = some c → c.pc = .read n false →
      EndsByCancel run.state n
  | .outcome n (.result result) => (∃ call c, run.state.fenceCalls.get? call = some c ∧
      c.pc = .signalled n false) → result.confirmed = false
  | _ => True

structure FenceAgrees (deps : Deps) (m : Manager) : Prop where
  /-- `cancelled`: the task's terminal event is `cancelled`. -/
  cancelled : ∀ call c n, m.fenceCalls.get? call = some c →
    c.pc = .returned (some n) (.ok .cancelled) →
    ∃ event, endEvents n m.log = [event] ∧ event.type = .cancelled
  /-- `already_terminal`: the terminal event was published before the call. -/
  alreadyTerminal : ∀ call c n, m.fenceCalls.get? call = some c →
    c.pc = .returned (some n) (.ok .alreadyTerminal) → EndedBefore m c n
  /-- `not_started`: there is no task of that id, and while the id is in its
  lifetime there never was one. -/
  notStarted : ∀ call c, m.fenceCalls.get? call = some c → c.pc = .validated →
    (((step deps m (.fenceLookup call)).2.fenceCalls.get? call).map FenceCall.pc =
      some (.returned none (.ok .notStarted))) →
    m.tasks.get? c.id = none ∧
      (validRequestID m.clock c.id = none → c.id ∉ createdIds m.log)

/-! ## A task that a fence has cancelled -/

structure Stopping (m : Manager) (n : Nat) : Prop where
  cancelled : m.contextCancelled n = true
  ends : EndsByCancel m n

variable {task : BridgeTask}

theorem BridgeTask.publish_cancelled (h : task.cancelled = true) (now : Int)
    (event : BridgeTaskEvent) : (task.publish now event).cancelled = true := by
  by_cases hterminal : task.terminal = true
  · rw [BridgeTask.publish_of_terminal hterminal]
    exact h
  · by_cases hevent : event.terminal = true
    · exact (BridgeTask.publish_terminal (Bool.eq_false_iff.mpr hterminal) now hevent).2.2.2.2.2
    · have hsame := @BridgeTask.publish_status task event now (Bool.eq_false_iff.mpr hevent)
      exact hsame.2.2.2.2.2.trans h

variable {event : BridgeTaskEvent}

theorem BridgeTask.publish_terminalEvent {now : Int} {last : BridgeTaskEvent}
    (h : (task.publish now event).terminalEvent = some last) :
    task.terminalEvent = some last ∨ (event.terminal = true ∧ last = task.numbered now event) := by
  by_cases hterminal : task.terminal = true
  · rw [BridgeTask.publish_of_terminal hterminal] at h
    exact .inl h
  · by_cases hevent : event.terminal = true
    · have hlast := (BridgeTask.publish_terminal (Bool.eq_false_iff.mpr hterminal) now
        hevent).2.2.2.1
      rw [hlast] at h
      exact .inr ⟨hevent, (Option.some.inj h).symm⟩
    · have hsame := @BridgeTask.publish_status task event now (Bool.eq_false_iff.mpr hevent)
      rw [hsame.2.2.2.1] at h
      exact .inl h

variable {m m' : Manager} {n k call : Nat} {deps : Deps} {c : FenceCall}

theorem contextCancelled_of_heap (h : m.contextCancelled n = true)
    (hroot : m.rootCancelled = true → m'.rootCancelled = true)
    (hheap : ∀ task, m.heap.get? n = some task → task.cancelled = true →
      ∃ task', m'.heap.get? n = some task' ∧ task'.cancelled = true) :
    m'.contextCancelled n = true := by
  unfold Manager.contextCancelled at h ⊢
  rw [Bool.or_eq_true] at h ⊢
  rcases h with h | h
  · exact .inl (hroot h)
  · refine .inr ?_
    cases htask : m.heap.get? n with
    | none =>
      rw [htask] at h
      cases h
    | some task =>
      rw [htask] at h
      obtain ⟨task', htask', hcancelled⟩ := hheap task htask h
      rw [htask']
      exact hcancelled

theorem Stopping.same (h : Stopping m n) (hroot : m.rootCancelled = true → m'.rootCancelled = true)
    (hheap : m'.heap.get? n = m.heap.get? n) (hrunners : m'.runners.get? n = m.runners.get? n) :
    Stopping m' n := by
  refine ⟨?_, ?_, ?_⟩
  · apply contextCancelled_of_heap h.cancelled hroot
    intro task htask hcancelled
    exact ⟨task, hheap.trans htask, hcancelled⟩
  · rw [hheap]
    exact h.ends.1
  · rw [hrunners]
    exact h.ends.2

theorem Stopping.publish (h : Stopping m k) (n : Nat)
    (hevent : k = n → event.terminal = true → ByCancel event) :
    Stopping (m.publish n event) k := by
  cases htask : m.heap.get? n with
  | none =>
    rw [Manager.publish, htask]
    exact h
  | some task =>
    rw [publish_of_get? htask]
    by_cases heq : k = n
    · refine ⟨?_, ?_, h.ends.2⟩
      · refine contextCancelled_of_heap h.cancelled (fun hroot => hroot) ?_
        intro old hold hcancelled
        rw [heq, htask] at hold
        rw [← Option.some.inj hold] at hcancelled
        refine ⟨_, ?_, BridgeTask.publish_cancelled hcancelled m.clock event⟩
        rw [heq, get?_set_self]
      · intro new last hnew hlast
        rw [heq, get?_set_self] at hnew
        rw [← Option.some.inj hnew] at hlast
        rcases BridgeTask.publish_terminalEvent hlast with hold | ⟨hterminal, hnumbered⟩
        · exact h.ends.1 task last (heq ▸ htask) hold
        · rw [hnumbered]
          exact hevent heq hterminal
    · refine h.same (fun hroot => hroot) ?_ rfl
      exact get?_set_ne _ _ heq

theorem Stopping.setRunner (h : Stopping m k) (n : Nat) (runner : Runner) {pc : RunnerPc}
    (hpc : k = n → ∀ g event, pc = .finishing g event → ByCancel event) :
    Stopping (m.setRunner n runner pc) k := by
  refine ⟨h.cancelled, h.ends.1, ?_⟩
  intro other g event hk hfinishing
  rw [Manager.setRunner, get?_set] at hk
  split at hk
  · rename_i heq
    rw [← Option.some.inj hk] at hfinishing
    exact hpc heq g event hfinishing
  · exact h.ends.2 other g event hk hfinishing

theorem Stopping.cancelTask (h : Stopping m k) (n : Nat) :
    Stopping (m.cancelTask n) k := by
  unfold Manager.cancelTask
  split
  · rename_i task htask
    refine ⟨?_, ?_, h.ends.2⟩
    · refine contextCancelled_of_heap h.cancelled (fun hroot => hroot) ?_
      intro old hold hcancelled
      rw [get?_set]
      split
      · exact ⟨_, rfl, rfl⟩
      · exact ⟨old, hold, hcancelled⟩
    · intro other event hother hevent
      rw [get?_set] at hother
      split at hother
      · rename_i heq
        rw [← Option.some.inj hother] at hevent
        exact h.ends.1 task event (heq ▸ htask) hevent
      · exact h.ends.1 other event hother hevent
  · exact h

/-- A backend's outcome under a cancelled context is a cancellation, unless it
confirms a completion. -/
theorem outcomeEvent_byCancel (deps : Deps) (status : GoString) {outcome : Outcome}
    (h : ∀ result, outcome = .result result → result.confirmed = false) :
    ByCancel (outcomeEvent deps true status outcome) := by
  cases outcome with
  | error raw =>
    rw [outcomeEvent, finishError, if_pos rfl]
    exact .inl rfl
  | result result =>
    have hconfirmed := h result rfl
    rw [outcomeEvent, finishResult]
    by_cases hunconfirmed : result.cancelUnconfirmed = true
    · rw [if_pos hunconfirmed]
      exact .inr rfl
    · rw [if_neg hunconfirmed]
      have hopen : (result.completionConfirmed && result.status == go "completed") = false := by
        rw [Result.confirmed, Bool.and_assoc, Bool.eq_false_iff.mpr hunconfirmed] at hconfirmed
        exact hconfirmed
      rw [hopen]
      exact .inl rfl

variable {runner : Runner} {action : Action}

theorem Stopping.turn (h : Stopping m k) (hn : m.runners.get? n = some runner)
    (hturn : Turn deps m n runner action m')
    (houtcome : ∀ task result, k = n → action = .outcome task (.result result) → result.confirmed = false) :
    Stopping m' k := by
  have hnot : ∀ (pc : RunnerPc), (∀ g event, pc ≠ .finishing g event) →
      k = n → ∀ g event, pc = .finishing g event → ByCancel event := by
    intro pc hpc _ g event heq
    exact absurd heq (hpc g event)
  have hrelease : ∀ key g, Stopping (m.releaseConversation key g) k := by
    intro key g
    unfold Manager.releaseConversation
    split
    · dsimp only
      split
      · exact h.same (fun hroot => hroot) rfl rfl
      · exact h.same (fun hroot => hroot) rfl rfl
    · exact h
  have hgate : ∀ g gate, Stopping (m.setGate g gate) k := by
    intro g gate
    unfold Manager.setGate
    split
    · exact h.same (fun hroot => hroot) rfl rfl
    · exact h
  cases hturn with
  | acquire hpc =>
    have hset : ∀ g, Stopping (m.setRunner n runner (.waiting g)) k := fun g =>
      h.setRunner n runner (hnot _ (by simp))
    unfold Manager.acquireConversation
    split
    · exact (hset _).same (fun hroot => hroot) rfl rfl
    · exact (hset _).same (fun hroot => hroot) rfl rfl
  | take g hpc => exact (hgate g true).setRunner n runner (hnot _ (by simp))
  | giveUp g hpc => exact h.setRunner n runner (hnot _ (by simp))
  | leave g hpc => exact (hrelease _ g).setRunner n runner (hnot _ (by simp))
  | refused hpc =>
    exact (h.publish n fun _ _ => .inl rfl).setRunner n runner (hnot _ (by simp))
  | skip g hpc =>
    apply h.setRunner n runner
    intro _ g' event heq
    rw [← (RunnerPc.finishing.inj heq).2]
    exact .inl rfl
  | enter g hpc => exact h.setRunner n runner (hnot _ (by simp))
  | started g hpc =>
    exact (h.publish n fun _ hterminal => absurd hterminal (by decide)).setRunner n runner
      (hnot _ (by simp))
  | message g status tools tools' hpc event hevent =>
    refine (h.publish n fun _ hterminal => ?_).setRunner n runner (hnot _ (by simp))
    rw [hevent] at hterminal
    cases hterminal
  | retry g tools hpc => exact h.setRunner n runner (hnot _ (by simp))
  | outcome g status tools hpc task outcome haction =>
    apply h.setRunner n runner
    intro heq g' event hfinishing
    rw [← (RunnerPc.finishing.inj hfinishing).2, ← heq, h.cancelled]
    apply outcomeEvent_byCancel
    intro result hresult
    exact houtcome task result heq (by rw [haction, hresult])
  | finish g event hpc =>
    refine (h.publish n fun heq _ => ?_).setRunner n runner (hnot _ (by simp))
    rw [heq] at h
    exact h.ends.2 runner g event hn hpc
  | giveBack g hpc => exact (hgate g false).setRunner n runner (hnot _ (by simp))
  | release g hpc => exact (hrelease _ g).setRunner n runner (hnot _ (by simp))

/-! ## Calls -/

/-- The task a call goes on with. -/
def FencePc.task? : FencePc → Option Nat
  | .found n => some n
  | .read n _ => some n
  | .signalled n _ => some n
  | _ => none

structure FenceSound (m : Manager) (c : FenceCall) : Prop where
  begun : c.begun ≤ m.log.length
  there : ∀ n, c.pc.task? = some n → (m.heap.get? n).isSome = true
  before : ∀ n, c.pc = .read n true ∨ c.pc = .signalled n true ∨
    c.pc = .returned (some n) (.ok .alreadyTerminal) → EndedBefore m c n
  stopping : ∀ n, c.pc = .signalled n false → Stopping m n
  answered : ∀ n, c.pc = .returned (some n) (.ok .cancelled) →
    ∃ event, .ended n event ∈ m.log ∧ event.type = .cancelled

structure Fenced (m : Manager) : Prop where
  calls : ∀ call c, m.fenceCalls.get? call = some c → FenceSound m c
  tasks : ∀ id n, m.tasks.get? id = some n → (m.heap.get? n).isSome = true

/-- A call that has no task in hand and has not answered from one. -/
theorem FenceSound.of_idle (hbegun : c.begun ≤ m.log.length) (htask : c.pc.task? = none)
    (hanswer : ∀ n answer, c.pc ≠ .returned (some n) (.ok answer)) :
    FenceSound m c := by
  refine ⟨hbegun, ?_, ?_, ?_, ?_⟩
  · intro n hn
    rw [htask] at hn
    cases hn
  · rintro n (hpc | hpc | hpc)
    · rw [hpc] at htask
      cases htask
    · rw [hpc] at htask
      cases htask
    · exact absurd hpc (hanswer n _)
  · intro n hpc
    rw [hpc] at htask
    cases htask
  · intro n hpc
    exact absurd hpc (hanswer n _)

theorem FenceSound.mono (h : FenceSound m c) (hlog : ∃ new, m'.log = m.log ++ new)
    (hheap : ∀ n, (m.heap.get? n).isSome = true → (m'.heap.get? n).isSome = true)
    (hstop : ∀ n, c.pc = .signalled n false → Stopping m n → Stopping m' n) : FenceSound m' c := by
  obtain ⟨new, hlog⟩ := hlog
  refine ⟨?_, ?_, ?_, ?_, ?_⟩
  · rw [hlog, length_append]
    exact Nat.le_add_right_of_le h.begun
  · intro n hn
    exact hheap n (h.there n hn)
  · intro n hpc
    obtain ⟨event, hevent⟩ := h.before n hpc
    refine ⟨event, ?_⟩
    rw [hlog, take_append_of_le_length h.begun]
    exact hevent
  · intro n hpc
    exact hstop n hpc (h.stopping n hpc)
  · intro n hpc
    obtain ⟨event, hevent, htype⟩ := h.answered n hpc
    refine ⟨event, ?_, htype⟩
    rw [hlog]
    exact mem_append_left _ hevent

theorem Fenced.mono (h : Fenced m) (hlog : ∃ new, m'.log = m.log ++ new)
    (hheap : ∀ n, (m.heap.get? n).isSome = true → (m'.heap.get? n).isSome = true)
    (htasks : ∀ id n, m'.tasks.get? id = some n → (m'.heap.get? n).isSome = true)
    (hcalls : m'.fenceCalls = m.fenceCalls)
    (hstop : ∀ call c n, m.fenceCalls.get? call = some c → c.pc = .signalled n false →
      Stopping m n → Stopping m' n) : Fenced m' := by
  refine ⟨?_, htasks⟩
  intro call c hc
  rw [hcalls] at hc
  exact (h.calls call c hc).mono hlog hheap fun n => hstop call c n hc

theorem Fenced.setFence (h : Fenced m) {pc : FencePc}
    (hsound : FenceSound m { c with pc := pc }) : Fenced (m.setFence call c pc) := by
  refine ⟨?_, h.tasks⟩
  have hmove : ∀ c', FenceSound m c' → FenceSound (m.setFence call c pc) c' := by
    intro c' hc'
    refine hc'.mono ⟨[], (append_nil _).symm⟩ (fun _ hsome => hsome) ?_
    intro n _ hstop
    exact hstop.same (fun hroot => hroot) rfl rfl
  intro call' c' hc'
  rw [Manager.setFence, get?_set] at hc'
  split at hc'
  · rw [← Option.some.inj hc']
    exact hmove _ hsound
  · exact hmove c' (h.calls call' c' hc')

/-- The answer is logged, and a fence may have been set. -/
theorem Fenced.logged (h : Fenced m) (hheap : m'.heap = m.heap) (hrunners : m'.runners = m.runners)
    (hroot : m'.rootCancelled = m.rootCancelled) (htasks : m'.tasks = m.tasks)
    (hcalls : m'.fenceCalls = m.fenceCalls) (hlog : ∃ new, m'.log = m.log ++ new) : Fenced m' := by
  refine h.mono hlog ?_ ?_ hcalls ?_
  · intro n hn
    rw [hheap]
    exact hn
  · rw [htasks, hheap]
    exact h.tasks
  · intro _ _ n _ _ hstop
    apply hstop.same
    · rw [hroot]
      exact fun hcancelled => hcancelled
    · rw [hheap]
    · rw [hrunners]

theorem heap_cancelTask (m : Manager) (n k : Nat) :
    ((m.cancelTask n).heap.get? k).isSome = (m.heap.get? k).isSome := by
  unfold Manager.cancelTask
  split
  · rename_i task htask
    rw [get?_set]
    split
    · rename_i heq
      rw [heq, htask]
      rfl
    · rfl
  · rfl

theorem Fenced.cancelTask (h : Fenced m) (n : Nat) : Fenced (m.cancelTask n) := by
  have hsame := sameTables_cancelTask m n
  refine h.mono ⟨[], ?_⟩ ?_ ?_ hsame.fenceCalls ?_
  · rw [log_cancelTask, append_nil]
  · intro k hk
    rw [heap_cancelTask]
    exact hk
  · intro id k hk
    rw [hsame.tasks] at hk
    rw [heap_cancelTask]
    exact h.tasks id k hk
  · intro _ _ k _ _ hstop
    exact hstop.cancelTask n

/-- The task a fence cancels is stopping, if nothing else has ended it. -/
theorem stopping_cancelTask (hthere : (m.heap.get? n).isSome = true)
    (hends : EndsByCancel m n) : Stopping (m.cancelTask n) n := by
  obtain ⟨task, htask⟩ := Option.isSome_iff_exists.mp hthere
  rw [Manager.cancelTask, htask]
  refine ⟨?_, ?_, hends.2⟩
  · rw [Manager.contextCancelled]
    rw [get?_set_self, Option.map_some, Option.getD_some, Bool.or_true]
  · intro other event hother hevent
    rw [get?_set_self] at hother
    rw [← Option.some.inj hother] at hevent
    exact hends.1 task event htask hevent

theorem Fenced.answer (h : Fenced m) (hends : Ends m) (hc : m.fenceCalls.get? call = some c)
    {wasTerminal : Bool}
    (hpc : c.pc = .signalled n wasTerminal) : Fenced (m.fenceAnswer call c n wasTerminal) := by
  have hsound := h.calls call c hc
  have hreturn : ∀ answer, FenceSound m { c with pc := .returned (some n) (.ok answer) } →
      Fenced (m.fenceReturns call c (some n) answer) := by
    intro answer hanswer
    exact (h.setFence hanswer).logged rfl rfl rfl rfl rfl ⟨[.fenceReturned c.id answer], rfl⟩
  unfold Manager.fenceAnswer
  split
  · rename_i task htask
    by_cases hdone : task.done = true
    · rw [if_pos hdone]
      by_cases hstop : ((task.terminalEvent.bind BridgeTaskEvent.error).any
          fun error => error.category == go "stop_unconfirmed") = true
      · rw [if_pos hstop]
        apply h.setFence
        exact FenceSound.of_idle hsound.begun rfl (by simp)
      · rw [if_neg hstop]
        cases hread : wasTerminal with
        | true =>
          rw [if_pos rfl]
          apply hreturn
          refine ⟨hsound.begun, by simp [FencePc.task?], ?_, by simp, by simp⟩
          intro k hk
          have heq : k = n := by
            rcases hk with hk | hk | hk
            · cases hk
            · cases hk
            · simpa using hk.symm
          rw [heq]
          exact hsound.before n (.inr (.inl (by rw [hpc, hread])))
        | false =>
          rw [if_neg Bool.false_ne_true]
          apply hreturn
          refine ⟨hsound.begun, by simp [FencePc.task?], by simp, by simp, ?_⟩
          intro k hk
          have heq : k = n := by simpa using hk.symm
          have hstopping := hsound.stopping n (by rw [hpc, hread])
          obtain ⟨runner, hn⟩ := hends.runner n task htask
          obtain ⟨same, hsame, hended⟩ := hends.task n runner hn
          rw [htask] at hsame
          rw [← Option.some.inj hsame] at hended
          have hsome : task.terminalEvent.isSome = true := by
            rw [hended.terminal, ← hended.done]
            exact hdone
          obtain ⟨event, hevent⟩ := Option.isSome_iff_exists.mp hsome
          rw [heq]
          refine ⟨event, ?_, ?_⟩
          · rw [← mem_endEvents, hended.logged, hevent]
            exact mem_cons_self
          · rcases hstopping.ends.1 task event htask hevent with htype | herror
            · exact htype
            · rw [hevent, Option.bind_some, herror] at hstop
              exact absurd (by decide) hstop
    · rw [if_neg hdone]
      exact h
  · exact h

theorem Fenced.lookup (h : Fenced m)
    (hc : m.fenceCalls.get? call = some c) : Fenced (m.fenceLookup call c) := by
  have hsound := h.calls call c hc
  unfold Manager.fenceLookup
  split
  · rename_i n hn
    apply h.setFence
    refine ⟨hsound.begun, ?_, by simp, by simp, by simp⟩
    intro k hk
    rw [← Option.some.inj hk]
    exact h.tasks c.id n hn
  · split
    · apply h.setFence
      exact FenceSound.of_idle hsound.begun rfl (by simp)
    · have hreturned : FenceSound m { c with pc := .returned none (.ok .notStarted) } :=
        FenceSound.of_idle hsound.begun rfl (by simp)
      exact (h.setFence hreturned).logged rfl rfl rfl rfl rfl
        ⟨[.fenceReturned c.id .notStarted], rfl⟩

theorem Fenced.stepFence (h : Fenced m) (hends : Ends m) (hc : m.fenceCalls.get? call = some c)
    (action : Action) (hread : ∀ n task, action = .fenceRead call → c.pc = .found n →
      m.heap.get? n = some task → task.terminal = true → EndedBefore m c n)
    (hcancel : ∀ n, action = .fenceCancel call → c.pc = .read n false → EndsByCancel m n)
    (haction : action.fence? = some call) : Fenced (stepFence m call c action) := by
  have hsound := h.calls call c hc
  cases action <;> unfold Bridge.stepFence <;> dsimp only <;> try exact h
  case fenceValidate =>
      split
      · apply h.setFence
        split
        · exact FenceSound.of_idle hsound.begun rfl (by simp)
        · exact FenceSound.of_idle hsound.begun rfl (by simp)
      · exact h
  case fenceLookup =>
      split
      · exact h.lookup hc
      · exact h
  case fenceRead other =>
      split
      · rename_i n hpc
        have hthere := hsound.there n (by rw [hpc]; rfl)
        apply h.setFence
        refine ⟨hsound.begun, ?_, ?_, by simp, by simp⟩
        · intro k hk
          rw [← Option.some.inj hk]
          exact hthere
        · rintro k (hk | hk | hk)
          · obtain ⟨task, htask⟩ := Option.isSome_iff_exists.mp hthere
            rw [htask] at hk
            obtain ⟨heq, hterminal⟩ := FencePc.read.inj hk
            rw [← heq]
            exact hread n task (by rw [Option.some.inj haction]) hpc htask hterminal
          · exact absurd hk (by simp)
          · exact absurd hk (by simp)
      · exact h
  case fenceCancel other =>
      split
      · rename_i n wasTerminal hpc
        have hthere := hsound.there n (by rw [hpc]; rfl)
        have hmoved := (h.cancelTask n).calls call c
          (by rw [(sameTables_cancelTask m n).fenceCalls]; exact hc)
        apply (h.cancelTask n).setFence
        refine ⟨hmoved.begun, ?_, ?_, ?_, by simp⟩
        · intro k hk
          rw [← Option.some.inj hk, heap_cancelTask]
          exact hthere
        · rintro k (hk | hk | hk)
          · exact absurd hk (by simp)
          · obtain ⟨heq, hterminal⟩ := FencePc.signalled.inj hk
            rw [← heq]
            exact hmoved.before n (.inl (by rw [hpc, hterminal]))
          · exact absurd hk (by simp)
        · intro k hk
          obtain ⟨heq, hopen⟩ := FencePc.signalled.inj hk
          rw [← heq]
          apply stopping_cancelTask hthere
          exact hcancel n (by rw [Option.some.inj haction]) (by rw [hpc, hopen])
      · exact h
  case fenceGiveUp =>
      split
      · apply h.setFence
        exact FenceSound.of_idle hsound.begun rfl (by simp)
      · exact h
  case fenceAnswer =>
      split
      · exact h.answer hends hc ‹_›
      · exact h

/-! ## All steps -/

theorem heap_spawn (deps : Deps) (req : BridgeTaskRequest) (taskId : GoString)
    (hk : (m.heap.get? k).isSome = true) :
    ((m.spawn deps req taskId).heap.get? k).isSome = true := by
  rw [Manager.spawn, get?_set]
  split
  · rfl
  · exact hk

theorem Fenced.spawn (h : Fenced m) (hends : Ends m) (deps : Deps) (req : BridgeTaskRequest)
    (taskId : GoString) : Fenced (m.spawn deps req taskId) := by
  refine h.mono ⟨[], (append_nil _).symm⟩ (fun k => heap_spawn deps req taskId) ?_ rfl ?_
  · intro id k hk
    dsimp only [Manager.spawn] at hk
    rw [get?_set] at hk
    split at hk
    · rw [← Option.some.inj hk, Manager.spawn, get?_set_self]
      rfl
    · exact heap_spawn deps req taskId (h.tasks id k hk)
  · intro call c k hc hpc hstop
    have hthere := (h.calls call c hc).there k (by rw [hpc]; rfl)
    obtain ⟨task, htask⟩ := Option.isSome_iff_exists.mp hthere
    obtain ⟨runner, hk⟩ := hends.runner k task htask
    have hne : k ≠ m.nextTask := (hends.lt hk).ne
    refine hstop.same (fun hroot => hroot) ?_ ?_
    · exact get?_set_ne _ _ hne
    · exact get?_set_ne _ _ hne

theorem Turn.heap (h : Turn deps m n runner action m') (k : Nat)
    (hk : (m.heap.get? k).isSome = true) :
    (m'.heap.get? k).isSome = true := by
  have hpublish : ∀ event, ((m.publish n event).heap.get? k).isSome = true := by
    intro event
    unfold Manager.publish
    split
    · dsimp only
      rw [get?_set]
      split
      · rfl
      · exact hk
    · exact hk
  have hrelease : ∀ key g, (m.releaseConversation key g).heap = m.heap := by
    intro key g
    unfold Manager.releaseConversation
    split
    · dsimp only
      split <;> rfl
    · rfl
  have hgate : ∀ g gate, (m.setGate g gate).heap = m.heap := by
    intro g gate
    unfold Manager.setGate
    split <;> rfl
  cases h with
  | acquire =>
    unfold Manager.acquireConversation
    split <;> exact hk
  | take g =>
    rw [Manager.setRunner, hgate]
    exact hk
  | leave g =>
    rw [Manager.setRunner, hrelease]
    exact hk
  | refused | started | message | finish => exact hpublish _
  | giveBack g =>
    rw [Manager.setRunner, hgate]
    exact hk
  | release g =>
    rw [Manager.setRunner, hrelease]
    exact hk
  | giveUp | skip | enter | retry | outcome => exact hk

theorem Fenced.turn (h : Fenced m) (hn : m.runners.get? n = some runner)
    (hturn : Turn deps m n runner action m')
    (houtcome : ∀ task result, action = .outcome task (.result result) → (∃ call c, m.fenceCalls.get? call = some c ∧ c.pc = .signalled n false) → result.confirmed = false) :
    Fenced m' := by
  have hsame := hturn.sameTables
  have hlog : ∃ new, m'.log = m.log ++ new := by
    rcases hturn.log with hlog | ⟨last, hlog⟩
    · exact ⟨[], by rw [hlog, append_nil]⟩
    · exact ⟨_, hlog⟩
  refine h.mono hlog hturn.heap ?_ hsame.fenceCalls ?_
  · intro id k hk
    rw [hsame.tasks] at hk
    exact hturn.heap k (h.tasks id k hk)
  · intro call c k hc hpc hstop
    apply hstop.turn hn hturn
    intro task result heq haction
    exact houtcome task result haction ⟨call, c, hc, by rw [← heq]; exact hpc⟩

theorem Fenced.step {run : Run} (h : Fenced run.state) (hends : Ends run.state) (deps : Deps)
    (action : Action) (hallowed : undisputed run action) :
    Fenced (step deps run.state action).2 := by
  apply step_cases deps run.state action h
  · intro call c _ _ hsection
    generalize stepStart deps run.state call c action = m' at hsection
    cases hsection with
    | goOn pc => exact h.logged rfl rfl rfl rfl rfl ⟨[], (append_nil _).symm⟩
    | make taskId pc =>
      exact (h.spawn hends deps c.req taskId).logged rfl rfl rfl rfl rfl
        ⟨[], (append_nil _).symm⟩
    | makeKept =>
      exact (h.spawn hends deps c.req c.req.requestId).logged rfl rfl rfl rfl rfl ⟨_, rfl⟩
  · intro call c haction hc _
    apply h.stepFence hends hc action _ _ haction
    · intro n task hread hpc htask hterminal
      rw [hread] at hallowed
      exact hallowed c n task hc hpc htask hterminal
    · intro n hcancel hpc
      rw [hcancel] at hallowed
      exact hallowed c n hc hpc
  · intro n runner m' haction hn hturn
    apply h.turn hn hturn
    intro task result houtcome hwaiting
    rw [houtcome] at hallowed haction
    rw [Option.some.inj haction] at hallowed
    exact hallowed hwaiting
  · cases action <;> unfold stepOther <;> dsimp only
    case prune now =>
        refine h.mono ⟨[], (append_nil _).symm⟩ (fun _ hk => hk) ?_ rfl ?_
        · intro id n hn
          rw [Manager.pruneExpired, OrderedMap.get?_filter] at hn
          exact h.tasks id n (Option.filter_eq_some_iff.mp hn).1
        · intro _ _ n _ _ hstop
          exact hstop.same (fun hroot => hroot) rfl rfl
    case cancelRoot =>
        refine h.mono ⟨[], (append_nil _).symm⟩ (fun _ hk => hk) h.tasks rfl ?_
        intro _ _ n _ _ hstop
        exact hstop.same (fun _ => rfl) rfl rfl
    case fence id =>
        have hnew : FenceSound run.state ⟨id, run.state.log.length, .called⟩ :=
          FenceSound.of_idle le_rfl rfl (by simp)
        have hset := @Fenced.setFence _ run.state.nextFence
          ⟨id, run.state.log.length, .called⟩ h .called hnew
        exact hset.logged rfl rfl rfl rfl rfl ⟨[], (append_nil _).symm⟩
    case cancel id =>
        split
        · exact h.cancelTask _
        · exact h
    all_goals exact h.logged rfl rfl rfl rfl rfl ⟨[], (append_nil _).symm⟩

theorem reach_fenced {now : Int} {run : Run}
    (h : Reach (step deps) undisputed (start now) run) :
    Fenced run.state ∧ Ends run.state := by
  refine Reach.invariant (I := fun d => Fenced d.state ∧ Ends d.state) ?_ h ?_
  · intro d action hallowed hd
    exact ⟨hd.1.step hd.2 deps action hallowed, hd.2.step deps action⟩
  · refine ⟨⟨?_, ?_⟩, ends_start now⟩
    · intro call c hc
      cases hc
    · intro id n hn
      cases hn

/-! ## Main results -/

theorem Ends.single (h : Ends m) (hevent : .ended n event ∈ m.log) :
    endEvents n m.log = [event] := by
  have hmem := mem_endEvents.mpr hevent
  cases hn : m.runners.get? n with
  | none =>
    rw [h.silent n hn] at hmem
    exact absurd hmem not_mem_nil
  | some runner =>
    obtain ⟨task, _, hended⟩ := h.task n runner hn
    rw [hended.logged] at hmem ⊢
    cases hlast : task.terminalEvent with
    | none =>
      rw [hlast] at hmem
      exact absurd hmem not_mem_nil
    | some last =>
      rw [hlast] at hmem
      rw [mem_singleton.mp hmem]
      rfl

/-- A fence that finds no task answers so; an id in its lifetime had none. -/
theorem Known.notStarted (h : Known m) (hc : m.fenceCalls.get? call = some c)
    (hpc : c.pc = .validated)
    (hanswer : ((Bridge.step deps m (.fenceLookup call)).2.fenceCalls.get? call).map FenceCall.pc =
      some (.returned none (.ok .notStarted))) :
    m.tasks.get? c.id = none ∧ (validRequestID m.clock c.id = none → c.id ∉ createdIds m.log) := by
  have hstep : (Bridge.step deps m (.fenceLookup call)).2 = m.fenceLookup call c := by
    show ((m.fenceCalls.get? call).map fun c =>
      Bridge.stepFence m call c (.fenceLookup call)).getD m = _
    rw [hc, Option.map_some, Option.getD_some, Bridge.stepFence, hpc]
  have hnone : m.tasks.get? c.id = none := by
    cases hn : m.tasks.get? c.id with
    | none => rfl
    | some n =>
      rw [hstep, Manager.fenceLookup, hn] at hanswer
      dsimp only [Manager.setFence] at hanswer
      rw [get?_set_self] at hanswer
      cases hanswer
  refine ⟨hnone, ?_⟩
  intro hvalid hcreated
  obtain ⟨req, task, hmem⟩ := mem_createdIds.mp hcreated
  rcases (h.created _ _ _ hmem).2 with hreq | hover
  · have hlisted := (h.requests _ _ hreq).2.2
    rw [has, hnone] at hlisted
    cases hlisted
  · exact hover.not_valid hvalid

theorem fence_agrees (deps : Deps) (now : Int) (run : Run)
    (h : Reach (step deps) undisputed (start now) run) : FenceAgrees deps run.state := by
  obtain ⟨hfenced, hends⟩ := reach_fenced h
  refine ⟨?_, ?_, ?_⟩
  · intro call c n hc hpc
    obtain ⟨event, hevent, htype⟩ := (hfenced.calls call c hc).answered n hpc
    exact ⟨event, hends.single hevent, htype⟩
  · intro call c n hc hpc
    exact (hfenced.calls call c hc).before n (.inr (.inr hpc))
  · intro call c hc hpc hanswer
    exact (reach_known h).notStarted hc hpc hanswer

/-! ### Runs -/

/-- A task is running and a fence of its id is about to read it. -/
def fencedWhileRunning : List Action :=
  startExample 0 exampleRequest ++ [Action.acquire 0, .takeToken 0, .checkContext 0, .publishStarted 0,
    .fence (go "task_1_a"), .fenceValidate 0, .fenceLookup 0]

/-- The fence cancels it and the backend stops. -/
def stoppedByFence : List Action :=
  fencedWhileRunning ++ [Action.fenceRead 0, .fenceCancel 0,
    .outcome 0 (.result { status := go "aborted" }), .publishTerminal 0, .fenceAnswer 0]

theorem fence_agrees_stoppedByFence :
    ((exec (step exampleDeps) (start 0) stoppedByFence).state.fenceCalls.get? 0).map
        FenceCall.pc = some (.returned (some 0) (.ok .cancelled)) ∧
      FenceAgrees exampleDeps (exec (step exampleDeps) (start 0) stoppedByFence).state := by
  have hbefore : AllAllowed (step exampleDeps) undisputed (start 0) fencedWhileRunning :=
    ⟨trivial, trivial, trivial, trivial, trivial, trivial, trivial, trivial, trivial, trivial,
      trivial, trivial, trivial⟩
  have hread : undisputed (exec (step exampleDeps) (start 0) fencedWhileRunning)
      (.fenceRead 0) := by
    intro c n task hc hpc htask hterminal
    have hcall : (exec (step exampleDeps) (start 0)
        fencedWhileRunning).state.fenceCalls.get? 0 = some ⟨go "task_1_a", 1, .found 0⟩ := rfl
    have heq := Option.some.inj (hc.symm.trans hcall)
    rw [heq] at hpc
    have hopen : ((exec (step exampleDeps) (start 0) fencedWhileRunning).state.heap.get?
        0).map BridgeTask.terminal = some false := by decide +kernel
    rw [FencePc.found.inj hpc, htask, Option.map_some, hterminal] at hopen
    cases hopen
  have hcancel : undisputed (exec (step exampleDeps) (start 0)
      (fencedWhileRunning ++ [Action.fenceRead 0])) (.fenceCancel 0) := by
    intro c n hc hpc
    have hcall : (exec (step exampleDeps) (start 0)
        (fencedWhileRunning ++ [Action.fenceRead 0])).state.fenceCalls.get? 0 =
          some ⟨go "task_1_a", 1, .read 0 false⟩ := rfl
    have heq := Option.some.inj (hc.symm.trans hcall)
    rw [heq] at hpc
    rw [← (FencePc.read.inj hpc).1]
    constructor
    · intro task event htask hevent
      have hnone : ((exec (step exampleDeps) (start 0)
          (fencedWhileRunning ++ [Action.fenceRead 0])).state.heap.get? 0).map
            BridgeTask.terminalEvent = some none := by decide +kernel
      rw [htask, Option.map_some, hevent] at hnone
      cases hnone
    · intro runner g event hn hfinishing
      have hrunning : ((exec (step exampleDeps) (start 0)
          (fencedWhileRunning ++ [Action.fenceRead 0])).state.runners.get? 0).map Runner.pc =
            some (.executing 0 [] []) := rfl
      rw [hn, Option.map_some, hfinishing] at hrunning
      cases hrunning
  have hoffer : undisputed (exec (step exampleDeps) (start 0)
      (fencedWhileRunning ++ [Action.fenceRead 0, .fenceCancel 0]))
      (.outcome 0 (.result { status := go "aborted" })) := by
    intro _
    rfl
  have hallowed : AllAllowed (step exampleDeps) undisputed (start 0) stoppedByFence := by
    rw [stoppedByFence, allAllowed_append]
    exact ⟨hbefore, hread, hcancel, hoffer, trivial, trivial, trivial⟩
  exact ⟨rfl, fence_agrees exampleDeps 0 _ (reach_exec hallowed)⟩

/-- The task completes between the fence's reading and its cancelling. -/
def completedUnderFence : List Action :=
  fencedWhileRunning ++ [Action.fenceRead 0,
    .outcome 0 (.result { status := go "completed", completionConfirmed := true }),
    .publishTerminal 0, .fenceCancel 0, .fenceAnswer 0]

theorem completed_task_fenced_cancelled :
    ¬∀ deps now run, Reach (step deps) anything (start now) run →
      FenceAgrees deps run.state := by
  intro h
  have hallowed : AllAllowed (step exampleDeps) anything (start 0) completedUnderFence :=
    allAllowed_of_forall (fun _ _ => trivial) _ _
  have hagrees := h exampleDeps 0 _ (reach_exec hallowed)
  have hcall : (exec (step exampleDeps) (start 0)
      completedUnderFence).state.fenceCalls.get? 0 =
        some ⟨go "task_1_a", 1, .returned (some 0) (.ok .cancelled)⟩ := rfl
  obtain ⟨event, hevent, htype⟩ := hagrees.cancelled 0 _ 0 hcall rfl
  have hcompleted : (endEvents 0 (exec (step exampleDeps) (start 0)
      completedUnderFence).state.log).map BridgeTaskEvent.type = [.completed] := by decide +kernel
  rw [hevent, map_singleton, htype] at hcompleted
  cases hcompleted

end ClawMessenger.Ports.Bridge
