import ClawMessenger.Verified.Machine

/-!
# The lock on a local directory

`LocalPathLocker` of `server/internal/daemon/local_directory.go`.  A call of `Acquire` first
tries the mutex of its path; where that fails, it starts a goroutine that blocks on the mutex,
and waits for it or for the end of its context.  A call that gave up leaves a second goroutine
behind, which unlocks the mutex once the first one has it.

A step is what one goroutine does up to its next access to what is shared: it reads and writes
its own call and the entry of its path (`move`).  So an entry is followed call by call
(`Fits`), and what a call does to another one is at most to take or to free a mutex that the
other does not have (`move_fits`).
-/

namespace ClawMessenger.Ports.LocalPathLocker

open Verified Verified.Machine
open Function (update update_of_ne update_self)

/-! ## Calls and entries -/

variable {C : Type} [DecidableEq C]

/-- `pathLockEntry`, with the call that has its mutex. -/
structure PathLockEntry (C : Type) where
  mu : Option C
  holderID : String

/-- Where a call of `Acquire` and its release stand. -/
inductive Pc where
  /-- The entry is looked up. -/
  | looked
  /-- The mutex was not free. -/
  | busy
  /-- In the `select`. -/
  | waiting
  /-- The mutex is taken, the holder not yet set. -/
  | locked
  /-- `Acquire` has returned a release. -/
  | held
  /-- The release has cleared the holder. -/
  | releasing
  | released
  /-- `Acquire` has returned the error of its context. -/
  | failed
  /-- `Acquire` has refused its arguments. -/
  | refused
deriving DecidableEq

/-- The goroutine that blocks on the mutex. -/
inductive Routine where
  | unborn
  | blocked
  /-- It has the mutex and has closed `acquired`. -/
  | acquired
  /-- What it acquired was taken or unlocked. -/
  | done
deriving DecidableEq

structure Call where
  realPath : String
  taskID : String
  pc : Pc
  routine : Routine
  ctxDone : Bool

inductive Move where
  | tryLock
  /-- `TryLock` may also fail while the mutex is free, when a waiter is being woken. -/
  | tryLockFails
  /-- `onWait`, and the goroutine starts. -/
  | onWait
  /-- The goroutine gets the mutex. -/
  | lock
  /-- The `select` takes `acquired`. -/
  | take
  /-- The context ends. -/
  | cancel
  /-- The `select` takes the end of the context. -/
  | giveUp
  /-- The goroutine that was left behind unlocks. -/
  | cleanUp
  /-- The holder is set and `Acquire` returns. -/
  | own
  /-- A call of the release, up to its unlock. -/
  | release
  | unlock

/-- What a goroutine of call `c` does to the call and to the entry of its path. -/
def move (c : C) (call : Call) (entry : PathLockEntry C) : Move → Option (Call × PathLockEntry C)
  | .tryLock =>
    if call.pc = .looked then
      if entry.mu = none then some ({ call with pc := .locked }, { entry with mu := some c })
      else some ({ call with pc := .busy }, entry)
    else none
  | .tryLockFails => if call.pc = .looked then some ({ call with pc := .busy }, entry) else none
  | .onWait => if call.pc = .busy then some ({ call with pc := .waiting, routine := .blocked }, entry) else none
  | .lock =>
    if call.routine = .blocked ∧ entry.mu = none then
      some ({ call with routine := .acquired }, { entry with mu := some c })
    else none
  | .take =>
    if call.pc = .waiting ∧ call.routine = .acquired then some ({ call with pc := .locked, routine := .done }, entry)
    else none
  | .cancel => some ({ call with ctxDone := true }, entry)
  | .giveUp => if call.pc = .waiting ∧ call.ctxDone = true then some ({ call with pc := .failed }, entry) else none
  | .cleanUp =>
    if call.pc = .failed ∧ call.routine = .acquired then
      some ({ call with routine := .done }, { entry with mu := none })
    else none
  | .own => if call.pc = .locked then some ({ call with pc := .held }, { entry with holderID := call.taskID }) else none
  | .release => if call.pc = .held then some ({ call with pc := .releasing }, { entry with holderID := "" }) else none
  | .unlock => if call.pc = .releasing then some ({ call with pc := .released }, { entry with mu := none }) else none

/-! ## The locker -/

structure Locker (C : Type) where
  /-- An entry that is not in the map is as a new one. -/
  locks : String → PathLockEntry C
  calls : C → Option Call

def NewLocalPathLocker (C : Type) : Locker C := ⟨fun _ => ⟨none, ""⟩, fun _ => none⟩

def Holder (l : Locker C) (realPath : String) : String := (l.locks realPath).holderID

inductive Action (C : Type) where
  | acquire (c : C) (realPath taskID : String)
  | move (c : C) (m : Move)

/-- `Acquire` up to the lookup of its entry. -/
def acquire (realPath taskID : String) : Call :=
  ⟨realPath, taskID, if realPath = "" ∨ taskID = "" then .refused else .looked, .unborn, false⟩

def step (l : Locker C) : Action C → Unit × Locker C
  | .acquire c realPath taskID =>
    match l.calls c with
    | some _ => ((), l)
    | none => ((), { l with calls := update l.calls c (some (acquire realPath taskID)) })
  | .move c m =>
    match l.calls c with
    | none => ((), l)
    | some call =>
      match move c call (l.locks call.realPath) m with
      | none => ((), l)
      | some (call', entry) =>
        ((), ⟨update l.locks call.realPath entry, update l.calls c (some call')⟩)

/-! ## One call and its entry -/

/-- The mutex is with one of the call's goroutines. -/
def Call.owns (call : Call) : Prop :=
  call.pc = .locked ∨ call.pc = .held ∨ call.pc = .releasing ∨ call.routine = .acquired

structure Fits (c : C) (call : Call) (entry : PathLockEntry C) : Prop where
  owns : call.owns ↔ entry.mu = some c
  holder : entry.mu = some c → entry.holderID = if call.pc = .held then call.taskID else ""
  routine : call.routine = .blocked ∨ call.routine = .acquired → call.pc = .waiting ∨ call.pc = .failed
  taskID : call.pc ≠ .refused → call.taskID ≠ ""

variable {entry : PathLockEntry C}

omit [DecidableEq C] in
theorem Fits.acquire (c : C) (realPath taskID : String) (h : entry.mu ≠ some c) :
    Fits c (acquire realPath taskID) entry := by
  unfold LocalPathLocker.acquire
  constructor
  · constructor
    · intro howns
      unfold Call.owns at howns
      split at howns <;> simp at howns
    · exact fun hmu => absurd hmu h
  · exact fun hmu => absurd hmu h
  · simp
  · split
    · exact fun hpc => absurd rfl hpc
    · rename_i hargs
      exact fun _ htask => hargs (.inr htask)

variable {entry' : PathLockEntry C} {c : C} {call call' : Call}

omit [DecidableEq C] in
/-- A move keeps the call and its entry together, and changes the entry only where no other
call has the mutex. -/
theorem move_fits {m : Move} (h : Fits c call entry)
    (hfree : entry.mu = none → entry.holderID = "")
    (hmove : move c call entry m = some (call', entry')) :
    Fits c call' entry' ∧ call'.realPath = call.realPath ∧ (entry'.mu = none → entry'.holderID = "") ∧
      (entry' = entry ∨ (entry.mu = none ∨ entry.mu = some c) ∧ (entry'.mu = none ∨ entry'.mu = some c)) := by
  obtain ⟨howns, hholder, hroutine, htask⟩ := h
  unfold Call.owns at howns
  cases m with
  | tryLock =>
    simp only [move, Option.ite_none_right_eq_some] at hmove
    obtain ⟨hpc, hmove⟩ := hmove
    split at hmove
    · cases hmove
      refine ⟨⟨?_, ?_, ?_, ?_⟩, rfl, ?_, ?_⟩ <;> simp_all [Call.owns]
    · cases hmove
      refine ⟨⟨?_, ?_, ?_, ?_⟩, rfl, ?_, ?_⟩ <;> simp_all [Call.owns]
  | cancel =>
    cases hmove
    exact ⟨⟨howns, hholder, hroutine, htask⟩, rfl, hfree, .inl rfl⟩
  | _ =>
    simp only [move, Option.ite_none_right_eq_some, Option.some.injEq, Prod.mk.injEq] at hmove
    obtain ⟨hpc, rfl, rfl⟩ := hmove
    refine ⟨⟨?_, ?_, ?_, ?_⟩, rfl, ?_, ?_⟩ <;> simp_all [Call.owns]

omit [DecidableEq C] in
/-- What another call does to the entry. -/
theorem Fits.other {c' : C} (h : Fits c call entry) (hne : c' ≠ c)
    (hmu : entry.mu = none ∨ entry.mu = some c') (hmu' : entry'.mu = none ∨ entry'.mu = some c') :
    Fits c call entry' := by
  have hnot : ∀ {e : PathLockEntry C}, e.mu = none ∨ e.mu = some c' → e.mu ≠ some c := by
    intro e he hsome
    rw [hsome] at he
    cases he with
    | inl hnone => cases hnone
    | inr hother => exact hne (Option.some.inj hother).symm
  exact {
    owns := iff_of_false (fun howns => hnot hmu (h.owns.mp howns)) (hnot hmu')
    holder := fun hsome => absurd hsome (hnot hmu')
    routine := h.routine
    taskID := h.taskID }

/-! ## All calls -/

structure Sound (l : Locker C) : Prop where
  fits : ∀ c call, l.calls c = some call → Fits c call (l.locks call.realPath)
  owner : ∀ path c, (l.locks path).mu = some c → ∃ call, l.calls c = some call ∧ call.realPath = path
  free : ∀ path, (l.locks path).mu = none → (l.locks path).holderID = ""

omit [DecidableEq C] in
theorem sound_init : Sound (NewLocalPathLocker C) where
  fits := fun _ _ h => nomatch h
  owner := fun _ _ h => nomatch h
  free := fun _ _ => rfl

variable {l : Locker C}

theorem Sound.acquire (h : Sound l) (hnew : l.calls c = none) (realPath taskID : String) :
    Sound { l with calls := update l.calls c (some (acquire realPath taskID)) } := by
  constructor
  · intro c' call hcall
    dsimp only at hcall ⊢
    by_cases heq : c' = c
    · rw [heq] at hcall ⊢
      rw [update_self] at hcall
      cases hcall
      apply Fits.acquire
      intro hmu
      obtain ⟨old, hold, _⟩ := h.owner _ c hmu
      rw [hnew] at hold
      cases hold
    · rw [update_of_ne heq] at hcall
      exact h.fits c' call hcall
  · intro path c' hmu
    obtain ⟨call, hcall, hpath⟩ := h.owner path c' hmu
    refine ⟨call, ?_, hpath⟩
    dsimp only
    rw [update_of_ne, hcall]
    intro heq
    rw [heq, hnew] at hcall
    cases hcall
  · exact h.free

theorem Sound.move (h : Sound l) {m : Move} (hcall : l.calls c = some call)
    (hmove : move c call (l.locks call.realPath) m = some (call', entry)) :
    Sound ⟨update l.locks call.realPath entry, update l.calls c (some call')⟩ := by
  obtain ⟨hfits, hpath, hfree, hentry⟩ := move_fits (h.fits c call hcall) (h.free _) hmove
  constructor
  · intro c' other hother
    dsimp only at hother ⊢
    by_cases heq : c' = c
    · rw [heq, update_self] at hother
      cases hother
      rw [heq, hpath, update_self]
      exact hfits
    · rw [update_of_ne heq] at hother
      have hold := h.fits c' other hother
      by_cases hsame : other.realPath = call.realPath
      · rw [hsame] at hold ⊢
        rw [update_self]
        cases hentry with
        | inl hkept => rwa [hkept]
        | inr hchanged => exact hold.other (fun hc => heq hc.symm) hchanged.1 hchanged.2
      · rw [update_of_ne hsame]
        exact hold
  · intro path c' hmu
    dsimp only at hmu ⊢
    by_cases hc : c' = c
    · refine ⟨call', ?_, ?_⟩
      · rw [hc]
        exact update_self ..
      · rw [hpath]
        by_contra hne
        rw [update_of_ne (fun heq => hne heq.symm), hc] at hmu
        obtain ⟨old, hold, hpath'⟩ := h.owner path c hmu
        rw [hcall] at hold
        cases hold
        exact hne hpath'
    · have hmu' : (l.locks path).mu = some c' := by
        by_cases hsame : path = call.realPath
        · rw [hsame, update_self] at hmu
          rw [hsame]
          cases hentry with
          | inl hkept => rwa [hkept] at hmu
          | inr hchanged =>
            rw [hmu] at hchanged
            cases hchanged.2 with
            | inl hnone => cases hnone
            | inr hother => exact absurd (Option.some.inj hother) hc
        · rwa [update_of_ne hsame] at hmu
      obtain ⟨old, hold, hpath'⟩ := h.owner path c' hmu'
      exact ⟨old, (update_of_ne hc ..).trans hold, hpath'⟩
  · intro path hmu
    dsimp only at hmu ⊢
    by_cases hsame : path = call.realPath
    · rw [hsame, update_self] at hmu ⊢
      exact hfree hmu
    · rw [update_of_ne hsame] at hmu ⊢
      exact h.free path hmu

theorem Sound.step (h : Sound l) (a : Action C) : Sound (step l a).2 := by
  cases a with
  | acquire c realPath taskID =>
    rw [LocalPathLocker.step]
    split
    · exact h
    · exact h.acquire ‹_› realPath taskID
  | move c m =>
    rw [LocalPathLocker.step]
    split
    · exact h
    · split
      · exact h
      · exact h.move ‹_› ‹_›

/-! ## Runs -/

/-- Between the successful end of `Acquire` and the first release. -/
def Holds (l : Locker C) (c : C) (path : String) : Prop :=
  ∃ call, l.calls c = some call ∧ call.realPath = path ∧ call.pc = .held

/-- A call stays where it is through an action that is not its own. -/
theorem step_calls (hcall : l.calls c = some call) (a : Action C) :
    (step l a).2.calls c = some call ∨
      ∃ m call' entry, a = .move c m ∧ move c call (l.locks call.realPath) m = some (call', entry) ∧
        (step l a).2.calls c = some call' := by
  cases a with
  | acquire c' realPath taskID =>
    left
    rw [step]
    split
    · exact hcall
    · rename_i hnew
      refine (update_of_ne ?_ ..).trans hcall
      intro heq
      rw [heq, hnew] at hcall
      cases hcall
  | move c' m =>
    by_cases heq : c' = c
    · rw [heq, step, hcall]
      dsimp only
      split
      · exact .inl hcall
      · rename_i call' entry hmove
        exact .inr ⟨m, call', entry, rfl, hmove, update_self ..⟩
    · left
      rw [step]
      split
      · exact hcall
      · split
        · exact hcall
        · exact (update_of_ne (fun hc => heq hc.symm) ..).trans hcall

/-- A call that returned an error stays so. -/
theorem failed_step {pc : Pc} (hpc : pc = .failed ∨ pc = .refused)
    (h : ∃ call, l.calls c = some call ∧ call.pc = pc) (a : Action C) :
    ∃ call, (step l a).2.calls c = some call ∧ call.pc = pc := by
  obtain ⟨call, hcall, rfl⟩ := h
  cases step_calls hcall a with
  | inl hsame => exact ⟨call, hsame, rfl⟩
  | inr hmoved =>
    obtain ⟨m, call', entry, _, hmove, hcall'⟩ := hmoved
    refine ⟨call', hcall', ?_⟩
    cases m with
    | cancel =>
      cases hmove
      rfl
    | tryLock =>
      simp only [move, Option.ite_none_right_eq_some] at hmove
      rw [hmove.1] at hpc
      simp at hpc
    | _ =>
      simp only [move, Option.ite_none_right_eq_some, Option.some.injEq, Prod.mk.injEq] at hmove
      obtain ⟨hold, rfl, rfl⟩ := hmove
      simp_all

/-- Over every run: at most one call holds a path, with its mutex, and it does until its own
release; a call that returned an error never holds, and has the mutex only to unlock it;
`Holder` is the task of the call that holds, or empty. -/
theorem lock_exclusive {d : Config (Locker C) (Action C) Unit}
    (hreach : Reach step (fun _ _ => True) (start (NewLocalPathLocker C)) d) :
    (∀ path c c', Holds d.state c path → Holds d.state c' path → c = c') ∧
      (∀ path c, Holds d.state c path → (d.state.locks path).mu = some c ∧
        ∀ a, a ≠ .move c .release → Holds (step d.state a).2 c path) ∧
      (∀ c call, d.state.calls c = some call → call.pc = .failed ∨ call.pc = .refused →
        (∀ e, Reach step (fun _ _ => True) d e → ∃ call', e.state.calls c = some call' ∧ call'.pc = call.pc) ∧
          ((d.state.locks call.realPath).mu = some c →
            ((step d.state (.move c .cleanUp)).2.locks call.realPath).mu = none)) ∧
      (∀ c call, d.state.calls c = some call → call.pc = .held → Holder d.state call.realPath = call.taskID) ∧
      ∀ path, (∀ c, ¬ Holds d.state c path) → Holder d.state path = "" := by
  have hsound : Sound d.state :=
    hreach.invariant (I := fun e => Sound e.state) (fun _ a _ he => he.step a) sound_init
  have hmu : ∀ {path c}, Holds d.state c path → (d.state.locks path).mu = some c := by
    intro path c hholds
    obtain ⟨call, hcall, rfl, hpc⟩ := hholds
    exact (hsound.fits c call hcall).owns.mp (.inr (.inl hpc))
  refine ⟨?_, ?_, ?_, ?_, ?_⟩
  · intro path c c' hholds hholds'
    have hsome := (hmu hholds).symm.trans (hmu hholds')
    exact Option.some.inj hsome
  · intro path c hholds
    refine ⟨hmu hholds, ?_⟩
    intro a ha
    obtain ⟨call, hcall, hpath, hpc⟩ := hholds
    cases step_calls hcall a with
    | inl hsame => exact ⟨call, hsame, hpath, hpc⟩
    | inr hmoved =>
      obtain ⟨m, call', entry, rfl, hmove, hcall'⟩ := hmoved
      refine ⟨call', hcall', ?_⟩
      cases m with
      | release => exact absurd rfl ha
      | cancel =>
        cases hmove
        exact ⟨hpath, hpc⟩
      | tryLock =>
        simp only [move, Option.ite_none_right_eq_some] at hmove
        rw [hmove.1] at hpc
        cases hpc
      | _ =>
        simp only [move, Option.ite_none_right_eq_some, Option.some.injEq, Prod.mk.injEq] at hmove
        obtain ⟨hold, rfl, rfl⟩ := hmove
        simp_all
  · intro c call hcall hpc
    constructor
    · intro e hreach'
      apply hreach'.invariant (I := fun e => ∃ call', e.state.calls c = some call' ∧ call'.pc = call.pc)
      · intro e a _ he
        exact failed_step hpc he a
      · exact ⟨call, hcall, rfl⟩
    · intro hmutex
      have howns := (hsound.fits c call hcall).owns.mpr hmutex
      have hroutine : call.routine = .acquired := by
        rcases howns with h | h | h | h
        · rw [h] at hpc
          simp at hpc
        · rw [h] at hpc
          simp at hpc
        · rw [h] at hpc
          simp at hpc
        · exact h
      have hfailed : call.pc = .failed := by
        cases (hsound.fits c call hcall).routine (.inr hroutine) with
        | inl hwaiting =>
          rw [hwaiting] at hpc
          simp at hpc
        | inr hfailed => exact hfailed
      rw [step, hcall]
      dsimp only [move]
      rw [if_pos ⟨hfailed, hroutine⟩]
      dsimp only
      rw [update_self]
  · intro c call hcall hpc
    have hfits := hsound.fits c call hcall
    have hholder := hfits.holder (hfits.owns.mp (.inr (.inl hpc)))
    rw [if_pos hpc] at hholder
    exact hholder
  · intro path hnone
    cases hmutex : (d.state.locks path).mu with
    | none => exact hsound.free path hmutex
    | some c =>
      obtain ⟨call, hcall, rfl⟩ := hsound.owner path c hmutex
      have hholder := (hsound.fits c call hcall).holder hmutex
      rw [if_neg (fun hpc => hnone c ⟨call, hcall, rfl, hpc⟩)] at hholder
      exact hholder

/-- The second call gives up; its goroutine gets the mutex after the release of the first. -/
def giveUpRun : List (Action Bool) :=
  [.acquire true "/p" "first", .move true .tryLock, .move true .own, .acquire false "/p" "second",
    .move false .tryLock, .move false .onWait, .move false .cancel, .move false .giveUp, .move true .release,
    .move true .release, .move true .unlock, .move false .lock]

theorem lock_exclusive_giveUp :
    ((step (exec step (start (NewLocalPathLocker Bool)) giveUpRun).state (.move false .cleanUp)).2.locks "/p").mu = none := by
  have hrun : Reach step (fun _ _ => True) (start (NewLocalPathLocker Bool))
      (exec step (start (NewLocalPathLocker Bool)) giveUpRun) :=
    reach_exec (allAllowed_of_forall (fun _ _ => trivial) _ _)
  obtain ⟨_, _, hfailed, _⟩ := lock_exclusive hrun
  exact (hfailed false _ rfl (.inl rfl)).2 rfl

end ClawMessenger.Ports.LocalPathLocker
