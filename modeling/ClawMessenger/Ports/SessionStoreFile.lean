import ClawMessenger.Ports.AtomicJson
import ClawMessenger.Ports.SessionStoreEffect

/-!
# The store and its file

`FileStore` is the store over `atomicWriteJson`, with every way a system call
of a write can fail.  As long as no write fails after its rename it is the
store of `SessionStoreCalls`, call by call (`call_refines`).

A write that fails after its rename is refused although the file is new: the
operation rejects, memory keeps the old state, and a restart finds the new one.
`mutation_atomic` says that this is the only way memory and file part.
-/

namespace ClawMessenger.Ports.SessionStore

open Verified Verified.Machine Verified.JsString
open AtomicJson Conversation Dedup

/-! ## The store over the file protocol -/

structure FileStore where
  initialized : Bool
  memory : RouterState
  files : Files Document

structure FileCall where
  now : Int
  readOk : Bool
  faults : WriteFaults
  input : StoreInput

def FileStore.fresh : FileStore := ⟨false, emptyState, ⟨none, none⟩⟩

/-- The state a later `initialize` starts from. -/
def FileStore.persisted (store : FileStore) : RouterState :=
  (store.files.target.map Document.upgrade).getD emptyState

def FileStore.initializeStore (platform : Platform) (store : FileStore) (call : FileCall) :
    StoreResult × FileStore :=
  if store.initialized then (.ok .done, store)
  else if !call.readOk then (.error .routerStateInvalid, store)
  else
    match loadState store.files.target call.now with
    | .error e => (.error e, store)
    | .ok (current, next) =>
      if store.files.target.isSome ∧ next.dedup.length ≠ current.dedup.length then
        match atomicWriteJson platform call.faults (.current next) store.files with
        | (.ok _, files) => (.ok .done, ⟨true, next, files⟩)
        | (.error _, files) => (.error .routerStateInvalid, { store with files := files })
      else (.ok .done, { store with initialized := true, memory := next })

def FileStore.mutate (platform : Platform) (store : FileStore) (op : StoreOp) (call : FileCall) :
    StoreResult × FileStore :=
  if !store.initialized then (.error .routerStateInvalid, store)
  else
    match checkTime call.now with
    | .error e => (.error e, store)
    | .ok time =>
      match plan op store.memory time with
      | .error e => (.error e, store)
      | .ok (value, none) => (.ok value, store)
      | .ok (value, some valid) =>
        match atomicWriteJson platform call.faults (.current valid) store.files with
        | (.ok _, files) => (.ok value, { store with memory := valid, files := files })
        | (.error _, files) => (.error .routerStateInvalid, { store with files := files })

def FileStore.call (platform : Platform) (store : FileStore) (call : FileCall) :
    StoreResult × FileStore :=
  match call.input with
  | .initializeStore => store.initializeStore platform call
  | .op op => store.mutate platform op call
  | .restart => (.ok .done, { store with initialized := false, memory := emptyState })

abbrev FileRun := Config FileStore FileCall StoreResult

/-! ## Refinement -/

/-- The store without its temporary file. -/
def FileStore.abs (store : FileStore) : Store := ⟨store.initialized, store.memory, store.files.target⟩

/-- The call with the outcome of its write. -/
def FileCall.abs (platform : Platform) (call : FileCall) : StoreCall :=
  ⟨call.now, call.readOk, renamed platform call.faults, call.input⟩

@[simp] theorem abs_persisted (store : FileStore) : store.abs.persisted = store.persisted := rfl

/-- Without a late failure a write succeeds with the new file or fails with the old. -/
theorem atomicWriteJson_early {platform : Platform} {faults : WriteFaults}
    (h : failsAfterRename platform faults = false) (value : Document) (files : Files Document) :
    (renamed platform faults = true ∧ ∃ written,
      atomicWriteJson platform faults value files = (.ok (), written) ∧ written.target = some value) ∨
    (renamed platform faults = false ∧ ∃ written,
      atomicWriteJson platform faults value files = (.error .atomicWriteFailed, written) ∧
        written.target = files.target) := by
  cases hrenamed : renamed platform faults with
  | true =>
    obtain ⟨htarget, hok⟩ := atomicWriteJson_of_renamed hrenamed value files
    exact .inl ⟨rfl, _, Prod.ext (hok.mpr h) rfl, htarget⟩
  | false =>
    obtain ⟨herror, htarget⟩ := atomicWriteJson_of_not_renamed hrenamed value files
    exact .inr ⟨rfl, _, Prod.ext herror rfl, htarget⟩

/-- After a late failure the new file is there. -/
theorem atomicWriteJson_late {platform : Platform} {faults : WriteFaults}
    (h : failsAfterRename platform faults = true) (value : Document) (files : Files Document) :
    ∃ written, atomicWriteJson platform faults value files = (.error .atomicWriteFailed, written) ∧
      written.target = some value := by
  rcases atomicWriteJson_spec platform faults value files with
    ⟨_, hlate, _⟩ | ⟨hresult, ⟨hlate, _⟩ | ⟨_, htarget⟩⟩
  · rw [h] at hlate
    cases hlate
  · rw [h] at hlate
    cases hlate
  · exact ⟨_, Prod.ext hresult rfl, htarget⟩

@[simp] theorem abs_initialized (store : FileStore) : store.abs.initialized = store.initialized :=
  rfl

@[simp] theorem abs_memory (store : FileStore) : store.abs.memory = store.memory := rfl

@[simp] theorem abs_disk (store : FileStore) : store.abs.disk = store.files.target := rfl

variable {platform : Platform}

variable {call : FileCall} {store : FileStore} {op : StoreOp}

theorem initializeStore_refines (h : failsAfterRename platform call.faults = false) :
    (store.initializeStore platform call).1 =
        (store.abs.initializeStore call.now call.readOk (renamed platform call.faults)).1 ∧
      (store.initializeStore platform call).2.abs =
        (store.abs.initializeStore call.now call.readOk (renamed platform call.faults)).2 := by
  unfold FileStore.initializeStore Store.initializeStore
  rw [abs_initialized, abs_disk]
  by_cases hinit : store.initialized = true
  · rw [if_pos hinit, if_pos hinit]
    exact ⟨rfl, rfl⟩
  · rw [if_neg hinit, if_neg hinit]
    by_cases hread : (!call.readOk) = true
    · rw [if_pos hread, if_pos hread]
      exact ⟨rfl, rfl⟩
    · rw [if_neg hread, if_neg hread]
      cases hload : loadState store.files.target call.now with
      | error e => exact ⟨rfl, rfl⟩
      | ok loaded =>
        obtain ⟨current, next⟩ := loaded
        dsimp only
        by_cases hprune : store.files.target.isSome = true ∧
            next.dedup.length ≠ current.dedup.length
        · rw [if_pos hprune, if_pos hprune]
          rcases atomicWriteJson_early h (.current next) store.files with
            ⟨hrenamed, files, hwritten, htarget⟩ | ⟨hrenamed, files, hwritten, htarget⟩
          · rw [hwritten, hrenamed, if_pos rfl, ← htarget]
            exact ⟨rfl, rfl⟩
          · rw [hwritten, hrenamed, if_neg Bool.false_ne_true]
            refine ⟨rfl, ?_⟩
            show (⟨store.initialized, store.memory, files.target⟩ : Store) = store.abs
            rw [htarget]
            rfl
        · rw [if_neg hprune, if_neg hprune]
          exact ⟨rfl, rfl⟩

theorem mutate_refines (h : failsAfterRename platform call.faults = false) :
    (store.mutate platform op call).1 =
        (store.abs.mutate op call.now (renamed platform call.faults)).1 ∧
      (store.mutate platform op call).2.abs =
        (store.abs.mutate op call.now (renamed platform call.faults)).2 := by
  unfold FileStore.mutate Store.mutate
  rw [abs_initialized, abs_memory]
  by_cases hinit : (!store.initialized) = true
  · rw [if_pos hinit, if_pos hinit]
    exact ⟨rfl, rfl⟩
  · rw [if_neg hinit, if_neg hinit]
    cases htime : checkTime call.now with
    | error e => exact ⟨rfl, rfl⟩
    | ok time =>
      dsimp only
      cases hplan : plan op store.memory time with
      | error e => exact ⟨rfl, rfl⟩
      | ok planned =>
        obtain ⟨value, out⟩ := planned
        cases out with
        | none => exact ⟨rfl, rfl⟩
        | some valid =>
          dsimp only
          rcases atomicWriteJson_early h (.current valid) store.files with
            ⟨hrenamed, files, hwritten, htarget⟩ | ⟨hrenamed, files, hwritten, htarget⟩
          · rw [hwritten, hrenamed, if_pos rfl, ← htarget]
            exact ⟨rfl, rfl⟩
          · rw [hwritten, hrenamed, if_neg Bool.false_ne_true]
            refine ⟨rfl, ?_⟩
            show (⟨store.initialized, store.memory, files.target⟩ : Store) = store.abs
            rw [htarget]
            rfl

/-- A call without a late failure is a call of the abstract store. -/
theorem call_refines (store : FileStore) (h : failsAfterRename platform call.faults = false) :
    (store.call platform call).1 = (store.abs.call (call.abs platform)).1 ∧
      (store.call platform call).2.abs = (store.abs.call (call.abs platform)).2 := by
  obtain ⟨now, readOk, faults, input⟩ := call
  cases input with
  | initializeStore => exact initializeStore_refines h
  | op op => exact mutate_refines h
  | restart => exact ⟨rfl, rfl⟩

/-! ## Where memory and file part -/

/-- The new state an operation has to write. -/
def FileStore.writes (store : FileStore) (op : StoreOp) (now : Int) : Option RouterState :=
  match checkTime now with
  | .error _ => none
  | .ok time =>
    match plan op store.memory time with
    | .ok (_, valid) => valid
    | .error _ => none

/-- A rejected operation changes neither memory nor file; a resolved one leaves
its new state, or the old one if it changed nothing, in both. -/
structure Atomic (platform : Platform) (store : FileStore) (op : StoreOp) (call : FileCall) :
    Prop where
  rejected : ∀ e, (store.mutate platform op call).1 = .error e →
    (store.mutate platform op call).2.memory = store.memory ∧
      (store.mutate platform op call).2.persisted = store.persisted
  resolved : ∀ value, (store.mutate platform op call).1 = .ok value →
    (store.mutate platform op call).2.memory = (store.writes op call.now).getD store.memory ∧
      (store.mutate platform op call).2.persisted = (store.writes op call.now).getD store.memory

/-- The directory is synced after the rename, or it was the old state that was
written again. -/
def Durable (platform : Platform) (store : FileStore) (call : FileCall) : Prop :=
  failsAfterRename platform call.faults = true → ∀ op, call.input = .op op →
    store.initialized = true → ∀ valid, store.writes op call.now = some valid →
      valid = store.persisted

/-- A mutation that has a state to write, by the outcome of the write. -/
theorem mutate_written {valid : RouterState} (hinit : store.initialized = true)
    (hwrites : store.writes op call.now = some valid) (files : Files Document) :
    (atomicWriteJson platform call.faults (.current valid) store.files = (.ok (), files) →
      ∃ value, store.mutate platform op call =
        (.ok value, { store with memory := valid, files := files })) ∧
    ∀ e, atomicWriteJson platform call.faults (.current valid) store.files = (.error e, files) →
      store.mutate platform op call = (.error .routerStateInvalid, { store with files := files }) := by
  unfold FileStore.writes at hwrites
  unfold FileStore.mutate
  rw [hinit, Bool.not_true, if_neg Bool.false_ne_true]
  cases htime : checkTime call.now with
  | error e =>
    rw [htime] at hwrites
    cases hwrites
  | ok time =>
    rw [htime] at hwrites
    dsimp only at hwrites ⊢
    cases hplan : plan op store.memory time with
    | error e =>
      rw [hplan] at hwrites
      cases hwrites
    | ok planned =>
      obtain ⟨value, out⟩ := planned
      rw [hplan] at hwrites
      cases hwrites
      dsimp only
      constructor
      · intro hwritten
        rw [hwritten]
        exact ⟨value, rfl⟩
      · intro e hwritten
        rw [hwritten]

theorem persisted_of_target {state : RouterState} (h : store.files.target = some (.current state)) :
    store.persisted = state := by
  unfold FileStore.persisted
  rw [h]
  rfl

/-- A late failure rejects, with the old state in memory and the new one on disk. -/
theorem mutate_late (call : FileCall) {valid : RouterState}
    (h : failsAfterRename platform call.faults = true) (hinit : store.initialized = true)
    (hwrites : store.writes op call.now = some valid) :
    (store.mutate platform op call).1 = .error .routerStateInvalid ∧
      (store.mutate platform op call).2.memory = store.memory ∧
      (store.mutate platform op call).2.initialized = true ∧
      (store.mutate platform op call).2.persisted = valid := by
  obtain ⟨files, hwritten, htarget⟩ := atomicWriteJson_late h (.current valid) store.files
  rw [(mutate_written hinit hwrites files).2 _ hwritten]
  exact ⟨rfl, rfl, hinit, persisted_of_target htarget⟩

/-- Where nothing is to be written, nothing happens. -/
theorem mutate_idle (platform : Platform)
    (h : store.initialized = false ∨ store.writes op call.now = none) :
    (store.mutate platform op call).2 = store := by
  unfold FileStore.mutate
  by_cases hinit : (!store.initialized) = true
  · rw [if_pos hinit]
  · rw [if_neg hinit]
    have hnone : store.writes op call.now = none := by
      rcases h with hfalse | hnone
      · rw [hfalse] at hinit
        exact absurd rfl hinit
      · exact hnone
    unfold FileStore.writes at hnone
    cases htime : checkTime call.now with
    | error e => rfl
    | ok time =>
      rw [htime] at hnone
      dsimp only at hnone ⊢
      cases hplan : plan op store.memory time with
      | error e => rfl
      | ok planned =>
        obtain ⟨value, out⟩ := planned
        rw [hplan] at hnone
        cases hnone
        rfl

/-- Without a late failure a mutation writes what it has to, or changes nothing. -/
theorem mutate_early {valid : RouterState} (h : failsAfterRename platform call.faults = false)
    (hinit : store.initialized = true) (hwrites : store.writes op call.now = some valid) :
    ((∃ value, (store.mutate platform op call).1 = .ok value) ∧
      (store.mutate platform op call).2.memory = valid ∧
      (store.mutate platform op call).2.persisted = valid) ∨
    ((∃ e, (store.mutate platform op call).1 = .error e) ∧
      (store.mutate platform op call).2.memory = store.memory ∧
      (store.mutate platform op call).2.persisted = store.persisted) := by
  rcases atomicWriteJson_early h (.current valid) store.files with
    ⟨_, files, hwritten, htarget⟩ | ⟨_, files, hwritten, htarget⟩
  · obtain ⟨value, hmutate⟩ := (mutate_written hinit hwrites files).1 hwritten
    rw [hmutate]
    exact .inl ⟨⟨value, rfl⟩, rfl, persisted_of_target htarget⟩
  · rw [(mutate_written hinit hwrites files).2 _ hwritten]
    refine .inr ⟨⟨.routerStateInvalid, rfl⟩, rfl, ?_⟩
    unfold FileStore.persisted
    rw [show files.target = store.files.target from htarget]

/-- A late failure of `initialize` leaves the pruned state on disk and the
store as it was. -/
theorem initializeStore_late (h : failsAfterRename platform call.faults = true)
    (hinv : store.abs.Inv) :
    (store.initializeStore platform call).2.abs.Inv := by
  unfold FileStore.initializeStore
  by_cases hinit : store.initialized = true
  · rw [if_pos hinit]
    exact hinv
  · rw [if_neg hinit]
    by_cases hread : (!call.readOk) = true
    · rw [if_pos hread]
      exact hinv
    · rw [if_neg hread]
      cases hload : loadState store.files.target call.now with
      | error e => exact hinv
      | ok loaded =>
        obtain ⟨current, next⟩ := loaded
        obtain ⟨hcurrent, hvalid, _, _, _, hvalid'⟩ := loadState_eq_ok hload
        dsimp only
        by_cases hprune : store.files.target.isSome = true ∧
            next.dedup.length ≠ current.dedup.length
        · rw [if_pos hprune]
          obtain ⟨files, hwritten, htarget⟩ := atomicWriteJson_late h (.current next) store.files
          rw [hwritten]
          refine ⟨?_, fun htrue => absurd htrue hinit⟩
          have hpersisted : FileStore.persisted { store with files := files } = next := persisted_of_target htarget
          exact hpersisted.symm ▸ hvalid'
        · rw [if_neg hprune, loadState_unpruned hload hprune, hcurrent]
          exact ⟨hinv.valid, fun _ => rfl⟩

theorem Durable.keeps_inv (h : Durable platform store call)
    (hinv : store.abs.Inv) : (store.call platform call).2.abs.Inv := by
  cases hlate : failsAfterRename platform call.faults with
  | false =>
    rw [(call_refines store hlate).2]
    exact (call_effect hinv _).2
  | true =>
    obtain ⟨now, readOk, faults, input⟩ := call
    cases input with
    | restart => exact ⟨hinv.valid, fun htrue => by cases htrue⟩
    | initializeStore => exact initializeStore_late hlate hinv
    | op op =>
      show (store.mutate platform op _).2.abs.Inv
      by_cases hinit : store.initialized = true
      · cases hwrites : store.writes op now with
        | none =>
          rw [mutate_idle platform (.inr hwrites)]
          exact hinv
        | some valid =>
          obtain ⟨_, hmemory, _, hpersisted⟩ := mutate_late
            ⟨now, readOk, faults, .op op⟩ hlate hinit hwrites
          have hsame : valid = store.persisted := h hlate op rfl hinit valid hwrites
          refine ⟨?_, fun _ => ?_⟩
          · rw [abs_persisted, hpersisted, hsame]
            exact hinv.valid
          · rw [abs_persisted, abs_memory, hmemory, hpersisted, hsame]
            exact hinv.agree hinit
      · rw [Bool.not_eq_true] at hinit
        rw [mutate_idle platform (.inl hinit)]
        exact hinv

/-- In a run whose calls are durable, a mutation is atomic exactly if it is
durable itself. -/
theorem mutation_atomic {c : FileRun}
    (h : Reach (FileStore.call platform) (fun c call => Durable platform c.state call)
      (start FileStore.fresh) c)
    {op : StoreOp} {call : FileCall} (hop : call.input = .op op) :
    Atomic platform c.state op call ↔ Durable platform c.state call := by
  have hinv : c.state.abs.Inv :=
    Reach.invariant (I := fun d => d.state.abs.Inv) (fun _ _ hdurable hd => hdurable.keeps_inv hd) h
      inv_fresh
  constructor
  · intro hatomic hlate op' hop' hinit valid hwrites
    rw [hop] at hop'
    cases hop'
    obtain ⟨hresult, _, _, hpersisted⟩ := mutate_late call hlate hinit hwrites
    rw [← hpersisted]
    exact (hatomic.rejected _ hresult).2
  · intro hdurable
    by_cases hinit : c.state.initialized = true
    · have hagree : c.state.memory = c.state.persisted := hinv.agree hinit
      cases hwrites : c.state.writes op call.now with
      | none =>
        have hidle := mutate_idle platform (.inr hwrites)
        constructor
        · intro e _
          rw [hidle]
          exact ⟨rfl, rfl⟩
        · intro value _
          rw [hidle, hwrites]
          exact ⟨rfl, hagree.symm⟩
      | some valid =>
        cases hlate : failsAfterRename platform call.faults with
        | true =>
          obtain ⟨hresult, hmemory, _, hpersisted⟩ := mutate_late call hlate hinit hwrites
          have hsame := hdurable hlate op hop hinit valid hwrites
          constructor
          · intro e _
            exact ⟨hmemory, hpersisted.trans hsame⟩
          · intro value hvalue
            rw [hresult] at hvalue
            cases hvalue
        | false =>
          rcases mutate_early hlate hinit hwrites with
            ⟨⟨value, hresult⟩, hmemory, hpersisted⟩ | ⟨⟨e, hresult⟩, hmemory, hpersisted⟩
          · constructor
            · intro e' he'
              rw [hresult] at he'
              cases he'
            · intro _ _
              rw [hwrites]
              exact ⟨hmemory, hpersisted⟩
          · constructor
            · intro _ _
              exact ⟨hmemory, hpersisted⟩
            · intro value hvalue
              rw [hresult] at hvalue
              cases hvalue
    · rw [Bool.not_eq_true] at hinit
      have hidle : (c.state.mutate platform op call).2 = c.state :=
        mutate_idle platform (.inl hinit)
      constructor
      · intro e _
        rw [hidle]
        exact ⟨rfl, rfl⟩
      · intro value hvalue
        unfold FileStore.mutate at hvalue
        rw [hinit, Bool.not_false, if_pos rfl] at hvalue
        cases hvalue

/-- A file store that has just been opened. -/
def openedFile : FileRun :=
  exec (FileStore.call .posix) (start FileStore.fresh) [⟨0, true, {}, .initializeStore⟩]

def sampleMessage : StoreOp :=
  .claimMessage (js "rt_00000000000000000000000000000000") (js "m")
    (js "0123456789abcdef0123456789abcdef")

/-- The claim of a message, with a directory that cannot be synced. -/
def unsyncedClaim : FileCall := ⟨5, true, { syncDirectory := some .other }, .op sampleMessage⟩

theorem mutation_atomic_openedFile :
    (Atomic .posix openedFile.state sampleMessage unsyncedClaim ↔
      Durable .posix openedFile.state unsyncedClaim) ∧
    (Atomic .posix openedFile.state sampleMessage { unsyncedClaim with faults := {} } ↔
      Durable .posix openedFile.state { unsyncedClaim with faults := {} }) := by
  have hreach : Reach (FileStore.call .posix) (fun c call => Durable .posix c.state call)
      (start FileStore.fresh) openedFile := by
    apply reach_exec
    exact ⟨fun hlate => absurd hlate (by decide), trivial⟩
  exact ⟨mutation_atomic hreach rfl, mutation_atomic hreach rfl⟩

/-- The claim is refused, the memory has no trace of it, and the file holds it. -/
theorem unsyncedClaim_splits :
    (openedFile.state.mutate .posix sampleMessage unsyncedClaim).1.toOption.isNone = true ∧
      (openedFile.state.mutate .posix sampleMessage unsyncedClaim).2.memory.dedup.length = 0 ∧
      (openedFile.state.mutate .posix sampleMessage unsyncedClaim).2.persisted.dedup.length = 1 ∧
      ¬Atomic .posix openedFile.state sampleMessage unsyncedClaim := by
  have hnew : (openedFile.state.mutate .posix sampleMessage unsyncedClaim).2.persisted.dedup.length
      = 1 := by decide +kernel
  have hold : openedFile.state.persisted.dedup.length = 0 := by decide +kernel
  have herror : (openedFile.state.mutate .posix sampleMessage unsyncedClaim).1.toOption.isNone
      = true := by decide +kernel
  refine ⟨herror, by decide +kernel, hnew, fun hatomic => ?_⟩
  cases hresult : (openedFile.state.mutate .posix sampleMessage unsyncedClaim).1 with
  | ok value =>
    rw [hresult] at herror
    cases herror
  | error e =>
    rw [(hatomic.rejected e hresult).2, hold] at hnew
    cases hnew

end ClawMessenger.Ports.SessionStore
