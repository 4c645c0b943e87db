import ClawMessenger.Ports.SessionStoreOps

/-!
# What a call can do

`Store.Inv` is the basic invariant of a store: what is in memory is what is on
disk, and it is valid.  Under it every call is one of five `Effect`s on the
persisted state, and every later result about runs of the store is derived from
these alone.
-/

namespace ClawMessenger.Ports.SessionStore

open Verified Verified.JsString
open Verified.Machine (Reach advance)
open Conversation Dedup

/-! ## Validation -/

variable {state valid : RouterState}

theorem validateState_eq_ok (h : validateState state = .ok valid) :
    valid = state ∧ (state.schemaValues ∧ state.knownSizes ∧ state.collectionSizes) ∧
      state.runtimeSizes ∧ state.consistent := by
  unfold validateState at h
  by_cases hschema : (state.schemaValues && state.knownSizes && state.collectionSizes) = true
  · by_cases hrest : (state.runtimeSizes && state.consistent) = true
    · simp only [hschema, hrest, Bool.not_true, Bool.false_eq_true, if_false] at h
      cases h
      simp only [Bool.and_eq_true] at hschema hrest
      exact ⟨rfl, ⟨hschema.1.1, hschema.1.2, hschema.2⟩, hrest⟩
    · simp only [hschema, hrest, Bool.not_true, Bool.not_false, Bool.false_eq_true, if_false,
        if_true] at h
      cases h
  · simp only [hschema, Bool.not_false, if_true] at h
    cases h

/-- The state passes validation. -/
def RouterState.Valid (state : RouterState) : Prop := validateState state = .ok state

theorem valid_of_validateState (h : validateState state = .ok valid) :
    valid = state ∧ valid.Valid := by
  obtain ⟨rfl, _⟩ := validateState_eq_ok h
  exact ⟨rfl, h⟩

theorem valid_empty : emptyState.Valid := by
  rw [RouterState.Valid]
  rfl

theorem RouterState.Valid.dedup_nodup (h : state.Valid) :
    (state.dedup.map DedupEntry.key).Nodup := by
  obtain ⟨_, _, _, hconsistent⟩ := validateState_eq_ok h
  simp only [RouterState.consistent, Bool.and_eq_true, decide_eq_true_eq] at hconsistent
  exact hconsistent.2

/-! ## Pruning -/

@[simp] theorem pruned_dedup (state : RouterState) (now : Nat) :
    (state.pruned now).dedup = pruneDedup state.dedup now := rfl

/-- Pruning that drops nothing changes nothing. -/
theorem pruned_eq_self {now : Nat} (h : (state.pruned now).dedup.length = state.dedup.length) :
    state.pruned now = state := by
  have hall : pruneDedup state.dedup now = state.dedup := by
    rw [pruneDedup, List.filter_eq_self]
    exact List.length_filter_eq_length_iff.mp h
  rw [RouterState.pruned, hall]

/-! ## Plans -/

variable {op : StoreOp}

/-- Either nothing is to be written, or the validated result of the transition. -/
theorem plan_eq_ok {now : Nat} {value : StoreAnswer} {out : Option RouterState}
    (h : plan op state now = .ok (value, out)) :
    ∃ t, op.transition (state.pruned now) now = .ok t ∧ value = t.value ∧
      ((out = none ∧ t.changed = false ∧ t.state.dedup.length = state.dedup.length) ∨
        (out = some t.state ∧ t.state.Valid ∧ serializedBytes t.state ≤ MAX_STATE_BYTES)) := by
  rw [plan] at h
  cases ht : op.transition (state.pruned now) now with
  | error e =>
    rw [ht] at h
    cases h
  | ok t =>
    rw [ht] at h
    refine ⟨t, rfl, ?_⟩
    dsimp only [bind, Except.bind] at h
    by_cases hchanged : (t.changed || t.state.dedup.length != state.dedup.length) = true
    · rw [hchanged, Bool.not_true, if_neg Bool.false_ne_true] at h
      cases hvalid : validateState t.state with
      | error e =>
        rw [hvalid] at h
        cases h
      | ok valid =>
        obtain ⟨rfl, hstate⟩ := valid_of_validateState hvalid
        rw [hvalid] at h
        dsimp only at h
        by_cases hsize : serializedBytes t.state > MAX_STATE_BYTES
        · rw [if_pos hsize] at h
          cases h
        · rw [if_neg hsize] at h
          cases h
          exact ⟨rfl, .inr ⟨rfl, hstate, Nat.not_lt.mp hsize⟩⟩
    · rw [Bool.not_eq_true] at hchanged
      rw [hchanged, Bool.not_false, if_pos rfl] at h
      cases h
      rw [Bool.or_eq_false_iff, bne_eq_false_iff_eq] at hchanged
      exact ⟨rfl, .inl ⟨rfl, hchanged⟩⟩

/-! ## The invariant -/

structure Store.Inv (store : Store) : Prop where
  valid : store.persisted.Valid
  agree : store.initialized = true → store.memory = store.persisted

theorem inv_fresh : Store.fresh.Inv := ⟨valid_empty, fun h => by cases h⟩

/-- What a call does to the persisted state, and what it answers. -/
inductive Effect (state : RouterState) (call : StoreCall) (result : StoreResult) :
    RouterState → Prop where
  | error (e : RouterStateError) : result = .error e → Effect state call result state
  | idle : (∀ op, call.input ≠ .op op) → result = .ok .done → Effect state call result state
  | prunes (time : Nat) : call.input = .initializeStore → checkTime call.now = .ok time →
      result = .ok .done → (state.pruned time).Valid → Effect state call result (state.pruned time)
  | reads (op : StoreOp) (time : Nat) (t : Transition StoreAnswer) : call.input = .op op →
      checkTime call.now = .ok time → op.transition state time = .ok t →
      t.changed = false → t.state.dedup.length = state.dedup.length →
      state.pruned time = state → result = .ok t.value → Effect state call result state
  | writes (op : StoreOp) (time : Nat) (t : Transition StoreAnswer) : call.input = .op op →
      checkTime call.now = .ok time → op.transition (state.pruned time) time = .ok t →
      t.state.Valid → serializedBytes t.state ≤ MAX_STATE_BYTES → result = .ok t.value →
      Effect state call result t.state

variable {current next : RouterState} {disk : Option Document}

theorem loadState_eq_ok {now : Int} (h : loadState disk now = .ok (current, next)) :
    current = (disk.map Document.upgrade).getD emptyState ∧ current.Valid ∧
      ∃ time, checkTime now = .ok time ∧ next = current.pruned time ∧ next.Valid := by
  obtain ⟨loaded, hloaded, h⟩ := bind_eq_ok.mp h
  obtain ⟨time, htime, h⟩ := bind_eq_ok.mp h
  obtain ⟨pruned, hpruned, h⟩ := bind_eq_ok.mp h
  cases h
  obtain ⟨hcurrent, hvalid⟩ := valid_of_validateState hloaded
  obtain ⟨hnext, hvalid'⟩ := valid_of_validateState hpruned
  exact ⟨hcurrent, hvalid, time, htime, hnext, hvalid'⟩

/-- A file that needs no write is loaded as it is. -/
theorem loadState_unpruned {now : Int} (h : loadState disk now = .ok (current, next))
    (hwrite : ¬(disk.isSome = true ∧ next.dedup.length ≠ current.dedup.length)) :
    next = current := by
  obtain ⟨hcurrent, _, time, _, hnext, _⟩ := loadState_eq_ok h
  rw [hnext]
  cases disk with
  | none =>
    rw [hcurrent]
    rfl
  | some document =>
    apply pruned_eq_self
    by_contra hne
    rw [← hnext] at hne
    exact hwrite ⟨rfl, hne⟩

variable {store : Store} {call : StoreCall}

/-- What `initialize` does to a store that satisfies the invariant. -/
theorem initializeStore_effect (hinv : store.Inv) (hcall : call.input = .initializeStore) :
    Effect store.persisted call (store.initializeStore call.now call.readOk call.writeOk).1
        (store.initializeStore call.now call.readOk call.writeOk).2.persisted ∧
      (store.initializeStore call.now call.readOk call.writeOk).2.Inv := by
  have hidle : ∀ op, call.input ≠ .op op := fun op h => by
    rw [hcall] at h
    cases h
  unfold Store.initializeStore
  by_cases hinit : store.initialized = true
  · rw [if_pos hinit]
    exact ⟨.idle hidle rfl, hinv⟩
  · rw [if_neg hinit]
    by_cases hread : call.readOk = true
    · rw [hread, Bool.not_true, if_neg Bool.false_ne_true]
      cases hload : loadState store.disk call.now with
      | error e => exact ⟨.error e rfl, hinv⟩
      | ok loaded =>
        obtain ⟨current, next⟩ := loaded
        obtain ⟨hcurrent, hvalid, time, htime, hnext, hvalid'⟩ := loadState_eq_ok hload
        have hpersisted : current = store.persisted := hcurrent
        subst hpersisted
        subst hnext
        by_cases hwrite : store.disk.isSome ∧
            (store.persisted.pruned time).dedup.length ≠ store.persisted.dedup.length
        · dsimp only
          rw [if_pos hwrite]
          by_cases hok : call.writeOk = true
          · rw [if_pos hok]
            exact ⟨.prunes time hcall htime rfl hvalid', ⟨hvalid', fun _ => rfl⟩⟩
          · rw [if_neg hok]
            exact ⟨.error _ rfl, hinv⟩
        · dsimp only
          rw [if_neg hwrite]
          have hsame := loadState_unpruned hload hwrite
          refine ⟨.idle hidle rfl, ⟨hvalid, fun _ => ?_⟩⟩
          exact hsame
    · rw [Bool.not_eq_true] at hread
      rw [hread, Bool.not_false, if_pos rfl]
      exact ⟨.error _ rfl, hinv⟩

/-- What a mutation does to a store that satisfies the invariant. -/
theorem mutate_effect (hinv : store.Inv) (hcall : call.input = .op op) :
    Effect store.persisted call (store.mutate op call.now call.writeOk).1
        (store.mutate op call.now call.writeOk).2.persisted ∧
      (store.mutate op call.now call.writeOk).2.Inv := by
  unfold Store.mutate
  by_cases hinit : store.initialized = true
  · rw [hinit, Bool.not_true, if_neg Bool.false_ne_true, hinv.agree hinit]
    cases htime : checkTime call.now with
    | error e => exact ⟨.error e rfl, hinv⟩
    | ok time =>
      dsimp only
      cases hplan : plan op store.persisted time with
      | error e => exact ⟨.error e rfl, hinv⟩
      | ok planned =>
        obtain ⟨value, out⟩ := planned
        obtain ⟨t, ht, rfl, hout⟩ := plan_eq_ok hplan
        rcases hout with ⟨rfl, hchanged, hlength⟩ | ⟨rfl, hvalid, hbytes⟩
        · have hdedup := unchanged_dedup ht hchanged
          have hsame : store.persisted.pruned time = store.persisted := by
            apply pruned_eq_self
            rw [pruned_dedup, ← hdedup, hlength]
          rw [hsame] at ht
          exact ⟨.reads op time t hcall htime ht hchanged hlength hsame rfl, hinv⟩
        · dsimp only
          by_cases hok : call.writeOk = true
          · rw [if_pos hok]
            exact ⟨.writes op time t hcall htime ht hvalid hbytes rfl,
              ⟨hvalid, fun _ => rfl⟩⟩
          · rw [if_neg hok]
            exact ⟨.error _ rfl, hinv⟩
  · rw [Bool.not_eq_true] at hinit
    rw [hinit, Bool.not_false, if_pos rfl]
    exact ⟨.error _ rfl, hinv⟩

/-- Every call is one of the effects, and keeps the invariant. -/
theorem call_effect (hinv : store.Inv) (call : StoreCall) :
    Effect store.persisted call (store.call call).1 (store.call call).2.persisted ∧
      (store.call call).2.Inv := by
  obtain ⟨now, readOk, writeOk, input⟩ := call
  cases input with
  | initializeStore => exact initializeStore_effect hinv rfl
  | op op => exact mutate_effect hinv rfl
  | restart =>
    exact ⟨.idle (fun op h => by cases h) rfl, ⟨hinv.valid, fun h => by cases h⟩⟩

/-- The invariant holds in every configuration a run reaches. -/
theorem inv_of_reach {allowed : StoreRun → StoreCall → Prop} {c : StoreRun}
    (h : Reach Store.call allowed (Machine.start Store.fresh) c) : c.state.Inv := by
  have hstep : ∀ d call, allowed d call → d.state.Inv → (advance Store.call d call).state.Inv :=
    fun d call _ hd => (call_effect hd call).2
  exact Reach.invariant hstep h inv_fresh

end ClawMessenger.Ports.SessionStore
