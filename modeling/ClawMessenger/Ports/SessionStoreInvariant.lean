import ClawMessenger.Ports.SessionStoreHeads
import ClawMessenger.Ports.SessionStoreSettles

/-!
# The router store invariant

Along a run with valid arguments and an ordered clock the persisted state stays
sound and its time stamps stay in the past.  So the candidate of every
operation is sound too, and validation fails by capacity alone
(`store_invariant`).
-/

namespace ClawMessenger.Ports.SessionStore

open Verified Verified.Machine Verified.JsString List

open Conversation Dedup

variable {state : RouterState} {now : Nat}

/-! ## Plans -/

/-- The candidate of the operation is larger than the store allows. -/
def StoreOp.OverCapacity (state : RouterState) (now : Nat) (op : StoreOp) : Prop :=
  ∃ t, op.transition state now = .ok t ∧
    (t.state.collectionSizes = false ∨ t.state.runtimeSizes = false ∨
      MAX_STATE_BYTES < serializedBytes t.state)

variable {op : StoreOp}

/-- A plan fails because the transition refuses, or for want of room. -/
theorem plan_eq_error {e : RouterStateError} (h : plan op state now = .error e)
    (hsettles : Settles (state.pruned now) now op) :
    op.Refused (state.pruned now) now ∨ op.OverCapacity (state.pruned now) now := by
  rw [plan] at h
  rw [Settles] at hsettles
  cases ht : op.transition (state.pruned now) now with
  | error e' =>
    rw [ht] at hsettles
    exact .inl hsettles
  | ok t =>
    rw [ht] at h hsettles
    refine .inr ⟨t, ht, ?_⟩
    dsimp only [bind, Except.bind] at h
    by_cases hchanged : (!(t.changed || t.state.dedup.length != state.dedup.length)) = true
    · rw [if_pos hchanged] at h
      cases h
    · rw [if_neg hchanged] at h
      cases hvalid : validateState t.state with
      | error e' =>
        rcases hsettles.1.invalid hvalid with hsize | hsize
        · exact .inl hsize
        · exact .inr (.inl hsize)
      | ok valid =>
        rw [hvalid] at h
        obtain ⟨rfl, _⟩ := valid_of_validateState hvalid
        by_cases hbytes : serializedBytes t.state > MAX_STATE_BYTES
        · exact .inr (.inr hbytes)
        · dsimp only at h
          rw [if_neg hbytes] at h
          cases h

/-! ## Runs -/

/-- Clock readings are valid and do not decrease, arguments are valid. -/
structure Disciplined (c : StoreRun) (call : StoreCall) : Prop where
  ordered : ClockOrdered c call
  clock : 0 ≤ call.now ∧ call.now ≤ Decimal.maxSafeInteger
  args : ∀ op, call.input = .op op → op.ValidArgs c.state.persisted

variable {c : StoreRun} {call : StoreCall}

theorem Disciplined.checkTime (h : Disciplined c call) :
    SessionStore.checkTime call.now = .ok call.now.toNat ∧
      timestamp call.now.toNat = true ∧ (call.now.toNat : Int) = call.now := by
  obtain ⟨hlow, hhigh⟩ := h.clock
  refine ⟨?_, ?_, Int.toNat_of_nonneg hlow⟩
  · unfold SessionStore.checkTime
    rw [if_neg (by omega)]
  · unfold timestamp
    rw [decide_eq_true_eq]
    omega

/-- What holds of the persisted state along a disciplined run. -/
structure WellKept (c : StoreRun) : Prop where
  inv : c.state.Inv
  timed : ∀ now : Nat, (∀ e ∈ c.past, e.1.now ≤ now) → c.state.persisted.Timed now

theorem wellKept_start : WellKept (start Store.fresh) :=
  ⟨inv_fresh, fun _ _ =>
    ⟨fun _ h => (not_mem_nil h).elim, fun _ h => (not_mem_nil h).elim⟩⟩

theorem RouterState.Timed.mono {now' : Nat} (h : state.Timed now) (hle : now ≤ now') :
    state.Timed now' :=
  ⟨fun entry hentry session hsession => (h.sessions entry hentry session hsession).trans hle,
    fun entry hentry => (h.dedup entry hentry).trans hle⟩

theorem WellKept.settles (h : WellKept c) (hcall : Disciplined c call) (hop : call.input = .op op) :
    Settles (c.state.persisted.pruned call.now.toNat) call.now.toNat op := by
  obtain ⟨_, htimestamp, hnow⟩ := hcall.checkTime
  have htimed : c.state.persisted.Timed call.now.toNat := by
    apply h.timed
    intro e he
    rw [hnow]
    exact hcall.ordered e he
  exact transition_settles (h.inv.valid.sound.pruned _) (htimed.pruned _) htimestamp
    (hcall.args op hop)

theorem WellKept.step (h : WellKept c) (hcall : Disciplined c call) :
    WellKept (advance Store.call c call) := by
  obtain ⟨heffect, hinv⟩ := call_effect h.inv call
  obtain ⟨htime, _, hnow⟩ := hcall.checkTime
  refine ⟨hinv, fun now hbound => ?_⟩
  rw [advance_past] at hbound
  have hlast : call.now ≤ now :=
    hbound _ (mem_append_right _ (mem_singleton_self _))
  have hle : call.now.toNat ≤ now := by omega
  have hold : c.state.persisted.Timed now :=
    h.timed now fun e he => hbound e (mem_append_left _ he)
  rw [advance_state]
  generalize (c.state.call call).1 = result at heffect
  generalize (c.state.call call).2.persisted = next at heffect ⊢
  cases heffect with
  | error | idle | reads => exact hold
  | prunes time => exact hold.pruned time
  | writes op time t hinput htime' ht hvalid hbytes hresult =>
    rw [htime, Except.ok.injEq] at htime'
    subst htime'
    have hsettles := h.settles hcall hinput
    rw [Settles, ht] at hsettles
    exact hsettles.2.mono hle

theorem wellKept_of_reach (h : Reach Store.call Disciplined (start Store.fresh) c) :
    WellKept c :=
  Reach.invariant (fun _ _ hcall hd => hd.step hcall) h wellKept_start

/-- In a disciplined run every candidate is sound, and an operation fails only
because someone else owns the session or the room, because there is no record
to update, for want of capacity, or because the file cannot be written. -/
theorem store_invariant {c : StoreRun}
    (h : Reach Store.call Disciplined (start Store.fresh) c)
    (hinit : c.state.initialized = true) {call : StoreCall} (hcall : Disciplined c call)
    {op : StoreOp} (hop : call.input = .op op) :
    (∀ t, op.transition (c.state.persisted.pruned call.now.toNat) call.now.toNat = .ok t →
      t.state.Sound) ∧
    ∀ e, (c.state.call call).1 = .error e →
      op.Refused (c.state.persisted.pruned call.now.toNat) call.now.toNat ∨
      op.OverCapacity (c.state.persisted.pruned call.now.toNat) call.now.toNat ∨
      call.writeOk = false := by
  have hkept := wellKept_of_reach h
  have hsettles := hkept.settles hcall hop
  constructor
  · intro t ht
    rw [Settles, ht] at hsettles
    exact hsettles.1
  · intro e he
    rw [Store.call, hop] at he
    dsimp only at he
    rw [Store.mutate, hinit, Bool.not_true, if_neg Bool.false_ne_true, hcall.checkTime.1,
      hkept.inv.agree hinit] at he
    dsimp only at he
    cases hplan : plan op c.state.persisted call.now.toNat with
    | error e' =>
      rcases plan_eq_error hplan hsettles with hrefused | hover
      · exact .inl hrefused
      · exact .inr (.inl hover)
    | ok planned =>
      obtain ⟨value, out⟩ := planned
      rw [hplan] at he
      cases out with
      | none => cases he
      | some valid =>
        by_cases hwrite : call.writeOk = true
        · dsimp only at he
          rw [if_pos hwrite] at he
          cases he
        · exact .inr (.inr (by simpa using hwrite))

/-- A store that has just been opened. -/
def opened : StoreRun :=
  exec Store.call (start Store.fresh) [⟨0, true, true, .initializeStore⟩]

theorem opened_reached : Reach Store.call Disciplined (start Store.fresh) opened := by
  apply reach_exec
  refine ⟨⟨fun e he => (not_mem_nil he).elim, by decide, fun op hop => by cases hop⟩, trivial⟩

theorem opened_ordered (h : 0 ≤ call.now) : ClockOrdered opened call := by
  intro e he
  rw [mem_singleton.mp he]
  exact h

instance (record : InteractiveRequest) : Decidable record.Sound :=
  decidable_of_iff (record.schema = true ∧ record.consistent = true)
    ⟨fun h => ⟨h.1, h.2⟩, fun h => ⟨h.schema, h.consistent⟩⟩

instance (state : RouterState) (op : StoreOp) : Decidable (op.ValidArgs state) := by
  cases op <;> unfold StoreOp.ValidArgs <;> infer_instance

instance (c : StoreRun) (call : StoreCall) : Decidable (ClockOrdered c call) :=
  inferInstanceAs (Decidable (∀ e ∈ c.past, e.1.now ≤ call.now))

/-- The operation a call is for. -/
def StoreInput.op? : StoreInput → Option StoreOp
  | .op operation => some operation
  | _ => none

theorem StoreInput.mem_op? {input : StoreInput} {o : StoreOp} : o ∈ input.op? ↔ input = .op o := by
  cases input <;> simp [StoreInput.op?, eq_comm]

instance (c : StoreRun) (call : StoreCall) : Decidable (Disciplined c call) :=
  decidable_of_iff (ClockOrdered c call ∧ (0 ≤ call.now ∧ call.now ≤ Decimal.maxSafeInteger) ∧
      ∀ op ∈ call.input.op?, op.ValidArgs c.state.persisted)
    ⟨fun h => ⟨h.1, h.2.1, fun op hop => h.2.2 op (StoreInput.mem_op?.mpr hop)⟩,
      fun h => ⟨h.ordered, h.clock, fun op hop => h.args op (StoreInput.mem_op?.mp hop)⟩⟩

def sampleBinding : BindingIdentity := ⟨js "rt_00000000000000000000000000000000", js "n"⟩

/-- A discussion in room `c` has its room remembered and its request reserved, ended and past
its expiry. -/
def finishedDiscussion : List StoreCall :=
  let record := sampleRequest (js "q") (js "task_1_1") 1 1
  [⟨0, true, true, .initializeStore⟩,
    ⟨1, true, true, .op (.rememberInteractiveRoom sampleBinding (js "c") (js "d"))⟩,
    ⟨2, true, true, .op (.reserveInteractive record)⟩,
    ⟨3, true, true, .op (.updateInteractive record.key { status := some .terminal } none)⟩]

/-- A session answers in a conversation. -/
def conversationCall : StoreCall :=
  ⟨4, true, true, .op (.applyEventSession
    { conversation := { sampleBinding with
        groupScope := false, conversationType := .direct, targetId := js "n", senderId := js "s" }
      submittedResumeSessionId := none
      status := none
      authoritativeSessionId := some (js "p") })⟩

theorem store_invariant_finishedDiscussion :
    let c := exec Store.call (start Store.fresh) (finishedDiscussion ++ [conversationCall])
    let op : StoreOp := .claimMessage sampleBinding.runtimeId (js "m")
      (js "0123456789abcdef0123456789abcdef")
    let call : StoreCall := ⟨5, true, true, .op op⟩
    (c.state.persisted.sessions.length = 1 ∧ c.state.persisted.interactiveRooms.size = 1 ∧
      c.state.persisted.interactiveRequests.length = 1) ∧
      (∀ t, op.transition (c.state.persisted.pruned 5) 5 = .ok t → t.state.Sound) ∧
      ∀ e, (c.state.call call).1 = .error e →
        op.Refused (c.state.persisted.pruned 5) 5 ∨
        op.OverCapacity (c.state.persisted.pruned 5) 5 ∨ call.writeOk = false := by
  intro c op call
  have hfacts : AllAllowed Store.call Disciplined (start Store.fresh)
      ((finishedDiscussion ++ [conversationCall]) ++ [call]) ∧ c.state.initialized = true ∧
      c.state.persisted.sessions.length = 1 ∧ c.state.persisted.interactiveRooms.size = 1 ∧
      c.state.persisted.interactiveRequests.length = 1 := by decide +kernel
  obtain ⟨hallowed, hinit, hkept⟩ := hfacts
  rw [allAllowed_append] at hallowed
  exact ⟨hkept, store_invariant (reach_exec hallowed.1) hinit hallowed.2.1 rfl⟩

/-- An update of a key without a record fails, with nothing in conflict, the
store empty and the file writable. -/
theorem updateInteractive_unknown_fails :
    let op : StoreOp := .updateInteractive (js "k") { status := some .terminal } none
    let call : StoreCall := ⟨0, true, true, .op op⟩
    Disciplined opened call ∧ opened.state.initialized = true ∧
      (opened.state.call call).1 = .error .routerStateInvalid ∧
      ¬(op.SessionConflict opened.state.persisted ∨ op.RoomConflict opened.state.persisted ∨
        op.ClaimsFull opened.state.persisted 0 ∨ op.OverCapacity opened.state.persisted 0 ∨
        call.writeOk = false) := by
  intro op call
  have herror : op.transition opened.state.persisted 0 = .error .routerStateInvalid := rfl
  refine ⟨⟨opened_ordered (by decide), by decide, fun op' hop => ?_⟩, rfl, rfl, ?_⟩
  · cases hop
    exact ⟨fun response h => (by cases h), fun id h => (by cases h)⟩
  · rintro (⟨id, hid, _⟩ | hroom | hfull | ⟨t, ht, _⟩ | hwrite)
    · cases hid
    · exact hroom
    · exact hfull
    · rw [herror] at ht
      cases ht
    · cases hwrite

end ClawMessenger.Ports.SessionStore
