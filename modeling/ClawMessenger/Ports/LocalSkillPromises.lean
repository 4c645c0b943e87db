import ClawMessenger.Ports.LocalSkillLifecycle

/-!
# What a call has said of a local-skill request

A terminal status that was returned or acknowledged is the stored one from then
on, as long as every write is in turn: what a call has checked when it read the record
(`Checked`) still holds when it writes, and none of the moves that are left leaves a
terminal status.  A call that writes or returns a timeout has read the request
before, when nothing terminal was promised to it (`Told.knows`).
-/

namespace ClawMessenger.Ports.LocalSkill.Commands

open ClawMessenger.Verified Machine List
open Function (update update_apply)

variable {K : Kind}

/-! ## What one command does to the status -/

section Command

variable {s : State K} {now : Nat} {pc pc' : Pc K} {req : Request K.Body} {id runtimeId : String}
  {status : Status} {w : Write}

theorem status_put (s : State K) (req : Request K.Body) (id : String) :
    (s.put req).status id = if id = req.id then some req.status else s.status id := by
  show Option.map _ (update s.records req.id (some (K.marshal req)) id) = _
  rw [update_apply]
  split
  · rw [Option.map_some, K.reread]
  · rfl

theorem status_del (s : State K) (req id : String) :
    (s.del req).status id = if id = req then none else s.status id := by
  show Option.map _ (update s.records req none id) = _
  rw [update_apply]
  split <;> rfl

/-- A command that reads a record changes nothing. -/
theorem command_loading (s : State K) (now : Nat) (id : String) (purpose : Purpose K) :
    (s.command now (.loading id purpose)).2.1 = s := by
  simp only [State.command]
  split
  · rfl
  · split <;> rfl

/-- What is written is found afterwards, and it is what the call holds. -/
theorem command_stored (h : (s.command now pc).1.stored = some w) :
    (s.command now pc).2.1.status w.id = some w.after ∧ w.before = s.status w.id ∧
      ∃ req, pc.holds = some req ∧ req.id = w.id := by
  cases pc with
  | loading k purpose =>
    simp only [State.command] at h
    split at h
    · cases h
    · split at h <;> cases h
  | timingOut loaded req purpose =>
    cases h
    refine ⟨?_, rfl, req, rfl, rfl⟩
    show (s.put req).status req.id = _
    rw [status_put, if_pos rfl]
    rfl
  | claiming rt req purpose =>
    simp only [State.command] at h ⊢
    split at h
    · rename_i hmem
      cases h
      rw [if_pos hmem]
      refine ⟨?_, rfl, req, rfl, rfl⟩
      show ((s.zrem rt req.id).put (req.started now)).status (req.started now).id = _
      rw [status_put, if_pos rfl]
      rfl
    · cases h
  | settling req report seen =>
    cases h
    refine ⟨?_, rfl, req, rfl, rfl⟩
    show (s.put (req.settled (K.settlement report) now)).status
      (req.settled (K.settlement report) now).id = _
    rw [status_put, if_pos rfl]
    rfl
  | _ => cases h

/-- What is handed out is written. -/
theorem command_handed_stored (h : (s.command now pc).1.handed = some id) :
    ∃ w, (s.command now pc).1.stored = some w ∧ w.id = id := by
  cases pc with
  | claiming rt req purpose =>
    simp only [State.command] at h ⊢
    split at h
    · rename_i hmem
      cases h
      rw [if_pos hmem]
      exact ⟨_, rfl, rfl⟩
    · cases h
  | loading k purpose =>
    simp only [State.command] at h
    split at h
    · cases h
    · split at h <;> cases h
  | _ => cases h

theorem command_calls (s : State K) (now : Nat) (pc : Pc K) :
    (s.command now pc).2.1.calls = s.calls := by
  cases pc with
  | loading k purpose => rw [command_loading]
  | claiming rt req purpose =>
    simp only [State.command]
    split <;> rfl
  | _ => rfl

/-- A status stays, goes with its record, or is written. -/
theorem command_status (s : State K) (now : Nat) (pc : Pc K) (id : String) :
    (s.command now pc).2.1.status id = s.status id ∨ (s.command now pc).2.1.status id = none ∨
      ∃ w, (s.command now pc).1.stored = some w ∧ w.id = id := by
  have hput : ∀ (s' : State K) (req : Request K.Body), s'.status id = s.status id → req.id ≠ id →
      (s'.put req).status id = s.status id := by
    intro s' req hs' hne
    rw [status_put, if_neg (fun heq => hne heq.symm), hs']
  cases pc with
  | deleting req =>
    show (s.del req.id).status id = _ ∨ (s.del req.id).status id = none ∨ _
    rw [status_del]
    split
    · exact .inr (.inl rfl)
    · exact .inl rfl
  | loading k purpose =>
    rw [command_loading]
    exact .inl rfl
  | timingOut loaded req purpose =>
    by_cases heq : req.id = id
    · exact .inr (.inr ⟨_, rfl, heq⟩)
    · exact .inl (hput s req rfl heq)
  | claiming rt req purpose =>
    simp only [State.command]
    split
    · by_cases heq : req.id = id
      · exact .inr (.inr ⟨_, rfl, heq⟩)
      · exact .inl (hput (s.zrem rt req.id) (req.started now) rfl heq)
    · exact .inl rfl
  | settling req report seen =>
    by_cases heq : req.id = id
    · exact .inr (.inr ⟨_, rfl, heq⟩)
    · exact .inl (hput s (req.settled (K.settlement report) now) rfl heq)
  | _ => exact .inl rfl

theorem loaded_answer {purpose : Purpose K} {loaded : Option (Request K.Body)} {k : String}
    (h : (purpose.loaded id loaded).1 = some (k, status)) :
    k = id ∧ ∃ req, loaded = some req ∧ req.status = status := by
  unfold Purpose.loaded at h
  split at h
  all_goals try cases h
  · exact ⟨rfl, _, rfl, rfl⟩
  · split at h <;> cases h
  · split at h <;> cases h
  · split at h
    · cases h
    · split at h
      · cases h
        exact ⟨rfl, _, rfl, rfl⟩
      · cases h

/-- What a call answers was read just now, was written just now, or is what the
call made itself. -/
theorem command_answered (h : (s.command now pc).1.answered = some (id, status)) :
    (s.status id = some status ∧ (s.command now pc).2.1.status id = some status) ∨
      (∃ w, (s.command now pc).1.stored = some w ∧ w.id = id ∧ w.after = status) ∨
        ∃ req, req.id = id ∧ req.status = status ∧
          (pc = .renewing req ∨ ∃ purpose, pc = .unlisting req purpose) := by
  cases pc with
  | renewing req =>
    cases h
    exact .inr (.inr ⟨req, rfl, rfl, .inl rfl⟩)
  | loading k purpose =>
    left
    rw [command_loading]
    simp only [State.command] at h
    split at h
    · obtain ⟨-, req, hreq, -⟩ := loaded_answer h
      cases hreq
    · rename_i wire hwire
      split at h
      · cases h
      · obtain ⟨rfl, req, hreq, rfl⟩ := loaded_answer h
        cases hreq
        have hstatus : s.status id = some (K.unmarshal wire).status := by
          unfold State.status
          rw [hwire]
          rfl
        exact ⟨hstatus, hstatus⟩
  | unlisting req purpose =>
    obtain ⟨rfl, req', hreq, rfl⟩ := loaded_answer h
    cases hreq
    exact .inr (.inr ⟨req, rfl, rfl, .inr ⟨purpose, rfl⟩⟩)
  | claiming rt req purpose =>
    right
    left
    simp only [State.command] at h ⊢
    split at h
    · rename_i hmem
      cases h
      rw [if_pos hmem]
      exact ⟨_, rfl, rfl, rfl⟩
    · cases h
  | settling req report seen =>
    cases h
    exact .inr (.inl ⟨_, rfl, rfl, rfl⟩)
  | _ => cases h

end Command

/-- A terminal status is left for none but itself. -/
theorem Moves.terminal {old status : Status} (h : Moves (some old) status)
    (hterminal : old.terminal = true) : status = old := by
  cases h with
  | claimed | pendingTimeout | runningTimeout | settled _ => cases hterminal
  | same => rfl

/-! ## What a call has checked -/

section Checked

variable {handed : List String} {id : String} {s : State K} {now : Nat} {pc pc' : Pc K} {w : Write}

/-- What a call knows when it loads a request for this purpose: a report handler is called
for what was handed out, and calls `Complete`, `Conflict` or `Fail` where it saw it running. -/
def Purpose.Checked (handed : List String) (id : String) : Purpose K → Prop
  | .settle _ seen => ∀ status ∈ seen, status = .running
  | .handle _ _ => id ∈ handed
  | _ => True

/-- What a call has found in the record that it is about to write. -/
def Pc.Checked (handed : List String) : Pc K → Prop
  | .loading id purpose => purpose.Checked handed id
  | .timingOut loaded req purpose =>
    (loaded = .pending ∨ loaded = .running) ∧ req.status = .timeout ∧ purpose.Checked handed req.id
  | .unlisting req purpose => req.status = .timeout ∧ purpose.Checked handed req.id
  | .claiming _ req _ => req.status = .pending
  | .settling _ _ seen => ∀ status ∈ seen, status = .running
  | _ => True

variable {purpose : Purpose K}

theorem next_checked (h : purpose.next = some pc) : pc.Checked handed := by
  unfold Purpose.next at h
  split at h
  · cases h
    trivial
  · cases h
    trivial
  · cases h

/-- A popper goes on to claim what is pending, and a report handler to settle what is neither
pending, as it was handed out, nor terminal. -/
theorem loaded_checked {loaded : Option (Request K.Body)} (h : purpose.Checked handed id)
    (hloaded : ∀ req, loaded = some req → id ∈ handed → req.status ≠ .pending)
    (hgo : (purpose.loaded id loaded).2 = some pc) : pc.Checked handed := by
  unfold Purpose.loaded at hgo
  split at hgo
  all_goals try cases hgo
  all_goals try exact True.intro
  · split at hgo
    · rename_i hpending
      cases hgo
      exact hpending
    · cases hgo
      trivial
  · split at hgo
    · rename_i hpending
      cases hgo
      exact hpending
    · cases hgo
      trivial
  · exact h
  · rename_i runtimeId report req
    split at hgo
    · cases hgo
    · split at hgo
      · cases hgo
      · rename_i hopen
        cases hgo
        intro status hstatus
        cases hstatus
        have hhanded := hloaded req rfl h
        cases hreq : req.status with
        | running => rfl
        | pending => exact absurd hreq hhanded
        | _ => simp [hreq, Status.terminal] at hopen

theorem command_checked (h : pc.Checked handed) (hids : ∀ k wire, s.records k = some wire → (K.unmarshal wire).id = k)
    (hhanded : ∀ k ∈ handed, s.status k ≠ some .pending) (hgo : (s.command now pc).2.2 = some pc') :
    pc'.Checked handed := by
  cases pc with
  | adding req | deleting req =>
    cases hgo
    trivial
  | ranging runtimeId turns =>
    obtain ⟨k, -, rfl⟩ := Option.map_eq_some_iff.mp hgo
    trivial
  | rangingBatch runtimeId limit => exact next_checked hgo
  | loading k purpose =>
    simp only [State.command] at hgo
    split at hgo
    · apply loaded_checked h _ hgo
      intro req hreq
      cases hreq
    · rename_i wire hwire
      split at hgo
      · rename_i timed htimed
        unfold applyTimeout at htimed
        split at htimed
        · rename_i hover
          cases htimed
          cases hgo
          refine ⟨Request.open_of_overdue hover, rfl, ?_⟩
          show purpose.Checked handed (K.unmarshal wire).id
          rw [hids k wire hwire]
          exact h
        · cases htimed
      · apply loaded_checked h _ hgo
        intro req hreq hmem hpending
        cases hreq
        apply hhanded k hmem
        unfold State.status
        rw [hwire, Option.map_some, hpending]
  | timingOut loaded req purpose =>
    cases hgo
    exact h.2
  | unlisting req purpose =>
    apply loaded_checked h.2 _ hgo
    intro req' hreq _ hpending
    cases hreq
    rw [h.1] at hpending
    cases hpending
  | dropping runtimeId k purpose => exact next_checked hgo
  | claiming runtimeId req purpose =>
    simp only [State.command] at hgo
    split at hgo
    · unfold Purpose.claimed at hgo
      split at hgo
      · cases hgo
      · exact next_checked hgo
    · exact next_checked hgo
  | _ => cases hgo

theorem failed_checked (h : pc.Checked handed) (hgo : pc.failed.2 = some pc') : pc'.Checked handed := by
  cases pc with
  | unlisting req purpose =>
    apply loaded_checked h.2 _ hgo
    intro req' hreq _ hpending
    cases hreq
    rw [h.1] at hpending
    cases hpending
  | dropping runtimeId k purpose => exact next_checked hgo
  | adding req | renewing req | deleting req =>
    cases hgo
    trivial
  | _ => cases hgo

/-- Only `Create` writes a pending request. -/
theorem command_ne_pending (h : pc.Checked handed) (hw : (s.command now pc).1.stored = some w) :
    w.after ≠ .pending := by
  intro hpending
  cases pc with
  | loading k purpose =>
    simp only [State.command] at hw
    split at hw
    · cases hw
    · split at hw <;> cases hw
  | timingOut loaded req purpose =>
    cases hw
    rw [State.write, h.2.1] at hpending
    cases hpending
  | claiming rt req purpose =>
    simp only [State.command] at hw
    split at hw
    · cases hw
      cases hpending
    · cases hw
  | settling req report seen =>
    cases hw
    have hterminal := K.settlement_terminal report
    rw [show (K.settlement report).status = .pending from hpending] at hterminal
    cases hterminal
  | _ => cases hw

/-- A write in turn moves the status as it may move. -/
theorem command_moves {c : Cfg K} {call : Nat} (hpc : c.state.calls call = some pc)
    (hturn : InTurn c (.advance call now)) (hchecked : pc.Checked handed)
    (hw : (c.state.command now pc).1.stored = some w) :
    ∃ old, c.state.status w.id = some old ∧ Moves (some old) w.after := by
  simp only [InTurn, hpc] at hturn
  cases pc with
  | loading k purpose =>
    simp only [State.command] at hw
    split at hw
    · cases hw
    · split at hw <;> cases hw
  | timingOut loaded req purpose =>
    cases hw
    obtain ⟨hloaded, htimeout, -⟩ := hchecked
    simp only [mem_cons, not_mem_nil, or_false] at hturn
    show ∃ old, c.state.status req.id = some old ∧ Moves (some old) req.status
    rw [htimeout] at hturn ⊢
    rcases hturn with hold | hold
    · refine ⟨loaded, hold, ?_⟩
      rcases hloaded with rfl | rfl
      · exact .pendingTimeout
      · exact .runningTimeout
    · exact ⟨_, hold, .same _⟩
  | claiming rt req purpose =>
    simp only [State.command] at hw
    split at hw
    · rename_i hmem
      cases hw
      have hpending := hturn hmem
      rw [show req.status = .pending from hchecked] at hpending
      exact ⟨_, hpending, .claimed⟩
    · cases hw
  | settling req report seen =>
    cases hw
    have hseen : seen.getD .running = .running := by
      cases seen with
      | none => rfl
      | some status => exact hchecked status rfl
    simp only [mem_cons, not_mem_nil, or_false, hseen] at hturn
    rcases hturn with hold | hold
    · exact ⟨_, hold, .settled (K.settlement_terminal report)⟩
    · exact ⟨_, hold, .same _⟩
  | _ => cases hw

end Checked

/-- The calls have checked what they hold, and what was handed out is pending no more. -/
structure Checked (past : Past K) (s : State K) : Prop where
  calls : ∀ call pc, s.calls call = some pc → pc.Checked (handedIds past)
  handed : ∀ id ∈ handedIds past, s.status id ≠ some .pending

variable {purpose : Purpose K} {handed handed' : List String} {id : String}

theorem Purpose.Checked.mono (h : purpose.Checked handed id) (hsub : ∀ k ∈ handed, k ∈ handed') :
    purpose.Checked handed' id := by
  cases purpose with
  | handle runtimeId report => exact hsub id h
  | _ => exact h

variable {pc : Pc K}

theorem Pc.Checked.mono (h : pc.Checked handed) (hsub : ∀ k ∈ handed, k ∈ handed') :
    pc.Checked handed' := by
  cases pc with
  | loading id purpose => exact Purpose.Checked.mono h hsub
  | timingOut loaded req purpose => exact ⟨h.1, h.2.1, h.2.2.mono hsub⟩
  | unlisting req purpose => exact ⟨h.1, h.2.mono hsub⟩
  | _ => exact h

namespace Checked

variable {past : Past K} {s s' : State K} {e : Event K × Effect}

/-- A call goes on, or none does. -/
theorem after (h : Checked past s)
    (hcalls : ∀ call pc, s'.calls call = some pc → s.calls call = some pc ∨ pc.Checked (handedIds past))
    (hstatus : ∀ id ∈ handedIds (past ++ [e]), s'.status id ≠ some .pending) : Checked (past ++ [e]) s' where
  calls := by
    intro call pc hpc
    have hchecked : pc.Checked (handedIds past) := (hcalls call pc hpc).elim (h.calls call pc) id
    apply hchecked.mono
    intro k hk
    rw [handedIds_append]
    exact mem_append_left _ hk
  handed := hstatus

variable {pc' : Pc K} {call : Nat}

theorem goOn_cases {call' : Nat} {pc : Option (Pc K)}
    (h : (s.goOn call pc).calls call' = some pc') : pc = some pc' ∨ s.calls call' = some pc' := by
  change update s.calls call pc call' = _ at h
  rw [update_apply] at h
  split at h
  · exact .inl h
  · exact .inr h

/-- A step that hands out nothing and makes nothing pending. -/
theorem quiet (h : Checked past s)
    (hcalls : ∀ call pc, s'.calls call = some pc → s.calls call = some pc ∨ pc.Checked (handedIds past))
    (he : e.2.handed = none)
    (hstatus : ∀ id ∈ handedIds past, s'.status id = some .pending → s.status id = some .pending) :
    Checked (past ++ [e]) s' := by
  apply h.after hcalls
  intro id hid hpending
  rw [handedIds_append, he, Option.toList_none, append_nil] at hid
  exact h.handed id hid (hstatus id hid hpending)

variable {now : Nat}

theorem command (h : Checked past s) (honce : Once past s) (hpc : s.calls call = some pc)
    (he : e.2 = (s.command now pc).1) (hcalls : (s.command now pc).2.1.calls = s.calls) :
    Checked (past ++ [e]) ((s.command now pc).2.1.goOn call (s.command now pc).2.2) := by
  have hchecked := h.calls call pc hpc
  apply h.after
  · intro call' pc' hgo
    rcases goOn_cases hgo with hgo | hgo
    · right
      exact command_checked hchecked (fun k wire hwire => (honce.stored k wire hwire).1) h.handed hgo
    · rw [hcalls] at hgo
      exact .inl hgo
  · intro id hid hpending
    change (s.command now pc).2.1.status id = _ at hpending
    rcases command_status s now pc id with hsame | hnone | ⟨w, hw, rfl⟩
    · rw [handedIds_append, mem_append, Option.mem_toList] at hid
      rcases hid with hid | hnow
      · exact h.handed id hid (hsame.symm.trans hpending)
      · -- the claim script that hands a request out has stored it as running
        rw [he] at hnow
        obtain ⟨w, hw, hid⟩ := command_handed_stored hnow
        rw [← hid, (command_stored hw).1] at hpending
        exact command_ne_pending hchecked hw (Option.some.inj hpending)
    · rw [hnone] at hpending
      cases hpending
    · rw [(command_stored hw).1] at hpending
      exact command_ne_pending hchecked hw (Option.some.inj hpending)

end Checked

variable {c : Cfg K} {event : Event K}

theorem Checked.step (h : Checked c.past c.state) (honce : Once c.past c.state)
    (hallowed : Allowed c event) (hturn : InTurn c event) :
    Checked (advance State.step c event).past (advance State.step c event).state := by
  rw [advance_past, advance_state]
  have hgoOn : ∀ (call : Nat) (pc : Option (Pc K)), (∀ pc', pc = some pc' → pc'.Checked (handedIds c.past)) →
      ∀ call' pc', (c.state.goOn call pc).calls call' = some pc' →
        c.state.calls call' = some pc' ∨ pc'.Checked (handedIds c.past) := by
    intro call pc hpc call' pc' hgo
    exact (goOn_cases hgo).symm.imp_right (hpc pc')
  cases event with
  | begin call op now =>
    cases op with
    | create id runtimeId input =>
      apply h.quiet _ rfl
      · intro k hk hpending
        change (c.state.put (Request.new id runtimeId (K.initial input) now)).status k = _ at hpending
        rw [status_put, if_neg] at hpending
        · exact hpending
        · rintro rfl
          exact hallowed.2 k rfl (honce.handed k hk)
      · intro call' pc hgo
        rcases goOn_cases hgo with hgo | hgo
        · cases hgo
          exact .inr trivial
        · exact .inl hgo
    | handle id runtimeId report =>
      refine h.quiet (hgoOn call _ ?_) rfl fun _ _ hs => hs
      intro pc hpc
      cases hpc
      exact hturn
    | settle id report =>
      refine h.quiet (hgoOn call _ ?_) rfl fun _ _ hs => hs
      intro pc hpc
      cases hpc
      intro status hstatus
      cases hstatus
    | _ =>
      refine h.quiet (hgoOn call _ ?_) rfl fun _ _ hs => hs
      intro pc hpc
      cases hpc
      trivial
  | advance call now =>
    cases hpc : c.state.calls call with
    | none =>
      simp only [State.step, hpc]
      exact h.quiet (fun _ _ hcalls => .inl hcalls) rfl fun _ _ hs => hs
    | some pc =>
      simp only [State.step, hpc]
      exact h.command honce hpc rfl (command_calls _ _ _)
  | fail call =>
    cases hpc : c.state.calls call with
    | none =>
      simp only [State.step, hpc]
      exact h.quiet (fun _ _ hcalls => .inl hcalls) rfl fun _ _ hs => hs
    | some pc =>
      simp only [State.step, hpc]
      refine h.quiet (hgoOn call _ ?_) (failed_handed pc) fun _ _ hs => hs
      exact fun pc' hgo => failed_checked (h.calls call pc hpc) hgo
  | expireRecord id =>
    refine h.quiet (fun _ _ hcalls => .inl hcalls) rfl ?_
    intro k _ hs
    change (c.state.del id).status k = _ at hs
    rw [status_del] at hs
    split at hs
    · cases hs
    · exact hs
  | expirePending runtimeId => exact h.quiet (fun _ _ hcalls => .inl hcalls) rfl fun _ _ hs => hs

/-! ## Promises -/

/-- A call that will answer the status of the request without another look. -/
def Pc.tells : Pc K → Option (Request K.Body)
  | .adding req | .renewing req | .timingOut _ req _ | .unlisting req _ => some req
  | _ => none

/-- Whatever is stored under the id has this status. -/
def Stays (s : State K) (id : String) (status : Status) : Prop :=
  ∀ status', s.status id = some status' → status' = status

structure Told (past : Past K) (s : State K) : Prop where
  promised : ∀ id status, Promised past id status → Created past id ∧ Stays s id status
  /-- no status was promised when a call began that tells what it has read or made -/
  knows : ∀ call pc, s.calls call = some pc → ∀ req, pc.tells = some req →
    ∀ older b later, past = older ++ b :: later → Begins b call →
      ∀ status, ¬ Promised older req.id status
  unlisted : ∀ call req purpose, s.calls call = some (.unlisting req purpose) → Stays s req.id .timeout
  made : ∀ call req, s.calls call = some (.adding req) ∨ s.calls call = some (.renewing req) →
    req.status = .pending

theorem next_tells (h : purpose.next = some pc) :
    pc.tells = none := by
  unfold Purpose.next at h
  split at h
  · cases h
    rfl
  · cases h
    rfl
  · cases h

theorem loaded_tells {loaded : Option (Request K.Body)}
    (h : (purpose.loaded id loaded).2 = some pc) : pc.tells = none := by
  unfold Purpose.loaded at h
  split at h
  all_goals try cases h
  all_goals try rfl
  all_goals split at h
  all_goals try cases h
  all_goals try rfl
  all_goals split at h <;> cases h
  all_goals rfl

/-- A call that tells something was about to do what comes before, or it has
just found its request overdue. -/
theorem command_tells {s : State K} {req : Request K.Body} (h : (s.command now pc).2.2 = some pc')
    (hreq : pc'.tells = some req) :
    (pc = .adding req ∧ pc' = .renewing req) ∨
      (∃ loaded purpose, pc = .timingOut loaded req purpose ∧ pc' = .unlisting req purpose) ∨
        ∃ id purpose wire, s.records id = some wire ∧ pc' = .timingOut (K.unmarshal wire).status req purpose ∧
          req = (K.unmarshal wire).timedOut now ∧ (K.unmarshal wire).overdue now = true := by
  have hnext : ∀ purpose : Purpose K, purpose.next ≠ some pc' := by
    intro purpose hgo
    rw [next_tells hgo] at hreq
    cases hreq
  have hloaded : ∀ (purpose : Purpose K) k loaded, (purpose.loaded k loaded).2 ≠ some pc' := by
    intro purpose k loaded hgo
    rw [loaded_tells hgo] at hreq
    cases hreq
  cases pc with
  | adding old =>
    cases h
    cases hreq
    exact .inl ⟨rfl, rfl⟩
  | deleting old =>
    cases h
    cases hreq
  | ranging runtimeId turns =>
    obtain ⟨k, -, rfl⟩ := Option.map_eq_some_iff.mp h
    cases hreq
  | rangingBatch runtimeId limit => exact absurd h (hnext _)
  | loading k purpose =>
    simp only [State.command] at h
    split at h
    · exact absurd h (hloaded _ _ _)
    · rename_i wire hwire
      split at h
      · rename_i timed htimed
        cases h
        cases hreq
        unfold applyTimeout at htimed
        split at htimed
        · rename_i hover
          cases htimed
          exact .inr (.inr ⟨k, purpose, wire, hwire, rfl, rfl, hover⟩)
        · cases htimed
      · exact absurd h (hloaded _ _ _)
  | timingOut loaded old purpose =>
    cases h
    cases hreq
    exact .inr (.inl ⟨loaded, purpose, rfl, rfl⟩)
  | unlisting old purpose => exact absurd h (hloaded _ _ _)
  | dropping runtimeId k purpose => exact absurd h (hnext _)
  | claiming runtimeId old purpose =>
    simp only [State.command] at h
    split at h
    · unfold Purpose.claimed at h
      split at h
      · cases h
      · exact absurd h (hnext _)
    · exact absurd h (hnext _)
  | _ => cases h

/-- A terminal status stays what it is. -/
theorem Stays.command {status : Status} (h : Stays c.state id status)
    (hterminal : status.terminal = true) (hpc : c.state.calls call = some pc)
    (hturn : InTurn c (.advance call now)) (hchecked : pc.Checked (handedIds c.past)) :
    Stays (c.state.command now pc).2.1 id status := by
  intro status' hstatus'
  rcases command_status c.state now pc id with hsame | hnone | ⟨w, hw, rfl⟩
  · exact h status' (hsame.symm.trans hstatus')
  · rw [hnone] at hstatus'
    cases hstatus'
  · obtain ⟨old, hold, hmoves⟩ := command_moves hpc hturn hchecked hw
    have hafter := (command_stored hw).1
    rw [hstatus', Option.some.injEq] at hafter
    rw [h old hold] at hmoves
    rw [hafter]
    exact hmoves.terminal hterminal

namespace Told

variable {past : Past K} {s : State K} {e : Event K × Effect}

/-- A step that writes and answers nothing, and lets no call tell something new. -/
theorem quiet (h : Told past s) {s' : State K} (he : e.2.answered = none)
    (hbegins : ∀ call pc, s'.calls call = some pc → pc.tells ≠ none → s.calls call = some pc ∧
      ¬ Begins e call)
    (hstatus : ∀ id status, s'.status id = some status → s.status id = some status) :
    Told (past ++ [e]) s' := by
  have htells : ∀ call pc, s'.calls call = some pc → pc.tells ≠ none → s.calls call = some pc :=
    fun call pc hcalls htells => (hbegins call pc hcalls htells).1
  refine ⟨?_, ?_, ?_, ?_⟩
  · intro id status hpromised
    rw [promised_append, he] at hpromised
    rcases hpromised with hpromised | ⟨hnone, -⟩
    · obtain ⟨hcreated, hstays⟩ := h.promised id status hpromised
      exact ⟨hcreated.append e, fun status' hs' => hstays status' (hstatus id status' hs')⟩
    · cases hnone
  · intro call pc hcalls req hreq older b later hpast hb
    have hnot := hbegins call pc hcalls (by rw [hreq]; exact Option.some_ne_none req)
    rcases split_append hpast with ⟨-, rfl, -⟩ | ⟨rest, -, hpast⟩
    · exact absurd hb hnot.2
    · exact h.knows call pc hnot.1 req hreq older b rest hpast hb
  · intro call req purpose hcalls
    have hstays := h.unlisted call req purpose (htells _ _ hcalls (by simp [Pc.tells]))
    exact fun status' hs' => hstays status' (hstatus _ status' hs')
  · rintro call req (hcalls | hcalls)
    · exact h.made call req (.inl (htells _ _ hcalls (by simp [Pc.tells])))
    · exact h.made call req (.inr (htells _ _ hcalls (by simp [Pc.tells])))

theorem create (h : Told past s) (honce : Once past s) {runtimeId : String} {input : K.Input}
    (hfresh : ¬ Created past id) (hcall : ∀ e ∈ past, ¬ Begins e call)
    (he : e.1 = .begin call (.create id runtimeId input) now) (hquiet : e.2.answered = none) :
    Told (past ++ [e]) ((s.put (Request.new id runtimeId (K.initial input) now)).goOn call
      (some (.adding (Request.new id runtimeId (K.initial input) now)))) := by
  have hstatus : ∀ k, Created past k → ∀ status,
      (s.put (Request.new id runtimeId (K.initial input) now)).status k = some status →
        s.status k = some status := by
    intro k hk status hs
    rw [status_put, if_neg] at hs
    · exact hs
    · rintro rfl
      exact hfresh hk
  have hold : ∀ call' pc, ((s.put (Request.new id runtimeId (K.initial input) now)).goOn call
      (some (.adding (Request.new id runtimeId (K.initial input) now)))).calls call' = some pc →
      (call' = call ∧ pc = .adding (Request.new id runtimeId (K.initial input) now)) ∨
        (call' ≠ call ∧ s.calls call' = some pc) := by
    intro call' pc hcalls
    change update s.calls call _ call' = _ at hcalls
    rw [update_apply] at hcalls
    split at hcalls
    · rename_i heq
      cases hcalls
      exact .inl ⟨heq, rfl⟩
    · rename_i hne
      exact .inr ⟨hne, hcalls⟩
  refine ⟨?_, ?_, ?_, ?_⟩
  · intro k status hpromised
    rw [promised_append, hquiet] at hpromised
    rcases hpromised with hpromised | ⟨hnone, -⟩
    · obtain ⟨hcreated, hstays⟩ := h.promised k status hpromised
      exact ⟨hcreated.append e, fun status' hs' => hstays status' (hstatus k hcreated status' hs')⟩
    · cases hnone
  · intro call' pc hcalls req hreq older b later hpast hb status hpromised
    rcases split_append hpast with ⟨rfl, rfl, -⟩ | ⟨rest, -, hpast⟩
    · rcases hold call' pc hcalls with ⟨rfl, rfl⟩ | ⟨hne, -⟩
      · cases hreq
        exact hfresh (h.promised id status hpromised).1
      · obtain ⟨op, now', hb⟩ := hb
        rw [he] at hb
        cases hb
        exact hne rfl
    · rcases hold call' pc hcalls with ⟨rfl, -⟩ | ⟨-, hcalls⟩
      · refine hcall b ?_ hb
        rw [hpast]
        exact mem_append_right _ mem_cons_self
      · exact h.knows call' pc hcalls req hreq older b rest hpast hb status hpromised
  · intro call' req purpose hcalls
    rcases hold call' _ hcalls with ⟨-, heq⟩ | ⟨-, hcalls⟩
    · cases heq
    · have hcreated := honce.held call' _ hcalls req rfl
      exact fun status' hs' => h.unlisted call' req purpose hcalls status' (hstatus _ hcreated status' hs')
  · rintro call' req (hcalls | hcalls)
    · rcases hold call' _ hcalls with ⟨-, heq⟩ | ⟨-, hcalls⟩
      · cases heq
        rfl
      · exact h.made call' req (.inl hcalls)
    · rcases hold call' _ hcalls with ⟨-, heq⟩ | ⟨-, hcalls⟩
      · cases heq
      · exact h.made call' req (.inr hcalls)

section Command

variable {c : Cfg K} {call now : Nat} {pc : Pc K} {id : String} {status status' : Status} {w : Write}

section

variable (h : Told c.past c.state) (hchecked : Checked c.past c.state)
  (hpc : c.state.calls call = some pc) (hturn : InTurn c (.advance call now))
include h hchecked hpc hturn

/-- What is written under an id was promised of it, if anything was. -/
theorem stored (hw : (c.state.command now pc).1.stored = some w)
    (hpromised : Promised c.past w.id status) : w.after = status := by
  obtain ⟨old, hold, hmoves⟩ := command_moves hpc hturn (hchecked.calls call pc hpc) hw
  have heq := (h.promised w.id status hpromised).2 old hold
  obtain ⟨-, -, -, hterminal⟩ := hpromised
  rw [heq] at hmoves
  exact hmoves.terminal hterminal

/-- What a call answers of a request was promised when it began, if anything was. -/
theorem returned (hanswer : (c.state.command now pc).1.answered = some (id, status'))
    {older later : Past K} {b : Event K × Effect} (hpast : c.past = older ++ b :: later)
    (hb : Begins b call) (hpromised : Promised older id status) : status' = status := by
  have hnow : Promised c.past id status := hpromised.of_older hpast
  rcases command_answered hanswer with ⟨hstatus, -⟩ | ⟨w, hw, rfl, rfl⟩ | ⟨req, rfl, rfl, htells⟩
  · exact (h.promised id status hnow).2 status' hstatus
  · exact h.stored hchecked hpc hturn hw hnow
  · exfalso
    rcases htells with rfl | ⟨purpose, rfl⟩
    · exact h.knows call _ hpc req rfl older b later hpast hb status hpromised
    · exact h.knows call _ hpc req rfl older b later hpast hb status hpromised

end

section

variable (h : Told c.past c.state) (honce : Once c.past c.state)
  (hchecked : Checked c.past c.state) (hpc : c.state.calls call = some pc)
include h honce hchecked hpc

/-- A terminal status that is answered stays. -/
theorem answered (hanswer : (c.state.command now pc).1.answered = some (id, status))
    (hterminal : status.terminal = true) :
    Created c.past id ∧ Stays (c.state.command now pc).2.1 id status := by
  rcases command_answered hanswer with ⟨hstatus, hafter⟩ | ⟨w, hw, rfl, rfl⟩ | ⟨req, rfl, rfl, htells⟩
  · obtain ⟨wire, hwire, -⟩ := Option.map_eq_some_iff.mp hstatus
    refine ⟨(honce.stored id wire hwire).2, ?_⟩
    intro status' hstatus'
    rw [hafter] at hstatus'
    exact (Option.some.inj hstatus').symm
  · obtain ⟨hafter, -, req, hholds, hid⟩ := command_stored hw
    refine ⟨hid ▸ honce.held call pc hpc req hholds, ?_⟩
    intro status' hstatus'
    rw [hafter] at hstatus'
    exact (Option.some.inj hstatus').symm
  · rcases htells with rfl | ⟨purpose, rfl⟩
    · rw [h.made call req (.inr hpc)] at hterminal
      cases hterminal
    · rw [(hchecked.calls call _ hpc).1]
      exact ⟨honce.held call _ hpc req rfl, h.unlisted call req purpose hpc⟩

theorem command (hturn : InTurn c (.advance call now)) {e : Event K × Effect}
    (he : e.2 = (c.state.command now pc).1) (hbegins : ∀ call', ¬ Begins e call') :
    Told (c.past ++ [e]) ((c.state.command now pc).2.1.goOn call (c.state.command now pc).2.2) := by
  have hpc_checked := hchecked.calls call pc hpc
  have hold : ∀ call' pc', ((c.state.command now pc).2.1.goOn call
      (c.state.command now pc).2.2).calls call' = some pc' →
      (call' = call ∧ (c.state.command now pc).2.2 = some pc') ∨
        c.state.calls call' = some pc' := by
    intro call' pc' hcalls
    change update (c.state.command now pc).2.1.calls call _ call' = _ at hcalls
    rw [update_apply, command_calls] at hcalls
    split at hcalls
    · rename_i heq
      exact .inl ⟨heq, hcalls⟩
    · exact .inr hcalls
  refine ⟨?_, ?_, ?_, ?_⟩
  · intro id status hpromised
    rcases promised_append.mp hpromised with hpromised | ⟨hanswer, hterminal⟩
    · obtain ⟨hcreated, hstays⟩ := h.promised id status hpromised
      obtain ⟨-, -, -, hterminal⟩ := hpromised
      exact ⟨hcreated.append _, hstays.command hterminal hpc hturn hpc_checked⟩
    · rw [he] at hanswer
      obtain ⟨hcreated, hstays⟩ := h.answered honce hchecked hpc hanswer hterminal
      exact ⟨hcreated.append _, hstays⟩
  · intro call' pc' hcalls req hreq older b later hpast hb status hpromised
    have hinside : ∃ rest, c.past = older ++ b :: rest := by
      rcases split_append hpast with ⟨-, rfl, -⟩ | ⟨rest, -, hpast⟩
      · exact absurd hb (hbegins call')
      · exact ⟨rest, hpast⟩
    obtain ⟨rest, hinside⟩ := hinside
    rcases hold call' pc' hcalls with ⟨rfl, hgo⟩ | hcalls
    · rcases command_tells hgo hreq with ⟨rfl, -⟩ | ⟨_, _, rfl, -⟩ | ⟨id, purpose, wire, hwire, -, rfl, hover⟩
      · exact h.knows call' _ hpc req rfl older b rest hinside hb status hpromised
      · exact h.knows call' _ hpc req rfl older b rest hinside hb status hpromised
      · -- the record was open just now, and a promise would have kept it terminal
        have hid := (honce.stored id wire hwire).1
        have hnow : Promised c.past id status := by
          rw [← hid]
          exact hpromised.of_older hinside
        have hstatus : c.state.status id = some (K.unmarshal wire).status := by
          unfold State.status
          rw [hwire]
          rfl
        have heq := (h.promised id status hnow).2 _ hstatus
        obtain ⟨-, -, -, hterminal⟩ := hnow
        rw [← heq] at hterminal
        rcases Request.open_of_overdue hover with hopen | hopen
        · rw [hopen] at hterminal
          cases hterminal
        · rw [hopen] at hterminal
          cases hterminal
    · exact h.knows call' pc' hcalls req hreq older b rest hinside hb status hpromised
  · intro call' req purpose hcalls
    rcases hold call' _ hcalls with ⟨rfl, hgo⟩ | hcalls
    · rcases command_tells hgo rfl with ⟨-, heq⟩ | ⟨_, purpose', rfl, -⟩ | ⟨_, _, _, -, heq, -⟩
      · cases heq
      · have htimeout := hpc_checked.2.1
        intro status' hstatus'
        have hafter : (c.state.put req).status req.id = some req.status := by
          rw [status_put, if_pos rfl]
        have hstatus'' : (c.state.put req).status req.id = some status' := hstatus'
        rw [hafter, htimeout] at hstatus''
        exact (Option.some.inj hstatus'').symm
      · cases heq
    · exact (h.unlisted call' req purpose hcalls).command rfl hpc hturn hpc_checked
  · rintro call' req (hcalls | hcalls)
    · rcases hold call' _ hcalls with ⟨rfl, hgo⟩ | hcalls
      · exact absurd hgo command_not_adding
      · exact h.made call' req (.inl hcalls)
    · rcases hold call' _ hcalls with ⟨rfl, hgo⟩ | hcalls
      · rcases command_tells hgo rfl with ⟨rfl, -⟩ | ⟨_, _, -, heq⟩ | ⟨_, _, _, -, heq, -⟩
        · exact h.made call' req (.inl hpc)
        · cases heq
        · cases heq
      · exact h.made call' req (.inr hcalls)

end

end Command

/-- What is told hangs on the records and the calls. -/
theorem congr (h : Told past s) {s' : State K} (hrecords : s'.records = s.records) (hcalls : s'.calls = s.calls) :
    Told past s' := by
  have hstatus : s'.status = s.status := by
    funext id
    rw [State.status, State.status, hrecords]
  refine ⟨?_, ?_, ?_, ?_⟩
  · intro id status hpromised
    rw [Stays, hstatus]
    exact h.promised id status hpromised
  · rw [hcalls]
    exact h.knows
  · intro call req purpose hpc
    rw [hcalls] at hpc
    rw [Stays, hstatus]
    exact h.unlisted call req purpose hpc
  · rw [hcalls]
    exact h.made

end Told

/-! ## Whole runs -/

theorem Told.step (h : Told c.past c.state) (honce : Once c.past c.state)
    (hchecked : Checked c.past c.state) (hallowed : Allowed c event) (hturn : InTurn c event) :
    Told (advance State.step c event).past (advance State.step c event).state := by
  rw [advance_past, advance_state]
  have hgone : ∀ (call : Nat) (pc : Option (Pc K)) (e : Event K × Effect),
      (∀ pc', pc = some pc' → pc'.tells = none) → (∀ call', Begins e call' → call' = call) →
        ∀ call' pc', (c.state.goOn call pc).calls call' = some pc' → pc'.tells ≠ none →
          c.state.calls call' = some pc' ∧ ¬ Begins e call' := by
    intro call pc e hpc hbegins call' pc' hcalls htells
    change update c.state.calls call pc call' = _ at hcalls
    rw [update_apply] at hcalls
    split at hcalls
    · exact absurd (hpc pc' hcalls) htells
    · rename_i hne
      exact ⟨hcalls, fun hb => hne (hbegins call' hb)⟩
  have hbegin : ∀ call op now (effect : Effect) call', Begins ((.begin call op now : Event K), effect) call' →
      call' = call := by
    rintro call op now effect call' ⟨op', now', heq⟩
    cases heq
    rfl
  cases event with
  | begin call op now =>
    cases op with
    | create id runtimeId input =>
      exact h.create honce (hallowed.2 id rfl) hallowed.1 rfl rfl
    | _ =>
      refine h.quiet rfl (hgone call _ _ ?_ (hbegin call _ now _)) (fun _ _ hs => hs)
      intro pc hpc
      cases hpc
      rfl
  | advance call now =>
    cases hpc : c.state.calls call with
    | none =>
      simp only [State.step, hpc]
      refine h.quiet rfl ?_ (fun _ _ hs => hs)
      intro call' pc hcalls _
      refine ⟨hcalls, ?_⟩
      rintro ⟨op, now', heq⟩
      cases heq
    | some pc =>
      simp only [State.step, hpc]
      apply h.command honce hchecked hpc hturn rfl
      rintro call' ⟨op, now', heq⟩
      cases heq
  | fail call =>
    have hnot : ∀ (effect : Effect) call', ¬ Begins ((.fail call : Event K), effect) call' := by
      rintro effect call' ⟨op, now', heq⟩
      cases heq
    cases hpc : c.state.calls call with
    | none =>
      simp only [State.step, hpc]
      exact h.quiet rfl (fun call' pc hcalls _ => ⟨hcalls, hnot _ call'⟩) fun _ _ hs => hs
    | some pc =>
      simp only [State.step, hpc]
      cases pc with
      | unlisting req purpose =>
        -- the call goes on as if its `ZREM` had been done
        have hturn : InTurn c (.advance call 0) := by simp only [InTurn, hpc]
        exact (h.command honce hchecked hpc hturn rfl (hnot _)).congr rfl rfl
      | dropping runtimeId id purpose =>
        exact h.quiet rfl (hgone call _ _ (fun pc hgo => next_tells hgo) fun call' hb => absurd hb (hnot _ call'))
          fun _ _ hs => hs
      | _ =>
        refine h.quiet rfl (hgone call _ _ ?_ fun call' hb => absurd hb (hnot _ call')) fun _ _ hs => hs
        intro pc hgo
        cases hgo
        try rfl
  | expireRecord id =>
    refine h.quiet rfl ?_ ?_
    · intro call' pc hcalls _
      refine ⟨hcalls, ?_⟩
      rintro ⟨op, now', heq⟩
      cases heq
    · intro k status hs
      change (c.state.del id).status k = some status at hs
      rw [status_del] at hs
      split at hs
      · cases hs
      · exact hs
  | expirePending runtimeId =>
    refine h.quiet rfl ?_ (fun _ _ hs => hs)
    intro call' pc hcalls _
    refine ⟨hcalls, ?_⟩
    rintro ⟨op, now', heq⟩
    cases heq

/-- What a single step shows of the request it is about. -/
theorem Lifecycle.step (h : Lifecycle c.past) (htold : Told c.past c.state)
    (honce : Once c.past c.state) (hchecked : Checked c.past c.state) (hallowed : Allowed c event)
    (hturn : InTurn c event) : Lifecycle (advance State.step c event).past := by
  have hnew : ∀ w, (c.state.step event).1.stored = some w → Moves w.before w.after ∧
      ∀ status, Promised c.past w.id status → w.after = status := by
    intro w hw
    cases event with
    | begin call op now =>
      cases op with
      | create id runtimeId input =>
        cases hw
        have hfresh := hallowed.2 id rfl
        constructor
        · have hnone : c.state.status id = none := by
            unfold State.status
            rw [Option.map_eq_none_iff]
            cases hrecord : c.state.records id with
            | none => rfl
            | some wire => exact absurd (honce.stored id wire hrecord).2 hfresh
          show Moves (c.state.status id) Status.pending
          rw [hnone]
          exact .created
        · intro status hpromised
          exact absurd (htold.promised id status hpromised).1 hfresh
      | _ => cases hw
    | advance call now =>
      cases hpc : c.state.calls call with
      | none =>
        simp only [State.step, hpc] at hw
        cases hw
      | some pc =>
        simp only [State.step, hpc] at hw
        obtain ⟨old, hold, hmoves⟩ := command_moves hpc hturn (hchecked.calls call pc hpc) hw
        refine ⟨?_, fun status hpromised => htold.stored hchecked hpc hturn hw hpromised⟩
        rw [(command_stored hw).2.1, hold]
        exact hmoves
    | fail call =>
      cases hpc : c.state.calls call with
      | none =>
        simp only [State.step, hpc] at hw
        cases hw
      | some pc =>
        simp only [State.step, hpc] at hw
        cases pc <;> cases hw
    | _ => cases hw
  rw [advance_past]
  refine ⟨?_, ?_, ?_, ?_⟩
  · have honce' := honce.step hallowed
    rw [advance_past] at honce'
    exact honce'.handedOnce
  · intro e he w hw
    rw [mem_append, mem_singleton] at he
    rcases he with he | rfl
    · exact h.moves e he w hw
    · exact (hnew w hw).1
  · intro older e later hpast w hw status hpromised
    rcases split_append hpast with ⟨rfl, rfl, -⟩ | ⟨rest, -, hpast⟩
    · exact (hnew w hw).2 status hpromised
    · exact h.stored older e rest hpast w hw status hpromised
  · intro older b later e rest call hpast hb hcaller id status' hanswer status hpromised
    rcases split_append hpast with ⟨hbefore, rfl, -⟩ | ⟨rest', -, hpast⟩
    · cases hpc : c.state.calls call with
      | none =>
        cases event with
        | advance call now =>
          cases hcaller
          simp only [State.step, hpc] at hanswer
          cases hanswer
        | fail call =>
          cases hcaller
          simp only [State.step, hpc] at hanswer
          cases hanswer
        | _ => cases hcaller
      | some pc =>
        cases event with
        | advance call now =>
          cases hcaller
          simp only [State.step, hpc] at hanswer
          exact htold.returned hchecked hpc hturn hanswer hbefore.symm hb hpromised
        | fail call =>
          cases hcaller
          simp only [State.step, hpc] at hanswer
          cases pc with
          | unlisting req purpose =>
            have hturn : InTurn c (.advance call 0) := by simp only [InTurn, hpc]
            exact htold.returned hchecked hpc hturn hanswer hbefore.symm hb hpromised
          | _ => cases hanswer
        | _ => cases hcaller
    · exact h.returned older b later e rest' call hpast hb hcaller id status' hanswer status hpromised

theorem once_start : Once ([] : Past K) (State.start K) where
  stored := fun _ _ hwire => by cases hwire
  held := fun _ _ hcalls => by cases hcalls
  adding := fun _ _ hcalls => by cases hcalls
  listed := fun _ _ hmem => by cases hmem
  handed := fun _ hid => by cases hid
  handedOnce := nodup_nil

theorem told_start : Told ([] : Past K) (State.start K) where
  promised := by
    rintro id status ⟨e, he, -⟩
    cases he
  knows := fun _ _ hcalls => by cases hcalls
  unlisted := fun _ _ _ hcalls => by cases hcalls
  made := by
    rintro call req (hcalls | hcalls) <;> cases hcalls

theorem checked_start : Checked ([] : Past K) (State.start K) where
  calls := fun _ _ hcalls => by cases hcalls
  handed := fun _ hid => by cases hid

theorem lifecycle_start : Lifecycle ([] : Past K) where
  handedOnce := nodup_nil
  moves := fun _ he => by cases he
  stored := fun _ _ _ hpast => absurd hpast.symm (by simp)
  returned := fun _ _ _ _ _ _ hpast => absurd hpast.symm (by simp)

/-- No request is handed out twice, and in a run in which no write comes between the load and
the write of another call every request lives as it should. -/
theorem lifecycle {c : Cfg K}
    (h : Reach State.step Allowed (start (State.start K)) c) :
    (handedIds c.past).Nodup ∧
      (Reach State.step (fun c event => Allowed c event ∧ InTurn c event)
        (start (State.start K)) c → Lifecycle c.past) := by
  constructor
  · have honce : Once c.past c.state :=
      Reach.invariant (I := fun c => Once c.past c.state)
        (fun d event hallowed honce => honce.step hallowed) h once_start
    exact honce.handedOnce
  · intro hturn
    have hall : Lifecycle c.past ∧ Told c.past c.state ∧ Checked c.past c.state ∧ Once c.past c.state := by
      refine Reach.invariant (I := fun c => Lifecycle c.past ∧ Told c.past c.state ∧ Checked c.past c.state ∧
        Once c.past c.state) ?_ hturn ⟨lifecycle_start, told_start, checked_start, once_start⟩
      rintro d event ⟨hallowed, hturn⟩ ⟨hlife, htold, hchecked, honce⟩
      exact ⟨hlife.step htold honce hchecked hallowed hturn, htold.step honce hchecked hallowed hturn,
        hchecked.step honce hallowed hturn, honce.step hallowed⟩
    exact hall.1

/-! ## A late poll -/

def Event.begun : Event K → Option Nat
  | .begin call _ _ => some call
  | _ => none

def Event.made : Event K → Option String
  | .begin _ op _ => op.makes
  | _ => none

instance (e : Event K × Effect) (call : Nat) : Decidable (Begins e call) :=
  decidable_of_iff (e.1.begun = some call) <| by
    obtain ⟨event, effect⟩ := e
    unfold Begins
    cases event <;> simp [Event.begun]

instance (past : Past K) (id : String) : Decidable (Created past id) :=
  decidable_of_iff (∃ e ∈ past, e.1.made = some id) <| by
    unfold Created
    refine exists_congr fun e => and_congr_right fun _ => ?_
    obtain ⟨event, effect⟩ := e
    cases event with
    | begin call op now => cases op <;> simp [Event.made, Op.makes]
    | _ => simp [Event.made]

instance (c : Cfg K) (event : Event K) : Decidable (Allowed c event) :=
  match event with
  | .begin call op _ => inferInstanceAs (Decidable ((∀ e ∈ c.past, ¬ Begins e call) ∧
      ∀ id ∈ op.makes, ¬ Created c.past id))
  | .advance _ _ => .isTrue trivial
  | .fail _ => .isTrue trivial
  | .expireRecord _ => .isTrue trivial
  | .expirePending _ => .isTrue trivial

instance (c : Cfg K) (event : Event K) : Decidable (InTurn c event) :=
  match event with
  | .advance call _ => by
      simp only [InTurn]
      split <;> infer_instance
  | .begin _ op _ => by
      cases op <;> simp only [InTurn] <;> infer_instance
  | .fail _ => .isTrue trivial
  | .expireRecord _ => .isTrue trivial
  | .expirePending _ => .isTrue trivial

/-- A request is created and handed out, and its report is on its way. -/
def reporting : List (Event (importKind Unit)) :=
  [.begin 0 (.create "request" "runtime" (⟨"skill", none, none, "", "", false⟩, "user")) 0,
   .advance 0 0, .advance 0 0,
   .begin 1 (.popPending "runtime") 1000000000,
   .advance 1 1000000000, .advance 1 1000000000, .advance 1 1000000000,
   .begin 2 (.handle "request" "runtime" (.complete ())) 60900000000,
   .advance 2 60900000000, .advance 2 60900000000]

theorem lifecycle_reporting : Lifecycle (exec State.step (start (State.start (importKind Unit)))
    (reporting ++ [Event.advance 2 61000000000])).past := by
  have hturn : Reach State.step (fun c event => Allowed c event ∧ InTurn c event)
      (start (State.start (importKind Unit)))
      (exec State.step (start (State.start (importKind Unit)))
        (reporting ++ [Event.advance 2 61000000000])) := reach_exec (by decide +kernel)
  exact (lifecycle (hturn.mono fun _ _ h => h.1)).2 hturn

/-- Meanwhile a poll finds the request overdue. -/
def latePoll : List (Event (importKind Unit)) :=
  reporting ++ [Event.begin 3 (.get "request") 61100000000,
    .advance 3 61100000000, .advance 2 61100000000, .advance 3 61200000000]

/-- The poll writes its timeout over the result that was acknowledged. -/
theorem latePoll_overwrites : ¬ ∀ c : Cfg (importKind Unit),
    Reach State.step Allowed (start (State.start _)) c → Lifecycle c.past := by
  intro hclaim
  have hallowed : AllAllowed State.step Allowed
      (start (State.start (importKind Unit))) latePoll := by decide +kernel
  have hmoves := (hclaim _ (reach_exec hallowed)).moves
  have hwrite := hmoves _ (mem_of_getElem? (i := 13) rfl) ⟨"request", some .completed, .timeout⟩ rfl
  cases hwrite

end ClawMessenger.Ports.LocalSkill.Commands
