import ClawMessenger.Ports.LocalSkillCommands

/-!
# The life of a local-skill request

However the commands of the calls interleave, a request is handed to one popper
at most: its id enters one sorted set once, and a claim takes it out.

The other commands write what their call made of a record it read before, and
nothing keeps the record from changing in between.  `InTurn` asks of each write
that no other has come after its call has read the record.  Then the stored status only
moves forward, and a terminal status that a call has returned or acknowledged stays
(`lifecycle`); a poll that writes its timeout over a finished result shows what
happens otherwise (`latePoll`).
-/

namespace ClawMessenger.Ports.LocalSkill.Commands

open ClawMessenger.Verified Machine List
open Function (update update_apply)

variable {K : Kind}

abbrev Cfg (K : Kind) := Config (State K) (Event K) Effect

abbrev Past (K : Kind) := List (Event K × Effect)

/-! ## Runs -/

/-- The entry is the beginning of this call. -/
def Begins (e : Event K × Effect) (call : Nat) : Prop := ∃ op now, e.1 = .begin call op now

/-- The id was made by an operation that has begun. -/
def Created (past : Past K) (id : String) : Prop :=
  ∃ e ∈ past, ∃ call runtimeId input now, e.1 = .begin call (.create id runtimeId input) now

/-- Each call begins once, and `randomID` makes an id once. -/
def Allowed (c : Cfg K) : Event K → Prop
  | .begin call op _ => (∀ e ∈ c.past, ¬ Begins e call) ∧ ∀ id ∈ op.makes, ¬ Created c.past id
  | _ => True

def handedIds (past : Past K) : List String := past.filterMap fun e => e.2.handed

/-- Between the load of a call and its write no other call has written the record: it has
the status that was loaded, or already the one that is written.  A report handler is called
for a request that was handed out, and has read it before it calls `Complete`, `Conflict` or
`Fail`; whoever calls these himself finds the request running. -/
def InTurn (c : Cfg K) : Event K → Prop
  | .begin _ (.handle id _ _) _ => id ∈ handedIds c.past
  | .advance call _ =>
    match c.state.calls call with
    | some (.timingOut loaded req _) => c.state.status req.id ∈ [some loaded, some req.status]
    | some (.claiming runtimeId req _) =>
      req.id ∈ (c.state.pending runtimeId).members → c.state.status req.id = some req.status
    | some (.settling req report seen) =>
      c.state.status req.id ∈ [some (seen.getD .running), some (K.settlement report).status]
    | _ => True
  | _ => True

/-! ## What is claimed of a run -/

/-- The call whose step it is. -/
def Event.caller : Event K → Option Nat
  | .advance call _ | .fail call => some call
  | _ => none

/-- A call has returned or acknowledged this terminal status. -/
def Promised (past : Past K) (id : String) (status : Status) : Prop :=
  ∃ e ∈ past, e.2.answered = some (id, status) ∧ status.terminal = true

/-- How a stored status may move. -/
inductive Moves : Option Status → Status → Prop
  | created : Moves none .pending
  | claimed : Moves (some .pending) .running
  | pendingTimeout : Moves (some .pending) .timeout
  | runningTimeout : Moves (some .running) .timeout
  | settled {status : Status} : status.terminal = true → Moves (some .running) status
  | same (status : Status) : Moves (some status) status

structure Lifecycle (past : Past K) : Prop where
  handedOnce : (handedIds past).Nodup
  moves : ∀ e ∈ past, ∀ w, e.2.stored = some w → Moves w.before w.after
  /-- no later write stores another status -/
  stored : ∀ older e later, past = older ++ e :: later → ∀ w, e.2.stored = some w →
    ∀ status, Promised older w.id status → w.after = status
  /-- no call that begins later returns another status -/
  returned : ∀ older b later e rest call, past = older ++ b :: later ++ e :: rest →
    Begins b call → e.1.caller = some call → ∀ id status', e.2.answered = some (id, status') →
      ∀ status, Promised older id status → status' = status

/-! ## Handing out -/

section Past

variable {past : Past K} {e : Event K × Effect} {id : String} {status : Status}

theorem Created.append (h : Created past id) (e : Event K × Effect) : Created (past ++ [e]) id := by
  obtain ⟨e', he', hcreate⟩ := h
  exact ⟨e', mem_append_left _ he', hcreate⟩

theorem promised_append : Promised (past ++ [e]) id status ↔
    Promised past id status ∨ (e.2.answered = some (id, status) ∧ status.terminal = true) := by
  unfold Promised
  simp only [mem_append, mem_singleton]
  constructor
  · rintro ⟨e', he' | rfl, hanswer⟩
    · exact .inl ⟨e', he', hanswer⟩
    · exact .inr hanswer
  · rintro (⟨e', he', hanswer⟩ | hanswer)
    · exact ⟨e', .inl he', hanswer⟩
    · exact ⟨e, .inr rfl, hanswer⟩

variable {older later : Past K}

/-- A promise of an older part of the history is one of all of it. -/
theorem Promised.of_older (h : Promised older id status) (hpast : past = older ++ later) :
    Promised past id status := by
  obtain ⟨e', he', hanswer⟩ := h
  exact ⟨e', hpast ▸ mem_append_left _ he', hanswer⟩

@[simp] theorem handedIds_append : handedIds (past ++ [e]) = handedIds past ++ e.2.handed.toList := by
  unfold handedIds
  rw [filterMap_append, filterMap_cons, filterMap_nil]
  cases e.2.handed with
  | none | some id => rfl

/-- The history is split before its last entry, or at it. -/
theorem split_append {e' : Event K × Effect} (h : past ++ [e] = older ++ e' :: later) :
    (older = past ∧ e' = e ∧ later = []) ∨ ∃ rest, later = rest ++ [e] ∧ past = older ++ e' :: rest := by
  rcases eq_nil_or_concat later with rfl | ⟨rest, last, rfl⟩
  · left
    obtain ⟨hpast, he⟩ := append_inj' h rfl
    exact ⟨hpast.symm, (cons.inj he).1.symm, rfl⟩
  · right
    have hshape : older ++ e' :: rest.concat last = (older ++ e' :: rest) ++ [last] := by simp
    rw [hshape] at h
    obtain ⟨hpast, he⟩ := append_inj' h rfl
    exact ⟨rest, by rw [(cons.inj he).1, concat_eq_append], hpast⟩

end Past

/-- The request a call holds. -/
def Pc.holds : Pc K → Option (Request K.Body)
  | .adding req | .renewing req | .deleting req | .removing req | .timingOut _ req _
  | .unlisting req _ | .claiming _ req _ | .settling req _ _ => some req
  | _ => none

section Command

variable {s : State K} {now : Nat} {pc pc' : Pc K} {req : Request K.Body} {id runtimeId : String}

variable {purpose : Purpose K}

theorem next_holds (h : purpose.next = some pc) : pc.holds = none := by
  unfold Purpose.next at h
  split at h
  · cases h
    rfl
  · cases h
    rfl
  · cases h

theorem claimed_holds (h : purpose.claimed = some pc) : pc.holds = none := by
  unfold Purpose.claimed at h
  split at h
  · cases h
  · exact next_holds h

variable {loaded : Option (Request K.Body)}

theorem loaded_holds (h : (purpose.loaded id loaded).2 = some pc) (hreq : pc.holds = some req) :
    loaded = some req := by
  unfold Purpose.loaded at h
  split at h
  all_goals try cases h
  all_goals try cases hreq
  all_goals try rfl
  · split at h
    · cases h
      exact hreq
    · cases h
      cases hreq
  · split at h
    · cases h
      exact hreq
    · cases h
      cases hreq
  · split at h
    · cases h
    · split at h
      · cases h
      · cases h
        cases hreq

/-- A call holds what it held before or has just read. -/
theorem command_holds (h : (s.command now pc).2.2 = some pc') (hreq : pc'.holds = some req) :
    (∃ old, pc.holds = some old ∧ old.id = req.id) ∨
      ∃ k wire, s.records k = some wire ∧ (K.unmarshal wire).id = req.id := by
  cases pc with
  | adding old =>
    cases h
    cases hreq
    exact .inl ⟨_, rfl, rfl⟩
  | renewing old => cases h
  | deleting old =>
    cases h
    cases hreq
    exact .inl ⟨_, rfl, rfl⟩
  | removing old | probing runtimeId => cases h
  | ranging runtimeId turns =>
    obtain ⟨k, -, rfl⟩ := Option.map_eq_some_iff.mp h
    cases hreq
  | rangingBatch runtimeId limit =>
    rw [next_holds h] at hreq
    cases hreq
  | loading k purpose =>
    simp only [State.command] at h
    split at h
    · cases loaded_holds h hreq
    · rename_i wire hwire
      right
      refine ⟨k, wire, hwire, ?_⟩
      split at h
      · rename_i timed htimed
        cases h
        cases hreq
        unfold applyTimeout at htimed
        split at htimed
        · cases htimed
          rfl
        · cases htimed
      · cases loaded_holds h hreq
        rfl
  | timingOut loaded old purpose =>
    cases h
    cases hreq
    exact .inl ⟨_, rfl, rfl⟩
  | unlisting old purpose =>
    have hloaded := loaded_holds h hreq
    cases hloaded
    exact .inl ⟨_, rfl, rfl⟩
  | dropping runtimeId k purpose =>
    rw [next_holds h] at hreq
    cases hreq
  | claiming runtimeId old purpose =>
    simp only [State.command] at h
    split at h
    · rw [claimed_holds h] at hreq
      cases hreq
    · rw [next_holds h] at hreq
      cases hreq
  | settling old report seen => cases h

theorem next_not_adding : purpose.next ≠ some (.adding req) := by
  intro h
  cases next_holds h

theorem loaded_not_adding :
    (purpose.loaded id loaded).2 ≠ some (.adding req) := by
  intro h
  unfold Purpose.loaded at h
  split at h
  all_goals try cases h
  all_goals split at h
  all_goals try cases h
  all_goals split at h <;> cases h

/-- A call that goes on is not about to add its id. -/
theorem command_not_adding : (s.command now pc).2.2 ≠ some (.adding req) := by
  intro h
  cases pc with
  | ranging runtimeId turns =>
    obtain ⟨k, -, hk⟩ := Option.map_eq_some_iff.mp h
    cases hk
  | rangingBatch runtimeId limit => exact next_not_adding h
  | loading k purpose =>
    simp only [State.command] at h
    split at h
    · exact loaded_not_adding h
    · split at h
      · cases h
      · exact loaded_not_adding h
  | unlisting old purpose => exact loaded_not_adding h
  | dropping runtimeId k purpose => exact next_not_adding h
  | claiming runtimeId old purpose =>
    simp only [State.command] at h
    split at h
    · cases claimed_holds h
    · exact next_not_adding h
  | _ => cases h

theorem failed_handed (pc : Pc K) : pc.failed.1.handed = none := by
  cases pc <;> rfl

theorem failed_holds (h : pc.failed.2 = some pc') (hreq : pc'.holds = some req) : pc.holds = some req := by
  cases pc with
  | unlisting old purpose => exact loaded_holds h hreq
  | dropping runtimeId k purpose =>
    rw [next_holds h] at hreq
    cases hreq
  | adding old | renewing old | deleting old =>
    cases h
    exact hreq
  | _ => cases h

theorem failed_not_adding : pc.failed.2 ≠ some (.adding req) := by
  intro h
  cases pc with
  | unlisting old purpose => exact loaded_not_adding h
  | dropping runtimeId k purpose => exact next_not_adding h
  | _ => cases h

/-- Only an addition brings an id into a sorted set. -/
theorem command_pending (h : id ∈ ((s.command now pc).2.1.pending runtimeId).members) :
    id ∈ (s.pending runtimeId).members ∨
      ∃ req, pc = .adding req ∧ req.id = id ∧ req.runtimeId = runtimeId := by
  have hremove : ∀ rt k, id ∈ ((s.zrem rt k).pending runtimeId).members →
      id ∈ (s.pending runtimeId).members := by
    intro rt k hmem
    change id ∈ (update s.pending rt _ runtimeId).members at hmem
    rw [update_apply] at hmem
    split at hmem
    · rename_i hrt
      rw [hrt]
      exact (SortedSet.mem_remove.mp hmem).1
    · exact hmem
  cases pc with
  | adding req =>
    change id ∈ (update s.pending req.runtimeId _ runtimeId).members at h
    rw [update_apply] at h
    split at h
    · rename_i hrt
      rcases SortedSet.mem_add.mp h with heq | hmem
      · exact .inr ⟨req, rfl, heq.symm, hrt.symm⟩
      · rw [hrt]
        exact .inl hmem
    · exact .inl h
  | removing req => exact .inl (hremove _ _ h)
  | loading k purpose =>
    left
    simp only [State.command] at h
    split at h
    · exact h
    · split at h
      · exact h
      · exact h
  | unlisting req purpose | dropping rt k purpose => exact .inl (hremove _ _ h)
  | claiming rt req purpose =>
    left
    simp only [State.command] at h
    split at h
    · exact hremove _ _ h
    · exact h
  | _ => exact .inl h

/-- What is handed out leaves the sorted set it was in. -/
theorem command_handed (h : (s.command now pc).1.handed = some id) :
    ∃ rt, id ∈ (s.pending rt).members ∧ id ∉ ((s.command now pc).2.1.pending rt).members := by
  cases pc with
  | claiming rt req purpose =>
    simp only [State.command] at h ⊢
    split at h
    · rename_i hmem
      cases h
      refine ⟨rt, hmem, ?_⟩
      rw [if_pos hmem]
      show req.id ∉ (update s.pending rt _ rt).members
      rw [Function.update_self, SortedSet.mem_remove]
      exact fun h => h.2 rfl
    · cases h
  | loading k purpose =>
    simp only [State.command] at h
    split at h
    · cases h
    · split at h <;> cases h
  | _ => cases h

/-- What a command finds stored under an id afterwards. -/
theorem command_records {wire : K.Wire} (h : (s.command now pc).2.1.records id = some wire) :
    s.records id = some wire ∨
      ∃ req old, wire = K.marshal req ∧ req.id = id ∧ pc.holds = some old ∧ old.id = id := by
  have hput : ∀ (s' : State K) (req old : Request K.Body), s'.records = s.records → old.id = req.id →
      pc.holds = some old → (s'.put req).records id = some wire → s.records id = some wire ∨
        ∃ req old, wire = K.marshal req ∧ req.id = id ∧ pc.holds = some old ∧ old.id = id := by
    intro s' req old hs' hid hholds hwire
    change update s'.records req.id _ id = some wire at hwire
    rw [update_apply, hs'] at hwire
    split at hwire
    · rename_i heq
      cases hwire
      exact .inr ⟨req, old, rfl, heq.symm, hholds, hid.trans heq.symm⟩
    · exact .inl hwire
  cases pc with
  | deleting req =>
    left
    change update s.records req.id _ id = some wire at h
    rw [update_apply] at h
    split at h
    · cases h
    · exact h
  | loading k purpose =>
    left
    simp only [State.command] at h
    split at h
    · exact h
    · split at h
      · exact h
      · exact h
  | timingOut loaded req purpose => exact hput s req req rfl rfl rfl h
  | claiming rt req purpose =>
    simp only [State.command] at h
    split at h
    · exact hput (s.zrem rt req.id) (req.started now) req rfl rfl rfl h
    · exact .inl h
  | settling req report seen => exact hput s (req.settled (K.settlement report) now) req rfl rfl rfl h
  | _ => exact .inl h

end Command

/-- Each id is with one creation, in one sorted set, or handed out. -/
structure Once (past : Past K) (s : State K) : Prop where
  stored : ∀ id wire, s.records id = some wire → (K.unmarshal wire).id = id ∧ Created past id
  held : ∀ call pc, s.calls call = some pc → ∀ req, pc.holds = some req → Created past req.id
  adding : ∀ call req, s.calls call = some (.adding req) →
    (∀ runtimeId, req.id ∉ (s.pending runtimeId).members) ∧ req.id ∉ handedIds past ∧
      ∀ call' req', s.calls call' = some (.adding req') → req'.id = req.id → call' = call
  listed : ∀ runtimeId id, id ∈ (s.pending runtimeId).members → Created past id ∧
    id ∉ handedIds past ∧ ∀ runtimeId', id ∈ (s.pending runtimeId').members → runtimeId' = runtimeId
  handed : ∀ id ∈ handedIds past, Created past id
  handedOnce : (handedIds past).Nodup

namespace Once

variable {past : Past K} {s : State K} {call now : Nat} {e : Event K × Effect}

section

variable (h : Once past s)
include h

/-- A call stops, or goes on with nothing to hold. -/
theorem goOn {pc : Option (Pc K)}
    (hpc : ∀ pc', pc = some pc' → ∀ req, pc'.holds = some req → Created past req.id)
    (hadding : ∀ req, pc ≠ some (.adding req)) : Once past (s.goOn call pc) where
  stored := h.stored
  held := by
    intro call' pc' hcalls req hreq
    change update s.calls call pc call' = some pc' at hcalls
    rw [update_apply] at hcalls
    split at hcalls
    · exact hpc pc' hcalls req hreq
    · exact h.held call' pc' hcalls req hreq
  adding := by
    have hold : ∀ call' req', (s.goOn call pc).calls call' = some (.adding req') →
        s.calls call' = some (.adding req') := by
      intro call' req' hcalls
      change update s.calls call pc call' = _ at hcalls
      rw [update_apply] at hcalls
      split at hcalls
      · exact absurd hcalls (hadding req')
      · exact hcalls
    intro call' req' hcalls
    obtain ⟨hlisted, hhanded, hother⟩ := h.adding call' req' (hold _ _ hcalls)
    exact ⟨hlisted, hhanded, fun call'' req'' hcalls' heq => hother call'' req'' (hold _ _ hcalls') heq⟩
  listed := h.listed
  handed := h.handed
  handedOnce := h.handedOnce

/-- A step that hands out nothing. -/
theorem quiet (he : e.2.handed = none) : Once (past ++ [e]) s := by
  have hhanded : handedIds (past ++ [e]) = handedIds past := by
    rw [handedIds_append, he]
    exact append_nil _
  refine ⟨?_, ?_, ?_, ?_, ?_, ?_⟩
  · intro id wire hwire
    obtain ⟨hid, hcreated⟩ := h.stored id wire hwire
    exact ⟨hid, hcreated.append e⟩
  · exact fun call' pc hcalls req hreq => (h.held call' pc hcalls req hreq).append e
  · rw [hhanded]
    exact h.adding
  · intro runtimeId id hmem
    obtain ⟨hcreated, hlisted⟩ := h.listed runtimeId id hmem
    rw [hhanded]
    exact ⟨hcreated.append e, hlisted⟩
  · rw [hhanded]
    exact fun id hid => (h.handed id hid).append e
  · rw [hhanded]
    exact h.handedOnce

/-- Records go, and ids leave their sorted sets. -/
theorem less {s' : State K} (hcalls : s'.calls = s.calls)
    (hrecords : ∀ id wire, s'.records id = some wire → s.records id = some wire)
    (hpending : ∀ runtimeId id, id ∈ (s'.pending runtimeId).members → id ∈ (s.pending runtimeId).members) :
    Once past s' where
  stored := fun id wire hwire => h.stored id wire (hrecords id wire hwire)
  held := by
    rw [hcalls]
    exact h.held
  adding := by
    rw [hcalls]
    intro call' req hadding
    obtain ⟨hlisted, hrest⟩ := h.adding call' req hadding
    exact ⟨fun runtimeId hmem => hlisted runtimeId (hpending runtimeId _ hmem), hrest⟩
  listed := by
    intro runtimeId id hmem
    obtain ⟨hcreated, hhanded, hother⟩ := h.listed runtimeId id (hpending runtimeId id hmem)
    exact ⟨hcreated, hhanded, fun rt hrt => hother rt (hpending rt id hrt)⟩
  handed := h.handed
  handedOnce := h.handedOnce

theorem create {id runtimeId : String} {input : K.Input} (hfresh : ¬ Created past id)
    (he : e.1 = .begin call (.create id runtimeId input) now) (hquiet : e.2.handed = none) :
    Once (past ++ [e])
      ((s.put (Request.new id runtimeId (K.initial input) now)).goOn call
        (some (.adding (Request.new id runtimeId (K.initial input) now)))) := by
  have hcreated : Created (past ++ [e]) id :=
    ⟨e, mem_append_right _ (mem_singleton_self e), call, runtimeId, input, now, he⟩
  have h' := h.quiet hquiet
  refine ⟨?_, ?_, ?_, h'.listed, h'.handed, h'.handedOnce⟩
  · intro k wire hwire
    change update s.records id _ k = some wire at hwire
    rw [update_apply] at hwire
    split at hwire
    · rename_i hk
      cases hwire
      rw [K.reread, hk]
      exact ⟨rfl, hcreated⟩
    · exact h'.stored k wire hwire
  · intro call' pc hcalls req hreq
    change update s.calls call _ call' = some pc at hcalls
    rw [update_apply] at hcalls
    split at hcalls
    · cases hcalls
      cases hreq
      exact hcreated
    · exact h'.held call' pc hcalls req hreq
  · have hold : ∀ call' req', update s.calls call
        (some (.adding (Request.new id runtimeId (K.initial input) now))) call' =
          some (.adding req') →
        (call' = call ∧ req'.id = id) ∨ (call' ≠ call ∧ s.calls call' = some (.adding req')) := by
      intro call' req' hcalls
      rw [update_apply] at hcalls
      split at hcalls
      · rename_i heq
        cases hcalls
        exact .inl ⟨heq, rfl⟩
      · rename_i hne
        exact .inr ⟨hne, hcalls⟩
    have hheld : ∀ call' req', s.calls call' = some (.adding req') → req'.id ≠ id := by
      rintro call' req' hcalls rfl
      exact hfresh (h.held call' _ hcalls req' rfl)
    intro call' req' hcalls
    rcases hold call' req' hcalls with ⟨rfl, hid⟩ | ⟨hne, hcalls⟩
    · rw [hid]
      refine ⟨?_, ?_, ?_⟩
      · intro rt hmem
        exact hfresh (h.listed rt id hmem).1
      · rw [handedIds_append, hquiet]
        intro hmem
        exact hfresh (h.handed id (by simpa using hmem))
      · intro call'' req'' hcalls'' heq
        rcases hold call'' req'' hcalls'' with ⟨rfl, -⟩ | ⟨-, hcalls''⟩
        · rfl
        · exact absurd heq (hheld call'' req'' hcalls'')
    · obtain ⟨hlisted, hhanded, hother⟩ := h'.adding call' req' hcalls
      refine ⟨hlisted, hhanded, ?_⟩
      intro call'' req'' hcalls'' heq
      rcases hold call'' req'' hcalls'' with ⟨-, hid⟩ | ⟨-, hcalls''⟩
      · exact absurd (heq.symm.trans hid) (hheld call' req' hcalls)
      · exact hother call'' req'' hcalls'' heq

theorem command {pc : Pc K} (hpc : s.calls call = some pc) (he : e.2 = (s.command now pc).1) :
    Once (past ++ [e]) ((s.command now pc).2.1.goOn call (s.command now pc).2.2) := by
  have hcalls : (s.command now pc).2.1.calls = s.calls := by
    cases pc with
    | loading k purpose =>
      simp only [State.command]
      split
      · rfl
      · split <;> rfl
    | claiming rt req purpose =>
      simp only [State.command]
      split <;> rfl
    | _ => rfl
  have hholds : ∀ old, pc.holds = some old → Created past old.id := h.held call pc hpc
  -- an addition is under way for no other call, so what is listed is listed once
  have hlisted : ∀ rt id, id ∈ ((s.command now pc).2.1.pending rt).members →
      Created past id ∧ id ∉ handedIds past ∧
        (∀ rt', id ∈ ((s.command now pc).2.1.pending rt').members → rt' = rt) ∧
          ∀ call' req', call' ≠ call → s.calls call' = some (.adding req') → req'.id ≠ id := by
    intro rt id hmem
    rcases command_pending hmem with hlist | ⟨req, rfl, rfl, rfl⟩
    · obtain ⟨hcreated, hhanded, hother⟩ := h.listed rt id hlist
      refine ⟨hcreated, hhanded, ?_, ?_⟩
      · intro rt' hmem'
        rcases command_pending hmem' with hlist' | ⟨req, rfl, rfl, rfl⟩
        · exact hother rt' hlist'
        · exact absurd hlist ((h.adding call req hpc).1 rt)
      · rintro call' req' - hadding rfl
        exact (h.adding call' req' hadding).1 rt hlist
    · obtain ⟨hnowhere, hhanded, hother⟩ := h.adding call req hpc
      refine ⟨hholds req rfl, hhanded, ?_, ?_⟩
      · intro rt' hmem'
        rcases command_pending hmem' with hmem' | ⟨req', heq, -, rfl⟩
        · exact absurd hmem' (hnowhere rt')
        · cases heq
          rfl
      · intro call' req' hne hadding heq
        exact hne (hother call' req' hadding heq)
  have hold : ∀ call' req', ((s.command now pc).2.1.goOn call (s.command now pc).2.2).calls call' =
      some (.adding req') → call' ≠ call ∧ s.calls call' = some (.adding req') := by
    intro call' req' hadding
    change update (s.command now pc).2.1.calls call _ call' = _ at hadding
    rw [update_apply] at hadding
    split at hadding
    · exact absurd hadding command_not_adding
    · rename_i hne
      rw [hcalls] at hadding
      exact ⟨hne, hadding⟩
  -- what this step hands out was listed, and is no more
  have hnew : ∀ id, e.2.handed = some id → Created past id ∧ id ∉ handedIds past ∧
      (∀ rt, id ∉ ((s.command now pc).2.1.pending rt).members) ∧
        ∀ call' req', s.calls call' = some (.adding req') → req'.id ≠ id := by
    intro id hid
    rw [he] at hid
    obtain ⟨rt, hmem, hgone⟩ := command_handed hid
    obtain ⟨hcreated, hhanded, hother⟩ := h.listed rt id hmem
    refine ⟨hcreated, hhanded, ?_, ?_⟩
    · intro rt' hmem'
      rcases command_pending hmem' with hmem'' | ⟨req, rfl, rfl, rfl⟩
      · rw [hother rt' hmem''] at hmem'
        exact hgone hmem'
      · exact (h.adding call req hpc).1 rt hmem
    · rintro call' req' hadding rfl
      exact (h.adding call' req' hadding).1 rt hmem
  have hids : ∀ id, id ∈ handedIds (past ++ [e]) ↔ id ∈ handedIds past ∨ e.2.handed = some id := by
    intro id
    rw [handedIds_append, mem_append, Option.mem_toList]
  refine ⟨?_, ?_, ?_, ?_, ?_, ?_⟩
  · intro id wire hwire
    rcases command_records hwire with hwire | ⟨req, old, rfl, hid, hold, heq⟩
    · obtain ⟨hid, hcreated⟩ := h.stored id wire hwire
      exact ⟨hid, hcreated.append e⟩
    · rw [K.reread]
      refine ⟨hid, ?_⟩
      rw [← heq]
      exact (hholds old hold).append e
  · intro call' pc' hgo req hreq
    change update (s.command now pc).2.1.calls call _ call' = _ at hgo
    rw [update_apply] at hgo
    split at hgo
    · rcases command_holds hgo hreq with ⟨old, hold, hid⟩ | ⟨k, wire, hwire, hid⟩
      · rw [← hid]
        exact (hholds old hold).append e
      · obtain ⟨hk, hcreated⟩ := h.stored k wire hwire
        rw [← hid, hk]
        exact hcreated.append e
    · rw [hcalls] at hgo
      exact (h.held call' pc' hgo req hreq).append e
  · intro call' req' hadding
    obtain ⟨hne, hadding⟩ := hold call' req' hadding
    obtain ⟨-, hhanded, hother⟩ := h.adding call' req' hadding
    refine ⟨?_, ?_, ?_⟩
    · intro rt hmem
      exact (hlisted rt req'.id hmem).2.2.2 call' req' hne hadding rfl
    · intro hmem
      rcases (hids req'.id).mp hmem with hmem | hnow
      · exact hhanded hmem
      · exact (hnew req'.id hnow).2.2.2 call' req' hadding rfl
    · intro call'' req'' hadding' heq
      exact hother call'' req'' (hold call'' req'' hadding').2 heq
  · intro rt id hmem
    obtain ⟨hcreated, hhanded, hother, -⟩ := hlisted rt id hmem
    refine ⟨hcreated.append e, ?_, hother⟩
    intro hmem'
    rcases (hids id).mp hmem' with hmem' | hnow
    · exact hhanded hmem'
    · exact (hnew id hnow).2.2.1 rt hmem
  · intro id hmem
    rcases (hids id).mp hmem with hmem | hnow
    · exact (h.handed id hmem).append e
    · exact (hnew id hnow).1.append e
  · rw [handedIds_append]
    cases hnow : e.2.handed with
    | none => simpa using h.handedOnce
    | some id =>
      rw [Option.toList_some, nodup_append]
      refine ⟨h.handedOnce, nodup_singleton id, ?_⟩
      rintro k hk k' hk' rfl
      rw [mem_singleton] at hk'
      subst hk'
      exact (hnew k hnow).2.1 hk

end

end Once

theorem Once.step {c : Cfg K} {event : Event K} (h : Once c.past c.state)
    (hallowed : Allowed c event) :
    Once (advance State.step c event).past (advance State.step c event).state := by
  rw [advance_past, advance_state]
  cases event with
  | begin call op now =>
    cases op with
    | create id runtimeId input => exact h.create (hallowed.2 id rfl) rfl rfl
    | _ =>
      refine (h.goOn ?_ ?_).quiet rfl
      · intro pc hpc req hreq
        cases hpc
        cases hreq
      · intro req hpc
        cases hpc
  | advance call now =>
    cases hpc : c.state.calls call with
    | none =>
      simp only [State.step, hpc]
      exact h.quiet rfl
    | some pc =>
      simp only [State.step, hpc]
      exact h.command hpc rfl
  | fail call =>
    cases hpc : c.state.calls call with
    | none =>
      simp only [State.step, hpc]
      exact h.quiet rfl
    | some pc =>
      simp only [State.step, hpc]
      refine (h.goOn ?_ ?_).quiet (failed_handed pc)
      · intro pc' hgo req hreq
        exact h.held call pc hpc req (failed_holds hgo hreq)
      · intro req hgo
        exact failed_not_adding hgo
  | expireRecord id =>
    apply Once.quiet _ rfl
    refine h.less rfl ?_ (fun _ _ hmem => hmem)
    intro k wire hwire
    change update c.state.records id none k = some wire at hwire
    rw [update_apply] at hwire
    split at hwire
    · cases hwire
    · exact hwire
  | expirePending runtimeId =>
    apply Once.quiet _ rfl
    refine h.less rfl (fun _ _ hwire => hwire) ?_
    intro rt id hmem
    change id ∈ (update c.state.pending runtimeId ∅ rt).members at hmem
    rw [update_apply] at hmem
    split at hmem
    · cases hmem
    · exact hmem

end ClawMessenger.Ports.LocalSkill.Commands
