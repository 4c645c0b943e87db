import ClawMessenger.Ports.SessionStoreEffect

/-!
# Interactive heads over runs

The head of a session key is the newest command reserved for it.  Requests are
dropped once they are over, the head is not, so it is the head alone that turns
an old or a repeated command away.  No call moves a head backwards
(`heads_le_call`), and what a run has reached it never loses
(`interactive_heads_monotone`).
-/

namespace ClawMessenger.Ports.SessionStore

open Verified Verified.Machine Verified.JsString

open Conversation Dedup

/-! ## The order of heads -/

/-- The head is not ahead of the other one. -/
structure InteractiveHead.Le (head head' : InteractiveHead) : Prop where
  stateVersion : head.stateVersion ≤ head'.stateVersion
  round : head.round < head'.round ∨
    head.round = head'.round ∧ head.roundRevision ≤ head'.roundRevision

theorem InteractiveHead.Le.refl (head : InteractiveHead) : head.Le head :=
  ⟨Nat.le_refl _, .inr ⟨rfl, Nat.le_refl _⟩⟩

theorem InteractiveHead.Le.trans {a b c : InteractiveHead} (hab : a.Le b) (hbc : b.Le c) :
    a.Le c := by
  obtain ⟨hversion, hround⟩ := hab
  obtain ⟨hversion', hround'⟩ := hbc
  constructor
  · omega
  · omega

/-- Every head of the first state has one in the second that is not behind it. -/
def HeadsLe (state state' : RouterState) : Prop :=
  ∀ key head, state.interactiveHeads.get? key = some head →
    ∃ head', state'.interactiveHeads.get? key = some head' ∧ head.Le head'

theorem HeadsLe.refl (state : RouterState) : HeadsLe state state :=
  fun _ head h => ⟨head, h, InteractiveHead.Le.refl head⟩

theorem HeadsLe.trans {a b c : RouterState} (hab : HeadsLe a b) (hbc : HeadsLe b c) :
    HeadsLe a c := by
  intro key head h
  obtain ⟨head', h', hle⟩ := hab key head h
  obtain ⟨head'', h'', hle'⟩ := hbc key head' h'
  exact ⟨head'', h'', hle.trans hle'⟩

variable {state : RouterState}

theorem HeadsLe.of_eq {state' : RouterState}
    (h : state'.interactiveHeads = state.interactiveHeads) : HeadsLe state state' := by
  intro key head hget
  exact ⟨head, by rw [h, hget], InteractiveHead.Le.refl head⟩

variable {record : InteractiveRequest}

/-- A record that is not behind the head may become the head. -/
theorem head_le_of_not_behind {head : InteractiveHead} (h : behindHead record head = false) :
    head.Le record.head := by
  simp only [behindHead, Bool.or_eq_false_iff, Bool.and_eq_false_iff, decide_eq_false_iff_not]
    at h
  obtain ⟨⟨hversion, hround⟩, hrevision⟩ := h
  constructor
  · exact Nat.not_lt.mp hversion
  · show head.round < record.round ∨
      head.round = record.round ∧ head.roundRevision ≤ record.roundRevision
    omega

/-! ## What a call does to requests and heads -/

theorem pushRequest_heads_le {now : Nat} (h : Grantable state now record) :
    HeadsLe state ((state.retaining now).pushRequest record) := by
  by_cases hreserved : record.status = .reserved
  · intro key head hget
    have hheads : ((state.retaining now).pushRequest record).interactiveHeads =
        state.interactiveHeads.set record.sessionKey record.head := by
      simp [RouterState.pushRequest, hreserved]
    by_cases hkey : key = record.sessionKey
    · subst hkey
      refine ⟨record.head, ?_, head_le_of_not_behind (h.ahead hreserved head hget)⟩
      rw [hheads, OrderedMap.get?_set_self]
    · refine ⟨head, ?_, InteractiveHead.Le.refl head⟩
      rw [hheads, OrderedMap.get?_set_ne _ _ hkey, hget]
  · apply HeadsLe.of_eq
    simp [RouterState.pushRequest, hreserved]

theorem transition_heads_le {op : StoreOp} {now : Nat} {t : Transition StoreAnswer}
    (h : op.transition state now = .ok t) :
    HeadsLe state t.state := by
  by_cases hop : op.isInteractive = true
  · cases op with
    | reserveInteractive record =>
      obtain ⟨t', ht, rfl⟩ := map_eq_ok.mp h
      rw [Transition.map_state]
      rcases reserveInteractive_ok ht with ⟨_, hstate, _⟩ | ⟨_, hgrantable, _, hstate⟩
      · apply HeadsLe.of_eq
        simp [hstate]
      · rw [hstate]
        exact pushRequest_heads_le hgrantable
    | updateInteractive key changes sessionId =>
      obtain ⟨t', ht, rfl⟩ := map_eq_ok.mp h
      obtain ⟨_, _, _, _, hstate⟩ := updateInteractive_ok ht
      apply HeadsLe.of_eq
      rcases hstate with hstate | ⟨_, _, _, _, _, _, hstate⟩ <;> simp [hstate]
    | _ => cases hop
  · have hfalse : op.isInteractive = false := by simpa using hop
    exact HeadsLe.of_eq (transition_interactive h hfalse).2

variable {store : Store}

/-- No call moves a head backwards. -/
theorem heads_le_call (hinv : store.Inv) (call : StoreCall) :
    HeadsLe store.persisted (store.call call).2.persisted := by
  obtain ⟨heffect, _⟩ := call_effect hinv call
  generalize (store.call call).1 = result at heffect
  generalize (store.call call).2.persisted = next at heffect ⊢
  cases heffect with
  | error | idle | prunes | reads => exact HeadsLe.refl _
  | writes op time t hinput htime ht hvalid hbytes hresult =>
    have hpruned : HeadsLe store.persisted (store.persisted.pruned time) := HeadsLe.of_eq rfl
    exact hpruned.trans (transition_heads_le ht)

/-! ## Grants -/

/-- The call stores the record as a new one and answers with it. -/
structure Grants (store : Store) (call : StoreCall) (record : InteractiveRequest) : Prop where
  asked : call.input = .op (.reserveInteractive record)
  answer : (store.call call).1 = .ok (.reservation (some record))
  fresh : record ∉ store.persisted.interactiveRequests
  stored : record ∈ (store.call call).2.persisted.interactiveRequests

variable {call : StoreCall}

theorem Grants.writes (hinv : store.Inv) (h : Grants store call record) :
    ∃ time, Grantable (store.persisted.pruned time) time record ∧
      (store.call call).2.persisted =
        ((store.persisted.pruned time).retaining time).pushRequest record := by
  obtain ⟨heffect, _⟩ := call_effect hinv call
  obtain ⟨hasked, hanswer, hfresh, hstored⟩ := h
  rw [hanswer] at heffect
  generalize (store.call call).2.persisted = next at heffect hstored ⊢
  cases heffect with
  | error | idle | reads | prunes time hinput => exact absurd hstored hfresh
  | writes op time t hinput htime ht hvalid hbytes hresult =>
    rw [hasked] at hinput
    cases hinput
    obtain ⟨t', ht', rfl⟩ := map_eq_ok.mp ht
    rcases reserveInteractive_ok ht' with ⟨_, hstate, _⟩ | ⟨_, hgrantable, _, hstate⟩
    · rw [Transition.map_state, hstate] at hstored
      exact absurd (List.mem_filter.mp hstored).1 hfresh
    · exact ⟨time, hgrantable, hstate⟩

/-- A granted key is no head, and a granted reservation is alone in its session. -/
theorem Grants.exclusive (hinv : store.Inv) (h : Grants store call record) :
    (∀ head, store.persisted.interactiveHeads.get? record.sessionKey = some head →
      head.key ≠ record.key) ∧
    (record.status = .reserved →
      ∀ entry ∈ (store.call call).2.persisted.interactiveRequests,
        entry.sessionKey = record.sessionKey → entry.status ≠ .terminal → entry = record) := by
  obtain ⟨time, hgrantable, hnext⟩ := h.writes hinv
  refine ⟨hgrantable.notHead, fun hreserved entry hentry hsession hstatus => ?_⟩
  rw [hnext] at hentry
  rcases List.mem_append.mp hentry with hold | hnew
  · have hidle := hgrantable.idle
    simp only [sessionBusy, hreserved, decide_true, Bool.true_and, List.any_eq_false,
      Bool.and_eq_true, beq_iff_eq, decide_eq_true_eq, not_and] at hidle
    exact absurd hstatus (hidle entry hold hsession)
  · exact List.mem_singleton.mp hnew

/-! ## Runs -/

/-- Any call may come next. -/
def AnyCall (_ : StoreRun) (_ : StoreCall) : Prop := True

/-- Heads never go backwards along a run; a key that is the head of its session
is not granted again, and a granted reservation finds every other record of its
session terminal. -/
theorem interactive_heads_monotone {c c' : StoreRun}
    (h : Reach Store.call AnyCall (start Store.fresh) c)
    (hrun : Reach Store.call AnyCall c c') :
    HeadsLe c.state.persisted c'.state.persisted ∧
    ∀ call record, Grants c'.state call record →
      (∀ head, c'.state.persisted.interactiveHeads.get? record.sessionKey = some head →
        head.key ≠ record.key) ∧
      (record.status = .reserved →
        ∀ entry ∈ (advance Store.call c' call).state.persisted.interactiveRequests,
          entry.sessionKey = record.sessionKey → entry.status ≠ .terminal → entry = record) := by
  have hinv : c.state.Inv := inv_of_reach h
  have hstep : ∀ (d : StoreRun) call, AnyCall d call → d.state.Inv →
      (advance Store.call d call).state.Inv := fun d call _ hd => (call_effect hd call).2
  have htrans : ∀ d e f : StoreRun, HeadsLe d.state.persisted e.state.persisted →
      HeadsLe e.state.persisted f.state.persisted →
      HeadsLe d.state.persisted f.state.persisted := fun _ _ _ hde hef => hde.trans hef
  constructor
  · exact Reach.rel (R := fun d e => HeadsLe d.state.persisted e.state.persisted)
      (fun d => HeadsLe.refl d.state.persisted) htrans hstep
      (fun d call _ hd => heads_le_call hd call) hrun hinv
  · intro call record hgrants
    exact hgrants.exclusive (inv_of_reach (h.trans hrun))

/-- A reservation as the router builds it, at a state version and a round. -/
def sampleRequest (requestId taskId : JsString) (stateVersion round : Nat) : InteractiveRequest :=
  let runtimeId := js "rt_00000000000000000000000000000000"
  { key := requestKey runtimeId (js "n") (js "s") (js "d") requestId
    sessionKey := interactiveSessionKey runtimeId (js "n") (js "discussion") (js "d")
    runtimeId := runtimeId
    nodeId := js "n"
    senderId := js "s"
    memberId := js "m"
    discussionId := js "d"
    chatroomId := js "c"
    requestId := requestId
    taskId := taskId
    instanceId := js "br_00000000000000000000000000000000"
    stateVersion := stateVersion
    round := round
    roundRevision := 0
    expiresAt := 10
    fingerprint := []
    status := .reserved
    cancelResult := none
    response := none }

/-- A request that ends, expires and is asked for again. -/
def oneRequestTwice : List StoreCall :=
  let record := sampleRequest (js "q") (js "task_1_1") 1 1
  [⟨0, true, true, .initializeStore⟩,
    ⟨0, true, true, .op (.reserveInteractive record)⟩,
    ⟨1, true, true, .op (.updateInteractive record.key { status := some .terminal } none)⟩,
    ⟨20, true, true, .op (.reserveInteractive { record with expiresAt := 30 })⟩]

theorem interactive_heads_monotone_oneRequestTwice :
    let c := exec Store.call (start Store.fresh) (oneRequestTwice.take 2)
    let c' := exec Store.call (start Store.fresh) oneRequestTwice
    (c.state.persisted.interactiveHeads.size = 1 ∧ c'.state.persisted.interactiveRequests.length = 1) ∧
      HeadsLe c.state.persisted c'.state.persisted ∧
      ∀ call record, Grants c'.state call record →
        (∀ head, c'.state.persisted.interactiveHeads.get? record.sessionKey = some head →
          head.key ≠ record.key) ∧
        (record.status = .reserved →
          ∀ entry ∈ (advance Store.call c' call).state.persisted.interactiveRequests,
            entry.sessionKey = record.sessionKey → entry.status ≠ .terminal → entry = record) := by
  have hallowed : ∀ (c : StoreRun) (calls : List StoreCall), AllAllowed Store.call AnyCall c calls :=
    allAllowed_of_forall fun _ _ => trivial
  constructor
  · decide +kernel
  · exact interactive_heads_monotone (reach_exec (hallowed _ _))
      (reach_exec (hallowed _ (oneRequestTwice.drop 2)))

end ClawMessenger.Ports.SessionStore
