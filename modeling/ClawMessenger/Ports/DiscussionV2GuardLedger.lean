import ClawMessenger.Ports.DiscussionV2GuardFence

/-!
# The ledger of admitted commands

The history of a guard shows when a key was let in and when it was released,
by completing it or by a cancellation that names it among the aborted keys.
The entry of an admitted key stays until ten minutes after its release, so
between two admissions of a key there is a release and ten minutes.
-/

namespace ClawMessenger.Ports.DiscussionV2

open Verified Verified.Machine Verified.JsString List
open DiscussionV2Guard
open DiscussionV2Guard (acceptArtifactAck cancel claim complete dispose registerArtifactAck)

/-! ## Histories -/

abbrev GuardExchange := GuardInput × GuardAnswer

/-- The exchange lets a key in. -/
def Admits (key : JsString) (e : GuardExchange) : Prop := e.2 = .claimed (.accepted key)

/-- The exchange completes or aborts a key. -/
def Releases (key : JsString) (e : GuardExchange) : Prop :=
  (e.1.call = .complete key ∧ e.2 = .completed true) ∨
    ∃ abortedKeys senderId discussionId,
      e.2 = .cancelled (.accepted abortedKeys senderId discussionId) ∧ key ∈ abortedKeys

/-- After place `j` the key was released, and its time is over at `now`. -/
def Freed (past : List GuardExchange) (j : Nat) (key : JsString) (now : Int) : Prop :=
  ∃ i e, j < i ∧ past[i]? = some e ∧ Releases key e ∧
    e.1.now + Limits.logicalTombstoneTtlMs ≤ now

variable {key : JsString} {entry : LogicalEntry} {g : DiscussionV2Guard}

variable {past : List GuardExchange}

theorem Freed.append {j : Nat} {now : Int} (h : Freed past j key now) (e : GuardExchange) :
    Freed (past ++ [e]) j key now := by
  obtain ⟨i, f, hlt, hget, hrest⟩ := h
  refine ⟨i, f, hlt, ?_, hrest⟩
  rw [List.getElem?_append_left (List.getElem?_eq_some_iff.mp hget).1]
  exact hget

theorem Freed.mono {j : Nat} {now later : Int} (h : Freed past j key now) (hle : now ≤ later) :
    Freed past j key later := by
  obtain ⟨i, f, hlt, hget, hreleases, htime⟩ := h
  exact ⟨i, f, hlt, hget, hreleases, Int.le_trans htime hle⟩

/-! ## The entry of a key -/

/-- What one call can do to the logical entry of a key. -/
inductive LogicalChange (key : JsString) (entry : LogicalEntry) (e : GuardExchange)
    (after : DiscussionV2Guard) : Prop where
  | disposed : after.final = true → LogicalChange key entry e after
  | kept : after.logical.get? key = some entry → LogicalChange key entry e after
  | released : Releases key e →
      after.logical.get? key = some ⟨false, some (e.1.now + Limits.logicalTombstoneTtlMs)⟩ →
      LogicalChange key entry e after
  | expired : entry.expired e.1.now = true → LogicalChange key entry e after

section

variable (hget : g.logical.get? key = some entry) (now : Int)
include hget now

theorem pruneLogical_change :
    entry.expired now = true ∨ (g.pruneLogical now).logical.get? key = some entry := by
  by_cases hexpired : entry.expired now = true
  · exact .inl hexpired
  · right
    show (g.logical.filter _).get? key = some entry
    rw [OrderedMap.get?_filter, hget]
    simp [Option.filter, hexpired]

theorem claim_change (senderId : JsString) (command : DiscussionV2Command) (nodeId : JsString) :
    entry.expired now = true ∨
      (g.claim now senderId command nodeId).2.logical.get? key = some entry := by
  rcases pruneLogical_change hget now with hexpired | hkept
  · exact .inl hexpired
  · right
    unfold claim
    split
    · exact hget
    · split
      · exact hget
      · split
        · exact hget
        · split
          · exact hget
          · split
            · exact hget
            · dsimp only
              split
              · exact hkept
              · next hfresh =>
                  split
                  · exact hkept
                  · show ((g.pruneLogical now).logical.set _ _).get? key = some entry
                    rw [OrderedMap.get?_set_ne _ _ ?_]
                    · exact hkept
                    · intro heq
                      apply hfresh
                      rw [← heq, OrderedMap.has, hkept]
                      rfl

theorem cancel_change (senderId : JsString) (value : Json) :
    LogicalChange key entry
      (⟨now, .cancel senderId value⟩, .cancelled (g.cancel now senderId value).1)
      (g.cancel now senderId value).2 := by
  unfold cancel
  split
  · exact .kept hget
  · split
    · exact .kept hget
    · split
      · next envelope _ _ =>
          dsimp only
          split
          · exact .kept hget
          · split
            · exact .kept hget
            · next retained hretained =>
                have hafter := foldl_retire_get? now (g.abortedKeys
                  ⟨senderId, envelope.discussionId, envelope.stateVersion, envelope.round⟩)
                  g.logical key
                rw [hget, Option.map_some] at hafter
                split at hafter
                · next haborted => exact .released (.inr ⟨_, _, _, rfl, haborted⟩) hafter
                · exact .kept hafter
      · exact .kept hget

end

theorem complete_change (h : Fenced g) (hget : g.logical.get? key = some entry) (now : Int)
    (completed : JsString) :
    LogicalChange key entry
      (⟨now, .complete completed⟩, .completed (g.complete now completed).1)
      (g.complete now completed).2 := by
  rw [h.complete_eq]
  split
  · exact .kept hget
  · have hafter := retire_get? g.logical now completed key
    rw [hget, Option.map_some] at hafter
    split at hafter
    · next heq => exact .released (.inl ⟨by rw [heq], rfl⟩) hafter
    · exact .kept hafter

/-- One call, as a change of the entry of a key. -/
theorem logical_change (h : Fenced g) (hget : g.logical.get? key = some entry)
    (input : GuardInput) :
    LogicalChange key entry (input, (serveGuard g input).1) (serveGuard g input).2 := by
  obtain ⟨now, call⟩ := input
  cases call with
  | claim senderId command nodeId =>
    rcases claim_change hget now senderId command nodeId with hexpired | hkept
    · exact .expired hexpired
    · exact .kept hkept
  | complete completed => exact complete_change h hget now completed
  | cancel senderId value => exact cancel_change hget now senderId value
  | registerArtifactAck value =>
    apply LogicalChange.kept
    show (g.registerArtifactAck now value).2.logical.get? key = some entry
    unfold registerArtifactAck
    split
    · exact hget
    · split
      · exact hget
      · dsimp only
        split
        · exact hget
        · split <;> exact hget
  | acceptArtifactAck senderId value =>
    apply LogicalChange.kept
    show (g.acceptArtifactAck now senderId value).2.logical.get? key = some entry
    unfold acceptArtifactAck
    split
    · exact hget
    · split
      · exact hget
      · split
        · dsimp only
          split
          · exact hget
          · split
            · exact hget
            · split <;> exact hget
        · exact hget
  | isCurrent | pendingAckCount => exact .kept hget
  | dispose =>
    apply LogicalChange.disposed
    show g.dispose.final = true
    unfold dispose
    split
    · next hfinal => exact hfinal
    · rfl

theorem serveGuard_final (h : g.final = true) (input : GuardInput) :
    (serveGuard g input).2.final = true := by
  obtain ⟨now, call⟩ := input
  cases call with
  | claim => simp [serveGuard, claim, h]
  | complete => simp [serveGuard, complete, h]
  | cancel => simp [serveGuard, cancel, h]
  | registerArtifactAck => simp [serveGuard, registerArtifactAck, h]
  | acceptArtifactAck => simp [serveGuard, acceptArtifactAck, h]
  | isCurrent | pendingAckCount => exact h
  | dispose => simp [serveGuard, dispose, h]

/-- A claim that is let in found no entry after pruning, and leaves an active one. -/
theorem admits_spec {input : GuardInput} (h : (serveGuard g input).1 = .claimed (.accepted key)) :
    g.final = false ∧ (g.pruneLogical input.now).logical.get? key = none ∧
      (serveGuard g input).2.logical.get? key = some ⟨true, none⟩ := by
  obtain ⟨now, call⟩ := input
  cases call with
  | claim senderId command nodeId =>
    have hresult : (g.claim now senderId command nodeId).1 = .accepted key :=
      GuardAnswer.claimed.inj h
    show g.final = false ∧ _ ∧ (g.claim now senderId command nodeId).2.logical.get? key = _
    unfold claim at hresult ⊢
    split at hresult
    · cases hresult
    · next hfinal =>
        rw [if_neg hfinal]
        split at hresult
        · cases hresult
        · next hids =>
            rw [if_neg hids]
            split at hresult
            · cases hresult
            · next msgType envelope _ =>
                split at hresult
                · cases hresult
                · next htarget =>
                    rw [if_neg htarget]
                    split at hresult
                    · cases hresult
                    · next hfree =>
                        rw [if_neg hfree]
                        dsimp only at hresult ⊢
                        split at hresult
                        · cases hresult
                        · next hfresh =>
                            rw [if_neg hfresh]
                            split at hresult
                            · cases hresult
                            · next hroom =>
                                rw [if_neg hroom]
                                cases hresult
                                refine ⟨Bool.not_eq_true _ ▸ hfinal, ?_, ?_⟩
                                · rw [← OrderedMap.has_eq_false_iff]
                                  exact Bool.not_eq_true _ ▸ hfresh
                                · exact OrderedMap.get?_set_self ..
  | complete | cancel | registerArtifactAck | acceptArtifactAck | isCurrent
  | pendingAckCount | dispose => cases h

/-! ## The ledger -/

/-- Each admission is still on record, or was released long enough ago. -/
def Admissions (past : List GuardExchange) (g : DiscussionV2Guard) : Prop :=
  ∀ j e key, past[j]? = some e → Admits key e →
    g.final = true ∨
      (∃ entry, g.logical.get? key = some entry ∧
        (entry.active = true ∨ ∃ expiresAt, entry.expiresAt = some expiresAt ∧
          Freed past j key expiresAt)) ∨
      ∃ l ∈ past, Freed past j key l.1.now

/-- The invariant of a run. -/
structure GuardTraced (c : Config DiscussionV2Guard GuardInput GuardAnswer) : Prop where
  fenced : Fenced c.state
  admissions : Admissions c.past c.state

theorem guardTraced_start : GuardTraced (start {}) := by
  refine ⟨fenced_empty, ?_⟩
  intro j e key hget
  cases hget

variable {c : Config DiscussionV2Guard GuardInput GuardAnswer}

theorem Admissions.step (h : GuardTraced c) (input : GuardInput) :
    Admissions (c.past ++ [(input, (serveGuard c.state input).1)])
      (serveGuard c.state input).2 := by
  intro j e key hget hadmits
  have hlast : (c.past ++ [(input, (serveGuard c.state input).1)])[c.past.length]? =
      some (input, (serveGuard c.state input).1) := List.getElem?_concat_length
  have hnew : (input, (serveGuard c.state input).1) ∈
      c.past ++ [(input, (serveGuard c.state input).1)] :=
    List.mem_append_right _ (List.mem_singleton_self _)
  by_cases hj : j < c.past.length
  · rw [List.getElem?_append_left hj] at hget
    rcases h.admissions j e key hget hadmits with
      hfinal | ⟨entry, hentry, hstate⟩ | ⟨l, hl, hfreed⟩
    · exact .inl (serveGuard_final hfinal input)
    · cases logical_change h.fenced hentry input with
      | disposed hfinal => exact .inl hfinal
      | kept hkept =>
        refine .inr (.inl ⟨entry, hkept, ?_⟩)
        rcases hstate with hactive | ⟨expiresAt, hexpires, hfreed⟩
        · exact .inl hactive
        · exact .inr ⟨expiresAt, hexpires, hfreed.append _⟩
      | released hreleases hafter =>
        refine .inr (.inl ⟨_, hafter, .inr ⟨_, rfl, ?_⟩⟩)
        exact ⟨c.past.length, _, hj, hlast, hreleases, Int.le_refl _⟩
      | expired hexpired =>
        refine .inr (.inr ⟨_, hnew, ?_⟩)
        rw [LogicalEntry.expired, Bool.and_eq_true] at hexpired
        rcases hstate with hactive | ⟨expiresAt, hexpires, hfreed⟩
        · rw [hactive] at hexpired
          cases hexpired.1
        · rw [hexpires] at hexpired
          have hle : expiresAt ≤ input.now := by simpa using hexpired.2
          exact (hfreed.append _).mono hle
    · exact .inr (.inr ⟨l, List.mem_append_left _ hl, hfreed.append _⟩)
  · have hlen : j = c.past.length := by
      have hlt := (List.getElem?_eq_some_iff.mp hget).1
      rw [List.length_append, List.length_singleton] at hlt
      omega
    subst hlen
    rw [hlast, Option.some.injEq] at hget
    subst hget
    exact .inr (.inl ⟨_, (admits_spec hadmits).2.2, .inl rfl⟩)

theorem guardTraced_of_reach (h : Reach serveGuard GuardAllowed (start {}) c) :
    GuardTraced c := by
  apply h.invariant _ guardTraced_start
  intro d input hallowed hd
  exact ⟨hd.fenced.serve hallowed, Admissions.step hd input⟩

/-- Between two admissions of a key it is released, and ten minutes pass. -/
theorem admitted_once (h : Reach serveGuard GuardAllowed (start {}) c) {j k : Nat}
    {first second : GuardExchange} (hjk : j < k) (hj : c.past[j]? = some first)
    (hk : c.past[k]? = some second) (hfirst : Admits key first) (hsecond : Admits key second) :
    ∃ i release, j < i ∧ i < k ∧ c.past[i]? = some release ∧ Releases key release ∧
      release.1.now + Limits.logicalTombstoneTtlMs ≤ second.1.now := by
  obtain ⟨d, hd, hpast, hallowed, hanswer⟩ := h.before hk
  have htraced := guardTraced_of_reach hd
  have hj' : d.past[j]? = some first := by
    rw [hpast, List.getElem?_take_of_lt hjk]
    exact hj
  have hadmits : (serveGuard d.state second.1).1 = .claimed (.accepted key) := by
    rw [← hanswer]
    exact hsecond
  obtain ⟨hlive, hnone, _⟩ := admits_spec hadmits
  have hfreed : Freed d.past j key second.1.now := by
    rcases htraced.admissions j first key hj' hfirst with
      hfinal | ⟨entry, hentry, hstate⟩ | ⟨l, hl, hfreed⟩
    · rw [hlive] at hfinal
      cases hfinal
    · rcases pruneLogical_change hentry second.1.now with hexpired | hkept
      · rw [LogicalEntry.expired, Bool.and_eq_true] at hexpired
        rcases hstate with hactive | ⟨expiresAt, hexpires, hfreed⟩
        · rw [hactive] at hexpired
          cases hexpired.1
        · rw [hexpires] at hexpired
          have hle : expiresAt ≤ second.1.now := by simpa using hexpired.2
          exact hfreed.mono hle
      · rw [hnone] at hkept
        cases hkept
    · exact hfreed.mono (hallowed.clock l hl)
  obtain ⟨i, release, hji, hi, hreleases, htime⟩ := hfreed
  have hlt := (List.getElem?_eq_some_iff.mp hi).1
  rw [hpast, List.length_take] at hlt
  have hik : i < k := by omega
  refine ⟨i, release, hji, hik, ?_, hreleases, htime⟩
  rw [hpast, List.getElem?_take_of_lt hik] at hi
  exact hi

/-- **Replay and cancellation fence.** In every run of the guard with a clock
that does not run backwards and acknowledgements registered for active keys
only: a key is let in at most once until ten minutes after its release; the
active keys are the logical entries marked active; and nothing that a retained
cancellation of the same sender and discussion covers is active or awaited. -/
theorem guard_fence {c : Config DiscussionV2Guard GuardInput GuardAnswer}
    (h : Reach serveGuard GuardAllowed (start {}) c) :
    (∀ (j k : Nat) (first second : GuardExchange) (key : JsString), j < k →
      c.past[j]? = some first → c.past[k]? = some second → Admits key first →
      Admits key second →
      ∃ i release, j < i ∧ i < k ∧ c.past[i]? = some release ∧ Releases key release ∧
        release.1.now + Limits.logicalTombstoneTtlMs ≤ second.1.now) ∧
    (∀ key, c.state.active.has key = true ↔
      ∃ entry, c.state.logical.get? key = some entry ∧ entry.active = true) ∧
    ∀ cancelled cancellation, c.state.cancellations.get? cancelled = some cancellation →
      (∀ key active, c.state.active.get? key = some active →
        ¬(active.senderId = cancellation.senderId ∧
          active.discussionId = cancellation.discussionId ∧
          (cancellation.stateVersion > active.stateVersion ∨
            cancellation.stateVersion = active.stateVersion ∧
              cancellation.round = active.round))) ∧
      ∀ key pending, c.state.pendingAcks.get? key = some pending →
        ¬(pending.senderId = cancellation.senderId ∧
          pending.discussionId = cancellation.discussionId ∧
          (cancellation.stateVersion > pending.stateVersion ∨
            cancellation.stateVersion = pending.stateVersion ∧
              cancellation.round = pending.round)) := by
  have htraced := guardTraced_of_reach h
  have hcovers : ∀ {cancellation : Cancellation} {senderId discussionId : JsString}
      {stateVersion round : Nat},
      covers cancellation senderId discussionId stateVersion round = false →
      ¬(senderId = cancellation.senderId ∧ discussionId = cancellation.discussionId ∧
        (cancellation.stateVersion > stateVersion ∨
          cancellation.stateVersion = stateVersion ∧ cancellation.round = round)) := by
    intro cancellation senderId discussionId stateVersion round hfalse hmatch
    obtain ⟨rfl, rfl, hversion⟩ := hmatch
    simp only [covers, cancels, beq_self_eq_true, Bool.true_and, Bool.or_eq_false_iff,
      decide_eq_false_iff_not, Bool.and_eq_false_iff, beq_eq_false_iff_ne] at hfalse
    omega
  refine ⟨?_, htraced.fenced.active_iff, ?_⟩
  · intro j k first second key hjk hj hk hfirst hsecond
    exact admitted_once h hjk hj hk hfirst hsecond
  · intro cancelled cancellation hget
    refine ⟨?_, ?_⟩
    · intro key active hactive
      exact hcovers (htraced.fenced.active cancelled cancellation key active hget hactive)
    · intro key pending hpending
      exact hcovers (htraced.fenced.pendingAcks cancelled cancellation key pending hget hpending)

/-! ## A run -/

def sampleEnvelope : DiscussionV2Envelope :=
  ⟨js "discussion-1", js "room-1", js "request-1", 7, 2, 1⟩

def sampleAck : ArtifactAckExpectation :=
  ⟨js "owner-1", js "discussion-1", js "request-1", 7, 2, js "update-1", none, 1⟩

/-- A cancellation of round 2 at state version 7. -/
def sampleCancel : Json :=
  .obj [(js "msg_type", .str (js "discussion_cancel")), (js "protocolVersion", Json.ofNat 2),
    (js "discussionId", .str (js "discussion-1")), (js "chatroomId", .str (js "room-1")),
    (js "requestId", .str (js "request-2")), (js "stateVersion", Json.ofNat 7),
    (js "round", Json.ofNat 2), (js "timestamp", Json.ofNat 1), (js "reason", .str [])]

/-- A turn is claimed, awaits an acknowledgement, and is cancelled. -/
def sampleInputs : List GuardInput :=
  [⟨0, .claim (js "owner-1") (.hostTurn sampleEnvelope .null) (js "node-1")⟩,
    ⟨1, .registerArtifactAck sampleAck⟩, ⟨2, .cancel (js "owner-1") sampleCancel⟩]

def sampleKey : JsString :=
  discussionV2LogicalKey (js "owner-1") (js "discussion_host_turn") sampleEnvelope

theorem sampleInputs_allowed :
    AllAllowed serveGuard GuardAllowed (start {}) sampleInputs := by
  refine ⟨⟨?_, ?_⟩, ⟨?_, ?_⟩, ⟨?_, ?_⟩, trivial⟩
  · intro e he
    cases he
  · intro value hcall
    cases hcall
  · intro e he
    have hnow : e.1.now = 0 := by
      rw [mem_singleton.mp he]
    rw [hnow]
    decide
  · intro value hcall _
    cases hcall
    refine ⟨sampleKey, ⟨sampleKey, js "owner-1", js "discussion-1", 7, 2⟩, ?_, rfl, rfl, rfl, rfl⟩
    decide +kernel
  · intro e he
    rcases mem_pair.mp he with rfl | rfl
    · show (0 : Int) ≤ 2
      omega
    · show (1 : Int) ≤ 2
      omega
  · intro value hcall
    cases hcall

/-- The cancellation aborts the turn and drops the acknowledgement. -/
theorem guard_fence_sample :
    (exec serveGuard (start {}) sampleInputs).state.cancellations.size = 1 ∧
      (exec serveGuard (start {}) sampleInputs).state.pendingAcks.size = 0 ∧
      ((exec serveGuard (start {}) sampleInputs).state.active.has sampleKey = true ↔
        ∃ entry, (exec serveGuard (start {}) sampleInputs).state.logical.get?
          sampleKey = some entry ∧ entry.active = true) :=
  ⟨by decide +kernel, by decide +kernel,
    (guard_fence (reach_exec sampleInputs_allowed)).2.1 sampleKey⟩

end ClawMessenger.Ports.DiscussionV2
