import ClawMessenger.Ports.DiscussionV2Guard

/-!
# What the guard keeps true

`Fenced` is the invariant of the guard's state: the active keys are the logical
entries marked active, and nothing a retained cancellation covers is active or
awaited.  `LogicalChange` says what one call can do to the entry of a key; the
ledger of admissions (`Admissions`) follows from it, and from the ledger that a
key is let in at most once until its entry's time is over.
-/

namespace ClawMessenger.Ports.DiscussionV2

open Verified Verified.JsString List
open OrderedMap (get?_eq_some_iff get?_erase_ne get?_erase_self get?_filter get?_set has)

/-! ## The invariant -/

structure Fenced (g : DiscussionV2Guard) : Prop where
  active_iff : ∀ key, g.active.has key = true ↔
    ∃ entry, g.logical.get? key = some entry ∧ entry.active = true
  active : ∀ cancelled cancellation key entry,
    g.cancellations.get? cancelled = some cancellation → g.active.get? key = some entry →
    DiscussionV2Guard.coversActive cancellation entry = false
  pendingAcks : ∀ cancelled cancellation key pending,
    g.cancellations.get? cancelled = some cancellation → g.pendingAcks.get? key = some pending →
    DiscussionV2Guard.coversAck cancellation pending.toArtifactAckExpectation = false

theorem fenced_empty : Fenced {} := by
  refine ⟨?_, ?_, ?_⟩
  · intro key
    constructor
    · intro hhas
      cases hhas
    · rintro ⟨entry, hget, _⟩
      cases hget
  · intro cancelled cancellation key entry hget
    cases hget
  · intro cancelled cancellation key pending hget
    cases hget

theorem fenced_disposed : Fenced { final := true } :=
  ⟨fenced_empty.active_iff, fenced_empty.active, fenced_empty.pendingAcks⟩

namespace DiscussionV2Guard

/-! ## Retiring entries -/

theorem retire_get? (logical : OrderedMap JsString LogicalEntry) (now : Int) (key k : JsString) :
    (retire logical now key).get? k = (logical.get? k).map fun entry =>
      if k = key then ⟨false, some (now + Limits.logicalTombstoneTtlMs)⟩ else entry := by
  unfold retire
  cases hget : logical.get? key with
  | none =>
    by_cases hk : k = key
    · rw [hk, hget]
      rfl
    · simp [hk]
  | some entry =>
    dsimp only
    rw [get?_set]
    by_cases hk : k = key
    · rw [hk, hget]
      simp
    · simp [hk]

theorem foldl_retire_get? (now : Int) (keys : List JsString)
    (logical : OrderedMap JsString LogicalEntry) (k : JsString) :
    (keys.foldl (fun logical key => retire logical now key) logical).get? k =
      (logical.get? k).map fun entry =>
        if k ∈ keys then ⟨false, some (now + Limits.logicalTombstoneTtlMs)⟩ else entry := by
  induction keys generalizing logical with
  | nil => simp
  | cons key rest ih =>
    rw [foldl_cons, ih, retire_get?, Option.map_map]
    congr 1
    funext entry
    by_cases hrest : k ∈ rest
    · simp [hrest]
    · by_cases hk : k = key
      · simp [hk]
      · simp [hrest, hk]

variable {g : DiscussionV2Guard} {cancellation : Cancellation} {key : JsString}

theorem mem_abortedKeys_iff :
    key ∈ g.abortedKeys cancellation ↔
      ∃ entry, g.active.get? key = some entry ∧ coversActive cancellation entry = true := by
  rw [abortedKeys, mem_map]
  constructor
  · rintro ⟨⟨k, entry⟩, hmem, rfl⟩
    rw [mem_filter] at hmem
    exact ⟨entry, get?_eq_some_iff.mpr hmem.1, hmem.2⟩
  · rintro ⟨entry, hget, hcovers⟩
    exact ⟨(key, entry), mem_filter.mpr ⟨get?_eq_some_iff.mp hget, hcovers⟩, rfl⟩

variable {envelope : DiscussionV2Envelope}

theorem isCancelled_eq_false {senderId : JsString} (h : g.isCancelled senderId envelope = false)
    {cancelled : JsString} (hget : g.cancellations.get? cancelled = some cancellation) :
    covers cancellation senderId envelope.discussionId envelope.stateVersion envelope.round =
      false := by
  rw [isCancelled, any_eq_false] at h
  have hmem : cancellation ∈ g.cancellations.values :=
    mem_map.mpr ⟨_, get?_eq_some_iff.mp hget, rfl⟩
  simpa using h cancellation hmem

/-- Evicting only takes cancellations away. -/
theorem evictOldest_get? {cancellations retained : OrderedMap JsString Cancellation}
    (h : evictOldest cancellations = some retained) (hget : retained.get? key = some cancellation) :
    cancellations.get? key = some cancellation := by
  unfold evictOldest at h
  split at h
  · obtain ⟨oldest, _, rfl⟩ := Option.map_eq_some_iff.mp h
    by_cases hk : key = oldest
    · rw [hk, get?_erase_self] at hget
      cases hget
    · rwa [get?_erase_ne _ hk] at hget
  · cases h
    exact hget

end DiscussionV2Guard

open DiscussionV2Guard

/-! ## Each operation keeps it -/

variable {g : DiscussionV2Guard}

section

variable (h : Fenced g)
include h

theorem Fenced.pruneLogical (now : Int) :
    Fenced (g.pruneLogical now) := by
  refine ⟨?_, h.active, h.pendingAcks⟩
  intro key
  have hget := get?_filter g.logical (fun _ entry => !entry.expired now) key
  show g.active.has key = true ↔ ∃ entry, (g.logical.filter _).get? key = some entry ∧ _
  rw [h.active_iff key, hget]
  constructor
  · rintro ⟨entry, hentry, hactive⟩
    refine ⟨entry, ?_, hactive⟩
    rw [hentry, Option.filter, LogicalEntry.expired, hactive]
    rfl
  · rintro ⟨entry, hentry, hactive⟩
    rw [Option.filter_eq_some_iff] at hentry
    exact ⟨entry, hentry.1, hactive⟩

theorem Fenced.pruneAcks (now : Int) :
    Fenced (g.pruneAcks now) := by
  refine ⟨h.active_iff, h.active, ?_⟩
  intro cancelled cancellation key pending hcancelled hpending
  apply h.pendingAcks cancelled cancellation key pending hcancelled
  have hget := get?_filter g.pendingAcks
    (fun _ entry => !decide (entry.expiresAt ≤ now)) key
  have hsome : (g.pendingAcks.filter fun _ entry => !decide (entry.expiresAt ≤ now)).get? key =
      some pending := hpending
  rw [hget, Option.filter_eq_some_iff] at hsome
  exact hsome.1

theorem Fenced.erasePending (key : JsString) :
    Fenced { g with pendingAcks := g.pendingAcks.erase key } := by
  refine ⟨h.active_iff, h.active, ?_⟩
  intro cancelled cancellation k pending hcancelled hpending
  apply h.pendingAcks cancelled cancellation k pending hcancelled
  by_cases hk : k = key
  · rw [hk, get?_erase_self] at hpending
    cases hpending
  · rwa [get?_erase_ne _ hk] at hpending

theorem Fenced.admitKey (key senderId : JsString)
    (hfree : g.isCancelled senderId envelope = false) :
    Fenced (g.admitKey key senderId envelope) := by
  refine ⟨?_, ?_, h.pendingAcks⟩
  · intro k
    show (g.active.set key _).has k = true ↔
      ∃ entry, (g.logical.set key _).get? k = some entry ∧ _
    rw [has, get?_set, get?_set]
    by_cases hk : k = key
    · rw [if_pos hk, if_pos hk]
      exact ⟨fun _ => ⟨_, rfl, rfl⟩, fun _ => rfl⟩
    · rw [if_neg hk, if_neg hk]
      exact h.active_iff k
  · intro cancelled cancellation k entry hcancelled hentry
    have hset : (g.active.set key ⟨key, senderId, envelope.discussionId, envelope.stateVersion,
        envelope.round⟩).get? k = some entry := hentry
    rw [get?_set] at hset
    by_cases hk : k = key
    · rw [if_pos hk, Option.some.injEq] at hset
      rw [← hset]
      exact isCancelled_eq_false hfree hcancelled
    · rw [if_neg hk] at hset
      exact h.active cancelled cancellation k entry hcancelled hset

theorem Fenced.complete (now : Int) (key : JsString) :
    Fenced { g with active := g.active.erase key, logical := retire g.logical now key } := by
  refine ⟨?_, ?_, h.pendingAcks⟩
  · intro k
    rw [has, retire_get?]
    by_cases hk : k = key
    · rw [hk, get?_erase_self]
      constructor
      · intro hnone
        cases hnone
      · rintro ⟨entry, hentry, hactive⟩
        obtain ⟨_, _, rfl⟩ := Option.map_eq_some_iff.mp hentry
        rw [if_pos rfl] at hactive
        cases hactive
    · rw [get?_erase_ne _ hk]
      simp only [if_neg hk, Option.map_id']
      exact h.active_iff k
  · intro cancelled cancellation k entry hcancelled hentry
    have herase : (g.active.erase key).get? k = some entry := hentry
    by_cases hk : k = key
    · rw [hk, get?_erase_self] at herase
      cases herase
    · rw [get?_erase_ne _ hk] at herase
      exact h.active cancelled cancellation k entry hcancelled herase

theorem Fenced.applyCancellation (now : Int) {retained : OrderedMap JsString Cancellation}
    (cancellation : Cancellation) (hretained : evictOldest g.cancellations = some retained) :
    Fenced (g.applyCancellation now retained cancellation) := by
  have hcancelled : ∀ cancelled c,
      (retained.set (cancelKey cancellation) cancellation).get? cancelled = some c →
        c = cancellation ∨ g.cancellations.get? cancelled = some c := by
    intro cancelled c hget
    rw [get?_set] at hget
    by_cases hk : cancelled = cancelKey cancellation
    · rw [if_pos hk, Option.some.injEq] at hget
      exact .inl hget.symm
    · rw [if_neg hk] at hget
      exact .inr (evictOldest_get? hretained hget)
  refine ⟨?_, ?_, ?_⟩
  · intro key
    show (g.active.filter _).has key = true ↔
      ∃ entry, (foldl _ g.logical _).get? key = some entry ∧ _
    rw [has, get?_filter, foldl_retire_get?]
    constructor
    · intro hsome
      obtain ⟨active, hactive⟩ := Option.isSome_iff_exists.mp hsome
      rw [Option.filter_eq_some_iff] at hactive
      have hhas : g.active.has key = true := by
        rw [has, hactive.1]
        rfl
      obtain ⟨entry, hentry, hmarked⟩ := (h.active_iff key).mp hhas
      have hkept : key ∉ g.abortedKeys cancellation := by
        rw [mem_abortedKeys_iff]
        rintro ⟨other, hother, hcovers⟩
        rw [hactive.1, Option.some.injEq] at hother
        rw [← hother] at hcovers
        simp [hcovers] at hactive
      refine ⟨entry, ?_, hmarked⟩
      rw [hentry, Option.map_some, if_neg hkept]
    · rintro ⟨entry, hentry, hmarked⟩
      obtain ⟨before, hbefore, rfl⟩ := Option.map_eq_some_iff.mp hentry
      by_cases haborted : key ∈ g.abortedKeys cancellation
      · rw [if_pos haborted] at hmarked
        cases hmarked
      · rw [if_neg haborted] at hmarked
        have hhas := (h.active_iff key).mpr ⟨before, hbefore, hmarked⟩
        obtain ⟨active, hactive⟩ := Option.isSome_iff_exists.mp hhas
        have hfree : coversActive cancellation active = false := by
          by_contra hcovers
          rw [Bool.not_eq_false] at hcovers
          exact haborted (mem_abortedKeys_iff.mpr ⟨active, hactive, hcovers⟩)
        rw [hactive]
        simp [Option.filter, hfree]
  · intro cancelled c key entry hget hentry
    have hfilter : (g.active.filter fun _ active => !coversActive cancellation active).get? key =
        some entry := hentry
    rw [get?_filter, Option.filter_eq_some_iff] at hfilter
    rcases hcancelled cancelled c hget with rfl | hold
    · simpa using hfilter.2
    · exact h.active cancelled c key entry hold hfilter.1
  · intro cancelled c key pending hget hpending
    have hfilter : (g.pendingAcks.filter fun _ pending =>
        !coversAck cancellation pending.toArtifactAckExpectation).get? key = some pending :=
      hpending
    rw [get?_filter, Option.filter_eq_some_iff] at hfilter
    rcases hcancelled cancelled c hget with rfl | hold
    · simpa using hfilter.2
    · exact h.pendingAcks cancelled c key pending hold hfilter.1

end

/-! ## Every call -/

/-- The expectation belongs to the command of an active key. -/
def ForActive (g : DiscussionV2Guard) (value : ArtifactAckExpectation) : Prop :=
  ∃ key entry, g.active.get? key = some entry ∧ entry.senderId = value.senderId ∧
    entry.discussionId = value.discussionId ∧ entry.stateVersion = value.stateVersion ∧
    entry.round = value.round

section

variable (h : Fenced g) (now : Int)
include h now

theorem Fenced.registerArtifactAck {value : ArtifactAckExpectation}
    (hvalue : g.final = false → ForActive g value) :
    Fenced (g.registerArtifactAck now value).2 := by
  unfold DiscussionV2Guard.registerArtifactAck
  split
  · exact h
  · next hfinal =>
      split
      · exact h
      · have hpruned := h.pruneAcks now
        dsimp only
        split
        · exact hpruned
        · split
          · exact hpruned
          · refine ⟨hpruned.active_iff, hpruned.active, ?_⟩
            intro cancelled cancellation key pending hcancelled hpending
            rw [get?_set] at hpending
            by_cases hk : key = value.key
            · rw [if_pos hk, Option.some.injEq] at hpending
              obtain ⟨k, entry, hactive, hsender, hdiscussion, hversion, hround⟩ :=
                hvalue (Bool.not_eq_true _ ▸ hfinal)
              have hfree := h.active cancelled cancellation k entry hcancelled hactive
              rw [coversActive, hsender, hdiscussion, hversion, hround] at hfree
              rw [← hpending]
              exact hfree
            · rw [if_neg hk] at hpending
              exact hpruned.pendingAcks cancelled cancellation key pending hcancelled hpending

theorem Fenced.acceptArtifactAck (senderId : JsString) (value : Json) :
    Fenced (g.acceptArtifactAck now senderId value).2 := by
  unfold DiscussionV2Guard.acceptArtifactAck
  split
  · exact h
  · split
    · exact h
    · split
      · dsimp only
        split
        · exact h
        · split
          · exact h.erasePending _
          · split
            · exact h
            · exact h.erasePending _
      · exact h

theorem Fenced.claim (senderId : JsString) (command : DiscussionV2Command) (nodeId : JsString) :
    Fenced (g.claim now senderId command nodeId).2 := by
  unfold DiscussionV2Guard.claim
  split
  · exact h
  · split
    · exact h
    · split
      · exact h
      · next msgType envelope _ =>
          split
          · exact h
          · split
            · exact h
            · next hfree =>
                have hpruned := h.pruneLogical now
                dsimp only
                split
                · exact hpruned
                · split
                  · exact hpruned
                  · exact hpruned.admitKey _ _ (Bool.not_eq_true _ ▸ hfree)

/-- An active key has a logical entry, so completing it always reaches the entry. -/
theorem Fenced.complete_eq (key : JsString) :
    g.complete now key =
      if g.final || !g.active.has key then (false, g)
      else (true, { g with
        active := g.active.erase key
        logical := DiscussionV2Guard.retire g.logical now key }) := by
  unfold DiscussionV2Guard.complete
  by_cases hskip : (g.final || !g.active.has key) = true
  · rw [if_pos hskip, if_pos hskip]
  · rw [if_neg hskip, if_neg hskip]
    have hactive : g.active.has key = true := by
      rw [Bool.or_eq_true, not_or] at hskip
      simpa using hskip.2
    obtain ⟨entry, hentry, _⟩ := (h.active_iff key).mp hactive
    have hhas : g.logical.has key = true := by
      rw [has, hentry]
      rfl
    rw [if_pos hhas]

theorem Fenced.cancel (senderId : JsString) (value : Json) :
    Fenced (g.cancel now senderId value).2 := by
  unfold DiscussionV2Guard.cancel
  split
  · exact h
  · split
    · exact h
    · split
      · dsimp only
        split
        · exact h
        · split
          · exact h
          · next retained hretained => exact h.applyCancellation now _ hretained
      · exact h

end

/-- The clock does not run backwards, and an acknowledgement is registered for
an active key only. -/
structure GuardAllowed (c : Config DiscussionV2Guard GuardInput GuardAnswer)
    (input : GuardInput) : Prop where
  clock : ∀ e ∈ c.past, e.1.now ≤ input.now
  active : ∀ value, input.call = .registerArtifactAck value → c.state.final = false →
    ForActive c.state value

theorem Fenced.serve {c : Config DiscussionV2Guard GuardInput GuardAnswer} (h : Fenced c.state)
    {input : GuardInput} (hallowed : GuardAllowed c input) :
    Fenced (serveGuard c.state input).2 := by
  have hactive := hallowed.active
  obtain ⟨now, call⟩ := input
  cases call with
  | claim senderId command nodeId => exact h.claim now senderId command nodeId
  | complete key =>
    show Fenced (c.state.complete now key).2
    rw [h.complete_eq]
    split
    · exact h
    · exact h.complete now key
  | cancel senderId value => exact h.cancel now senderId value
  | registerArtifactAck value => exact h.registerArtifactAck now (hactive value rfl)
  | acceptArtifactAck senderId value => exact h.acceptArtifactAck now senderId value
  | isCurrent => exact h
  | pendingAckCount => exact h.pruneAcks now
  | dispose =>
    show Fenced c.state.dispose
    unfold dispose
    split
    · exact h
    · exact fenced_disposed

end ClawMessenger.Ports.DiscussionV2
