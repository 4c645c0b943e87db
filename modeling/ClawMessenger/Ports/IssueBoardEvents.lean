import ClawMessenger.Ports.IssueBoard

/-!
# Any order of events

Creates and updates of an issue come by HTTP and by WebSocket, in either order,
and an optimistic update may be taken back.  In every order the cache stays well
represented, as long as every event fits (`Fits`).
-/

namespace ClawMessenger.Ports.IssueCache

open Verified Verified.Machine

/-- The flags of a remote update, absent from an older server. -/
structure UpdateFlags where
  assigneeChanged : Option Bool
  projectChanged : Option Bool
  statusChanged : Option Bool

/-- What `onIssueUpdated` takes for changed: the flags of the server, or else
what differs from the cached issue. -/
def updateChangedDims (patch : IssuePatch) (flags : UpdateFlags) (cached : Option Issue) :
    IssueChangedDims where
  assignee := flags.assigneeChanged.getD (cached.isSome &&
    (patchFieldChanged patch.assigneeId (cached.map Issue.assigneeId) ||
      patchFieldChanged patch.assigneeType (cached.map Issue.assigneeType)))
  project := flags.projectChanged.getD
    (patchFieldChanged patch.projectId (some (cached.bind Issue.projectId)))
  status := flags.statusChanged.getD
    (cached.isSome && patchFieldChanged patch.status (cached.map Issue.status))

/-- `acceptCurrent` of a remote update. -/
def newerThan (revision : Option Nat) (current : Issue) : Bool :=
  match revision, current.revision with
  | some revision, some other => revision > other
  | _, _ => true

/-- `acceptCurrent` of a confirmed update. -/
def confirms (serverIssue current : Issue) : Bool :=
  match current.revision with
  | none => true
  | some other =>
    match serverIssue.revision with
    | none => false
    | some revision => revision > other

/-- `cached` and `detail` are what other caches hold of the issue, if anything, and `copies`
all that they hold of it; `recorded` is the newest revision of its properties seen so far. -/
inductive Event where
  | createSucceeded (issue : Issue)
  | issueCreated (issue : Issue)
  | issueUpdated (id : String) (patch : IssuePatch) (flags : UpdateFlags) (cached : Option Issue)
      (copies : List Issue)
  | issueDeleted (id : String)
  | propertiesChanged (id : String) (properties : List (String × List String))
      (revision : Option Nat) (copies : List Issue) (recorded : Option Nat)
  | updateMutated (id : String) (patch : IssuePatch) (detail : Option Issue)
  | updateSucceeded (serverIssue : Issue) (intent : IssuePatch)
  | deleteMutated (id : String)
  | mutationFailed (snapshot : Nat)

structure Board where
  cache : ListIssuesCache
  snapshots : List ListIssuesCache

def Board.change (b : Board) (key : ListKey) (id : String) (patch : IssuePatch)
    (changed : IssueChangedDims) (base : Option Issue) (accept : Issue → Bool) : Board :=
  let change := applyIssueChange key b.cache id patch changed base accept
  { b with cache := change.cache, snapshots := b.snapshots ++ change.prev.toList }

def freshestCachedIssueRevision (copies : List Issue) : Option Nat :=
  copies.foldl (fun freshest issue =>
    match issue.revision with
    | none => freshest
    | some revision => if freshest.all (· < revision) then some revision else freshest) none

/-- An event without a revision is not applied once a copy of the issue has one. -/
def refetchForUnversionedIssueEvent (cache : ListIssuesCache) (id : String) (revision : Option Nat)
    (copies : List Issue) : Bool :=
  revision.isNone &&
    (freshestCachedIssueRevision (copies ++ ((findIssueLocation cache id).map Prod.snd).toList)).isSome

/-- Whether a remote update is older than what is cached. -/
def outdated (patch : IssuePatch) (cached : Option Issue) : Bool :=
  match patch.revision.join, cached.bind Issue.revision with
  | some revision, some other => revision < other
  | _, _ => false

/-- New issues go into the lists of the workspace only. -/
def Board.add (b : Board) (key : ListKey) (issue : Issue) : Board :=
  match key with
  | .list _ => { b with cache := addIssueToBuckets b.cache issue }
  | .my _ _ _ => b

def step (key : ListKey) (b : Board) (event : Event) : Unit × Board :=
  match event with
  | .createSucceeded issue => ((), b.add key issue)
  | .issueCreated issue => ((), b.add key issue)
  | .issueUpdated id patch flags cached copies =>
    if refetchForUnversionedIssueEvent b.cache id patch.revision.join (cached.toList ++ copies) then ((), b)
    else if outdated patch cached then ((), b)
    else ((), { b.change key id patch (updateChangedDims patch flags cached) cached
      (newerThan patch.revision.join) with snapshots := b.snapshots })
  | .issueDeleted id => ((), { b with cache := (removeIssueFromBuckets b.cache id).getD b.cache })
  | .propertiesChanged id properties revision copies recorded =>
    if refetchForUnversionedIssueEvent b.cache id revision copies then ((), b)
    else if revision.any fun revision => recorded.any fun recorded => revision < recorded then ((), b)
    else
      match findIssueLocation b.cache id with
      | none => ((), b)
      | some (_, issue) =>
        if newerThan revision issue || revision = issue.revision then
          ((), { b with cache := (patchIssueInBuckets b.cache id
            { emptyPatch with properties := some properties }).getD b.cache })
        else ((), b)
  | .updateMutated id patch detail =>
    ((), b.change key id patch (issueChangedDims patch detail) detail fun _ => true)
  | .updateSucceeded serverIssue intent =>
    ((), { b.change key serverIssue.id { serverIssue.toPatch with properties := none }
      (issueChangedDims intent (some serverIssue)) (some serverIssue) (confirms serverIssue) with
        snapshots := b.snapshots })
  | .deleteMutated id => ((),
      { cache := (removeIssueFromBuckets b.cache id).getD b.cache
        snapshots := b.snapshots ++ [b.cache] })
  | .mutationFailed snapshot =>
    match b.snapshots[snapshot]? with
    | none => ((), b)
    | some cache => ((), { b with cache := cache })

abbrev BoardCfg := Config Board Event Unit

/-- What is asked of an event. -/
def Fits (key : ListKey) (c : BoardCfg) : Event → Prop
  | .createSucceeded issue => (∃ sort, key = .list sort) → AddFits c.state.cache issue
  | .issueCreated issue => (∃ sort, key = .list sort) → AddFits c.state.cache issue
  | .issueUpdated id patch flags cached copies =>
    refetchForUnversionedIssueEvent c.state.cache id patch.revision.join (cached.toList ++ copies) = false →
      outdated patch cached = false →
      ChangeFits key c.state.cache id patch (updateChangedDims patch flags cached) cached
        (newerThan patch.revision.join)
  | .updateMutated id patch detail =>
    ChangeFits key c.state.cache id patch (issueChangedDims patch detail) detail fun _ => true
  | .updateSucceeded serverIssue intent =>
    ChangeFits key c.state.cache serverIssue.id { serverIssue.toPatch with properties := none }
      (issueChangedDims intent (some serverIssue)) (some serverIssue) (confirms serverIssue)
  | .issueDeleted _ => True
  | .propertiesChanged _ _ _ _ _ => True
  | .deleteMutated _ => True
  | .mutationFailed _ => True

/-- The cache and all that may come back by a rollback. -/
structure Sound (b : Board) : Prop where
  cache : Represented b.cache
  snapshots : ∀ snapshot ∈ b.snapshots, Represented snapshot

variable {key : ListKey}

theorem Sound.change {b : Board} (h : Sound b) {id : String} {patch : IssuePatch}
    {changed : IssueChangedDims} {base : Option Issue} {accept : Issue → Bool}
    (hfits : ChangeFits key b.cache id patch changed base accept) :
    Sound (b.change key id patch changed base accept) := by
  constructor
  · exact h.cache.change hfits
  · intro snapshot hmem
    rcases List.mem_append.mp hmem with hold | hnew
    · exact h.snapshots snapshot hold
    · rw [Option.mem_toList] at hnew
      rw [applyIssueChange_prev hnew]
      exact h.cache

theorem Sound.add {b : Board} (h : Sound b) {issue : Issue}
    (hfits : (∃ sort, key = .list sort) → AddFits b.cache issue) : Sound (b.add key issue) := by
  cases key with
  | list sort => exact ⟨h.cache.add (hfits ⟨sort, rfl⟩), h.snapshots⟩
  | my scope filter sort => exact h

theorem Represented.removedOr {cache : ListIssuesCache} (h : Represented cache) (id : String) :
    Represented ((removeIssueFromBuckets cache id).getD cache) := by
  cases hnext : removeIssueFromBuckets cache id with
  | none => exact h
  | some next => exact h.removed hnext

theorem Sound.step {c : BoardCfg} (h : Sound c.state) {event : Event} (hfits : Fits key c event) :
    Sound (step key c.state event).2 := by
  cases event with
  | createSucceeded issue | issueCreated issue => exact h.add hfits
  | issueUpdated id patch flags cached copies =>
    simp only [IssueCache.step]
    split_ifs with hunversioned hold
    · exact h
    · exact h
    · have hchange := hfits (by simpa using hunversioned) (by simpa using hold)
      exact ⟨(h.change hchange).cache, h.snapshots⟩
  | issueDeleted id => exact ⟨h.cache.removedOr id, h.snapshots⟩
  | propertiesChanged id properties revision copies recorded =>
    simp only [IssueCache.step]
    split_ifs
    · exact h
    · exact h
    cases hloc : findIssueLocation c.state.cache id with
    | none => exact h
    | some loc =>
      dsimp only
      by_cases hnew : (newerThan revision loc.2 || revision = loc.2.revision) = true
      · rw [if_pos hnew]
        refine ⟨?_, h.snapshots⟩
        show Represented ((patchIssueInBuckets c.state.cache id _).getD c.state.cache)
        cases hnext : patchIssueInBuckets c.state.cache id
            { emptyPatch with properties := some properties } with
        | none => exact h.cache
        | some next =>
          apply h.cache.patched _ hnext
          intro c' issue hloc' _
          rw [category_merge_none rfl rfl]
          exact h.cache.placed c' issue (findIssueLocation_mem hloc').1
      · rw [if_neg hnew]
        exact h
  | updateMutated id patch detail => exact h.change hfits
  | updateSucceeded serverIssue intent => exact ⟨(h.change hfits).cache, h.snapshots⟩
  | deleteMutated id =>
    refine ⟨h.cache.removedOr id, ?_⟩
    intro snapshot hmem
    rcases List.mem_append.mp hmem with hold | hnew
    · exact h.snapshots snapshot hold
    · rw [List.mem_singleton] at hnew
      rw [hnew]
      exact h.cache
  | mutationFailed snapshot =>
    simp only [IssueCache.step]
    cases hget : c.state.snapshots[snapshot]? with
    | none => exact h
    | some cache => exact ⟨h.snapshots cache (List.mem_of_getElem? hget), h.snapshots⟩

/-- In every run whose events fit, whatever their order, the board stays well
represented. -/
theorem board_represented (key : ListKey) {cache : ListIssuesCache} (hcache : Represented cache)
    {c : BoardCfg} (h : Reach (step key) (Fits key) (start ⟨cache, []⟩) c) :
    Represented c.state.cache := by
  have hsound : Sound c.state := by
    apply Reach.invariant (I := fun c => Sound c.state) _ h
    · exact ⟨hcache, nofun⟩
    · intro d event hfits hd
      exact hd.step hfits
  exact hsound.cache

/-! ## Runs to check by evaluation -/

def task (id status : String) : Issue :=
  ⟨id, id, none, status, some status, "none", none, none, "user", none, none, 0, none, none, none,
    [], "2026-01-01T00:00:00Z", "2026-01-01T00:00:00Z", none, none⟩

def workspaceList : ListKey := .list ⟨none, none, none, none, none, []⟩

def noCards : ListIssuesCache := ⟨∅⟩

theorem represented_noCards : Represented noCards := by
  have hempty : ∀ c, getBucket noCards c = ⟨[], 0⟩ := fun _ => rfl
  apply Represented.mk
  · intro c
    rw [hempty]
    exact List.nodup_nil
  · intro c c' i i' hi
    rw [hempty] at hi
    cases hi
  · intro c i hi
    rw [hempty] at hi
    cases hi
  · intro c
    rw [hempty]
    exact Nat.le_refl _

instance decidableAddFits (cache : ListIssuesCache) (issue : Issue) :
    Decidable (AddFits cache issue) :=
  decidable_of_iff (∀ category ∈ issueStatusCategory issue,
    ∀ loc ∈ findIssueLocation cache issue.id, loc.1 = category) Iff.rfl

instance decidableCountFits (cache : ListIssuesCache) (c : IssueStatusCategory) :
    Decidable (CountFits cache c) := inferInstanceAs (Decidable (_ ∨ _))

instance decidableChangeFits (key : ListKey) (data : ListIssuesCache) (id : String)
    (rawPatch : IssuePatch) (changed : IssueChangedDims) (baseIssue : Option Issue)
    (acceptCurrent : Issue → Bool) :
    Decidable (ChangeFits key data id rawPatch changed baseIssue acceptCurrent) := by
  unfold ChangeFits
  dsimp only
  split
  · exact inferInstance
  · split
    · exact inferInstance
    · exact inferInstance
    · exact inferInstance
    · exact inferInstance

instance decidableIsList : (key : ListKey) → Decidable (∃ sort, key = .list sort)
  | .list sort => .isTrue ⟨sort, rfl⟩
  | .my _ _ _ => .isFalse nofun

instance decidableFits (key : ListKey) (c : BoardCfg) : (event : Event) → Decidable (Fits key c event)
  | .createSucceeded _ | .issueCreated _ => inferInstanceAs (Decidable (_ → AddFits _ _))
  | .issueUpdated _ _ _ _ _ => inferInstanceAs (Decidable (_ → _ → ChangeFits _ _ _ _ _ _ _))
  | .updateMutated _ _ _ | .updateSucceeded _ _ =>
    inferInstanceAs (Decidable (ChangeFits _ _ _ _ _ _ _))
  | .issueDeleted _ | .propertiesChanged _ _ _ _ _ | .deleteMutated _ | .mutationFailed _ =>
    .isTrue trivial

/-- A card is created, seen by WebSocket first, and moved to another column; an event without
a revision comes once another cache has a version. -/
def created : List Event :=
  [.issueCreated (task "1" "todo"), .createSucceeded (task "1" "todo"),
    .updateMutated "1" { emptyPatch with status := some "in_progress" } none,
    .issueUpdated "1" { emptyPatch with status := some "done" } ⟨none, none, none⟩ none [],
    .issueUpdated "1" { emptyPatch with status := some "todo" } ⟨none, none, none⟩ none
      [{ task "1" "done" with revision := some 2 }]]

theorem board_represented_created :
    Represented (exec (step workspaceList) (start ⟨noCards, []⟩) created).state.cache :=
  board_represented workspaceList represented_noCards (reach_exec (by decide +kernel))

/-- The response to a create comes after another client has moved the card. -/
def createdLate : List Event :=
  [.issueCreated (task "1" "todo"),
    .issueUpdated "1" { emptyPatch with status := some "in_progress" } ⟨none, none, none⟩ none [],
    .createSucceeded (task "1" "todo")]

/-- A card that was never counted is moved: it was created elsewhere while the list
was loaded. -/
def movedUncounted : List Event :=
  [.issueCreated (task "1" "todo"),
    .updateMutated "2" { emptyPatch with status := some "done" } (some (task "2" "todo"))]

theorem createdLate_twice :
    ¬ Represented (exec (step workspaceList) (start ⟨noCards, []⟩)
        createdLate).state.cache ∧
      ¬ Represented (exec (step workspaceList) (start ⟨noCards, []⟩)
        movedUncounted).state.cache := by
  constructor
  · intro h
    have hmem : task "1" "todo" ∈ (getBucket (exec (step workspaceList)
        (start ⟨noCards, []⟩) createdLate).state.cache .todo).issues := by decide +kernel
    have hmem' : task "1" "in_progress" ∈ (getBucket (exec (step workspaceList)
        (start ⟨noCards, []⟩) createdLate).state.cache .inProgress).issues := by
      decide +kernel
    have habsurd := h.apart _ _ _ _ hmem hmem' rfl
    cases habsurd
  · intro h
    exact absurd (h.counted .todo) (by decide +kernel)

end ClawMessenger.Ports.IssueCache
