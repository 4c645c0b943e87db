import ClawMessenger.Ports.IssueListContract

/-!
# When a change leaves the answer in the cache

`applyIssueChange` is to leave a list as the server would answer it now, or to
mark its key.  It patches cards in place and inserts them by position whatever
the order of the list is, and it does not look at the date window and the
property filter of the key, so neither may be the case.  `Certain` says exactly
when one of them is.
-/

namespace ClawMessenger.Ports.IssueCache

open Verified List

variable {db : Database} {contract : ListContract} {issues : List Issue} {cache next : ListIssuesCache}
  {base after : Issue}

/-! ## The slot of a card -/

/-- The cards before and behind a patched card in the bucket it is put into. -/
def slot (cache : ListIssuesCache) (c category : IssueStatusCategory) (issue : Issue)
    (patch : IssuePatch) : List Issue × List Issue :=
  if category = c ∧ patch.positionChanged issue = false then
    ((getBucket cache c).issues.takeWhile fun i => i.id ≠ issue.id,
      ((getBucket cache c).issues.dropWhile fun i => i.id ≠ issue.id).tail)
  else
    let others := (getBucket cache category).issues.filter fun i => i.id ≠ issue.id
    (before others (issue.merge patch), behind others (issue.merge patch))

/-- A patched card belongs into the bucket and the slot it is put into. -/
def Settles (db : Database) (contract : ListContract) (cache : ListIssuesCache)
    (c : IssueStatusCategory) (issue : Issue) (patch : IssuePatch) : Prop :=
  ∃ category, patch.nextCategory c = some category ∧
    listed db contract (issue.merge patch) = some category ∧
    (∀ i ∈ (slot cache c category issue patch).1,
      (serverOrder db contract.sort).Before i (issue.merge patch)) ∧
    ∀ i ∈ (slot cache c category issue patch).2,
      (serverOrder db contract.sort).Before (issue.merge patch) i

/-- The branch of `applyIssueChange` that is taken marks the key or is right: a
card that is taken out is not listed any more, one that is patched settles, and
one that is left alone or counted off is not listed. -/
def Certain (db : Database) (key : ListKey) (cache : ListIssuesCache) (base : Issue)
    (rawPatch : IssuePatch) : Prop :=
  let patch := normalizeStatusPatch rawPatch
  let contract := listContractFromKey key
  let changed := issueChangedDims rawPatch (some base)
  let after := base.merge patch
  sortMarks contract.sort patch (some base) = true ∨
    match findIssueLocation cache base.id with
    | some (c, _) =>
      patchNeedsInvalidation patch = true ∨
        if listFilterDependsOn contract.scope contract.filter changed then
          match issueMatchesListFilter (spread (some base) patch) contract.scope contract.filter with
          | .no => listed db contract after = none
          | .yes => Settles db contract cache c base patch
          | .unknown => True
        else Settles db contract cache c base patch
    | none =>
      match reconcileAbsent contract patch changed (some base) with
      | .refetch => True
      | .skip => listed db contract after = none
      | .move source target => source ≠ target ∨ listed db contract after = none
      | .leave c => listed db contract after = none ∧ (getBucket cache c).total = 0

/-! ## Cards of an answer -/

/-- Of the workspace, only the issue itself has its id. -/
theorem eq_base (hids : (issues.map Issue.id).Nodup) (hbase : base ∈ issues) {i : Issue}
    (hi : i ∈ issues) (hid : i.id = base.id) : i = base :=
  inj_on_of_nodup_map hids hi hbase hid

variable {c : IssueStatusCategory} {issue : Issue}

theorem IsAnswer.card (h : IsAnswer db contract issues cache) (hids : (issues.map Issue.id).Nodup)
    (hbase : base ∈ issues) {i : Issue} (hi : i ∈ (getBucket cache c).issues)
    (hid : i.id = base.id) :
    i = base ∧ listed db contract base = some c := by
  obtain ⟨hmem, hlisted⟩ := (h.members c i).mp hi
  have heq := eq_base hids hbase hmem hid
  exact ⟨heq, heq ▸ hlisted⟩

/-- The bucket around a loaded card. -/
theorem IsAnswer.split (h : IsAnswer db contract issues cache) (hids : (issues.map Issue.id).Nodup)
    (hbase : base ∈ issues) (hloc : findIssueLocation cache base.id = some (c, issue)) :
    issue = base ∧ ∃ front back, (getBucket cache c).issues = front ++ base :: back ∧
      (∀ i ∈ front, i.id ≠ base.id) ∧ ∀ i ∈ back, i.id ≠ base.id := by
  obtain ⟨hmem, hid⟩ := findIssueLocation_mem hloc
  obtain ⟨rfl, _⟩ := h.card hids hbase hmem hid
  obtain ⟨front, back, hsplit⟩ := append_of_mem hmem
  have hsorted := h.sorted c
  rw [hsplit, pairwise_append, pairwise_cons] at hsorted
  refine ⟨rfl, front, back, hsplit, ?_, ?_⟩
  · intro i hi hi'
    have hcard := h.card hids hbase (c := c) (i := i)
      (by rw [hsplit]; exact mem_append_left _ hi) hi'
    have hbefore := hsorted.2.2 i hi issue mem_cons_self
    rw [hcard.1] at hbefore
    exact hbefore.irrefl
  · intro i hi hi'
    have hcard := h.card hids hbase (c := c) (i := i)
      (by rw [hsplit]; exact mem_append_right _ (mem_cons_of_mem _ hi)) hi'
    have hbefore := hsorted.2.1.1 i hi
    rw [hcard.1] at hbefore
    exact hbefore.irrefl

variable {front back : List Issue}

theorem filter_others (hfront : ∀ i ∈ front, i.id ≠ base.id) (hback : ∀ i ∈ back, i.id ≠ base.id) :
    (front ++ base :: back).filter (fun i => i.id ≠ base.id) = front ++ back := by
  rw [filter_append, filter_cons_of_neg (by simp)]
  rw [filter_eq_self.mpr (fun i hi => by simpa using hfront i hi),
    filter_eq_self.mpr (fun i hi => by simpa using hback i hi)]

/-- The other cards are those of the changed workspace but the changed issue. -/
theorem IsAnswer.others (h : IsAnswer db contract issues cache) (hbase : base ∈ issues)
    (hid : after.id = base.id) (c : IssueStatusCategory) (i : Issue) :
    i ∈ (getBucket cache c).issues.filter (fun i => i.id ≠ base.id) ↔
      (i ∈ changedIssues issues base after ∧ listed db contract i = some c) ∧ i.id ≠ base.id := by
  rw [mem_filter, h.members, mem_changedIssues hbase hid, decide_eq_true_eq]
  constructor
  · rintro ⟨⟨hi, hlisted⟩, hne⟩
    exact ⟨⟨.inl ⟨hi, hne⟩, hlisted⟩, hne⟩
  · rintro ⟨⟨⟨hi, _⟩ | rfl, hlisted⟩, hne⟩
    · exact ⟨⟨hi, hlisted⟩, hne⟩
    · exact absurd hid hne

/-- The card is in one slot of one bucket, and everything else as it was. -/
theorem answer_iff_slot (h : IsAnswer db contract issues cache) (hbase : base ∈ issues)
    (hid : after.id = base.id) {category : IssueStatusCategory}
    (hothers : (getBucket cache category).issues.filter (fun i => i.id ≠ base.id) = front ++ back)
    (hbucket : (getBucket next category).issues = front ++ after :: back)
    (hrest : ∀ c, c ≠ category → (getBucket next c).issues = (getBucket cache c).issues.filter fun i => i.id ≠ base.id)
    (htotals : ∀ c, (getBucket next c).total = (getBucket next c).issues.length) :
    IsAnswer db contract (changedIssues issues base after) next ↔
      listed db contract after = some category ∧
        (∀ i ∈ front, (serverOrder db contract.sort).Before i after) ∧
          ∀ i ∈ back, (serverOrder db contract.sort).Before after i := by
  have hsorted : ∀ c, ((getBucket cache c).issues.filter fun i => i.id ≠ base.id).Pairwise
      (serverOrder db contract.sort).Before := fun c => (h.sorted c).filter _
  have hmiddle : (front ++ after :: back).Pairwise (serverOrder db contract.sort).Before ↔
      (∀ i ∈ front, (serverOrder db contract.sort).Before i after) ∧
        ∀ i ∈ back, (serverOrder db contract.sort).Before after i := by
    apply SortOrder.pairwise_middle
    rw [← hothers]
    exact hsorted category
  have hmem : ∀ i, i ∈ front ++ after :: back ↔
      i = after ∨ i ∈ (getBucket cache category).issues.filter fun i => i.id ≠ base.id := by
    intro i
    rw [hothers]
    simp only [mem_append, mem_cons]
    tauto
  constructor
  · intro hnext
    constructor
    · have hin : after ∈ (getBucket next category).issues := by
        rw [hbucket]
        exact (hmem after).mpr (.inl rfl)
      exact ((hnext.members category after).mp hin).2
    · apply hmiddle.mp
      rw [← hbucket]
      exact hnext.sorted category
  · rintro ⟨hlisted, hslot⟩
    apply IsAnswer.mk
    · intro c i
      by_cases hc : c = category
      · rw [hc, hbucket, hmem, h.others hbase hid]
        constructor
        · rintro (rfl | hold)
          · exact ⟨(mem_changedIssues hbase hid).mpr (.inr rfl), hlisted⟩
          · exact hold.1
        · intro hold
          by_cases hi : i.id = base.id
          · left
            rcases (mem_changedIssues hbase hid).mp hold.1 with ⟨_, hne⟩ | heq
            · exact absurd hi hne
            · exact heq
          · exact .inr ⟨hold, hi⟩
      · rw [hrest c hc, h.others hbase hid]
        constructor
        · exact fun hold => hold.1
        · intro hold
          refine ⟨hold, ?_⟩
          intro hi
          rcases (mem_changedIssues hbase hid).mp hold.1 with ⟨_, hne⟩ | rfl
          · exact hne hi
          · have hlisted' := hold.2
            rw [hlisted, Option.some.injEq] at hlisted'
            exact hc hlisted'.symm
    · intro c
      by_cases hc : c = category
      · rw [hc, hbucket]
        exact hmiddle.mpr hslot
      · rw [hrest c hc]
        exact hsorted c
    · exact htotals

/-- The card is nowhere, and everything else as it was. -/
theorem answer_iff_gone (h : IsAnswer db contract issues cache) (hbase : base ∈ issues)
    (hid : after.id = base.id)
    (hbuckets : ∀ c, (getBucket next c).issues =
      (getBucket cache c).issues.filter fun i => i.id ≠ base.id) :
    IsAnswer db contract (changedIssues issues base after) next ↔
      listed db contract after = none ∧
        ∀ c, (getBucket next c).total = (getBucket next c).issues.length := by
  constructor
  · intro hnext
    refine ⟨?_, hnext.totals⟩
    cases hlisted : listed db contract after with
    | none => rfl
    | some c =>
      have hin := (hnext.members c after).mpr
        ⟨(mem_changedIssues hbase hid).mpr (.inr rfl), hlisted⟩
      rw [hbuckets, h.others hbase hid] at hin
      exact absurd hid hin.2
  · rintro ⟨hlisted, htotals⟩
    apply IsAnswer.mk
    · intro c i
      rw [hbuckets, h.others hbase hid]
      constructor
      · exact fun hold => hold.1
      · intro hold
        refine ⟨hold, ?_⟩
        intro hi
        rcases (mem_changedIssues hbase hid).mp hold.1 with ⟨_, hne⟩ | rfl
        · exact hne hi
        · rw [hlisted] at hold
          cases hold.2
    · intro c
      rw [hbuckets]
      exact (h.sorted c).filter _
    · exact htotals

/-! ## The branches -/

variable {patch : IssuePatch}

/-- A patched card. -/
theorem patched_iff (h : IsAnswer db contract issues cache) (hids : (issues.map Issue.id).Nodup)
    (hbase : base ∈ issues) (hpatch : normalizeStatusPatch patch = patch)
    (hnext : patchIssueInBuckets cache base.id patch = some next)
    (hloc : findIssueLocation cache base.id = some (c, issue)) :
    IsAnswer db contract (changedIssues issues base (base.merge patch)) next ↔
      Settles db contract cache c base patch := by
  obtain ⟨c', issue', category, hloc', hto, hcases⟩ := patchIssueInBuckets_cases hnext
  rw [hloc, Option.some.injEq, Prod.mk.injEq] at hloc'
  obtain ⟨rfl, rfl⟩ := hloc'
  obtain ⟨rfl, front, back, hsplit, hfront, hback⟩ := h.split hids hbase hloc
  rw [hpatch] at hto hcases
  have hid : (issue.merge patch).id = issue.id := rfl
  have hsettles : Settles db contract cache c issue patch ↔
      listed db contract (issue.merge patch) = some category ∧
        (∀ i ∈ (slot cache c category issue patch).1,
          (serverOrder db contract.sort).Before i (issue.merge patch)) ∧
          ∀ i ∈ (slot cache c category issue patch).2,
            (serverOrder db contract.sort).Before (issue.merge patch) i := by
    constructor
    · rintro ⟨category', hto', hrest⟩
      rw [hto, Option.some.injEq] at hto'
      exact hto'.symm ▸ hrest
    · exact fun hrest => ⟨category, hto, hrest⟩
  rw [hsettles]
  have hfilter : (getBucket cache c).issues.filter (fun i => i.id ≠ issue.id) = front ++ back := by
    rw [hsplit]
    exact filter_others hfront hback
  have hlength : (front ++ back).length + 1 = (getBucket cache c).issues.length := by
    rw [hsplit, length_append, length_append, length_cons]
    omega
  -- In the other buckets there is no card with the id.
  have hother : ∀ c', c' ≠ c → (getBucket cache c').issues =
      (getBucket cache c').issues.filter fun i => i.id ≠ issue.id := by
    intro c' hc'
    symm
    apply filter_eq_self.mpr
    intro i hi
    rw [decide_eq_true_eq]
    intro hi'
    have hcard := h.card hids hbase hi hi'
    have hcard' := h.card hids hbase (findIssueLocation_mem hloc).1 rfl
    have hboth := hcard.2.symm.trans hcard'.2
    rw [Option.some.injEq] at hboth
    exact hc' hboth
  rcases hcases with ⟨rfl, hmoved, rfl⟩ | ⟨rfl, hmoved, rfl⟩ | ⟨hne, rfl⟩
  · have hslot : slot cache category category issue patch = (front, back) := by
      rw [slot, if_pos ⟨rfl, hmoved⟩, hsplit,
        takeWhile_append_of_pos (fun i hi => by simpa using hfront i hi),
        dropWhile_append_of_pos (fun i hi => by simpa using hfront i hi)]
      simp
    have hmap : (getBucket cache category).issues.map
        (fun i => if i.id = issue.id then issue.merge patch else i) =
          front ++ issue.merge patch :: back := by
      rw [hsplit, map_append, map_cons, if_pos rfl]
      rw [map_congr_left (fun i hi => if_neg (hfront i hi)),
        map_congr_left (fun i hi => if_neg (hback i hi)), map_id', map_id']
    rw [hslot]
    apply answer_iff_slot h hbase hid hfilter
    · rw [getBucket_setBucket, if_pos rfl]
      exact hmap
    · intro c' hc'
      rw [getBucket_setBucket, if_neg hc']
      exact hother c' hc'
    · intro c'
      rw [getBucket_setBucket]
      by_cases hc' : c' = category
      · rw [if_pos hc']
        rw [length_map]
        exact h.totals category
      · rw [if_neg hc']
        exact h.totals c'
  · have hslot : slot cache category category issue patch =
        (before (front ++ back) (issue.merge patch), behind (front ++ back) (issue.merge patch)) := by
      rw [slot, if_neg (fun habsurd => by rw [hmoved] at habsurd; cases habsurd.2), hfilter]
    rw [hslot]
    apply answer_iff_slot h hbase hid
    · rw [hfilter]
      exact (before_append_behind _ _).symm
    · rw [getBucket_setBucket, if_pos rfl, hfilter]
      exact insertByPosition_eq _ _
    · intro c' hc'
      rw [getBucket_setBucket, if_neg hc']
      exact hother c' hc'
    · intro c'
      rw [getBucket_setBucket]
      by_cases hc' : c' = category
      · rw [if_pos hc', hfilter]
        rw [(insertByPosition_perm _ _).length_eq, length_cons, hlength]
        exact h.totals category
      · rw [if_neg hc']
        exact h.totals c'
  · have hslot : slot cache c category issue patch =
        (before (getBucket cache category).issues (issue.merge patch),
          behind (getBucket cache category).issues (issue.merge patch)) := by
      rw [slot, if_neg (fun habsurd => hne habsurd.1), ← hother category hne]
    rw [hslot]
    apply answer_iff_slot h hbase hid
    · rw [← hother category hne]
      exact (before_append_behind _ _).symm
    · rw [getBucket_setBucket, if_pos rfl]
      exact insertByPosition_eq _ _
    · intro c' hc'
      rw [getBucket_setBucket, if_neg hc', getBucket_setBucket]
      by_cases hc : c' = c
      · rw [if_pos hc, hc]
      · rw [if_neg hc]
        exact hother c' hc
    · intro c'
      rw [getBucket_setBucket]
      by_cases hc' : c' = category
      · rw [if_pos hc']
        rw [(insertByPosition_perm _ _).length_eq, length_cons, h.totals]
      · rw [if_neg hc', getBucket_setBucket]
        by_cases hc : c' = c
        · rw [if_pos hc, without, hfilter]
          dsimp only
          rw [h.totals]
          omega
        · rw [if_neg hc]
          exact h.totals c'

theorem patched_none (hpatch : normalizeStatusPatch patch = patch) {id : String}
    (hloc : findIssueLocation cache id = some (c, issue))
    (hnone : patchIssueInBuckets cache id patch = none) : patchNeedsInvalidation patch = true := by
  unfold patchIssueInBuckets at hnone
  rw [hloc] at hnone
  dsimp only at hnone
  rw [hpatch] at hnone
  unfold patchNeedsInvalidation
  cases hstatus : patch.status with
  | none =>
    have hnext : patch.nextCategory c = some c := by
      unfold IssuePatch.nextCategory
      rw [hstatus]
    rw [hnext] at hnone
    dsimp only at hnone
    rw [if_pos rfl] at hnone
    cases hmoved : patch.positionChanged issue with
    | false =>
      rw [hmoved] at hnone
      cases hnone
    | true =>
      rw [hmoved] at hnone
      cases hnone
  | some status =>
    dsimp only
    cases hcategory : patch.category status with
    | none => rfl
    | some category =>
      have hnext : patch.nextCategory c = some category := by
        unfold IssuePatch.nextCategory
        rw [hstatus]
        exact hcategory
      rw [hnext] at hnone
      dsimp only at hnone
      by_cases hsame : category = c
      · rw [if_pos hsame] at hnone
        cases hmoved : patch.positionChanged issue with
        | false =>
          rw [hmoved] at hnone
          cases hnone
        | true =>
          rw [hmoved] at hnone
          cases hnone
      · rw [if_neg hsame] at hnone
        cases hnone

/-- A card that is taken out. -/
theorem removed_iff (h : IsAnswer db contract issues cache) (hids : (issues.map Issue.id).Nodup)
    (hbase : base ∈ issues) (hid : after.id = base.id)
    (hloc : findIssueLocation cache base.id = some (c, issue))
    (hnext : removeIssueFromBuckets cache base.id = some next) :
    IsAnswer db contract (changedIssues issues base after) next ↔ listed db contract after = none := by
  unfold removeIssueFromBuckets at hnext
  rw [hloc, Option.some.injEq] at hnext
  obtain ⟨rfl, front, back, hsplit, hfront, hback⟩ := h.split hids hbase hloc
  have hfilter : (getBucket cache c).issues.filter (fun i => i.id ≠ issue.id) = front ++ back := by
    rw [hsplit]
    exact filter_others hfront hback
  have hlength : (front ++ back).length + 1 = (getBucket cache c).issues.length := by
    rw [hsplit, length_append, length_append, length_cons]
    omega
  have hbuckets : ∀ c', (getBucket next c').issues =
      (getBucket cache c').issues.filter fun i => i.id ≠ issue.id := by
    intro c'
    rw [← hnext, getBucket_setBucket]
    by_cases hc' : c' = c
    · rw [if_pos hc', hc']
    · rw [if_neg hc']
      symm
      apply filter_eq_self.mpr
      intro i hi
      rw [decide_eq_true_eq]
      intro hi'
      have hboth := (h.card hids hbase hi hi').2.symm.trans
        (h.card hids hbase (findIssueLocation_mem hloc).1 rfl).2
      rw [Option.some.injEq] at hboth
      exact hc' hboth
  rw [answer_iff_gone h hbase hid hbuckets]
  constructor
  · exact fun hboth => hboth.1
  · intro hlisted
    refine ⟨hlisted, ?_⟩
    intro c'
    rw [← hnext, getBucket_setBucket]
    by_cases hc' : c' = c
    · rw [if_pos hc', hfilter]
      dsimp only
      rw [h.totals]
      omega
    · rw [if_neg hc']
      exact h.totals c'

/-- A cache without the card that keeps its buckets. -/
theorem kept_iff (h : IsAnswer db contract issues cache) (hbase : base ∈ issues)
    (hid : after.id = base.id) (hloc : findIssueLocation cache base.id = none)
    (hbuckets : ∀ c, (getBucket next c).issues = (getBucket cache c).issues) :
    IsAnswer db contract (changedIssues issues base after) next ↔
      listed db contract after = none ∧
        ∀ c, (getBucket next c).total = (getBucket cache c).total := by
  have hfilter : ∀ c, (getBucket next c).issues =
      (getBucket cache c).issues.filter fun i => i.id ≠ base.id := by
    intro c
    rw [hbuckets]
    symm
    apply filter_eq_self.mpr
    intro i hi
    rw [decide_eq_true_eq]
    exact findIssueLocation_none hloc c i hi
  rw [answer_iff_gone h hbase hid hfilter]
  constructor
  · rintro ⟨hlisted, htotals⟩
    refine ⟨hlisted, ?_⟩
    intro c
    rw [htotals, hbuckets, h.totals]
  · rintro ⟨hlisted, htotals⟩
    refine ⟨hlisted, ?_⟩
    intro c
    rw [htotals, hbuckets, h.totals]

theorem loaded_iff (h : IsAnswer db contract issues cache) (hids : (issues.map Issue.id).Nodup)
    (hbase : base ∈ issues) (hpatch : normalizeStatusPatch patch = patch)
    (changed : IssueChangedDims) (hloc : findIssueLocation cache base.id = some (c, base)) :
    ((applyToLoaded contract cache base.id base patch changed).stale = true ∨
        IsAnswer db contract (changedIssues issues base (base.merge patch))
          (applyToLoaded contract cache base.id base patch changed).cache) ↔
      sortMarks contract.sort patch (some base) = true ∨ patchNeedsInvalidation patch = true ∨
        if listFilterDependsOn contract.scope contract.filter changed then
          match issueMatchesListFilter (spread (some base) patch) contract.scope contract.filter with
          | .no => listed db contract (base.merge patch) = none
          | .yes => Settles db contract cache c base patch
          | .unknown => True
        else Settles db contract cache c base patch := by
  have hpatched : ∀ stale, stale = (sortMarks contract.sort patch (some base) ||
      patchNeedsInvalidation patch) →
      (((write cache (patchIssueInBuckets cache base.id patch) stale).stale = true ∨
          IsAnswer db contract (changedIssues issues base (base.merge patch))
            (write cache (patchIssueInBuckets cache base.id patch) stale).cache) ↔
        sortMarks contract.sort patch (some base) = true ∨ patchNeedsInvalidation patch = true ∨
          Settles db contract cache c base patch) := by
    intro stale hstale
    cases hnext : patchIssueInBuckets cache base.id patch with
    | none =>
      have hmark := patched_none hpatch hloc hnext
      have hmarked : stale = true := by rw [hstale, hmark, Bool.or_true]
      constructor
      · exact fun _ => .inr (.inl hmark)
      · exact fun _ => .inl hmarked
    | some next =>
      show stale = true ∨ IsAnswer db contract _ next ↔ _
      rw [patched_iff h hids hbase hpatch hnext hloc, hstale, Bool.or_eq_true, or_assoc]
  unfold applyToLoaded
  by_cases htouched : listFilterDependsOn contract.scope contract.filter changed = true
  · rw [if_pos htouched, if_pos htouched]
    cases hmember : issueMatchesListFilter (spread (some base) patch) contract.scope
        contract.filter with
    | yes => exact hpatched _ rfl
    | unknown =>
      have hstale : (write cache (patchIssueInBuckets cache base.id patch) true).stale = true := by
        cases patchIssueInBuckets cache base.id patch with
        | none | some next => rfl
      constructor
      · exact fun _ => .inr (.inr trivial)
      · exact fun _ => .inl hstale
    | no =>
      dsimp only
      cases hnext : removeIssueFromBuckets cache base.id with
      | none =>
        rw [removeIssueFromBuckets, hloc] at hnext
        cases hnext
      | some next =>
        have hremoved : IsAnswer db contract (changedIssues issues base (base.merge patch)) next ↔
            listed db contract (base.merge patch) = none :=
          removed_iff h hids hbase rfl hloc hnext
        show _ ∨ IsAnswer db contract _ next ↔ _
        rw [hremoved]
        show (sortMarks contract.sort patch (some base) || patchNeedsInvalidation patch) = true ∨
          _ ↔ _
        rw [Bool.or_eq_true, or_assoc]
  · rw [if_neg htouched, if_neg htouched]
    exact hpatched _ rfl

theorem absent_iff (h : IsAnswer db contract issues cache) (hbase : base ∈ issues)
    (patch : IssuePatch) (changed : IssueChangedDims)
    (hloc : findIssueLocation cache base.id = none) :
    ((applyToAbsent contract cache patch changed (some base)).stale = true ∨
        IsAnswer db contract (changedIssues issues base (base.merge patch))
          (applyToAbsent contract cache patch changed (some base)).cache) ↔
      sortMarks contract.sort patch (some base) = true ∨
        match reconcileAbsent contract patch changed (some base) with
        | .refetch => True
        | .skip => listed db contract (base.merge patch) = none
        | .move source target => source ≠ target ∨ listed db contract (base.merge patch) = none
        | .leave c => listed db contract (base.merge patch) = none ∧
            (getBucket cache c).total = 0 := by
  have hsame : IsAnswer db contract (changedIssues issues base (base.merge patch)) cache ↔
      listed db contract (base.merge patch) = none := by
    have hid : (base.merge patch).id = base.id := rfl
    rw [kept_iff h hbase hid hloc (fun _ => rfl)]
    constructor
    · exact fun hboth => hboth.1
    · exact fun hlisted => ⟨hlisted, fun _ => rfl⟩
  unfold applyToAbsent
  cases reconcileAbsent contract patch changed (some base) with
  | skip =>
    show _ = true ∨ IsAnswer db contract _ cache ↔ _
    rw [hsame]
    exact Iff.rfl
  | refetch =>
    constructor
    · exact fun _ => .inr trivial
    · exact fun _ => .inl rfl
  | move source target =>
    dsimp only
    by_cases heq : source = target
    · have hnone : moveBucketTotal cache source target = none := by
        rw [moveBucketTotal, if_pos heq]
      rw [hnone]
      show _ = true ∨ IsAnswer db contract _ cache ↔ _
      rw [hsame]
      constructor
      · rintro (hmarked | hlisted)
        · exact .inl hmarked
        · exact .inr (.inr hlisted)
      · rintro (hmarked | hne | hlisted)
        · exact .inl hmarked
        · exact absurd heq hne
        · exact .inr hlisted
    · have hsome : ∃ next, moveBucketTotal cache source target = some next := by
        rw [moveBucketTotal, if_neg heq]
        exact ⟨_, rfl⟩
      obtain ⟨next, hnext⟩ := hsome
      rw [hnext]
      constructor
      · exact fun _ => .inr (.inl heq)
      · exact fun _ => .inl rfl
  | leave c =>
    show _ = true ∨ IsAnswer db contract _ (decrementBucketTotal cache c) ↔ _
    have hbuckets : ∀ c', (getBucket (decrementBucketTotal cache c) c').issues =
        (getBucket cache c').issues := by
      intro c'
      rw [decrementBucketTotal, getBucket_setBucket]
      by_cases hc' : c' = c
      · rw [if_pos hc', hc']
      · rw [if_neg hc']
    have hkept : IsAnswer db contract (changedIssues issues base (base.merge patch))
        (decrementBucketTotal cache c) ↔ listed db contract (base.merge patch) = none ∧
          ∀ c', (getBucket (decrementBucketTotal cache c) c').total = (getBucket cache c').total :=
      kept_iff h hbase rfl hloc hbuckets
    rw [hkept]
    have htotals : (∀ c', (getBucket (decrementBucketTotal cache c) c').total =
        (getBucket cache c').total) ↔ (getBucket cache c).total = 0 := by
      constructor
      · intro hall
        have hc := hall c
        rw [decrementBucketTotal, getBucket_setBucket, if_pos rfl] at hc
        dsimp only at hc
        omega
      · intro hzero c'
        rw [decrementBucketTotal, getBucket_setBucket]
        by_cases hc' : c' = c
        · rw [if_pos hc', hc']
          dsimp only
          omega
        · rw [if_neg hc']
    rw [htotals]
    exact Iff.rfl

/-- Applied to the answer for a workspace, a change of one of its issues marks the
key or leaves the answer for the changed workspace exactly where it is certain. -/
theorem stale_or_answer_iff (db : Database) (key : ListKey) {issues : List Issue}
    {cache : ListIssuesCache} (h : IsAnswer db (listContractFromKey key) issues cache)
    (hids : (issues.map Issue.id).Nodup) {base : Issue} (hbase : base ∈ issues)
    (patch : IssuePatch) :
    ((applyIssueChange key cache base.id patch (issueChangedDims patch (some base)) (some base)
          fun _ => true).stale = true ∨
        IsAnswer db (listContractFromKey key)
          (changedIssues issues base (base.merge (normalizeStatusPatch patch)))
          (applyIssueChange key cache base.id patch (issueChangedDims patch (some base)) (some base)
            fun _ => true).cache) ↔
      Certain db key cache base patch := by
  unfold applyIssueChange Certain
  cases hloc : findIssueLocation cache base.id with
  | none => exact absent_iff h hbase _ _ hloc
  | some loc =>
    obtain ⟨c, issue⟩ := loc
    obtain ⟨rfl, _⟩ := h.split hids hbase hloc
    exact loaded_iff h hids hbase (normalizeStatusPatch_idem patch) _ hloc

/-! ## Changes to check by evaluation -/

/-- The digits of a timestamp. -/
def digits (timestamp : String) : Int :=
  timestamp.toList.foldl (fun n c => if c.isDigit then n * 10 + (c.toNat - 48) else n) 0

/-- A database without custom statuses, agents and squads. -/
def plainDatabase : Database where
  category := isIssueStatusCategory
  instant := digits
  titles := SortOrder.linear String
  propertyValues _ _ := some ((SortOrder.linear Nat).on List.length)
  propertiesMatch wanted bag := wanted.all fun test =>
    (bag.lookup test.1).any fun values => values.any fun value => value ∈ test.2
  related _ _ _ := false
  involves _ _ _ := false

def card (id status : String) (position : Rat) : Issue :=
  ⟨id, id, none, status, some status, "none", none, none, "user", none, none, position, none, none,
    none, [], "2026-01-01T00:00:00Z", "2026-01-01T00:00:00Z", none, none⟩

def board : List Issue := [card "a" "todo" 1, card "b" "todo" 2, card "c" "done" 3]

theorem board_nodup : (board.map Issue.id).Nodup := by decide

/-- The board in its manual order, and sorted by title. -/
def manual : ListKey := .list ⟨none, none, none, none, none, []⟩

def byTitle : ListKey := .list ⟨some .title, some .asc, none, none, none, []⟩

/-- A drag to another column. -/
theorem stale_or_answer_drag :
    (applyIssueChange manual (answer plainDatabase (listContractFromKey manual) board) "a"
        { emptyPatch with status := some "done", position := some 4 }
        (issueChangedDims { emptyPatch with status := some "done", position := some 4 }
          (some (card "a" "todo" 1))) (some (card "a" "todo" 1)) fun _ => true).stale = true ∨
      IsAnswer plainDatabase (listContractFromKey manual)
        (changedIssues board (card "a" "todo" 1) ((card "a" "todo" 1).merge
          (normalizeStatusPatch { emptyPatch with status := some "done", position := some 4 })))
        (applyIssueChange manual (answer plainDatabase (listContractFromKey manual) board) "a"
          { emptyPatch with status := some "done", position := some 4 }
          (issueChangedDims { emptyPatch with status := some "done", position := some 4 }
            (some (card "a" "todo" 1))) (some (card "a" "todo" 1)) fun _ => true).cache := by
  apply (stale_or_answer_iff plainDatabase manual
    (isAnswer_answer plainDatabase (listContractFromKey manual) board_nodup) board_nodup
    (List.mem_cons_self : card "a" "todo" 1 ∈ board)
    { emptyPatch with status := some "done", position := some 4 }).mpr
  have hloc : findIssueLocation (answer plainDatabase (listContractFromKey manual) board) "a" =
      some (.todo, card "a" "todo" 1) := by decide +kernel
  have huntouched : listFilterDependsOn (listContractFromKey manual).scope
      (listContractFromKey manual).filter (issueChangedDims
        { emptyPatch with status := some "done", position := some 4 }
          (some (card "a" "todo" 1))) = false := by decide +kernel
  right
  rw [show (card "a" "todo" 1).id = "a" from rfl, hloc]
  rw [huntouched]
  right
  refine ⟨.done, ?_, ?_, ?_, ?_⟩
  · decide +kernel
  · decide +kernel
  · decide +kernel
  · decide +kernel

/-- A new title on a board that is sorted by title. -/
theorem retitled_unsorted :
    ∃ (db : Database) (key : ListKey) (issues : List Issue) (base : Issue) (patch : IssuePatch),
      (issues.map Issue.id).Nodup ∧ base ∈ issues ∧
      IsAnswer db (listContractFromKey key) issues (answer db (listContractFromKey key) issues) ∧
      ¬ ((applyIssueChange key (answer db (listContractFromKey key) issues) base.id patch
            (issueChangedDims patch (some base)) (some base) fun _ => true).stale = true ∨
          IsAnswer db (listContractFromKey key)
            (changedIssues issues base (base.merge (normalizeStatusPatch patch)))
            (applyIssueChange key (answer db (listContractFromKey key) issues) base.id patch
              (issueChangedDims patch (some base)) (some base) fun _ => true).cache) := by
  refine ⟨plainDatabase, byTitle, board, card "a" "todo" 1,
    { emptyPatch with title := some "z" }, board_nodup, List.mem_cons_self,
    isAnswer_answer plainDatabase _ board_nodup, ?_⟩
  rintro (hstale | hanswer)
  · revert hstale
    decide +kernel
  · have hsorted := hanswer.sorted .todo
    revert hsorted
    decide +kernel

end ClawMessenger.Ports.IssueCache
