import ClawMessenger.Ports.IssueCache
import ClawMessenger.Verified.Machine

/-!
# Events on a board

A board is one bucketed list cache, with the snapshots that failed mutations go
back to.  Its cache is well represented when no id is in it twice, every card is
in the bucket of its category, and no total is below what is loaded.

Adding a card only looks for it in the bucket it would go to, and the counts of
cards that are not loaded are moved without a look at what is loaded.  `Fits`
says when that does no harm, and then the representation lasts.
-/

namespace ClawMessenger.Ports.IssueCache

open Verified List

/-! ## Cards in their buckets -/

structure Represented (cache : ListIssuesCache) : Prop where
  once : ∀ c, ((getBucket cache c).issues.map Issue.id).Nodup
  apart : ∀ c c' i i', i ∈ (getBucket cache c).issues → i' ∈ (getBucket cache c').issues →
    i.id = i'.id → c = c'
  placed : ∀ c, ∀ i ∈ (getBucket cache c).issues, issueStatusCategory i = some c
  counted : ∀ c, (getBucket cache c).issues.length ≤ (getBucket cache c).total

variable {cache : ListIssuesCache}

theorem mem_paginatedCategories (c : IssueStatusCategory) : c ∈ paginatedCategories := by
  cases c <;> decide

variable {c : IssueStatusCategory} {id : String} {issue : Issue} {patch : IssuePatch}
  {next : ListIssuesCache}

theorem findIssueLocation_mem (h : findIssueLocation cache id = some (c, issue)) :
    issue ∈ (getBucket cache c).issues ∧ issue.id = id := by
  obtain ⟨c', _, hfound⟩ := exists_of_findSome?_eq_some h
  rw [Option.map_eq_some_iff] at hfound
  obtain ⟨i, hi, heq⟩ := hfound
  rw [Prod.mk.injEq] at heq
  obtain ⟨rfl, rfl⟩ := heq
  exact ⟨mem_of_find?_eq_some hi, by simpa using find?_some hi⟩

theorem findIssueLocation_none (h : findIssueLocation cache id = none)
    (c : IssueStatusCategory) : ∀ i ∈ (getBucket cache c).issues, i.id ≠ id := by
  intro i hi hid
  have hnone := findSome?_eq_none_iff.mp h c (mem_paginatedCategories c)
  rw [Option.map_eq_none_iff] at hnone
  have hnot := find?_eq_none.mp hnone i hi
  rw [decide_eq_true_eq] at hnot
  exact hnot hid

/-- An id is loaded in one place only. -/
theorem Represented.only (h : Represented cache)
    (hloc : findIssueLocation cache id = some (c, issue)) {c' : IssueStatusCategory} {i : Issue}
    (hi : i ∈ (getBucket cache c').issues) (hid : i.id = id) : c' = c ∧ i = issue := by
  obtain ⟨hmem, hissue⟩ := findIssueLocation_mem hloc
  have hc := h.apart c' c i issue hi hmem (hid.trans hissue.symm)
  subst hc
  refine ⟨rfl, ?_⟩
  exact inj_on_of_nodup_map (h.once c') hi hmem (hid.trans hissue.symm)

/-- Another content for one bucket. -/
theorem Represented.setBucket (h : Represented cache) (c : IssueStatusCategory)
    (bucket : IssueStatusBucket) (honce : (bucket.issues.map Issue.id).Nodup)
    (hplaced : ∀ i ∈ bucket.issues, issueStatusCategory i = some c)
    (hcounted : bucket.issues.length ≤ bucket.total)
    (hapart : ∀ i ∈ bucket.issues, ∀ c', c' ≠ c → ∀ j ∈ (getBucket cache c').issues, j.id ≠ i.id) :
    Represented (setBucket cache c bucket) := by
  apply Represented.mk
  · intro c'
    rw [getBucket_setBucket]
    by_cases hc : c' = c
    · rw [if_pos hc]
      exact honce
    · rw [if_neg hc]
      exact h.once c'
  · intro c' c'' i i' hi hi' hid
    rw [getBucket_setBucket] at hi hi'
    by_cases hc : c' = c
    · by_cases hc' : c'' = c
      · rw [hc, hc']
      · rw [if_pos hc] at hi
        rw [if_neg hc'] at hi'
        exact absurd hid.symm (hapart i hi c'' hc' i' hi')
    · rw [if_neg hc] at hi
      by_cases hc' : c'' = c
      · rw [if_pos hc'] at hi'
        exact absurd hid (hapart i' hi' c' hc i hi)
      · rw [if_neg hc'] at hi'
        exact h.apart c' c'' i i' hi hi' hid
  · intro c' i hi
    rw [getBucket_setBucket] at hi
    by_cases hc : c' = c
    · rw [if_pos hc] at hi
      rw [hc]
      exact hplaced i hi
    · rw [if_neg hc] at hi
      exact h.placed c' i hi
  · intro c'
    rw [getBucket_setBucket]
    by_cases hc : c' = c
    · rw [if_pos hc]
      exact hcounted
    · rw [if_neg hc]
      exact h.counted c'

/-- Only the count of a bucket changes. -/
theorem Represented.setTotal (h : Represented cache) (c : IssueStatusCategory) (total : Nat)
    (hle : (getBucket cache c).issues.length ≤ total) :
    Represented (IssueCache.setBucket cache c { getBucket cache c with total := total }) := by
  apply h.setBucket c ⟨(getBucket cache c).issues, total⟩ (h.once c) (h.placed c) hle
  intro i hi c' hc j hj hid
  exact hc (h.apart c' c j i hj hi hid)

/-! ## Cards in and out -/

/-- The cards that stay before a card inserted by its position. -/
def before (issues : List Issue) (issue : Issue) : List Issue :=
  issues.takeWhile fun i => !(i.position > issue.position)

def behind (issues : List Issue) (issue : Issue) : List Issue :=
  issues.dropWhile fun i => !(i.position > issue.position)

theorem before_append_behind (issues : List Issue) (issue : Issue) :
    before issues issue ++ behind issues issue = issues := takeWhile_append_dropWhile

theorem insertByPosition_eq (issues : List Issue) (issue : Issue) :
    insertByPosition issues issue = before issues issue ++ issue :: behind issues issue := by
  unfold insertByPosition before behind
  induction issues with
  | nil => rfl
  | cons i issues ih =>
    rw [findIdx?_cons]
    by_cases hi : i.position > issue.position
    · simp [hi]
    · simp only [hi, decide_false, Bool.not_false, takeWhile_cons_of_pos,
        dropWhile_cons_of_pos, Bool.false_eq_true, if_false]
      cases hidx : issues.findIdx? fun i => decide (i.position > issue.position) with
      | none =>
        rw [hidx] at ih
        exact congrArg (i :: ·) ih
      | some idx =>
        rw [hidx] at ih
        exact congrArg (i :: ·) ih

theorem insertByPosition_perm (issues : List Issue) (issue : Issue) :
    (insertByPosition issues issue).Perm (issue :: issues) := by
  rw [insertByPosition_eq]
  apply perm_middle.trans
  rw [before_append_behind]

/-- A bucket with a card taken out. -/
abbrev without (bucket : IssueStatusBucket) (id : String) : IssueStatusBucket :=
  ⟨bucket.issues.filter fun i => i.id ≠ id, bucket.total - 1⟩

/-- The card is taken out of the bucket it is in. -/
theorem Represented.remove (h : Represented cache)
    (hloc : findIssueLocation cache id = some (c, issue)) :
    Represented (IssueCache.setBucket cache c (without (getBucket cache c) id)) := by
  obtain ⟨hmem, hid⟩ := findIssueLocation_mem hloc
  apply h.setBucket c
  · exact (h.once c).sublist (filter_sublist.map Issue.id)
  · intro i hi
    exact h.placed c i (mem_of_mem_filter hi)
  · have hlt : ((getBucket cache c).issues.filter fun i => i.id ≠ id).length <
        (getBucket cache c).issues.length :=
      length_filter_lt_length_iff_exists.mpr ⟨issue, hmem, by simp [hid]⟩
    have hcounted := h.counted c
    show ((getBucket cache c).issues.filter fun i => i.id ≠ id).length ≤
      (getBucket cache c).total - 1
    omega
  · intro i hi c' hc j hj hid'
    exact hc (h.apart c' c j i hj (mem_of_mem_filter hi) hid')

/-- A card that is loaded nowhere is put into the bucket of its category. -/
theorem Represented.insert (h : Represented cache) (hcategory : issueStatusCategory issue = some c)
    (hnew : ∀ c', ∀ i ∈ (getBucket cache c').issues, i.id ≠ issue.id) (issues : List Issue)
    (hperm : issues.Perm (issue :: (getBucket cache c).issues)) (total : Nat)
    (htotal : (getBucket cache c).issues.length + 1 ≤ total) :
    Represented (IssueCache.setBucket cache c ⟨issues, total⟩) := by
  apply h.setBucket c
  · have hids := hperm.map Issue.id
    rw [map_cons] at hids
    apply hids.nodup_iff.mpr
    rw [nodup_cons]
    refine ⟨?_, h.once c⟩
    intro hmem
    obtain ⟨i, hi, hid⟩ := mem_map.mp hmem
    exact hnew c i hi hid
  · intro i hi
    rcases mem_cons.mp (hperm.mem_iff.mp hi) with rfl | hold
    · exact hcategory
    · exact h.placed c i hold
  · show issues.length ≤ total
    rw [hperm.length_eq, length_cons]
    exact htotal
  · intro i hi c' hc j hj hid
    rcases mem_cons.mp (hperm.mem_iff.mp hi) with rfl | hold
    · exact hnew c' j hj hid
    · exact hc (h.apart c' c j i hj hold hid)

/-! ## Statuses of a patch -/

theorem isIssueStatusCategory_key (c : IssueStatusCategory) : isIssueStatusCategory c.key = some c := by
  cases c <;> decide

theorem normalizeStatusPatch_status (patch : IssuePatch) :
    (normalizeStatusPatch patch).status = patch.status := by
  unfold normalizeStatusPatch
  cases hstatus : patch.status with
  | none => exact hstatus
  | some status => rfl

variable {status : String}

theorem normalizeStatusPatch_of_status (h : patch.status = some status) :
    normalizeStatusPatch patch =
      { patch with statusCategory := some ((patch.category status).map IssueStatusCategory.key) } := by
  unfold normalizeStatusPatch
  simp only [h]

theorem category_normalized (h : patch.status = some status) :
    (normalizeStatusPatch patch).category status = patch.category status := by
  unfold normalizeStatusPatch
  rw [h]
  show statusCategoryOf status (Option.join (some ((patch.category status).map
    IssueStatusCategory.key))) = patch.category status
  rw [Option.join_some]
  cases hcategory : patch.category status with
  | none =>
    rw [IssuePatch.category, statusCategoryOf] at hcategory
    rw [statusCategoryOf]
    cases hsent : patch.statusCategory.join.bind isIssueStatusCategory with
    | none =>
      rw [hsent] at hcategory
      exact hcategory
    | some c =>
      rw [hsent] at hcategory
      cases hcategory
  | some c =>
    show statusCategoryOf status (some c.key) = some c
    rw [statusCategoryOf, Option.bind_some, isIssueStatusCategory_key]

theorem normalizeStatusPatch_idem (patch : IssuePatch) :
    normalizeStatusPatch (normalizeStatusPatch patch) = normalizeStatusPatch patch := by
  cases hstatus : patch.status with
  | none => simp [normalizeStatusPatch, hstatus]
  | some status =>
    have hstatus' : (normalizeStatusPatch patch).status = some status := by
      rw [normalizeStatusPatch_status]
      exact hstatus
    rw [normalizeStatusPatch_of_status hstatus', category_normalized hstatus,
      normalizeStatusPatch_of_status hstatus]

/-- A patch with a status takes the issue to the category it names. -/
theorem category_merge (h : patch.status = some status) (issue : Issue) :
    issueStatusCategory (issue.merge (normalizeStatusPatch patch)) =
      patch.category status := by
  rw [← category_normalized h]
  have hstatus : (normalizeStatusPatch patch).status = some status := by
    rw [normalizeStatusPatch_status]
    exact h
  have hsent : (normalizeStatusPatch patch).statusCategory =
      some ((patch.category status).map IssueStatusCategory.key) := by
    rw [normalizeStatusPatch, h]
  unfold issueStatusCategory Issue.merge IssuePatch.category
  rw [hstatus, hsent, Option.getD_some, Option.getD_some, Option.join_some]

/-- A patch with nothing about the status leaves the issue in its category. -/
theorem category_merge_none (hstatus : patch.status = none) (hsent : patch.statusCategory = none)
    (issue : Issue) :
    issueStatusCategory (issue.merge (normalizeStatusPatch patch)) = issueStatusCategory issue := by
  have hsame : normalizeStatusPatch patch = patch := by
    unfold normalizeStatusPatch
    simp only [hstatus]
  rw [hsame]
  unfold issueStatusCategory Issue.merge
  rw [hstatus, hsent, Option.getD_none, Option.getD_none]

/-! ## The helpers -/

/-- Nothing loaded has the id of a card that goes where it is not looked for. -/
def AddFits (cache : ListIssuesCache) (issue : Issue) : Prop :=
  ∀ category, issueStatusCategory issue = some category →
    ∀ loc, findIssueLocation cache issue.id = some loc → loc.1 = category

/-- A bucket with a card to count that is not loaded. -/
def CountFits (cache : ListIssuesCache) (c : IssueStatusCategory) : Prop :=
  (getBucket cache c).issues.length < (getBucket cache c).total ∨ (getBucket cache c).total = 0

section

variable (h : Represented cache)
include h

theorem Represented.add (hfits : AddFits cache issue) :
    Represented (addIssueToBuckets cache issue) := by
  unfold addIssueToBuckets
  cases hcategory : issueStatusCategory issue with
  | none => exact h
  | some category =>
    dsimp only
    by_cases hthere : ((getBucket cache category).issues.any fun i => i.id = issue.id) = true
    · rw [if_pos hthere]
      exact h
    · rw [if_neg hthere]
      have hnot : ∀ i ∈ (getBucket cache category).issues, i.id ≠ issue.id := by
        intro i hi hid
        exact hthere (any_eq_true.mpr ⟨i, hi, by simpa using hid⟩)
      have hnew : findIssueLocation cache issue.id = none := by
        cases hloc : findIssueLocation cache issue.id with
        | none => rfl
        | some loc =>
          have hc := hfits category hcategory loc hloc
          obtain ⟨hmem, hid⟩ := findIssueLocation_mem hloc
          rw [hc] at hmem
          exact absurd hid (hnot loc.2 hmem)
      apply h.insert hcategory (findIssueLocation_none hnew)
      · exact perm_append_singleton issue _
      · exact Nat.succ_le_succ (h.counted category)

theorem Represented.removed (hnext : removeIssueFromBuckets cache id = some next) :
    Represented next := by
  unfold removeIssueFromBuckets at hnext
  cases hloc : findIssueLocation cache id with
  | none =>
    rw [hloc] at hnext
    cases hnext
  | some loc =>
    rw [hloc] at hnext
    cases hnext
    exact h.remove hloc

theorem Represented.decremented (hfits : CountFits cache c) :
    Represented (decrementBucketTotal cache c) := by
  apply h.setTotal
  have hcounted := h.counted c
  rcases hfits with hlt | hzero
  · omega
  · omega

theorem Represented.moved {source target : IssueStatusCategory}
    (hfits : source ≠ target → CountFits cache source)
    (hnext : moveBucketTotal cache source target = some next) : Represented next := by
  unfold moveBucketTotal at hnext
  by_cases hsame : source = target
  · rw [if_pos hsame] at hnext
    cases hnext
  · rw [if_neg hsame, Option.some.injEq] at hnext
    rw [← hnext]
    have hless := h.decremented (hfits hsame)
    have htarget : getBucket (decrementBucketTotal cache source) target = getBucket cache target := by
      rw [decrementBucketTotal, getBucket_setBucket, if_neg (fun heq => hsame heq.symm)]
    rw [← htarget]
    apply hless.setTotal
    exact Nat.le_succ_of_le (hless.counted target)

end

/-- What patching a card does: it stays where it is, goes to another slot of its
bucket, or goes to another bucket. -/
theorem patchIssueInBuckets_cases (h : patchIssueInBuckets cache id patch = some next) :
    ∃ c issue category, findIssueLocation cache id = some (c, issue) ∧
      (normalizeStatusPatch patch).nextCategory c = some category ∧
      ((category = c ∧ (normalizeStatusPatch patch).positionChanged issue = false ∧
          next = setBucket cache c ⟨(getBucket cache c).issues.map fun i =>
            if i.id = id then issue.merge (normalizeStatusPatch patch) else i,
              (getBucket cache c).total⟩) ∨
        (category = c ∧ (normalizeStatusPatch patch).positionChanged issue = true ∧
          next = setBucket cache c ⟨insertByPosition
            ((getBucket cache c).issues.filter fun i => i.id ≠ id)
              (issue.merge (normalizeStatusPatch patch)), (getBucket cache c).total⟩) ∨
        (category ≠ c ∧
          next = setBucket (setBucket cache c (without (getBucket cache c) id))
              category ⟨insertByPosition (getBucket cache category).issues
                (issue.merge (normalizeStatusPatch patch)), (getBucket cache category).total + 1⟩)) := by
  unfold patchIssueInBuckets at h
  cases hloc : findIssueLocation cache id with
  | none =>
    rw [hloc] at h
    cases h
  | some loc =>
    obtain ⟨c, issue⟩ := loc
    rw [hloc] at h
    dsimp only at h
    cases hnext : (normalizeStatusPatch patch).nextCategory c with
    | none =>
      rw [hnext] at h
      cases h
    | some category =>
      rw [hnext] at h
      dsimp only at h
      refine ⟨c, issue, category, rfl, hnext, ?_⟩
      by_cases hsame : category = c
      · rw [if_pos hsame] at h
        cases hmoved : (normalizeStatusPatch patch).positionChanged issue with
        | false =>
          rw [hmoved] at h
          exact .inl ⟨hsame, rfl, (Option.some.inj h).symm⟩
        | true =>
          rw [hmoved] at h
          exact .inr (.inl ⟨hsame, rfl, (Option.some.inj h).symm⟩)
      · rw [if_neg hsame] at h
        exact .inr (.inr ⟨hsame, (Option.some.inj h).symm⟩)

/-- The card is exchanged for one with the same id. -/
theorem Represented.exchange (h : Represented cache) (c : IssueStatusCategory) {merged : Issue}
    (hid : merged.id = id) (hcategory : issueStatusCategory merged = some c) :
    Represented (IssueCache.setBucket cache c ⟨(getBucket cache c).issues.map fun i =>
      if i.id = id then merged else i, (getBucket cache c).total⟩) := by
  have hids : ((getBucket cache c).issues.map fun i => if i.id = id then merged else i).map
      Issue.id = (getBucket cache c).issues.map Issue.id := by
    rw [map_map]
    apply map_congr_left
    intro i _
    show (if i.id = id then merged else i).id = i.id
    by_cases hi : i.id = id
    · rw [if_pos hi, hid, hi]
    · rw [if_neg hi]
  apply h.setBucket c
  · rw [hids]
    exact h.once c
  · intro i hi
    obtain ⟨j, hj, heq⟩ := mem_map.mp hi
    by_cases hj' : j.id = id
    · rw [if_pos hj'] at heq
      rw [← heq]
      exact hcategory
    · rw [if_neg hj'] at heq
      rw [← heq]
      exact h.placed c j hj
  · rw [length_map]
    exact h.counted c
  · intro i hi c' hc j hj hid'
    have hmem : i.id ∈ (getBucket cache c).issues.map Issue.id := by
      rw [← hids]
      exact mem_map_of_mem hi
    obtain ⟨k, hk, hkid⟩ := mem_map.mp hmem
    exact hc (h.apart c' c j k hj hk (hid'.trans hkid.symm))

/-- Once the card is out of its bucket, its id is loaded nowhere. -/
theorem Represented.removed_none (h : Represented cache)
    (hloc : findIssueLocation cache id = some (c, issue)) (c' : IssueStatusCategory) :
    ∀ i ∈ (getBucket (IssueCache.setBucket cache c (without (getBucket cache c) id))
        c').issues, i.id ≠ id := by
  intro i hi hid
  rw [getBucket_setBucket] at hi
  by_cases hc : c' = c
  · rw [if_pos hc] at hi
    have hne := (mem_filter.mp hi).2
    rw [decide_eq_true_eq] at hne
    exact hne hid
  · rw [if_neg hc] at hi
    exact hc (h.only hloc hi hid).1

/-- Where a patch has no status, the card stays in its bucket. -/
theorem Represented.patched (h : Represented cache)
    (hfits : ∀ c issue, findIssueLocation cache id = some (c, issue) → patch.status = none →
      issueStatusCategory (issue.merge (normalizeStatusPatch patch)) = some c)
    (hnext : patchIssueInBuckets cache id patch = some next) :
    Represented next := by
  obtain ⟨c, issue, category, hloc, hto, hcases⟩ := patchIssueInBuckets_cases hnext
  obtain ⟨hmem, hid⟩ := findIssueLocation_mem hloc
  have hcategory : issueStatusCategory (issue.merge (normalizeStatusPatch patch)) = some category := by
    rw [IssuePatch.nextCategory, normalizeStatusPatch_status] at hto
    cases hstatus : patch.status with
    | none =>
      rw [hstatus, Option.some.injEq] at hto
      rw [← hto]
      exact hfits c issue hloc hstatus
    | some status =>
      rw [hstatus] at hto
      dsimp only at hto
      rw [category_normalized hstatus] at hto
      rw [category_merge hstatus]
      exact hto
  have hmergedId : (issue.merge (normalizeStatusPatch patch)).id = id := hid
  generalize issue.merge (normalizeStatusPatch patch) = merged at hcategory hmergedId hcases
  have hremoved := h.remove hloc
  have hnone : ∀ c',
      ∀ i ∈ (getBucket (IssueCache.setBucket cache c (without (getBucket cache c) id)) c').issues, i.id ≠ merged.id := by
    rw [hmergedId]
    exact h.removed_none hloc
  rcases hcases with ⟨rfl, _, rfl⟩ | ⟨rfl, _, rfl⟩ | ⟨hne, rfl⟩
  · exact h.exchange category hmergedId hcategory
  · have hself : getBucket (IssueCache.setBucket cache category (without (getBucket cache category) id))
        category = without (getBucket cache category) id := by
      rw [getBucket_setBucket, if_pos rfl]
    have hlt : ((getBucket cache category).issues.filter fun i => i.id ≠ id).length <
        (getBucket cache category).issues.length :=
      length_filter_lt_length_iff_exists.mpr ⟨issue, hmem, by simp [hid]⟩
    have hinserted := hremoved.insert hcategory hnone
      (insertByPosition ((getBucket cache category).issues.filter fun i => i.id ≠ id) merged)
      (by rw [hself]; exact insertByPosition_perm _ _) (getBucket cache category).total
      (by rw [hself]; exact Nat.le_trans hlt (h.counted category))
    rw [IssueCache.setBucket, IssueCache.setBucket, OrderedMap.set_set] at hinserted
    exact hinserted
  · have hother : getBucket (IssueCache.setBucket cache c (without (getBucket cache c) id))
          category = getBucket cache category := by
      rw [getBucket_setBucket, if_neg hne]
    apply hremoved.insert hcategory hnone
    · rw [hother]
      exact insertByPosition_perm _ _
    · rw [hother]
      exact Nat.succ_le_succ (h.counted category)

/-! ## A change of an issue -/

/-- A change that does no harm to the representation: a card that stays on the
list keeps its category where the patch has no status, and a count is only taken
from a bucket with a card that is not loaded. -/
def ChangeFits (key : ListKey) (data : ListIssuesCache) (id : String) (rawPatch : IssuePatch)
    (changed : IssueChangedDims) (baseIssue : Option Issue) (acceptCurrent : Issue → Bool) : Prop :=
  let patch := normalizeStatusPatch rawPatch
  let contract := listContractFromKey key
  match findIssueLocation data id with
  | some (c, issue) => acceptCurrent issue = true → patch.status = none →
      (listFilterDependsOn contract.scope contract.filter changed = true →
        issueMatchesListFilter (spread (some issue) patch) contract.scope contract.filter ≠ .no) →
      issueStatusCategory (issue.merge patch) = some c
  | none =>
    match reconcileAbsent contract patch changed baseIssue with
    | .move source target => source ≠ target → CountFits data source
    | .leave c => CountFits data c
    | .skip => True
    | .refetch => True

theorem write_represented (h : Represented cache) {next : Option ListIssuesCache} (stale : Bool)
    (hnext : ∀ after, next = some after → Represented after) :
    Represented (write cache next stale).cache := by
  cases next with
  | none => exact h
  | some after => exact hnext after rfl

variable {key : ListKey} {changed : IssueChangedDims} {base : Option Issue}
  {accept : Issue → Bool}

/-- What is kept for a rollback is the cache as it was. -/
theorem applyIssueChange_prev {prev : ListIssuesCache}
    (h : (applyIssueChange key cache id patch changed base accept).prev = some prev) :
    prev = cache := by
  have hwrite : ∀ next stale, (write cache next stale).prev = some prev → prev = cache := by
    intro next stale hprev
    cases next with
    | none => cases hprev
    | some after => exact (Option.some.inj hprev).symm
  unfold applyIssueChange at h
  cases hloc : findIssueLocation cache id with
  | none =>
    rw [hloc] at h
    dsimp only at h
    unfold applyToAbsent at h
    cases hrule : reconcileAbsent (listContractFromKey key) (normalizeStatusPatch patch) changed
        base with
    | skip =>
      rw [hrule] at h
      exact hwrite _ _ h
    | move source target =>
      rw [hrule] at h
      dsimp only at h
      cases hmove : moveBucketTotal cache source target with
      | none =>
        rw [hmove] at h
        exact hwrite _ _ h
      | some next =>
        rw [hmove] at h
        exact hwrite _ _ h
    | leave c =>
      rw [hrule] at h
      exact hwrite _ _ h
    | refetch =>
      rw [hrule] at h
      exact hwrite _ _ h
  | some loc =>
    rw [hloc] at h
    dsimp only at h
    by_cases haccept : accept loc.2 = true
    · rw [if_pos haccept] at h
      unfold applyToLoaded at h
      split at h
      · split at h
        · exact hwrite _ _ h
        · exact hwrite _ _ h
        · exact hwrite _ _ h
      · exact hwrite _ _ h
    · rw [if_neg haccept] at h
      exact hwrite _ _ h

theorem Represented.change (h : Represented cache)
    (hfits : ChangeFits key cache id patch changed base accept) :
    Represented (applyIssueChange key cache id patch changed base accept).cache := by
  unfold applyIssueChange
  unfold ChangeFits at hfits
  cases hloc : findIssueLocation cache id with
  | none =>
    rw [hloc] at hfits
    dsimp only at hfits ⊢
    unfold applyToAbsent
    cases hrule : reconcileAbsent (listContractFromKey key) (normalizeStatusPatch patch) changed
        base with
    | skip => exact h
    | refetch => exact h
    | move source target =>
      rw [hrule] at hfits
      dsimp only
      cases hmove : moveBucketTotal cache source target with
      | none => exact h
      | some next => exact h.moved hfits hmove
    | leave c =>
      rw [hrule] at hfits
      exact h.decremented hfits
  | some loc =>
    obtain ⟨c, issue⟩ := loc
    rw [hloc] at hfits
    dsimp only at hfits ⊢
    by_cases haccept : accept issue = true
    · rw [if_pos haccept]
      unfold applyToLoaded
      -- Where the card stays on the list, its patch fits its bucket.
      have hpatched : (listFilterDependsOn (listContractFromKey key).scope
          (listContractFromKey key).filter changed = true →
            issueMatchesListFilter (spread (some issue) (normalizeStatusPatch patch))
              (listContractFromKey key).scope (listContractFromKey key).filter ≠ .no) →
          ∀ after, patchIssueInBuckets cache id (normalizeStatusPatch patch) = some after →
            Represented after := by
        intro hstays after hafter
        apply h.patched _ hafter
        intro c' issue' hloc' hstatus
        rw [hloc, Option.some.injEq, Prod.mk.injEq] at hloc'
        obtain ⟨rfl, rfl⟩ := hloc'
        rw [normalizeStatusPatch_idem]
        exact hfits haccept hstatus hstays
      by_cases htouched : listFilterDependsOn (listContractFromKey key).scope
          (listContractFromKey key).filter changed = true
      · rw [if_pos htouched]
        cases hmember : issueMatchesListFilter (spread (some issue) (normalizeStatusPatch patch))
            (listContractFromKey key).scope (listContractFromKey key).filter with
        | no => exact write_represented h _ (fun after hafter => h.removed hafter)
        | yes =>
          apply write_represented h
          apply hpatched
          intro _
          rw [hmember]
          nofun
        | unknown =>
          apply write_represented h
          apply hpatched
          intro _
          rw [hmember]
          nofun
      · rw [if_neg htouched]
        apply write_represented h
        apply hpatched
        exact fun habsurd => absurd habsurd htouched
    · rw [if_neg haccept]
      exact h

end ClawMessenger.Ports.IssueCache
