import ClawMessenger.Verified.OrderedMap

/-!
# The issue caches of the client

A list cache has one bucket for every status category, with the issues that
are loaded and the number there are on the server.  An issue is placed by the
category of its status: what the server sent as category, or a built-in status
itself.  The helpers add, remove and move single cards and count; a `none` is
the cache handed back as it was.

`applyIssueChange` is the rule by which one change of an issue is applied to one
bucketed list, given what the key of the list encodes (`listContractFromKey`).
-/

namespace ClawMessenger.Ports.IssueCache

open Verified

/-! ## Issues and patches -/

inductive IssueStatusCategory where
  | backlog
  | todo
  | inProgress
  | inReview
  | done
  | blocked
  | cancelled
deriving DecidableEq, Repr

def paginatedCategories : List IssueStatusCategory :=
  [.backlog, .todo, .inProgress, .inReview, .done, .blocked, .cancelled]

def IssueStatusCategory.key : IssueStatusCategory → String
  | .backlog => "backlog"
  | .todo => "todo"
  | .inProgress => "in_progress"
  | .inReview => "in_review"
  | .done => "done"
  | .blocked => "blocked"
  | .cancelled => "cancelled"

/-- `isIssueStatusCategory`, with the category. -/
def isIssueStatusCategory (value : String) : Option IssueStatusCategory :=
  paginatedCategories.find? fun category => category.key = value

/-- What a list contract or a rule of the coordinator reads of an issue. -/
structure Issue where
  id : String
  title : String
  description : Option String
  status : String
  statusCategory : Option String
  priority : String
  assigneeType : Option String
  assigneeId : Option String
  creatorId : String
  parentIssueId : Option String
  projectId : Option String
  position : Rat
  stage : Option Int
  startDate : Option String
  dueDate : Option String
  properties : List (String × List String)
  createdAt : String
  updatedAt : String
  lastActivityAt : Option String
  revision : Option Nat
deriving DecidableEq, Repr

/-- `Partial<Issue>`: `none` is a field that is not there.  A field that is there
without a value exists for the category only. -/
structure IssuePatch where
  title : Option String
  description : Option (Option String)
  status : Option String
  statusCategory : Option (Option String)
  priority : Option String
  assigneeType : Option (Option String)
  assigneeId : Option (Option String)
  creatorId : Option String
  parentIssueId : Option (Option String)
  projectId : Option (Option String)
  position : Option Rat
  stage : Option (Option Int)
  startDate : Option (Option String)
  dueDate : Option (Option String)
  properties : Option (List (String × List String))
  createdAt : Option String
  updatedAt : Option String
  lastActivityAt : Option (Option String)
  revision : Option (Option Nat)

def emptyPatch : IssuePatch :=
  ⟨none, none, none, none, none, none, none, none, none, none, none, none, none, none, none, none,
    none, none, none⟩

/-- `{ ...issue, ...patch }` -/
def Issue.merge (issue : Issue) (patch : IssuePatch) : Issue where
  id := issue.id
  title := patch.title.getD issue.title
  description := patch.description.getD issue.description
  status := patch.status.getD issue.status
  statusCategory := patch.statusCategory.getD issue.statusCategory
  priority := patch.priority.getD issue.priority
  assigneeType := patch.assigneeType.getD issue.assigneeType
  assigneeId := patch.assigneeId.getD issue.assigneeId
  creatorId := patch.creatorId.getD issue.creatorId
  parentIssueId := patch.parentIssueId.getD issue.parentIssueId
  projectId := patch.projectId.getD issue.projectId
  position := patch.position.getD issue.position
  stage := patch.stage.getD issue.stage
  startDate := patch.startDate.getD issue.startDate
  dueDate := patch.dueDate.getD issue.dueDate
  properties := patch.properties.getD issue.properties
  createdAt := patch.createdAt.getD issue.createdAt
  updatedAt := patch.updatedAt.getD issue.updatedAt
  lastActivityAt := patch.lastActivityAt.getD issue.lastActivityAt
  revision := patch.revision.getD issue.revision

def Issue.toPatch (issue : Issue) : IssuePatch where
  title := some issue.title
  description := some issue.description
  status := some issue.status
  statusCategory := some issue.statusCategory
  priority := some issue.priority
  assigneeType := some issue.assigneeType
  assigneeId := some issue.assigneeId
  creatorId := some issue.creatorId
  parentIssueId := some issue.parentIssueId
  projectId := some issue.projectId
  position := some issue.position
  stage := some issue.stage
  startDate := some issue.startDate
  dueDate := some issue.dueDate
  properties := some issue.properties
  createdAt := some issue.createdAt
  updatedAt := some issue.updatedAt
  lastActivityAt := some issue.lastActivityAt
  revision := some issue.revision

/-- `{ ...baseIssue, ...patch }`, where there may be no base. -/
def spread (baseIssue : Option Issue) (patch : IssuePatch) : IssuePatch :=
  match baseIssue with
  | none => patch
  | some base => (base.merge patch).toPatch

/-! ## Categories -/

/-- `issueStatusCategory` of a status and the category sent with it. -/
def statusCategoryOf (status : String) (statusCategory : Option String) :
    Option IssueStatusCategory :=
  match statusCategory.bind isIssueStatusCategory with
  | some category => some category
  | none => isIssueStatusCategory status

def issueStatusCategory (issue : Issue) : Option IssueStatusCategory :=
  statusCategoryOf issue.status issue.statusCategory

/-- The category a patch names with its status. -/
def IssuePatch.category (patch : IssuePatch) (status : String) : Option IssueStatusCategory :=
  statusCategoryOf status patch.statusCategory.join

def normalizeStatusPatch (patch : IssuePatch) : IssuePatch :=
  match patch.status with
  | none => patch
  | some status =>
    { patch with statusCategory := some ((patch.category status).map IssueStatusCategory.key) }

def patchNeedsInvalidation (patch : IssuePatch) : Bool :=
  match patch.status with
  | none => false
  | some status => (patch.category status).isNone

/-! ## Buckets -/

structure IssueStatusBucket where
  issues : List Issue
  total : Nat

structure ListIssuesCache where
  byStatus : OrderedMap IssueStatusCategory IssueStatusBucket

def getBucket (resp : ListIssuesCache) (status : IssueStatusCategory) : IssueStatusBucket :=
  (resp.byStatus.get? status).getD ⟨[], 0⟩

def setBucket (resp : ListIssuesCache) (status : IssueStatusCategory)
    (bucket : IssueStatusBucket) : ListIssuesCache :=
  ⟨resp.byStatus.set status bucket⟩

theorem getBucket_setBucket (resp : ListIssuesCache) (status other : IssueStatusCategory)
    (bucket : IssueStatusBucket) :
    getBucket (setBucket resp status bucket) other =
      if other = status then bucket else getBucket resp other := by
  unfold getBucket setBucket
  rw [OrderedMap.get?_set]
  by_cases heq : other = status
  · rw [if_pos heq, if_pos heq]
    rfl
  · rw [if_neg heq, if_neg heq]

section

variable (resp : ListIssuesCache)

def findIssueLocation (id : String) :
    Option (IssueStatusCategory × Issue) :=
  paginatedCategories.findSome? fun status =>
    ((getBucket resp status).issues.find? fun i => i.id = id).map fun found => (status, found)

def addIssueToBuckets (issue : Issue) : ListIssuesCache :=
  match issueStatusCategory issue with
  | none => resp
  | some category =>
    let bucket := getBucket resp category
    if bucket.issues.any fun i => i.id = issue.id then resp
    else setBucket resp category ⟨bucket.issues ++ [issue], bucket.total + 1⟩

def removeIssueFromBuckets (id : String) : Option ListIssuesCache :=
  match findIssueLocation resp id with
  | none => none
  | some (status, _) =>
    let bucket := getBucket resp status
    some (setBucket resp status ⟨bucket.issues.filter fun i => i.id ≠ id, bucket.total - 1⟩)

def moveBucketTotal (source target : IssueStatusCategory) :
    Option ListIssuesCache :=
  if source = target then none
  else
    let fromBucket := getBucket resp source
    let toBucket := getBucket resp target
    let next := setBucket resp source { fromBucket with total := fromBucket.total - 1 }
    some (setBucket next target { toBucket with total := toBucket.total + 1 })

def decrementBucketTotal (status : IssueStatusCategory) :
    ListIssuesCache :=
  let bucket := getBucket resp status
  setBucket resp status { bucket with total := bucket.total - 1 }

end

def insertByPosition (issues : List Issue) (issue : Issue) : List Issue :=
  match issues.findIdx? fun i => i.position > issue.position with
  | none => issues ++ [issue]
  | some idx => issues.take idx ++ issue :: issues.drop idx

/-- `nextCategory`, for a card in the bucket of `current`. -/
def IssuePatch.nextCategory (patch : IssuePatch) (current : IssueStatusCategory) :
    Option IssueStatusCategory :=
  match patch.status with
  | none => some current
  | some status => patch.category status

def IssuePatch.positionChanged (patch : IssuePatch) (issue : Issue) : Bool :=
  match patch.position with
  | none => false
  | some position => position ≠ issue.position

def patchIssueInBuckets (resp : ListIssuesCache) (id : String) (rawPatch : IssuePatch) :
    Option ListIssuesCache :=
  match findIssueLocation resp id with
  | none => none
  | some (status, issue) =>
    let patch := normalizeStatusPatch rawPatch
    let merged := issue.merge patch
    match patch.nextCategory status with
    | none => none
    | some nextCategory =>
      if nextCategory = status then
        let bucket := getBucket resp status
        if !patch.positionChanged issue then
          some (setBucket resp status
            { bucket with issues := bucket.issues.map fun i => if i.id = id then merged else i })
        else
          some (setBucket resp status
            { bucket with
              issues := insertByPosition (bucket.issues.filter fun i => i.id ≠ id) merged })
      else
        let fromBucket := getBucket resp status
        let toBucket := getBucket resp nextCategory
        let next := setBucket resp status
          ⟨fromBucket.issues.filter fun i => i.id ≠ id, fromBucket.total - 1⟩
        some (setBucket next nextCategory
          ⟨insertByPosition toBucket.issues merged, toBucket.total + 1⟩)

/-! ## What the key of a list encodes -/

inductive SortBy where
  | position
  | status
  | priority
  | title
  | createdAt
  | updatedAt
  | lastActivity
  | startDate
  | dueDate
  | property (definition : String)
deriving DecidableEq, Repr

inductive SortDirection where
  | asc
  | desc

inductive DateField where
  | createdAt
  | updatedAt

structure IssueSortParam where
  sortBy : Option SortBy
  sortDirection : Option SortDirection
  dateField : Option DateField
  dateStart : Option String
  dateEnd : Option String
  properties : List (String × List String)

structure MyIssuesFilter where
  assigneeId : Option String
  assigneeIds : Option (List String)
  assigneeTypes : Option (List String)
  creatorId : Option String
  projectId : Option String
  involvesUserId : Option String

def noFilter : MyIssuesFilter := ⟨none, none, none, none, none, none⟩

/-- The key of a bucketed list: of the workspace, or of one of the scopes. -/
inductive ListKey where
  | list (sort : IssueSortParam)
  | my (scope : String) (filter : MyIssuesFilter) (sort : IssueSortParam)

structure ListContract where
  scope : Option String
  filter : MyIssuesFilter
  sort : IssueSortParam

def listContractFromKey : ListKey → ListContract
  | .list sort => ⟨none, noFilter, sort⟩
  | .my scope filter sort => ⟨some scope, filter, sort⟩

/-! ## Membership -/

structure IssueChangedDims where
  assignee : Bool
  project : Bool
  status : Bool

/-- Whether a patch writes a field with another value than the base has. -/
def patchFieldChanged {α : Type} [DecidableEq α] (value base : Option α) : Bool :=
  match value with
  | none => false
  | some value =>
    match base with
    | none => true
    | some base => value ≠ base

def issueChangedDims (patch : IssuePatch) (base : Option Issue) : IssueChangedDims where
  assignee := patchFieldChanged patch.assigneeId (base.map Issue.assigneeId) ||
    patchFieldChanged patch.assigneeType (base.map Issue.assigneeType)
  project := patchFieldChanged patch.projectId (base.map Issue.projectId)
  status := patchFieldChanged patch.status (base.map Issue.status)

def listFilterDependsOn (scope : Option String) (filter : MyIssuesFilter)
    (changed : IssueChangedDims) : Bool :=
  if scope = some "all" then changed.assignee
  else if changed.assignee && (filter.assigneeId.isSome || filter.assigneeIds.isSome ||
      filter.assigneeTypes.isSome || filter.involvesUserId.isSome) then true
  else changed.project && filter.projectId.isSome

inductive IssueMembership where
  | yes
  | no
  | unknown
deriving DecidableEq, Repr

/-- A test of the filter on a field of the issue: passed where the filter has
none, open where the field is not there. -/
def fieldMatches {α β : Type} (test : Option α) (field : Option β) (accepts : α → β → Bool) :
    IssueMembership :=
  match test with
  | none => .yes
  | some test =>
    match field with
    | none => .unknown
    | some value => if accepts test value then .yes else .no

def IssueMembership.and : IssueMembership → IssueMembership → IssueMembership
  | .no, _ => .no
  | _, .no => .no
  | .unknown, _ => .unknown
  | _, .unknown => .unknown
  | .yes, .yes => .yes

def issueMatchesListFilter (issue : IssuePatch) (scope : Option String)
    (filter : MyIssuesFilter) : IssueMembership :=
  if scope = some "all" then .unknown
  else
    let assigned := fieldMatches filter.assigneeId issue.assigneeId fun id value => value = some id
    let amongIds := fieldMatches filter.assigneeIds issue.assigneeId fun ids value =>
      value.any fun id => id ∈ ids
    let amongTypes := fieldMatches filter.assigneeTypes issue.assigneeType fun types value =>
      value.any fun type => type ∈ types
    let created := fieldMatches filter.creatorId issue.creatorId fun id value => value = id
    let project := fieldMatches filter.projectId issue.projectId fun id value => value = some id
    let involves : IssueMembership := if filter.involvesUserId.isSome then .unknown else .yes
    assigned.and (amongIds.and (amongTypes.and (created.and (project.and involves))))

/-! ## The coordinator -/

/-- A property bag that is there is a new object, and so never the same. -/
def patchChangesAnyIssueField (patch : IssuePatch) (base : Option Issue) : Bool :=
  patchFieldChanged patch.title (base.map Issue.title) ||
  patchFieldChanged patch.description (base.map Issue.description) ||
  patchFieldChanged patch.status (base.map Issue.status) ||
  patchFieldChanged patch.statusCategory (base.map Issue.statusCategory) ||
  patchFieldChanged patch.priority (base.map Issue.priority) ||
  patchFieldChanged patch.assigneeType (base.map Issue.assigneeType) ||
  patchFieldChanged patch.assigneeId (base.map Issue.assigneeId) ||
  patchFieldChanged patch.creatorId (base.map Issue.creatorId) ||
  patchFieldChanged patch.parentIssueId (base.map Issue.parentIssueId) ||
  patchFieldChanged patch.projectId (base.map Issue.projectId) ||
  patchFieldChanged patch.position (base.map Issue.position) ||
  patchFieldChanged patch.stage (base.map Issue.stage) ||
  patchFieldChanged patch.startDate (base.map Issue.startDate) ||
  patchFieldChanged patch.dueDate (base.map Issue.dueDate) ||
  patch.properties.isSome ||
  patchFieldChanged patch.createdAt (base.map Issue.createdAt) ||
  patchFieldChanged patch.updatedAt (base.map Issue.updatedAt) ||
  patchFieldChanged patch.lastActivityAt (base.map Issue.lastActivityAt) ||
  patchFieldChanged patch.revision (base.map Issue.revision)

def patchChangesIssueActivity (patch : IssuePatch) (base : Option Issue) : Bool :=
  if patch.lastActivityAt.isSome then
    patchFieldChanged patch.lastActivityAt (base.map Issue.lastActivityAt)
  else
    patchFieldChanged patch.title (base.map Issue.title) ||
    patchFieldChanged patch.description (base.map Issue.description) ||
    patchFieldChanged patch.status (base.map Issue.status) ||
    patchFieldChanged patch.priority (base.map Issue.priority) ||
    patchFieldChanged patch.assigneeType (base.map Issue.assigneeType) ||
    patchFieldChanged patch.assigneeId (base.map Issue.assigneeId) ||
    patchFieldChanged patch.startDate (base.map Issue.startDate) ||
    patchFieldChanged patch.dueDate (base.map Issue.dueDate) ||
    patchFieldChanged patch.parentIssueId (base.map Issue.parentIssueId) ||
    patchFieldChanged patch.projectId (base.map Issue.projectId) ||
    patchFieldChanged patch.stage (base.map Issue.stage)

/-- Whether the order of the list has moved by the edit itself. -/
def sortMarks (sort : IssueSortParam) (patch : IssuePatch) (base : Option Issue) : Bool :=
  (sort.sortBy = some .updatedAt && patchChangesAnyIssueField patch base) ||
    (sort.sortBy = some .lastActivity && patchChangesIssueActivity patch base)

/-- What a change does to one list: the cache after it, the one before it where it
was written (an entry of `prevLists`), and whether the key is stale. -/
structure Change where
  cache : ListIssuesCache
  prev : Option ListIssuesCache
  stale : Bool

def write (data : ListIssuesCache) (next : Option ListIssuesCache) (stale : Bool) : Change :=
  match next with
  | none => ⟨data, none, stale⟩
  | some next => ⟨next, some data, stale⟩

/-- The card is loaded. -/
def applyToLoaded (contract : ListContract) (data : ListIssuesCache) (id : String) (issue : Issue)
    (patch : IssuePatch) (changed : IssueChangedDims) : Change :=
  let stale := sortMarks contract.sort patch (some issue) || patchNeedsInvalidation patch
  if listFilterDependsOn contract.scope contract.filter changed then
    match issueMatchesListFilter (spread (some issue) patch) contract.scope contract.filter with
    | .no => write data (removeIssueFromBuckets data id) stale
    | .yes => write data (patchIssueInBuckets data id patch) stale
    | .unknown => write data (patchIssueInBuckets data id patch) true
  else write data (patchIssueInBuckets data id patch) stale

/-- What is done about a card that is not loaded. -/
inductive Reconcile where
  | skip
  | move (source target : IssueStatusCategory)
  | leave (category : IssueStatusCategory)
  | refetch

def reconcileAbsent (contract : ListContract) (patch : IssuePatch) (changed : IssueChangedDims)
    (baseIssue : Option Issue) : Reconcile :=
  if !listFilterDependsOn contract.scope contract.filter changed && !changed.status then .skip
  else
    let isMember := issueMatchesListFilter (spread baseIssue patch) contract.scope contract.filter
    match baseIssue with
    | none => .refetch
    | some base =>
      match issueMatchesListFilter base.toPatch contract.scope contract.filter, isMember with
      | .no, .no => .skip
      | .yes, .yes =>
        match changed.status, patch.status with
        | true, some status =>
          match issueStatusCategory base, patch.category status with
          | some fromCategory, some toCategory => .move fromCategory toCategory
          | _, _ => .refetch
        | _, _ => .skip
      | .yes, .no =>
        match issueStatusCategory base with
        | none => .refetch
        | some leavingCategory => .leave leavingCategory
      | _, _ => .refetch

def applyToAbsent (contract : ListContract) (data : ListIssuesCache) (patch : IssuePatch)
    (changed : IssueChangedDims) (baseIssue : Option Issue) : Change :=
  let stale := sortMarks contract.sort patch baseIssue
  match reconcileAbsent contract patch changed baseIssue with
  | .skip => write data none stale
  | .move fromCategory toCategory =>
    match moveBucketTotal data fromCategory toCategory with
    | none => write data none stale
    | some next => write data (some next) true
  | .leave category => write data (some (decrementBucketTotal data category)) stale
  | .refetch => write data none true

/-- `applyIssueChange`, for one bucketed list. -/
def applyIssueChange (key : ListKey) (data : ListIssuesCache) (id : String) (rawPatch : IssuePatch)
    (changed : IssueChangedDims) (baseIssue : Option Issue) (acceptCurrent : Issue → Bool) :
    Change :=
  let patch := normalizeStatusPatch rawPatch
  let contract := listContractFromKey key
  match findIssueLocation data id with
  | some (_, issue) =>
    if acceptCurrent issue then applyToLoaded contract data id issue patch changed
    else write data none false
  | none => applyToAbsent contract data patch changed baseIssue

end ClawMessenger.Ports.IssueCache
