import ClawMessenger.Ports.IssueBoard
import ClawMessenger.Verified.SortOrder

/-!
# What the server answers for a list

The key of a list encodes a filter and an order.  The server's `ListIssues`
answers it for each category: the issues of the workspace that pass the filter
and the date window, in the order of the sort column, ties by the time of
creation and then by id.  What the database brings of its own (catalog,
collation, values of properties, who is involved in what) is a parameter.

The order decides between any two issues of different ids (`serverOrder_tie`), so
there is one answer only, which `answer` computes.
-/

namespace ClawMessenger.Ports.IssueCache

open Verified List
open SortOrder (linear thenBy_tie)

/-- `category` is the status catalog, `instant` reads a timestamp. -/
structure Database where
  category : String → Option IssueStatusCategory
  instant : String → Int
  titles : SortOrder String
  /-- `none` for a property without a usable definition. -/
  propertyValues : String → SortDirection → Option (SortOrder (List (String × List String)))
  propertiesMatch : List (String × List String) → List (String × List String) → Bool
  related : Option String → Option String → String → Bool
  involves : String → Option String → Option String → Bool

/-! ## Order -/

def directed {α : Type} (direction : SortDirection) (o : SortOrder α) : SortOrder α :=
  match direction with
  | .asc => o
  | .desc => o.reverse

def statusRank (status : String) : Nat :=
  ["backlog", "todo", "in_progress", "in_review", "done", "blocked", "cancelled"].idxOf status

def priorityRank (priority : String) : Nat := ["urgent", "high", "medium", "low"].idxOf priority

/-- Ascending unless the key says otherwise, and the last activity descending. -/
def sortDirection (sort : IssueSortParam) : SortDirection :=
  sort.sortDirection.getD (if sort.sortBy = some .lastActivity then .desc else .asc)

section

variable (db : Database) (sort : IssueSortParam)

/-- The column of `ORDER BY`.  The manual order has no direction, and a property
that cannot be sorted by is replaced by it. -/
def sortColumn : SortOrder Issue :=
  let direction := sortDirection sort
  match sort.sortBy.getD .position with
  | .position => (linear Rat).on Issue.position
  | .status => (directed direction (linear Nat)).on fun i => statusRank i.status
  | .priority => (directed direction (linear Nat)).on fun i => priorityRank i.priority
  | .title => (directed direction db.titles).on Issue.title
  | .createdAt => (directed direction (linear Int)).on fun i => db.instant i.createdAt
  | .updatedAt => (directed direction (linear Int)).on fun i => db.instant i.updatedAt
  | .lastActivity => (directed direction (linear Int)).nullsLast.on
      fun i => i.lastActivityAt.map db.instant
  | .startDate => (directed direction (linear String)).nullsLast.on Issue.startDate
  | .dueDate => (directed direction (linear String)).nullsLast.on Issue.dueDate
  | .property definition =>
    match db.propertyValues definition direction with
    | none => (linear Rat).on Issue.position
    | some values => values.on Issue.properties

/-- The columns that make the order unique. -/
def tieColumns : SortOrder Issue :=
  let byId : SortOrder Issue := (linear String).reverse.on Issue.id
  if sort.sortBy = some .lastActivity then byId
  else ((linear Int).reverse.on fun i => db.instant i.createdAt).thenBy byId

def serverOrder : SortOrder Issue :=
  (sortColumn db sort).thenBy (tieColumns db sort)

end

/-- Issues with different ids are never tied. -/
theorem serverOrder_tie {db : Database} {sort : IssueSortParam} {i j : Issue}
    (hij : (serverOrder db sort).le i j = true) (hji : (serverOrder db sort).le j i = true) :
    i.id = j.id := by
  have hid : ∀ a b : Issue, ((linear String).reverse.on Issue.id).le a b = true →
      b.id ≤ a.id := fun a b h => of_decide_eq_true h
  obtain ⟨htie, htie'⟩ := thenBy_tie hij hji
  unfold tieColumns at htie htie'
  by_cases hlast : sort.sortBy = some .lastActivity
  · rw [if_pos hlast] at htie htie'
    exact le_antisymm (hid j i htie') (hid i j htie)
  · rw [if_neg hlast] at htie htie'
    obtain ⟨hlow, hhigh⟩ := thenBy_tie htie htie'
    exact le_antisymm (hid j i hhigh) (hid i j hlow)

/-! ## Filter -/

def passes {α : Type} (test : Option α) (accepts : α → Bool) : Bool :=
  match test with
  | none => true
  | some test => accepts test

/-- The window of `appendIssueDateFilter`. -/
def inDateWindow (db : Database) (sort : IssueSortParam) (i : Issue) : Bool :=
  match sort.dateField, sort.dateStart, sort.dateEnd with
  | some field, some start, some stop =>
    let at' := match field with
      | .createdAt => db.instant i.createdAt
      | .updatedAt => db.instant i.updatedAt
    decide (db.instant start ≤ at') && decide (at' < db.instant stop)
  | _, _, _ => true

/-- The `WHERE` of `ListIssues`, but for the category.  An empty list is no filter. -/
def onList (db : Database) (contract : ListContract) (i : Issue) : Bool :=
  let filter := contract.filter
  (contract.scope ≠ some "all" || db.related i.assigneeType i.assigneeId i.creatorId) &&
  passes filter.assigneeId (fun id => i.assigneeId = some id) &&
  passes filter.assigneeIds (fun ids => ids = [] || i.assigneeId.any fun id => id ∈ ids) &&
  passes filter.assigneeTypes (fun types => types = [] || i.assigneeType.any fun t => t ∈ types) &&
  passes filter.creatorId (fun id => i.creatorId = id) &&
  passes filter.projectId (fun id => i.projectId = some id) &&
  (contract.sort.properties = [] || db.propertiesMatch contract.sort.properties i.properties) &&
  inDateWindow db contract.sort i &&
  passes filter.involvesUserId (fun user => db.involves user i.assigneeType i.assigneeId)

/-- In the answer, and under which category. -/
def listed (db : Database) (contract : ListContract) (i : Issue) : Option IssueStatusCategory :=
  if onList db contract i then db.category i.status else none

/-! ## The answer -/

/-- The cache is the answer for a workspace with these issues, all of it loaded. -/
structure IsAnswer (db : Database) (contract : ListContract) (issues : List Issue)
    (cache : ListIssuesCache) : Prop where
  members : ∀ c i, i ∈ (getBucket cache c).issues ↔ i ∈ issues ∧ listed db contract i = some c
  sorted : ∀ c, (getBucket cache c).issues.Pairwise (serverOrder db contract.sort).Before
  totals : ∀ c, (getBucket cache c).total = (getBucket cache c).issues.length

/-- What the server computes, everything on one page. -/
def answer (db : Database) (contract : ListContract) (issues : List Issue) : ListIssuesCache :=
  paginatedCategories.foldl
    (fun cache c =>
      let found := (serverOrder db contract.sort).sort
        (issues.filter fun i => listed db contract i = some c)
      setBucket cache c ⟨found, found.length⟩) ⟨∅⟩

theorem getBucket_answer (db : Database) (contract : ListContract) (issues : List Issue)
    (c : IssueStatusCategory) : getBucket (answer db contract issues) c =
      ⟨(serverOrder db contract.sort).sort (issues.filter fun i => listed db contract i = some c),
        ((serverOrder db contract.sort).sort
          (issues.filter fun i => listed db contract i = some c)).length⟩ := by
  unfold answer paginatedCategories
  cases c <;> rfl

theorem isAnswer_answer (db : Database) (contract : ListContract) {issues : List Issue}
    (hids : (issues.map Issue.id).Nodup) :
    IsAnswer db contract issues (answer db contract issues) := by
  apply IsAnswer.mk
  · intro c i
    rw [getBucket_answer, (SortOrder.sort_perm _ _).mem_iff, mem_filter, decide_eq_true_eq]
  · intro c
    rw [getBucket_answer]
    apply SortOrder.sort_sorted
    · exact (Nodup.of_map Issue.id hids).filter _
    · intro i hi j hj hij hji
      exact inj_on_of_nodup_map hids (mem_of_mem_filter hi) (mem_of_mem_filter hj)
        (serverOrder_tie hij hji)
  · intro c
    rw [getBucket_answer]

/-- The workspace after the change. -/
def changedIssues (issues : List Issue) (base after : Issue) : List Issue :=
  issues.map fun i => if i.id = base.id then after else i

theorem mem_changedIssues {issues : List Issue} {base after i : Issue} (hbase : base ∈ issues)
    (hid : after.id = base.id) :
    i ∈ changedIssues issues base after ↔ (i ∈ issues ∧ i.id ≠ base.id) ∨ i = after := by
  unfold changedIssues
  rw [mem_map]
  constructor
  · rintro ⟨j, hj, rfl⟩
    by_cases hjd : j.id = base.id
    · rw [if_pos hjd]
      exact .inr rfl
    · rw [if_neg hjd]
      exact .inl ⟨hj, hjd⟩
  · rintro (⟨hi, hne⟩ | rfl)
    · exact ⟨i, hi, if_neg hne⟩
    · exact ⟨base, hbase, if_pos rfl⟩

end ClawMessenger.Ports.IssueCache
