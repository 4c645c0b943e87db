import ClawMessenger.Verified.Machine
import ClawMessenger.Verified.OrderedMap
import ClawMessenger.Verified.Rows

/-!
# Telling a parent that its sub-issues are done

A sub-issue that becomes terminal may close a stage of its parent, and the
parent's assignee is then woken by a comment.  `stageBarrierClosed` decides it
from the siblings, `notifyParentOfChildDone` for one update and
`notifyParentsOfBatchChildDone` for a batch, once all its rows are written.

The updates run side by side.  Each request is a process: it loads a row, writes
it, and later reads the parent and the siblings, every statement a step of its
own.  A statement may fail, and a batch is given up when its target status was
archived meanwhile.  Of a row the model has what these decisions read; of the
comment it has the facts it states, not its wording.
-/

namespace ClawMessenger.Ports.ChildDone

open Verified

/-! ## Statuses -/

/-- What `GetIssueStatusEntryByKey` says of a custom status: its category. -/
abbrev Catalog := String → Option String

def canonicalOrder : List String :=
  ["backlog", "todo", "in_progress", "in_review", "done", "blocked", "cancelled"]

def isBuiltIn (key : String) : Bool := canonicalOrder.contains key

def isCategory (value : String) : Bool := isBuiltIn value

/-- `Effective`. -/
def effective (catalog : Catalog) (status : String) : String :=
  if isBuiltIn status then status
  else
    match catalog status with
    | none => status
    | some category => if isCategory category then category else status

def isTerminalChildStatus (status : String) : Bool := status = "done" || status = "cancelled"

/-! ## Rows -/

structure Issue where
  id : Nat
  status : String
  parentIssueID : Option Nat
  stage : Option Int
  assigneeType : Option String
deriving DecidableEq, Repr

/-- The table, its rows by number. -/
abbrev Table := List Issue

/-- `terminalChildPredicate`. -/
def isTerminal (catalog : Catalog) (c : Issue) : Bool :=
  isTerminalChildStatus (effective catalog c.status)

def getIssue (rows : Table) (id : Nat) : Option Issue := rows.find? fun row => row.id = id

def listChildIssues (rows : Table) (parent : Nat) : List Issue :=
  rows.filter fun row => row.parentIssueID = some parent

/-- `UpdateIssue` and `UpdateIssueStatus`, as far as the status goes. -/
def writeStatus (rows : Table) (id : Nat) (status : String) : Table :=
  Rows.update rows (fun row => row.id = id) fun row => { row with status := status }

/-! ## Stages -/

def siblingsAreStaged (children : List Issue) : Bool := children.any fun c => c.stage.isSome

/-- Whether a child keeps a stage open. -/
def holdsOpen (terminal : Issue → Bool) (s : Int) (c : Issue) : Bool :=
  match c.stage with
  | none => false
  | some t => t ≤ s && !terminal c

def stageBarrierClosed (children : List Issue) (completed : Issue) (terminal : Issue → Bool) :
    Bool :=
  if !siblingsAreStaged children then children.all terminal
  else
    match completed.stage with
    | none => false
    | some s => children.all fun c => !holdsOpen terminal s c

structure Agg where
  total : Nat
  done : Nat

/-- The entry of `byStage`. -/
def byStage (children : List Issue) (terminal : Issue → Bool) (s : Int) : Agg :=
  let own := children.filter fun c => c.stage = some s
  ⟨own.length, (own.filter terminal).length⟩

/-- `order`, sorted. -/
def stages (children : List Issue) : List Int :=
  (children.filterMap Issue.stage).dedup.mergeSort fun a b => a ≤ b

structure Progress where
  parts : List String
  nextStage : Int

section

variable (children : List Issue) (closedStage : Int) (terminal : Issue → Bool)

/-- One stage of the summary. -/
def addStage (progress : Progress) (s : Int) : Progress :=
  let a := byStage children terminal s
  let label := "Stage " ++ toString s ++ ": " ++ toString a.done ++ "/" ++ toString a.total ++ " done"
  if progress.nextStage = 0 ∧ s > closedStage ∧ a.done < a.total then
    ⟨progress.parts ++ [label ++ " (next)"], s⟩
  else ⟨progress.parts ++ [label], progress.nextStage⟩

def stageProgressSummary :
    String × Int :=
  let progress := (stages children).foldl (addStage children closedStage terminal) ⟨[], 0⟩
  ("; ".intercalate progress.parts, progress.nextStage)

end

/-! ## The comment -/

/-- What the comment tells the parent. -/
structure Notification where
  parent : Nat
  completed : Nat
  staged : Bool
  closedStage : Int
  summary : String
  nextStage : Int
  batch : Bool

def postChildDoneComment (catalog : Catalog) (parent completed : Issue) (children : List Issue)
    (staged : Bool) (closedStage : Int) (batch : Bool) : Notification :=
  let (summary, nextStage) :=
    if staged then stageProgressSummary children closedStage (isTerminal catalog) else ("", 0)
  ⟨parent.id, completed.id, staged, closedStage, summary, nextStage, batch⟩

/-- The guards on the parent. -/
def takesNotice (catalog : Catalog) (parent : Issue) : Bool :=
  let parentStatus := effective catalog parent.status
  if parentStatus = "done" ∨ parentStatus = "cancelled" then false
  else if parentStatus = "backlog" then false
  else if parent.assigneeType = some "member" then false
  else true

/-- The transition `notifyParentOfChildDone` fires on. -/
def completes (catalog : Catalog) (prev issue : Issue) : Bool :=
  !isTerminal catalog prev && isTerminal catalog issue

/-- `notifyParentOfChildDone` after its reads. -/
def decideSingle (catalog : Catalog) (parent issue : Issue) (children : List Issue) :
    Option Notification :=
  if !stageBarrierClosed children issue (isTerminal catalog) then none
  else
    let staged := siblingsAreStaged children
    let closedStage := if staged then issue.stage.getD 0 else 0
    some (postChildDoneComment catalog parent issue children staged closedStage false)

abbrev Groups := OrderedMap Nat (List Issue)

def addToGroup (groups : Groups) (c : Issue) : Groups :=
  match c.parentIssueID with
  | none => groups
  | some parent => groups.set parent ((groups.get? parent).getD [] ++ [c])

/-- The completed children by parent, in the order they were first seen. -/
def groupByParent (completed : List Issue) : Groups := completed.foldl addToGroup ∅

/-- One child of a group in the search for the highest closed stage. -/
def addClosed (children : List Issue) (terminal : Issue → Bool) (best : Option (Issue × Int))
    (c : Issue) : Option (Issue × Int) :=
  match c.stage with
  | none => best
  | some s =>
    if !stageBarrierClosed children c terminal then best
    else
      match best with
      | none => some (c, s)
      | some (_, bestStage) => if s > bestStage then some (c, s) else best

/-- `notifyParentsOfBatchChildDone` for one group, after its reads. -/
def decideGroup (catalog : Catalog) (parent : Issue) (group children : List Issue) :
    Option Notification :=
  let terminal := isTerminal catalog
  let batch := decide (group.length > 1)
  if !siblingsAreStaged children then
    match group.head? with
    | none => none
    | some c =>
      if !stageBarrierClosed children c terminal then none
      else some (postChildDoneComment catalog parent c children false 0 batch)
  else
    match group.foldl (addClosed children terminal) none with
    | none => none
    | some (rep, bestStage) =>
      some (postChildDoneComment catalog parent rep children true bestStage batch)

/-! ## Requests side by side -/

/-- `UpdateIssue`, `BatchUpdateIssues` with a status, and a merged pull request.
`locked` is the path that reads the previous row under its lock. -/
inductive Request where
  | update (id : Nat) (status : String) (locked : Bool)
  | batch (ids : List Nat) (status : String) (locked : Bool)
  | advanceToDone (id : Nat)

/-- Where a request stands. -/
inductive Call where
  | load (id : Nat) (status : String) (locked always : Bool)
  | write (prev : Issue) (status : String) (locked always : Bool)
  | readParent (parent : Nat) (issue : Issue)
  | readChildren (parent : Issue) (issue : Issue)
  | batchLoad (ids : List Nat) (status : String) (locked : Bool) (completed : List Issue)
  | batchWrite (prev : Issue) (ids : List Nat) (status : String) (locked : Bool)
      (completed : List Issue)
  | batchParent (groups : List (Nat × List Issue))
  | batchChildren (parent : Issue) (group : List Issue) (groups : List (Nat × List Issue))
  | finished
deriving DecidableEq, Repr

def Request.call : Request → Call
  | .update id status locked => .load id status locked false
  | .batch ids status locked => .batchLoad ids status locked []
  | .advanceToDone id => .load id "done" false true

/-- How the next statement of a request goes. -/
inductive Outcome where
  | done
  | failed
  | archived
deriving DecidableEq, Repr

/-- A decision with the siblings it was made on. -/
structure Decision where
  call : Nat
  parent : Nat
  children : List Issue
  result : Option Notification

structure State where
  rows : Table
  calls : OrderedMap Nat Call
  nextCall : Nat

def init (rows : Table) : State := ⟨rows, ∅, 0⟩

/-- What is left to do for a row that was written: the previous one is the
locked row where there is one.  `always` is the merged pull request, which does
not ask whether the status changed. -/
def afterWrite (catalog : Catalog) (prev issue : Issue) (always : Bool) : Call :=
  if always || prev.status != issue.status then
    match issue.parentIssueID with
    | none => .finished
    | some parent => if completes catalog prev issue then .readParent parent issue else .finished
  else .finished

/-- `childDoneCompleted` after a row of a batch. -/
def collect (catalog : Catalog) (prev issue : Issue) (completed : List Issue) : List Issue :=
  if prev.status != issue.status && issue.parentIssueID.isSome && completes catalog prev issue then
    completed ++ [issue]
  else completed

/-- `notifyParentsOfBatchChildDone` begins. -/
def afterBatch (completed : List Issue) : Call := .batchParent (groupByParent completed).entries

/-- Where a request stands after a statement that failed.  A batch goes on with
the next issue, unless the target status was archived. -/
def giveUp (archived : Bool) : Call → Call
  | .batchLoad [] _ _ completed => afterBatch completed
  | .batchLoad (_ :: ids) status locked completed => .batchLoad ids status locked completed
  | .batchWrite _ ids status locked completed =>
    if archived then .finished else .batchLoad ids status locked completed
  | .batchParent (_ :: groups) => .batchParent groups
  | .batchChildren _ _ groups => .batchParent groups
  | _ => .finished

/-- The next statement of a request: the table after it, where the request
stands then, and the decision if it made one. -/
def perform (catalog : Catalog) (rows : Table) (call : Nat) :
    Call → Table × Call × Option Decision
  | .load id status locked always =>
    match getIssue rows id with
    | none => (rows, .finished, none)
    | some prev => (rows, .write prev status locked always, none)
  | .write prev status locked always =>
    match getIssue rows prev.id with
    | none => (rows, .finished, none)
    | some row =>
      let issue := { row with status := status }
      let prev := if locked then row else prev
      (writeStatus rows row.id status, afterWrite catalog prev issue always, none)
  | .readParent parent issue =>
    match getIssue rows parent with
    | none => (rows, .finished, none)
    | some parent =>
      (rows, if takesNotice catalog parent then .readChildren parent issue else .finished, none)
  | .readChildren parent issue =>
    let children := listChildIssues rows parent.id
    (rows, .finished,
      some ⟨call, parent.id, children, decideSingle catalog parent issue children⟩)
  | .batchLoad [] _ _ completed => (rows, afterBatch completed, none)
  | .batchLoad (id :: ids) status locked completed =>
    match getIssue rows id with
    | none => (rows, .batchLoad ids status locked completed, none)
    | some prev => (rows, .batchWrite prev ids status locked completed, none)
  | .batchWrite prev ids status locked completed =>
    match getIssue rows prev.id with
    | none => (rows, .batchLoad ids status locked completed, none)
    | some row =>
      let issue := { row with status := status }
      let prev := if locked then row else prev
      (writeStatus rows row.id status,
        .batchLoad ids status locked (collect catalog prev issue completed), none)
  | .batchParent [] => (rows, .finished, none)
  | .batchParent ((parent, group) :: groups) =>
    match getIssue rows parent with
    | none => (rows, .batchParent groups, none)
    | some parent =>
      (rows, if takesNotice catalog parent then .batchChildren parent group groups
        else .batchParent groups, none)
  | .batchChildren parent group groups =>
    let children := listChildIssues rows parent.id
    (rows, .batchParent groups,
      some ⟨call, parent.id, children, decideGroup catalog parent group children⟩)
  | .finished => (rows, .finished, none)

def statement (catalog : Catalog) (rows : Table) (call : Nat) (outcome : Outcome) (pc : Call) :
    Table × Call × Option Decision :=
  match outcome with
  | .done => perform catalog rows call pc
  | .failed => (rows, giveUp false pc, none)
  | .archived => (rows, giveUp true pc, none)

inductive Action where
  | request (r : Request)
  | goOn (call : Nat) (outcome : Outcome)

def step (catalog : Catalog) (s : State) : Action → Option Decision × State
  | .request r => (none, { s with calls := s.calls.set s.nextCall r.call, nextCall := s.nextCall + 1 })
  | .goOn call outcome =>
    match s.calls.get? call with
    | none => (none, s)
    | some c =>
      let (rows, c', decision) := statement catalog s.rows call outcome c
      (decision, { s with rows := rows, calls := s.calls.set call c' })

abbrev Cfg := Config State Action (Option Decision)

/-- Every request is through. -/
def Finished (s : State) : Prop := ∀ call c, s.calls.get? call = some c → c = .finished

end ClawMessenger.Ports.ChildDone
