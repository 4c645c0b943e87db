import ClawMessenger.Verified.Forest
import ClawMessenger.Verified.Machine

/-!
# The resolution of a comment thread

`ResolveComment` and `UnresolveComment` of `server/internal/handler/comment.go`
with their statements in `server/pkg/db/queries/comment.sql`.  Resolving is a
transaction of two statements.  The first finds the other resolutions of the
thread in a snapshot and clears them one by one, waiting for the lock of each
row and looking at it again; the second sets the target's own.  What a
transaction has written shows when it commits, and its rows stay locked until
then.
-/

namespace ClawMessenger.Ports.CommentResolution

open Verified

/-! ## Tables -/

structure Comment where
  id : Nat
  issueId : Nat
  workspaceId : Nat
  parentId : Option Nat
  resolvedAt : Option Nat
  resolvedByType : Option String
  resolvedById : Option Nat
  revision : Nat
  updatedAt : Nat
  deriving DecidableEq, Repr

/-- The statement `ResolveComment`, which keeps an earlier resolution. -/
def Comment.resolve (c : Comment) (actorType : String) (actorId now : Nat) : Comment :=
  { c with
    resolvedAt := some (c.resolvedAt.getD now)
    resolvedByType := some (c.resolvedByType.getD actorType)
    resolvedById := some (c.resolvedById.getD actorId)
    revision := c.revision + if c.resolvedAt.isNone then 1 else 0
    updatedAt := if c.resolvedAt.isNone then now else c.updatedAt }

/-- What `ClearOtherThreadResolutions` makes of a row. -/
def Comment.clear (c : Comment) (now : Nat) : Comment :=
  { c with
    resolvedAt := none
    resolvedByType := none
    resolvedById := none
    revision := c.revision + 1
    updatedAt := now }

/-- `UnresolveComment` -/
def Comment.unresolve (c : Comment) (now : Nat) : Comment :=
  { c with
    resolvedAt := none
    resolvedByType := none
    resolvedById := none
    revision := c.revision + if c.resolvedAt.isSome then 1 else 0
    updatedAt := if c.resolvedAt.isSome then now else c.updatedAt }

/-- The root of a comment's thread: `thread_root`. -/
def rootOf (comments : List Comment) (id : Nat) : Option Nat :=
  Tree.root Comment.id Comment.parentId comments id

/-- `descendants` -/
def descendants (comments : List Comment) (target : Comment) : List Nat :=
  match rootOf comments target.id with
  | none => []
  | some root =>
    Tree.descend Comment.id Comment.parentId
      (fun c => c.issueId = target.issueId && c.workspaceId = target.workspaceId) comments
      comments.length [root]

/-- The rows that `ClearOtherThreadResolutions` finds. -/
def otherResolutions (comments : List Comment) (target : Comment) : List Nat :=
  (comments.filter fun c => decide (c.id ∈ descendants comments target) && c.id ≠ target.id &&
    c.resolvedAt.isSome).map Comment.id

/-! ## Transactions -/

inductive Phase
  /-- the rows that the first statement has found and not yet visited -/
  | clearing (rest : List Nat)
  | resolving
  | resolved

/-- An open `ResolveComment`. -/
structure Resolve where
  target : Comment
  actorType : String
  actorId : Nat
  now : Nat
  cleared : List Nat
  phase : Phase

structure State where
  comments : List Comment
  resolves : Nat → Option Resolve

inductive Event
  | reply (c : Comment)
  | unresolve (id now : Nat)
  /-- the comment is loaded and `ClearOtherThreadResolutions` starts -/
  | begin (n id : Nat) (actorType : String) (actorId now : Nat)
  /-- it visits the next row, or is done -/
  | clear (n : Nat)
  /-- the statement `ResolveComment` -/
  | resolve (n : Nat)
  | commit (n : Nat)
  | rollback (n : Nat)

def State.setResolve (s : State) (n : Nat) (r : Option Resolve) : State :=
  { s with resolves := Function.update s.resolves n r }

/-- A row is looked at again when its lock is there. -/
def Resolve.visit (r : Resolve) (comments : List Comment) (id : Nat) (rest : List Nat) : Resolve :=
  if comments.any fun c => c.id = id && c.resolvedAt.isSome then
    { r with cleared := id :: r.cleared, phase := .clearing rest }
  else { r with phase := .clearing rest }

/-- The table after the commit. -/
def Resolve.commit (r : Resolve) (comments : List Comment) : List Comment :=
  comments.map fun c =>
    if c.id = r.target.id then c.resolve r.actorType r.actorId r.now
    else if c.id ∈ r.cleared then c.clear r.now
    else c

def State.step (s : State) : Event → Unit × State
  | .reply c => ((), { s with comments := s.comments ++ [c] })
  | .unresolve id now =>
    ((), { s with comments := s.comments.map fun c => if c.id = id then c.unresolve now else c })
  | .begin n id actorType actorId now =>
    match s.comments.find? fun c => c.id = id with
    | none => ((), s)
    | some target => ((), s.setResolve n (some
        ⟨target, actorType, actorId, now, [], .clearing (otherResolutions s.comments target)⟩))
  | .clear n =>
    match s.resolves n with
    | none => ((), s)
    | some r =>
      match r.phase with
      | .clearing [] => ((), s.setResolve n (some { r with phase := .resolving }))
      | .clearing (id :: rest) => ((), s.setResolve n (some (r.visit s.comments id rest)))
      | _ => ((), s)
  | .resolve n =>
    match s.resolves n with
    | none => ((), s)
    | some r =>
      match r.phase with
      | .resolving => ((), s.setResolve n (some { r with phase := .resolved }))
      | _ => ((), s)
  | .commit n =>
    match s.resolves n with
    | none => ((), s)
    | some r =>
      match r.phase with
      | .resolved => ((), ({ s with comments := r.commit s.comments }).setResolve n none)
      | _ => ((), s)
  | .rollback n => ((), s.setResolve n none)

end ClawMessenger.Ports.CommentResolution
