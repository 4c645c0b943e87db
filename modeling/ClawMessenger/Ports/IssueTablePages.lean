import ClawMessenger.Ports.IssueTableSort
import ClawMessenger.Verified.Keyset

/-!
# The pages of the issue table

`ListIssueTableRows` of `server/internal/handler/issue_table_rows.go` and the
cursor of `server/internal/handler/issue_table_query.go`.  A page is one query:
the matching rows the cursor's predicate takes, in the order of the clause, one
more than the limit.  The row more says that there is a next page, and the last
row of this one becomes the cursor.

The predicate takes the rows that the clause puts behind the cursor's row, for
every sort the handler resolves.  What keeps a listing from its end is only the
check of the cursor's value: the handler refuses its own cursor where a Go parser
does not take the text the database gave a value.
-/

namespace ClawMessenger.Ports.IssueTable

open Verified List
open SortOrder (before_linear before_nullsLast before_on before_reverse before_thenBy linear
  nullsLast on thenBy_tie)
open SqlLogic (and compare isNull or taken)

variable {pg : Postgres}

/-! ## Cursors -/

structure Cursor where
  version : Int
  queryFingerprint : String
  groupKey : Option String
  parentId : Option String
  groupOrder : Option Int
  groupSortKey : Option String
  groupCursorKey : Option String
  branchIdentity : String
  sortValue : Option String
  sortIsNull : Bool
  rowCreatedAt : String
  rowId : String
  deriving DecidableEq, Repr

/-- JSON in base64, there and back. -/
structure Codec where
  encodeIssueTableCursor : Cursor → String
  decode : String → Option Cursor

/-- The listing a cursor belongs to: its query and its branch of the table. -/
structure Branch where
  fingerprint : String
  groupKey : Option String
  parentId : Option String
  branchIdentity : String

structure PageRequest where
  limit : Int
  cursor : Option String

def issueTableDefaultPageSize : Nat := 50

def issueTableMaxPageSize : Nat := 100

def invalidCursor : HttpError := badRequest "invalid cursor"

def normalizeLimit (limit : Int) : Except HttpError Nat :=
  let limit := if limit = 0 then (issueTableDefaultPageSize : Int) else limit
  if limit < 1 ∨ issueTableMaxPageSize < limit then
    .error (badRequest "page.limit must be between 1 and 100")
  else .ok limit.toNat

def decodeCursor (codec : Codec) (cursor : Option String) : Except HttpError (Option Cursor) :=
  match cursor with
  | none => .ok none
  | some text =>
    if trimSpace text = "" then .ok none
    else
      match codec.decode text with
      | none => .error invalidCursor
      | some cursor => if cursor.version ≠ 1 then .error invalidCursor else .ok (some cursor)

def normalizeIssueTablePage (codec : Codec) (page : PageRequest) :
    Except HttpError (Nat × Option Cursor) :=
  match normalizeLimit page.limit with
  | .error e => .error e
  | .ok limit =>
    match decodeCursor codec page.cursor with
    | .error e => .error e
    | .ok cursor => .ok (limit, cursor)

/-- `issueTableCursorMatches`, and the branch -/
def checkCursor (branch : Branch) (cursor : Option Cursor) : Except HttpError Unit :=
  match cursor with
  | none => .ok ()
  | some cursor =>
    if cursor.queryFingerprint ≠ branch.fingerprint ∨ cursor.groupKey ≠ branch.groupKey ∨
        cursor.parentId ≠ branch.parentId then
      .error ⟨409, "cursor does not belong to this table query"⟩
    else if cursor.branchIdentity ≠ branch.branchIdentity then
      .error ⟨409, "cursor does not belong to this table branch"⟩
    else .ok ()

/-! ## The predicate -/

/-- The columns behind the sort's, of the cursor's row: the time of creation where
it breaks ties, and the id. -/
structure Tie (pg : Postgres) where
  createdAt : Option pg.Instant
  id : pg.Id

def Tie.test (tie : Tie pg) (row : Row pg) : Bool :=
  match tie.createdAt with
  | none => row.id < tie.id
  | some created =>
    row.createdAt < created || (row.createdAt = created && row.id < tie.id)

inductive Continuation (pg : Postgres) where
  | everything
  | amongNulls (tie : Tie pg)
  | behind (value : String) (tie : Tie pg)

def rfc3339Nano : String := "2006-01-02T15:04:05.999999999Z07:00"

/-- The switch over the cast type. -/
def acceptsSortValue (texts : Texts pg) (castType : CastType) (text : String) : Bool :=
  match castType with
  | .integer => texts.parsesInt text
  | .doublePrecision | .numeric => texts.parsesFloat text
  | .timestamptz =>
    texts.parsesTime rfc3339Nano text ||
      texts.parsesTime "2006-01-02 15:04:05.999999999Z07" text
  | .date => texts.parsesTime "2006-01-02" text
  | .text => true

def tieOf (texts : Texts pg) (sort : ResolvedSort) (cursor : Cursor) :
    Except HttpError (Tie pg) :=
  if cursor.rowId = "" then .error invalidCursor
  else
    match texts.parseId cursor.rowId with
    | none => .error invalidCursor
    | some id =>
      if sort.idOnlyTie then .ok ⟨none, id⟩
      else
        match texts.parseInstant cursor.rowCreatedAt with
        | none => .error invalidCursor
        | some created => .ok ⟨some created, id⟩

def cursorPredicate (texts : Texts pg) (sort : ResolvedSort) (cursor : Option Cursor) :
    Except HttpError (Continuation pg) :=
  match cursor with
  | none => .ok .everything
  | some cursor =>
    match tieOf texts sort cursor with
    | .error e => .error e
    | .ok tie =>
      if cursor.sortIsNull then
        if sort.nullsLast = false ∨ cursor.sortValue ≠ none then .error invalidCursor
        else .ok (.amongNulls tie)
      else
        match cursor.sortValue with
        | none => .error invalidCursor
        | some value =>
          if acceptsSortValue texts sort.castType value then .ok (.behind value tie)
          else .error invalidCursor

def beyond (pg : Postgres) (sort : ResolvedSort) (value other : pg.Value sort.expression.type) :
    Bool :=
  match sort.direction with
  | .asc => value < other
  | .desc => other < value

/-- The predicate of a row, for a cursor's value of the expression's type. -/
def behindValue (sort : ResolvedSort) (value : pg.Value sort.expression.type) (tie : Tie pg)
    (row : Row pg) : SqlLogic.Truth :=
  let own := sort.expression.eval row
  let exact :=
    or (compare own (beyond pg sort value))
      (and (compare own fun v => v = value) (some (tie.test row)))
  -- the bound lets the database start at the cursor in the index by position
  let bounded :=
    if sort.expression = .position then
      and (compare own fun v => value ≤ v) exact
    else exact
  if sort.nullsLast then or (isNull own) bounded else bounded

def queryFailed : HttpError := ⟨500, "failed to list table rows"⟩

/-- The predicate as the query evaluates it; a value that does not read as the
expression's type fails the query. -/
def whereClause (texts : Texts pg) (sort : ResolvedSort) :
    Continuation pg → Except HttpError (Row pg → SqlLogic.Truth)
  | .everything => .ok fun _ => some true
  | .amongNulls tie =>
    .ok fun row =>
      and (isNull (sort.expression.eval row)) (some (tie.test row))
  | .behind text tie =>
    if sort.castType = sort.expression.type then
      match texts.cast sort.expression.type text with
      | none => .error queryFailed
      | some value => .ok (behindValue sort value tie)
    else .error queryFailed

/-! ## A page -/

/-- The rows that match the query; an id is a primary key. -/
structure Membership (pg : Postgres) where
  rows : List (Row pg)
  nodup : (rows.map Row.id).Nodup

/-- The cursor of a page's last row. -/
def cursorAt (texts : Texts pg) (branch : Branch) (sort : ResolvedSort) (row : Row pg) :
    Cursor where
  version := 1
  queryFingerprint := branch.fingerprint
  groupKey := branch.groupKey
  parentId := branch.parentId
  groupOrder := none
  groupSortKey := none
  groupCursorKey := none
  branchIdentity := branch.branchIdentity
  sortValue := (sort.expression.eval row).map (texts.text sort.expression.type)
  sortIsNull := (sort.expression.eval row).isNone
  rowCreatedAt := texts.instantText row.createdAt
  rowId := texts.idText row.id

section

variable (texts : Texts pg) (codec : Codec) (branch : Branch) (sort : ResolvedSort)

def nextCursor (row : Row pg) : String :=
  codec.encodeIssueTableCursor (cursorAt texts branch sort row)

/-- The query of a page, and the cursor made of its answer. -/
def queryPage (limit : Nat) (rows : List (Row pg)) (condition : Row pg → SqlLogic.Truth) :
    Keyset.Page (Row pg) String :=
  let selected := rows.filter fun row => taken (condition row)
  let scanned := ((orderBy pg sort).sort selected).take (limit + 1)
  if limit < scanned.length then
    let page := scanned.take limit
    ⟨page, page.getLast?.map (nextCursor texts codec branch sort)⟩
  else ⟨scanned, none⟩

end

section

variable (texts : Texts pg) (codec : Codec) (properties : Properties) (membership : Membership pg) (branch : Branch) (sortRequest : SortRequest)

def listIssueTableRows (page : PageRequest) : Except HttpError (Keyset.Page (Row pg) String) := do
  let (limit, cursor) ← normalizeIssueTablePage codec page
  checkCursor branch cursor
  let sort ← issueTableOrderBy properties sortRequest
  let continuation ← cursorPredicate texts sort cursor
  let condition ← whereClause texts sort continuation
  return queryPage texts codec branch sort limit membership.rows condition

/-- The requests of a client that follows `next_cursor`. -/
def listing (limit : Int)
    (cursor : Option String) : Except HttpError (Keyset.Page (Row pg) String) :=
  listIssueTableRows texts codec properties membership branch sortRequest ⟨limit, cursor⟩

end

/-- The rows as the clause orders them. -/
def ordered (membership : Membership pg) (sort : ResolvedSort) : List (Row pg) :=
  (orderBy pg sort).sort membership.rows

/-- The codec reads back the cursors it wrote, and none of them is blank. -/
def ReadsBack (texts : Texts pg) (codec : Codec) (branch : Branch) (sort : ResolvedSort)
    (membership : Membership pg) : Prop :=
  ∀ row ∈ membership.rows,
    codec.decode (nextCursor texts codec branch sort row) = some (cursorAt texts branch sort row) ∧
      trimSpace (nextCursor texts codec branch sort row) ≠ ""

/-- The handler takes the cursor it makes of the row. -/
def CursorAccepted (texts : Texts pg) (sort : ResolvedSort) (row : Row pg) : Prop :=
  ∀ value ∈ sort.expression.eval row,
    acceptsSortValue texts sort.castType (texts.text sort.expression.type value) = true

instance (texts : Texts pg) (sort : ResolvedSort) :
    DecidablePred (CursorAccepted texts sort) := fun row =>
  inferInstanceAs (Decidable (∀ value ∈ sort.expression.eval row, _))

/-! ## The predicate continues the clause -/

def tieAt (sort : ResolvedSort) (row : Row pg) : Tie pg :=
  ⟨if sort.idOnlyTie then none else some row.createdAt, row.id⟩

theorem tieOf_cursorAt (texts : Texts pg) (branch : Branch) (sort : ResolvedSort) (row : Row pg) :
    tieOf texts sort (cursorAt texts branch sort row) = .ok (tieAt sort row) := by
  unfold tieOf cursorAt tieAt
  rw [if_neg (texts.idText_nonempty row.id), texts.parseId_text]
  dsimp only
  by_cases hid : sort.idOnlyTie = true
  · rw [if_pos hid, if_pos hid]
  · rw [if_neg hid, if_neg hid, texts.parseInstant_text]

/-- What the handler makes of its own cursor. -/
theorem cursorPredicate_cursorAt (texts : Texts pg) (branch : Branch) (sort : ResolvedSort)
    (row : Row pg) :
    cursorPredicate texts sort (some (cursorAt texts branch sort row)) =
      match sort.expression.eval row with
      | none =>
        if sort.nullsLast = false then .error invalidCursor
        else .ok (.amongNulls (tieAt sort row))
      | some x =>
        if acceptsSortValue texts sort.castType (texts.text sort.expression.type x) = true then
          .ok (.behind (texts.text sort.expression.type x) (tieAt sort row))
        else .error invalidCursor := by
  simp only [cursorPredicate, tieOf_cursorAt]
  cases hvalue : sort.expression.eval row with
  | none | some x => simp [cursorAt, hvalue]

theorem before_tie (sort : ResolvedSort) (a row : Row pg) :
    (tieOrder pg sort.idOnlyTie).Before a row ↔ (tieAt sort a).test row = true := by
  have hid : ((linear pg.Id).reverse.on (Row.id : Row pg → pg.Id)).Before a row ↔
      row.id < a.id := by
    rw [before_on, before_reverse, before_linear]
  unfold tieOrder tieAt Tie.test
  cases sort.idOnlyTie with
  | true =>
    rw [if_pos rfl, if_pos rfl, hid, decide_eq_true_eq]
  | false =>
    rw [if_neg Bool.false_ne_true, if_neg Bool.false_ne_true, before_thenBy, hid,
      before_on, before_reverse, before_linear]
    have htied : ((linear pg.Instant).reverse.on (Row.createdAt : Row pg → pg.Instant)).le a row =
          true ∧
        ((linear pg.Instant).reverse.on (Row.createdAt : Row pg → pg.Instant)).le row a = true ↔
          row.createdAt = a.createdAt := by
      show decide (row.createdAt ≤ a.createdAt) = true ∧
        decide (a.createdAt ≤ row.createdAt) = true ↔ _
      rw [decide_eq_true_eq, decide_eq_true_eq, le_antisymm_iff]
    rw [htied, Bool.or_eq_true, Bool.and_eq_true, decide_eq_true_eq, decide_eq_true_eq,
      decide_eq_true_eq]

/-- Rows are tied in the column where they have the same value there. -/
theorem column_tied (sort : ResolvedSort) (a b : Row pg) :
    ((columnOrder pg sort).le a b = true ∧ (columnOrder pg sort).le b a = true) ↔
      sort.expression.eval a = sort.expression.eval b := by
  unfold columnOrder
  simp only [on]
  generalize sort.expression.eval a = x
  generalize sort.expression.eval b = y
  have hvalues : ∀ x y : pg.Value sort.expression.type,
      ((linear _).le x y = true ∧ (linear _).le y x = true) ↔ x = y := by
    intro x y
    show decide (x ≤ y) = true ∧ decide (y ≤ x) = true ↔ _
    rw [decide_eq_true_eq, decide_eq_true_eq, le_antisymm_iff]
  cases sort.direction with
  | asc =>
    cases x with
    | none => cases y <;> simp [nullsLast]
    | some x =>
      cases y with
      | none => simp [nullsLast]
      | some y => simpa [nullsLast] using hvalues x y
  | desc =>
    cases sort.nullsLast with
    | true =>
      cases x with
      | none => cases y <;> simp [nullsLast]
      | some x =>
        cases y with
        | none => simp [nullsLast]
        | some y =>
          simpa [nullsLast, SortOrder.reverse, and_comm] using hvalues x y
    | false =>
      cases x with
      | none => cases y <;> simp [nullsLast, SortOrder.reverse]
      | some x =>
        cases y with
        | none => simp [nullsLast, SortOrder.reverse]
        | some y =>
          simpa [nullsLast, SortOrder.reverse, and_comm] using hvalues x y

variable {sort : ResolvedSort}

/-- A row with a value is before those with a value beyond it, and before those
without one where these come last. -/
theorem column_before (h : sort.Fits) (a b : Row pg) :
    (columnOrder pg sort).Before a b ↔
      ∃ x, sort.expression.eval a = some x ∧
        ∀ y, sort.expression.eval b = some y → beyond pg sort x y = true := by
  unfold columnOrder beyond
  rw [before_on]
  cases hdirection : sort.direction with
  | asc =>
    simp [before_nullsLast, before_linear]
  | desc =>
    cases hnulls : sort.nullsLast with
    | true =>
      simp only [before_nullsLast, before_reverse,
        before_linear, decide_eq_true_eq]
    | false =>
      obtain ⟨x, hx⟩ := h.present hnulls pg a
      obtain ⟨y, hy⟩ := h.present hnulls pg b
      simp only [before_reverse, before_nullsLast,
        before_linear, hx, hy, Option.some.injEq, exists_eq_left',
        forall_eq', decide_eq_true_eq]

/-- What is behind a row: what its column is before, and of the rows tied there
what the other columns put behind it. -/
theorem before_iff (h : sort.Fits) (a b : Row pg) :
    (orderBy pg sort).Before a b ↔
      (∃ x, sort.expression.eval a = some x ∧
        ∀ y, sort.expression.eval b = some y → beyond pg sort x y = true) ∨
      sort.expression.eval a = sort.expression.eval b ∧ (tieAt sort a).test b = true := by
  unfold orderBy
  rw [before_thenBy, column_before h, column_tied, before_tie]

variable {a : Row pg}

/-- Behind a row without a value only such rows are left. -/
theorem amongNulls_taken (h : sort.Fits) (ha : sort.expression.eval a = none) (b : Row pg) :
    taken (and (isNull (sort.expression.eval b))
      (some ((tieAt sort a).test b))) = true ↔ (orderBy pg sort).Before a b := by
  rw [before_iff h, ha, SqlLogic.taken_and, SqlLogic.taken_isNull, SqlLogic.taken_some]
  cases sort.expression.eval b <;> simp

theorem le_of_beyond (h : sort.direction = .asc) {x y : pg.Value sort.expression.type}
    (hxy : beyond pg sort x y = true) : x ≤ y := by
  unfold beyond at hxy
  rw [h] at hxy
  exact le_of_lt (of_decide_eq_true hxy)

theorem behindValue_taken (h : sort.Fits) {x : pg.Value sort.expression.type}
    (ha : sort.expression.eval a = some x) (b : Row pg) :
    taken (behindValue sort x (tieAt sort a) b) = true ↔ (orderBy pg sort).Before a b := by
  rw [before_iff h, ha]
  cases hb : sort.expression.eval b with
  | none =>
    cases hnulls : sort.nullsLast with
    | true => simp [behindValue, hb, hnulls]
    | false =>
      obtain ⟨y, hy⟩ := h.present hnulls pg b
      rw [hb] at hy
      cases hy
  | some y =>
    have hexact : taken (behindValue sort x (tieAt sort a) b) = true ↔
        beyond pg sort x y = true ∨ y = x ∧ (tieAt sort a).test b = true := by
      simp only [behindValue]
      by_cases hposition : sort.expression = .position
      · -- the redundant bound takes nothing away
        have hbound : beyond pg sort x y = true ∨ y = x ∧ (tieAt sort a).test b = true →
            x ≤ y := by
          rintro (hbeyond | ⟨rfl, _⟩)
          · exact le_of_beyond (h.ascending hposition) hbeyond
          · exact le_refl _
        rw [if_pos hposition]
        cases hnulls : sort.nullsLast <;> simp [hb] <;> exact hbound
      · rw [if_neg hposition]
        cases hnulls : sort.nullsLast <;> simp [hb]
    rw [hexact]
    constructor
    · rintro (hbeyond | ⟨rfl, htie⟩)
      · exact .inl ⟨x, rfl, fun z hz => Option.some.inj hz ▸ hbeyond⟩
      · exact .inr ⟨rfl, htie⟩
    · rintro (⟨z, hz, hbeyond⟩ | ⟨hsame, htie⟩)
      · rw [Option.some.inj hz]
        exact .inl (hbeyond y rfl)
      · exact .inr ⟨(Option.some.inj hsame).symm, htie⟩

/-! ## Sorted rows -/

section

variable (membership : Membership pg)
include membership

/-- Rows of a listing that are tied in every column are one row. -/
theorem Membership.decided (sort : ResolvedSort) :
    ∀ a ∈ membership.rows, ∀ b ∈ membership.rows, (orderBy pg sort).le a b = true →
      (orderBy pg sort).le b a = true → a = b := by
  intro a ha b hb hab hba
  have htie := thenBy_tie hab hba
  have hid : ∀ a b : Row pg, (tieOrder pg sort.idOnlyTie).le a b = true ∧
      (tieOrder pg sort.idOnlyTie).le b a = true → a.id = b.id := by
    intro a b htie
    unfold tieOrder at htie
    have hbyId : ∀ a b : Row pg,
        ((linear pg.Id).reverse.on (Row.id : Row pg → pg.Id)).le a b = true → b.id ≤ a.id :=
      fun a b h => of_decide_eq_true h
    by_cases honly : sort.idOnlyTie = true
    · rw [if_pos honly] at htie
      exact le_antisymm (hbyId b a htie.2) (hbyId a b htie.1)
    · rw [if_neg honly] at htie
      have hlast := thenBy_tie htie.1 htie.2
      exact le_antisymm (hbyId b a hlast.2) (hbyId a b hlast.1)
  exact inj_on_of_nodup_map membership.nodup ha hb (hid a b htie)

theorem Membership.rows_nodup : membership.rows.Nodup :=
  Nodup.of_map Row.id membership.nodup

theorem ordered_sorted (sort : ResolvedSort) :
    (ordered membership sort).Pairwise (orderBy pg sort).Before :=
  SortOrder.sort_sorted membership.rows_nodup (membership.decided sort)

theorem ordered_perm (sort : ResolvedSort) :
    (ordered membership sort).Perm membership.rows :=
  SortOrder.sort_perm _ _

end

/-! ## A request -/

variable {texts : Texts pg} {codec : Codec} {properties : Properties}
  {membership : Membership pg} {branch : Branch} {sortRequest : SortRequest} {limit : Int}
  {sort : ResolvedSort} {n : Nat}

/-- A page of what the condition takes. -/
theorem queryPage_eq {condition : Row pg → SqlLogic.Truth} {rest : List (Row pg)}
    (hrest : (orderBy pg sort).sort
      (membership.rows.filter fun row => taken (condition row)) = rest) :
    queryPage texts codec branch sort n membership.rows condition =
      Keyset.serve n (nextCursor texts codec branch sort)
        rest := by
  unfold queryPage Keyset.serve
  simp only [hrest, length_take, take_take]
  by_cases hmore : n < rest.length
  · rw [if_pos (by omega), if_pos hmore, Nat.min_eq_left (by omega)]
  · rw [if_neg (by omega), if_neg hmore, take_of_length_le (by omega)]

theorem normalizeLimit_pos (h : normalizeLimit limit = .ok n) : 0 < n := by
  unfold normalizeLimit at h
  generalize (if limit = 0 then (issueTableDefaultPageSize : Int) else limit) = limit' at h
  dsimp only at h
  split at h
  · cases h
  · next hrange =>
      have hn : limit'.toNat = n := by
        injection h
      omega

section

variable (hsort : issueTableOrderBy properties sortRequest = .ok sort)
  (hlimit : normalizeLimit limit = .ok n)
include hsort hlimit

theorem listing_first :
    listing texts codec properties membership branch sortRequest limit none =
      .ok (Keyset.serve n
        (nextCursor texts codec branch sort)
        (ordered membership sort)) := by
  have hpage : queryPage texts codec branch sort n membership.rows (fun _ => some true) =
      Keyset.serve n (nextCursor texts codec branch sort)
        (ordered membership sort) := by
    apply queryPage_eq
    simp [ordered]
  simp only [listing, listIssueTableRows, normalizeIssueTablePage, decodeCursor, hlimit, checkCursor,
    hsort, cursorPredicate, whereClause, bind, Except.bind, pure, Except.pure, hpage]

/-- The handler's answer to the cursor of a row it listed. -/
theorem listing_next (hcodec : ReadsBack texts codec branch sort membership)
    {front back : List (Row pg)} (hsplit : ordered membership sort = front ++ a :: back) :
    listing texts codec properties membership branch sortRequest limit
        (some (nextCursor texts codec branch sort a)) =
      if CursorAccepted texts sort a then
        .ok (Keyset.serve n
          (nextCursor texts codec branch sort) back)
      else .error invalidCursor := by
  have hfits := issueTableOrderBy_fits hsort
  have hlisted : a ∈ membership.rows := by
    rw [← (ordered_perm membership sort).mem_iff, hsplit]
    exact mem_append_right _ mem_cons_self
  obtain ⟨hback, hvisible⟩ := hcodec a hlisted
  have hdecoded : decodeCursor codec (some (nextCursor texts codec branch sort a)) =
      .ok (some (cursorAt texts branch sort a)) := by
    simp only [decodeCursor, if_neg hvisible, hback]
    rfl
  have hchecked : checkCursor branch (some (cursorAt texts branch sort a)) = .ok () := by
    simp [checkCursor, cursorAt]
  have hpage : ∀ condition : Row pg → SqlLogic.Truth,
      (∀ b, taken (condition b) = true ↔ (orderBy pg sort).Before a b) →
      queryPage texts codec branch sort n membership.rows condition =
        Keyset.serve n (nextCursor texts codec branch sort)
          back := by
    intro condition htaken
    apply queryPage_eq
    rw [SortOrder.sort_filter _ membership.rows_nodup (membership.decided sort)]
    show (ordered membership sort).filter _ = back
    rw [hsplit]
    apply SortOrder.filter_before (o := orderBy pg sort)
    · rw [← hsplit]
      exact ordered_sorted membership sort
    · exact htaken
  simp only [listing, listIssueTableRows, normalizeIssueTablePage, hlimit, hdecoded, hchecked,
    hsort, bind, Except.bind, pure, Except.pure, cursorPredicate_cursorAt]
  cases hvalue : sort.expression.eval a with
  | none =>
    have haccepted : CursorAccepted texts sort a := by
      intro value hmem
      rw [hvalue] at hmem
      cases hmem
    have hnulls : sort.nullsLast ≠ false := by
      intro hnulls
      obtain ⟨x, hx⟩ := hfits.present hnulls pg a
      rw [hvalue] at hx
      cases hx
    rw [if_pos haccepted, ← hpage _ (amongNulls_taken hfits hvalue)]
    simp only [if_neg hnulls, whereClause]
  | some x =>
    have haccepted : CursorAccepted texts sort a ↔
        acceptsSortValue texts sort.castType (texts.text sort.expression.type x) = true := by
      unfold CursorAccepted
      simp [hvalue]
    by_cases haccepts : acceptsSortValue texts sort.castType
        (texts.text sort.expression.type x) = true
    · rw [if_pos (haccepted.mpr haccepts), ← hpage _ (behindValue_taken hfits hvalue)]
      simp only [if_pos haccepts, whereClause, if_pos hfits.castType, texts.cast_text]
    · rw [if_neg fun h => haccepts (haccepted.mp h)]
      simp only [if_neg haccepts]

end

/-- For every sort the handler resolves and every limit it takes: the clause
orders the matching rows without ties, and following `next_cursor` reads all of
them, once and in this order, exactly when the handler takes the cursors of the
rows its pages end with. -/
theorem paging_complete_iff (texts : Texts pg) (codec : Codec) (properties : Properties)
    (membership : Membership pg) (branch : Branch) (sortRequest : SortRequest) (limit : Int)
    (sort : ResolvedSort) (n : Nat) (hsort : issueTableOrderBy properties sortRequest = .ok sort)
    (hlimit : normalizeLimit limit = .ok n)
    (hcodec : ReadsBack texts codec branch sort membership) :
    (ordered membership sort).Perm membership.rows ∧
      (ordered membership sort).Pairwise (orderBy pg sort).Before ∧
      ((∃ pages, Keyset.follow
          (listing texts codec properties membership branch sortRequest limit) pages none =
            some (.ok (ordered membership sort))) ↔
        ∀ row, Keyset.EndsPage n (ordered membership sort) row → CursorAccepted texts sort row) := by
  refine ⟨ordered_perm membership sort, ordered_sorted membership sort, ?_⟩
  have hserves : Keyset.Serves n
      (nextCursor texts codec branch sort)
      (CursorAccepted texts sort) invalidCursor (ordered membership sort)
      (listing texts codec properties membership branch sortRequest limit) :=
    ⟨listing_first hsort hlimit, fun front a back hsplit => listing_next hsort hlimit hcodec hsplit⟩
  exact hserves.follow_iff (normalizeLimit_pos hlimit)

/-! ## Listings to check by evaluation -/

/-- Three ids, one instant, and two days: one before the year 1 and one of 2026. -/
def fewValues : Postgres where
  Id := Fin 3
  Double := Unit
  Instant := Unit
  Date := Bool
  Numeric := Unit
  idOrder := inferInstance
  doubleOrder := inferInstance
  instantOrder := inferInstance
  dateOrder := inferInstance
  numericOrder := inferInstance
  collation := inferInstance

def fewIdText : Fin 3 → String
  | 0 => "00000000-0000-4000-8000-000000000000"
  | 1 => "00000000-0000-4000-8000-000000000001"
  | 2 => "00000000-0000-4000-8000-000000000002"

def parseFewId (text : String) : Option (Fin 3) :=
  if text = fewIdText 0 then some 0
  else if text = fewIdText 1 then some 1
  else if text = fewIdText 2 then some 2
  else none

theorem parseFewId_text : ∀ id, parseFewId (fewIdText id) = some id
  | 0 => by decide
  | 1 => by decide
  | 2 => by decide

theorem fewIdText_nonempty : ∀ id, fewIdText id ≠ ""
  | 0 => by decide
  | 1 => by decide
  | 2 => by decide

/-- `time.Parse` with the layout of a day. -/
def parsesDay (text : String) : Bool :=
  let number (digits : List Char) : Nat := digits.foldl (fun n d => 10 * n + (d.toNat - 48)) 0
  match text.toList with
  | [y1, y2, y3, y4, '-', m1, m2, '-', d1, d2] =>
    let year := number [y1, y2, y3, y4]
    let month := number [m1, m2]
    let day := number [d1, d2]
    let leap := year % 4 = 0 && (year % 100 ≠ 0 || year % 400 = 0)
    let days := if month = 2 then (if leap then 29 else 28)
      else if month ∈ [4, 6, 9, 11] then 30 else 31
    [y1, y2, y3, y4, m1, m2, d1, d2].all Char.isDigit &&
      1 ≤ month && month ≤ 12 && 1 ≤ day && day ≤ days
  | _ => false

def fewTexts : Texts fewValues where
  text
    | .doublePrecision, _ => "0"
    | .text, text => text
    | .timestamptz, _ => "2026-01-01 00:00:00+00"
    | .date, true => "2026-05-05"
    | .date, false => "0001-05-05 BC"
    | .integer, n => Int.repr n
    | .numeric, _ => "0"
  cast
    | .doublePrecision, text => if text = "0" then some () else none
    | .text, text => some text
    | .timestamptz, text => if text = "2026-01-01 00:00:00+00" then some () else none
    | .date, text =>
      if text = "2026-05-05" then some true
      else if text = "0001-05-05 BC" then some false else none
    | .integer, text => text.toInt?
    | .numeric, text => if text = "0" then some () else none
  cast_text
    | .doublePrecision, _ => rfl
    | .text, _ => rfl
    | .timestamptz, _ => rfl
    | .date, true => rfl
    | .date, false => rfl
    | .integer, n => Int.toInt?_repr n
    | .numeric, _ => rfl
  idText := fewIdText
  parseId := parseFewId
  parseId_text := parseFewId_text
  idText_nonempty := fewIdText_nonempty
  instantText _ := "2026-01-01T00:00:00Z"
  parseInstant text := if text = "2026-01-01T00:00:00Z" then some () else none
  parseInstant_text _ := rfl
  parsesInt text := text.toInt?.isSome
  parsesFloat text := text = "0"
  parsesTime layout text :=
    if layout = "2006-01-02" then parsesDay text
    else text = "2026-01-01T00:00:00Z" || text = "2026-01-01 00:00:00+00"

def ungrouped : Branch := ⟨"sha256:due", none, none, "group:none:hierarchy=false"⟩

def dueRow (id : Fin 3) (dueDate : Option Bool) : Row fewValues :=
  ⟨id, "title", "todo", "none", (), (), (), none, none, dueDate, fun _ => none⟩

def byDueDate : ResolvedSort := ⟨.dueDate, .asc, .date, true, false⟩

/-- How the cursors below begin. -/
def fewQuery : String :=
  "eyJ2IjoxLCJxdWVyeSI6InNoYTI1NjpkdWUiLCJicmFuY2hfaWRlbnRpdHkiOiJncm91cDpub25lOmhpZXJhcmNoeT1m"

/-- The cursors of the rows below, and how they are written. -/
def fewCursors : List (Cursor × String) :=
  [(cursorAt fewTexts ungrouped byDueDate (dueRow 2 (some true)),
      fewQuery ++
      "YWxzZSIsInNvcnRfdmFsdWUiOiIyMDI2LTA1LTA1Iiwicm93X2NyZWF0ZWRfYXQiOiIyMDI2LTAxLTAxVDAwOjAwOjAw" ++
      "WiIsInJvd19pZCI6IjAwMDAwMDAwLTAwMDAtNDAwMC04MDAwLTAwMDAwMDAwMDAwMiJ9"),
    (cursorAt fewTexts ungrouped byDueDate (dueRow 1 (some true)),
      fewQuery ++
      "YWxzZSIsInNvcnRfdmFsdWUiOiIyMDI2LTA1LTA1Iiwicm93X2NyZWF0ZWRfYXQiOiIyMDI2LTAxLTAxVDAwOjAwOjAw" ++
      "WiIsInJvd19pZCI6IjAwMDAwMDAwLTAwMDAtNDAwMC04MDAwLTAwMDAwMDAwMDAwMSJ9"),
    (cursorAt fewTexts ungrouped byDueDate (dueRow 0 none),
      fewQuery ++
      "YWxzZSIsInNvcnRfaXNfbnVsbCI6dHJ1ZSwicm93X2NyZWF0ZWRfYXQiOiIyMDI2LTAxLTAxVDAwOjAwOjAwWiIsInJv" ++
      "d19pZCI6IjAwMDAwMDAwLTAwMDAtNDAwMC04MDAwLTAwMDAwMDAwMDAwMCJ9"),
    (cursorAt fewTexts ungrouped byDueDate (dueRow 0 (some false)),
      fewQuery ++
      "YWxzZSIsInNvcnRfdmFsdWUiOiIwMDAxLTA1LTA1IEJDIiwicm93X2NyZWF0ZWRfYXQiOiIyMDI2LTAxLTAxVDAwOjAw" ++
      "OjAwWiIsInJvd19pZCI6IjAwMDAwMDAwLTAwMDAtNDAwMC04MDAwLTAwMDAwMDAwMDAwMCJ9")]

def fewCodec : Codec where
  encodeIssueTableCursor cursor := ((fewCursors.find? (·.1 = cursor)).map Prod.snd).getD ""
  decode text := (fewCursors.find? (·.2 = text)).map Prod.fst

def noProperties : Properties := ⟨fun _ => none, fun _ => .missing⟩

/-- Two issues due on one day, and one without a day. -/
def dueTied : Membership fewValues where
  rows := [dueRow 0 none, dueRow 1 (some true), dueRow 2 (some true)]
  nodup := by decide +kernel

def oldestDate : Membership fewValues where
  rows := [dueRow 0 (some false), dueRow 1 (some true)]
  nodup := by decide +kernel

theorem cursorAccepted_of_rows {membership : Membership fewValues}
    (h : ∀ row ∈ membership.rows, CursorAccepted fewTexts byDueDate row) (row : Row fewValues)
    (hends : Keyset.EndsPage 1 (ordered membership byDueDate) row) :
    CursorAccepted fewTexts byDueDate row := by
  obtain ⟨front, back, hsplit, _⟩ := hends
  apply h
  rw [← (ordered_perm membership byDueDate).mem_iff, hsplit]
  exact mem_append_right _ mem_cons_self

/-! ### The codec of the listings

The texts of the cursors are long, and the kernel is slow on them: they are told apart by
the parts that differ, and the codec is a list of pairs with distinct ends. -/

theorem append_ne_append {a b c b' c' : String} (hlength : b.toList.length = b'.toList.length)
    (hne : b ≠ b' ∨ c ≠ c') : a ++ b ++ c ≠ a ++ b' ++ c' := by
  intro heq
  have hlists := congrArg String.toList heq
  rw [String.toList_append, String.toList_append, String.toList_append, String.toList_append, append_assoc,
    append_assoc] at hlists
  obtain ⟨hb, hc⟩ := append_inj (append_cancel_left hlists) hlength
  cases hne with
  | inl hne => exact hne (String.toList_inj.mp hb)
  | inr hne => exact hne (String.toList_inj.mp hc)

theorem fewCursors_keys : (fewCursors.map Prod.fst).Nodup := by decide +kernel

theorem fewCursors_texts : (fewCursors.map Prod.snd).Nodup := by
  have hne : ∀ {t t' : String} {rest : List String}, t ≠ t' → t ∉ rest → t ∉ t' :: rest :=
    fun hhead htail hmem => (mem_cons.mp hmem).elim hhead htail
  apply nodup_cons.mpr ⟨hne ?_ (hne ?_ (hne ?_ not_mem_nil)),
    nodup_cons.mpr ⟨hne ?_ (hne ?_ not_mem_nil),
      nodup_cons.mpr ⟨hne ?_ not_mem_nil, nodup_cons.mpr ⟨not_mem_nil, nodup_nil⟩⟩⟩⟩
  · exact append_ne_append rfl (.inr (by decide +kernel))
  · exact append_ne_append (by decide +kernel) (.inl (by decide +kernel))
  · exact append_ne_append (by decide +kernel) (.inl (by decide +kernel))
  · exact append_ne_append (by decide +kernel) (.inl (by decide +kernel))
  · exact append_ne_append (by decide +kernel) (.inl (by decide +kernel))
  · exact append_ne_append (by decide +kernel) (.inl (by decide +kernel))

theorem find?_image {ρ κ : Type} [DecidableEq κ] {f : ρ → κ} {pairs : List ρ} (h : (pairs.map f).Nodup) {p : ρ}
    (hp : p ∈ pairs) : pairs.find? (fun q => decide (f q = f p)) = some p := by
  cases hfind : pairs.find? fun q => decide (f q = f p) with
  | none => exact absurd (decide_eq_true rfl) (find?_eq_none.mp hfind p hp)
  | some q =>
    have hq := find?_some (p := fun q => decide (f q = f p)) hfind
    rw [inj_on_of_nodup_map h (mem_of_find?_eq_some hfind) hp (of_decide_eq_true hq)]

theorem few_codec {p : Cursor × String} (hp : p ∈ fewCursors) :
    fewCodec.encodeIssueTableCursor p.1 = p.2 ∧ fewCodec.decode p.2 = some p.1 := by
  constructor
  · show ((fewCursors.find? fun q => decide (q.1 = p.1)).map Prod.snd).getD "" = p.2
    rw [find?_image fewCursors_keys hp]
    rfl
  · show (fewCursors.find? fun q => decide (q.2 = p.2)).map Prod.fst = some p.1
    rw [find?_image fewCursors_texts hp]
    rfl

theorem trimSpace_ne_empty {s : String} {c : Char} (hc : c ∈ s.toList) (hspace : isSpace c = false) :
    trimSpace s ≠ "" := by
  intro hempty
  have hlist : ((s.toList.dropWhile isSpace).reverse.dropWhile isSpace).reverse = [] := by
    have htoList := congrArg String.toList hempty
    rw [trimSpace, String.toList_ofList] at htoList
    exact htoList
  rw [reverse_eq_nil_iff, dropWhile_eq_nil_iff] at hlist
  have hrest : s.toList.dropWhile isSpace = [] := by
    cases hdrop : s.toList.dropWhile isSpace with
    | nil => rfl
    | cons first rest =>
      have hnot := head?_dropWhile_not isSpace s.toList
      rw [hdrop] at hnot hlist
      have hfirst : isSpace first = true := hlist first (mem_reverse.mpr mem_cons_self)
      have hnot' : isSpace first = false := hnot
      rw [hfirst] at hnot'
      cases hnot'
  rw [dropWhile_eq_nil_iff.mp hrest c hc] at hspace
  cases hspace

theorem fewCursors_start : ∀ p ∈ fewCursors, 'e' ∈ p.2.toList := by
  intro p hp
  have hstart : ∃ b c, p.2 = fewQuery ++ b ++ c := by
    simp only [fewCursors, mem_cons, not_mem_nil, or_false] at hp
    rcases hp with rfl | rfl | rfl | rfl
    · exact ⟨_, _, rfl⟩
    · exact ⟨_, _, rfl⟩
    · exact ⟨_, _, rfl⟩
    · exact ⟨_, _, rfl⟩
  obtain ⟨b, c, heq⟩ := hstart
  rw [heq, String.toList_append, String.toList_append]
  exact mem_append_left _ (mem_append_left _ (by decide +kernel))

theorem few_readsBack {membership : Membership fewValues}
    (h : ∀ row ∈ membership.rows, cursorAt fewTexts ungrouped byDueDate row ∈ fewCursors.map Prod.fst) :
    ReadsBack fewTexts fewCodec ungrouped byDueDate membership := by
  intro row hrow
  obtain ⟨p, hp, heq⟩ := mem_map.mp (h row hrow)
  obtain ⟨hencode, hdecode⟩ := few_codec hp
  unfold nextCursor
  rw [← heq, hencode, hdecode]
  exact ⟨rfl, trimSpace_ne_empty (fewCursors_start p hp) (by decide)⟩

theorem paging_complete_tied :
    ∃ pages, Keyset.follow
      (listing fewTexts fewCodec noProperties dueTied ungrouped ⟨"due_date", ""⟩ 1) pages none =
        some (.ok (ordered dueTied byDueDate)) :=
  (paging_complete_iff fewTexts fewCodec noProperties dueTied ungrouped ⟨"due_date", ""⟩ 1 byDueDate
    1 (by decide +kernel) (by decide +kernel) (few_readsBack (by decide +kernel))).2.2.mpr
      (cursorAccepted_of_rows (by decide +kernel))

/-- The first page of two ends with an issue due in the year 0, which the
database calls 1 BC; the cursor of that page is refused. -/
theorem oldestDate_incomplete :
    ¬ ∃ pages, Keyset.follow
      (listing fewTexts fewCodec noProperties oldestDate ungrouped ⟨"due_date", ""⟩ 1) pages none =
        some (.ok (ordered oldestDate byDueDate)) := by
  intro hread
  have hsort : issueTableOrderBy noProperties ⟨"due_date", ""⟩ = .ok byDueDate := by decide +kernel
  have hlimit : normalizeLimit 1 = .ok 1 := by decide +kernel
  have hcodec : ReadsBack fewTexts fewCodec ungrouped byDueDate oldestDate := few_readsBack (by decide +kernel)
  have hserves : Keyset.Serves 1
      (nextCursor fewTexts fewCodec ungrouped byDueDate)
      (CursorAccepted fewTexts byDueDate) invalidCursor (ordered oldestDate byDueDate)
      (listing fewTexts fewCodec noProperties oldestDate ungrouped ⟨"due_date", ""⟩ 1) :=
    ⟨listing_first hsort hlimit, fun front a back hsplit => listing_next hsort hlimit hcodec hsplit⟩
  have hends : Keyset.EndsPage 1 (ordered oldestDate byDueDate) (dueRow 0 (some false)) := by
    refine ⟨[], [dueRow 1 (some true)], ?_, ?_⟩
    · rfl
    · decide
  have haccepted := (hserves.follow_iff (normalizeLimit_pos hlimit)).mp hread _ hends
  exact absurd haccepted (by decide +kernel)

end ClawMessenger.Ports.IssueTable
