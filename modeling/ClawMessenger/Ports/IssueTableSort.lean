import ClawMessenger.Verified.SortOrder
import ClawMessenger.Verified.SqlLogic

/-!
# The sort of the issue table

`server/internal/handler/issue_table_rows.go` and the sort of
`server/internal/handler/property.go`.  A request names a field and a direction;
`issueTableOrderBy` makes of them an expression over the columns of an issue, and
from that expression come both the `ORDER BY` clause and the predicate that
continues a listing behind a row (`cursorPredicate`).

The database is a parameter: how it orders the values of each sort type, the
text it gives a value, and that it reads the text back.  So are the parsers the
handler checks a cursor with.
-/

namespace ClawMessenger.Ports.IssueTable

open Verified

/-! ## Database and parsers -/

inductive CastType where
  | doublePrecision
  | text
  | timestamptz
  | date
  | integer
  | numeric
  deriving DecidableEq, Repr

structure Postgres where
  Id : Type
  Double : Type
  Instant : Type
  Date : Type
  Numeric : Type
  idOrder : LinearOrder Id
  doubleOrder : LinearOrder Double
  instantOrder : LinearOrder Instant
  dateOrder : LinearOrder Date
  numericOrder : LinearOrder Numeric
  /-- Texts by the collation of the database. -/
  collation : LinearOrder String

/-- The values of a sort type. -/
def Postgres.Value (pg : Postgres) : CastType → Type
  | .doublePrecision => pg.Double
  | .text => String
  | .timestamptz => pg.Instant
  | .date => pg.Date
  | .integer => Int
  | .numeric => pg.Numeric

instance (pg : Postgres) : LinearOrder pg.Id := pg.idOrder

instance (pg : Postgres) : LinearOrder pg.Instant := pg.instantOrder

instance Postgres.valueOrder (pg : Postgres) : (c : CastType) → LinearOrder (pg.Value c)
  | .doublePrecision => pg.doubleOrder
  | .text => pg.collation
  | .timestamptz => pg.instantOrder
  | .date => pg.dateOrder
  | .integer => inferInstanceAs (LinearOrder Int)
  | .numeric => pg.numericOrder

/-- The texts values travel as. -/
structure Texts (pg : Postgres) where
  /-- `value::text` -/
  text : ∀ c, pg.Value c → String
  /-- `text::type` -/
  cast : ∀ c, String → Option (pg.Value c)
  cast_text : ∀ c value, cast c (text c value) = some value
  /-- `UUIDToString` and `ParseUUID` -/
  idText : pg.Id → String
  parseId : String → Option pg.Id
  parseId_text : ∀ id, parseId (idText id) = some id
  idText_nonempty : ∀ id, idText id ≠ ""
  /-- `Format` and `Parse` with `time.RFC3339Nano`, of an instant in UTC -/
  instantText : pg.Instant → String
  parseInstant : String → Option pg.Instant
  parseInstant_text : ∀ instant, parseInstant (instantText instant) = some instant
  /-- `strconv.ParseInt` takes the text; so for the other parsers. -/
  parsesInt : String → Bool
  parsesFloat : String → Bool
  /-- `time.Parse` with a layout takes the text. -/
  parsesTime : String → String → Bool

/-! ## Rows -/

/-- What a property holds: a number with its value, or something with a text. -/
inductive PropertyValue (pg : Postgres) where
  | number (value : pg.Numeric) (text : String)
  | other (text : String)

/-- The columns a listing can be sorted by. -/
structure Row (pg : Postgres) where
  id : pg.Id
  title : String
  status : String
  priority : String
  position : pg.Double
  createdAt : pg.Instant
  updatedAt : pg.Instant
  lastActivityAt : Option pg.Instant
  startDate : Option pg.Date
  dueDate : Option pg.Date
  properties : String → Option (PropertyValue pg)

/-! ## Expressions -/

inductive Expression where
  | position
  | title
  | createdAt
  | updatedAt
  | lastActivityAt
  | startDate
  | dueDate
  | statusRank
  | priorityRank
  | propertyNumber (id : String)
  | propertyText (id : String)
  deriving DecidableEq, Repr

/-- The type the database computes the expression in. -/
def Expression.type : Expression → CastType
  | .position => .doublePrecision
  | .title | .propertyText _ => .text
  | .createdAt | .updatedAt | .lastActivityAt => .timestamptz
  | .startDate | .dueDate => .date
  | .statusRank | .priorityRank => .integer
  | .propertyNumber _ => .numeric

def rankOfStatus (status : String) : Int :=
  if status = "backlog" then 0
  else if status = "todo" then 1
  else if status = "in_progress" then 2
  else if status = "in_review" then 3
  else if status = "done" then 4
  else if status = "blocked" then 5
  else if status = "cancelled" then 6
  else 7

def rankOfPriority (priority : String) : Int :=
  if priority = "urgent" then 0
  else if priority = "high" then 1
  else if priority = "medium" then 2
  else if priority = "low" then 3
  else 4

def PropertyValue.number? {pg : Postgres} : PropertyValue pg → Option pg.Numeric
  | .number value _ => some value
  | .other _ => none

def PropertyValue.text {pg : Postgres} : PropertyValue pg → String
  | .number _ text | .other text => text

/-- The expression's value in a row, missing for `NULL`. -/
def Expression.eval {pg : Postgres} : (e : Expression) → Row pg → Option (pg.Value e.type)
  | .position, row => some row.position
  | .title, row => some row.title
  | .createdAt, row => some row.createdAt
  | .updatedAt, row => some row.updatedAt
  | .lastActivityAt, row => row.lastActivityAt
  | .startDate, row => row.startDate
  | .dueDate, row => row.dueDate
  | .statusRank, row => some (rankOfStatus row.status)
  | .priorityRank, row => some (rankOfPriority row.priority)
  | .propertyNumber id, row => (row.properties id).bind PropertyValue.number?
  | .propertyText id, row =>
    ((row.properties id).map PropertyValue.text).filter fun text : String => text ≠ ""

/-! ## The sort of a request -/

structure HttpError where
  status : Nat
  message : String
  deriving DecidableEq, Repr

def badRequest (message : String) : HttpError := ⟨400, message⟩

inductive Direction where
  | asc
  | desc
  deriving DecidableEq, Repr

structure ResolvedSort where
  expression : Expression
  direction : Direction
  castType : CastType
  nullsLast : Bool
  idOnlyTie : Bool
  deriving DecidableEq, Repr

/-- What `GetIssueProperty` finds. -/
inductive PropertyLookup where
  | missing
  | failed
  | archived
  | active (type : String)

/-- What the handler resolves a property with. -/
structure Properties where
  /-- `uuid.Parse`, and the text the id is written back as -/
  parseUuid : String → Option String
  getIssueProperty : String → PropertyLookup

def isSpace (c : Char) : Bool :=
  c ∈ ['\t', '\n', '\x0b', '\x0c', '\r', ' ', '\u0085', '\u00a0', '\u1680', '\u2028', '\u2029',
    '\u202f', '\u205f', '\u3000'] || ('\u2000' ≤ c && c ≤ '\u200a')

/-- `strings.TrimSpace` -/
def trimSpace (s : String) : String :=
  String.ofList (((s.toList.dropWhile isSpace).reverse.dropWhile isSpace).reverse)

/-- `strings.ToLower`; no letter outside ASCII has one of the letters asked for. -/
def toLower (s : String) : String := String.ofList (s.toList.map Char.toLower)

/-- What `propertySortExpr` says of a field: not a property, or an error, or the
expression, none for the order by position. -/
def propertySortExpr (properties : Properties) (sortValue : String) :
    Option (Except HttpError (Option Expression)) :=
  let mark := "property:".toList
  if sortValue.toList.take mark.length ≠ mark then none
  else
    match properties.parseUuid (String.ofList (sortValue.toList.drop mark.length)) with
    | none => some (.error (badRequest "invalid sort value"))
    | some id =>
      match properties.getIssueProperty id with
      | .missing => some (.ok none)
      | .failed => some (.error ⟨500, "failed to resolve table sort"⟩)
      | .archived => some (.ok none)
      | .active type =>
        if type = "number" then some (.ok (some (.propertyNumber id)))
        else if type ∈ ["date", "text", "url", "select"] then
          some (.ok (some (.propertyText id)))
        else some (.ok none)

def byPosition : ResolvedSort := ⟨.position, .asc, .doublePrecision, false, false⟩

/-- The switch of `issueTableOrderBy`. -/
def resolveField (properties : Properties) (field : String) : Except HttpError ResolvedSort :=
  match field with
  | "position" => .ok byPosition
  | "title" => .ok { byPosition with expression := .title, castType := .text }
  | "created_at" => .ok { byPosition with expression := .createdAt, castType := .timestamptz }
  | "updated_at" => .ok { byPosition with expression := .updatedAt, castType := .timestamptz }
  | "last_activity" =>
    .ok { byPosition with
      expression := .lastActivityAt, castType := .timestamptz, nullsLast := true
      idOnlyTie := true }
  | "start_date" =>
    .ok { byPosition with expression := .startDate, castType := .date, nullsLast := true }
  | "due_date" =>
    .ok { byPosition with expression := .dueDate, castType := .date, nullsLast := true }
  | "status" => .ok { byPosition with expression := .statusRank, castType := .integer }
  | "priority" => .ok { byPosition with expression := .priorityRank, castType := .integer }
  | field =>
    match propertySortExpr properties field with
    | none => .error (badRequest "invalid query.sort.field")
    | some (.error e) => .error e
    | some (.ok none) => .ok byPosition
    | some (.ok (some expression)) =>
      .ok { byPosition with
        expression := expression
        castType := match expression with
          | .propertyNumber _ => .numeric
          | _ => .text
        nullsLast := true }

structure SortRequest where
  field : String
  direction : String

def requestedDirection (resolved : ResolvedSort) (request : SortRequest) : String :=
  let direction := toLower (trimSpace request.direction)
  if direction = "" then (if resolved.idOnlyTie then "desc" else "asc") else direction

/-- The order by position keeps its direction. -/
def applyDirection (sortField direction : String) (resolved : ResolvedSort) :
    Except HttpError ResolvedSort :=
  if direction ≠ "asc" ∧ direction ≠ "desc" then
    .error (badRequest "invalid query.sort.direction")
  else if sortField ≠ "position" ∧ resolved.expression ≠ .position then
    .ok { resolved with direction := if direction = "desc" then .desc else .asc }
  else .ok resolved

def issueTableOrderBy (properties : Properties) (request : SortRequest) :
    Except HttpError ResolvedSort :=
  let field := trimSpace request.field
  let sortField := if field = "" then "position" else field
  match resolveField properties sortField with
  | .error e => .error e
  | .ok resolved => applyDirection sortField (requestedDirection resolved request) resolved

/-! ## ORDER BY -/

/-- `created_at DESC, id DESC`, or the id alone. -/
def tieOrder (pg : Postgres) (idOnlyTie : Bool) : SortOrder (Row pg) :=
  let byId : SortOrder (Row pg) := (SortOrder.linear pg.Id).reverse.on Row.id
  if idOnlyTie then byId
  else ((SortOrder.linear pg.Instant).reverse.on Row.createdAt).thenBy byId

/-- One column of the clause: without `NULLS LAST` missing values come first in a
descending order. -/
def columnOrder (pg : Postgres) (sort : ResolvedSort) : SortOrder (Row pg) :=
  let values := SortOrder.linear (pg.Value sort.expression.type)
  let nullable := match sort.direction, sort.nullsLast with
    | .asc, _ => values.nullsLast
    | .desc, true => values.reverse.nullsLast
    | .desc, false => values.nullsLast.reverse
  nullable.on sort.expression.eval

def orderBy (pg : Postgres) (sort : ResolvedSort) : SortOrder (Row pg) :=
  (columnOrder pg sort).thenBy (tieOrder pg sort.idOnlyTie)

/-! ## What a resolved sort satisfies -/

structure ResolvedSort.Fits (sort : ResolvedSort) : Prop where
  castType : sort.castType = sort.expression.type
  /-- Where missing values have no place of their own, none is missing. -/
  present : sort.nullsLast = false → ∀ (pg : Postgres) (row : Row pg),
    ∃ value, sort.expression.eval row = some value
  ascending : sort.expression = .position → sort.direction = .asc

theorem byPosition_fits : byPosition.Fits := ⟨rfl, fun _ _ _ => ⟨_, rfl⟩, fun _ => rfl⟩

variable {properties : Properties} {field : String}

theorem propertySortExpr_expression {expression : Expression}
    (h : propertySortExpr properties field = some (.ok (some expression))) :
    ∃ id, expression = .propertyNumber id ∨ expression = .propertyText id := by
  unfold propertySortExpr at h
  dsimp only at h
  split at h
  · cases h
  · split at h
    · cases h
    · next id _ =>
        split at h
        · cases h
        · cases h
        · cases h
        · split at h
          · exact ⟨id, .inl (by simpa [eq_comm] using h)⟩
          · split at h
            · exact ⟨id, .inr (by simpa [eq_comm] using h)⟩
            · cases h

variable {resolved : ResolvedSort}

theorem resolveField_fits (h : resolveField properties field = .ok resolved) : resolved.Fits := by
  unfold resolveField at h
  split at h
  case h_10 =>
    split at h
    · cases h
    · cases h
    · cases h
      exact byPosition_fits
    · next hexpr =>
        cases h
        obtain ⟨id, rfl | rfl⟩ := propertySortExpr_expression hexpr
        · exact ⟨rfl, (fun hnulls => by cases hnulls), (fun hposition => by cases hposition)⟩
        · exact ⟨rfl, (fun hnulls => by cases hnulls), (fun hposition => by cases hposition)⟩
  all_goals
    cases h
    first
      | exact byPosition_fits
      | exact ⟨rfl, fun _ _ _ => ⟨_, rfl⟩, (fun hposition => by cases hposition)⟩
      | exact ⟨rfl, (fun hnulls => by cases hnulls), (fun hposition => by cases hposition)⟩

variable {sort : ResolvedSort}

theorem ResolvedSort.Fits.applyDirection {sortField direction : String} (h : resolved.Fits)
    (hsort : applyDirection sortField direction resolved = .ok sort) : sort.Fits := by
  unfold IssueTable.applyDirection at hsort
  split at hsort
  · cases hsort
  · split at hsort
    · next hother =>
        cases hsort
        exact ⟨h.castType, h.present, fun hposition => absurd hposition hother.2⟩
    · cases hsort
      exact h

theorem issueTableOrderBy_fits {request : SortRequest}
    (h : issueTableOrderBy properties request = .ok sort) : sort.Fits := by
  simp only [issueTableOrderBy] at h
  split at h
  · cases h
  · next hresolved => exact (resolveField_fits hresolved).applyDirection h

end ClawMessenger.Ports.IssueTable
