import ClawMessenger.Verified.JsString
import Mathlib.Data.BitVec

/-!
# One feature flag on two tiers

`packages/core/feature-flags` and `server/pkg/featureflag` evaluate the same
rules, the frontend in JavaScript and the server in Go.  The percent rollout
hashes with FNV-1a: the frontend keeps the running value in a signed 32-bit
number, the server in a `uint32`.  `bucket` is the one function of the bytes
that both compute (`ts_bucketFor`, `go_bucketFor`).

Rules and contexts are made of well-formed text, so both tiers read them as
characters here; only the hash looks at an encoding.  The tiers part in two
places.  An attribute name that is written but empty is replaced by `user_id`
on the server alone, and an attributes object without a property of its own
answers on the frontend with what it inherits from `Object.prototype`.
-/

namespace ClawMessenger.Ports.FeatureFlags

open Verified List
open Verified.JsString (js utf8 ofChars)

abbrev Text := List Char

inductive Reason where
  | static | percent | override | default | error
  deriving DecidableEq

structure Decision where
  key : Text
  enabled : Bool
  variant : Text
  reason : Reason
  source : Text
  deriving DecidableEq

def boolToVariant (b : Bool) : Text := if b then "on".toList else "off".toList

def userIdName : Text := "user_id".toList

def workspaceIdName : Text := "workspace_id".toList

/-- `PercentRollout` as the frontend has it. -/
structure PercentRollout where
  percent : Int
  byName : Option Text

/-- `Rule` as the frontend has it: every field may be absent. -/
structure Rule where
  default : Option Bool := none
  variant : Option Text := none
  allow : Option (List Text) := none
  allowBy : Option Text := none
  deny : Option (List Text) := none
  denyBy : Option Text := none
  percent : Option PercentRollout := none

structure EvalContext where
  userId : Option Text := none
  workspaceId : Option Text := none
  attributes : Option (Text → Option Text) := none

/-! ## The frontend -/

namespace Ts

/-- `a ^ b` on numbers. -/
def xor (a b : Int) : Int := (BitVec.ofInt 32 a ^^^ BitVec.ofInt 32 b).toInt

/-- `Math.imul(a, b)`. -/
def imul (a b : Int) : Int := (BitVec.ofInt 32 a * BitVec.ofInt 32 b).toInt

/-- `n >>> 0`. -/
def unsigned (n : Int) : Nat := (BitVec.ofInt 32 n).toNat

def hashByte (hash : Int) (byte : UInt8) : Int := imul (xor hash byte.toNat) 0x01000193

def fnv1a (parts : List JsString) : Nat :=
  unsigned (parts.zipIdx.foldl (fun hash part =>
    let hash := if 0 < part.2 then hashByte hash 0 else hash
    (utf8 part.1).foldl hashByte hash) 0x811c9dc5)

def bucketFor (key identifier : JsString) : Nat := fnv1a [key, identifier] % 100

def inPercent (key identifier : JsString) (percent : Int) : Bool :=
  if percent ≤ 0 then false
  else if 100 ≤ percent then true
  else decide ((bucketFor key identifier : Int) < percent)

/-- What a property read can give: text, or a built-in function with its
`length`. -/
inductive Value where
  | text (s : Text)
  | function (name : Text) (length : Nat)

def Value.length : Value → Nat
  | .text s => s.length
  | .function _ length => length

/-- The functions every plain object inherits and the arguments they declare.
`__proto__` answers with an object without `length`, which no reader here can
tell from a function of none. -/
def inherited : List (Text × Nat) :=
  [("constructor", 1), ("hasOwnProperty", 1), ("isPrototypeOf", 1), ("propertyIsEnumerable", 1),
    ("toLocaleString", 0), ("toString", 0), ("valueOf", 0), ("__proto__", 0),
    ("__defineGetter__", 2), ("__defineSetter__", 2), ("__lookupGetter__", 1),
    ("__lookupSetter__", 1)].map fun entry => (entry.1.toList, entry.2)

/-- `attributes[name]`. -/
def property (attributes : Text → Option Text) (name : Text) : Option Value :=
  match attributes name with
  | some s => some (.text s)
  | none => (inherited.lookup name).map (.function name)

def nonEmpty (v : Option Value) : Option Value := v.filter fun v => 0 < v.length

def lookupAttr (ctx : EvalContext) (name : Text) : Option Value :=
  if name = userIdName then nonEmpty (ctx.userId.map .text)
  else if name = workspaceIdName then nonEmpty (ctx.workspaceId.map .text)
  else nonEmpty (ctx.attributes.bind fun attributes => property attributes name)

/-- `list && list.length > 0` and then `v && list.includes(v)`. -/
def hits (ctx : EvalContext) (list : Option (List Text)) (name : Text) : Bool :=
  match list with
  | none => false
  | some list =>
    0 < list.length && match lookupAttr ctx name with
      | some (.text v) => list.contains v
      | _ => false

def decisionFromRule (key : Text) (rule : Rule) (enabled : Bool) (reason : Reason) : Decision where
  key := key
  enabled := enabled
  variant :=
    match rule.variant with
    | some variant => if enabled ∧ 0 < variant.length then variant else boolToVariant enabled
    | none => boolToVariant enabled
  reason := reason
  source := "static".toList

/-- What `utf8.encode` is given for `lookupAttr(ctx, by) ?? ""`.  A function is
turned into its source text, which the engine words as it likes. -/
def identifier (sourceText : Text → JsString) : Option Value → JsString
  | none => []
  | some (.text s) => ofChars s
  | some (.function name _) => sourceText name

def evaluateRule (sourceText : Text → JsString) (key : Text) (rule : Rule) (ctx : EvalContext) :
    Decision :=
  if hits ctx rule.deny (rule.denyBy.getD userIdName) then
    decisionFromRule key rule false .static
  else if hits ctx rule.allow (rule.allowBy.getD userIdName) then
    decisionFromRule key rule true .static
  else
    match rule.percent with
    | some rollout =>
      let ident := identifier sourceText (lookupAttr ctx (rollout.byName.getD userIdName))
      decisionFromRule key rule (inPercent (ofChars key) ident rollout.percent) .percent
    | none => decisionFromRule key rule (rule.default.getD false) .static

def lookup (sourceText : Text → JsString) (rules : Text → Option Rule) (key : Text)
    (ctx : EvalContext) : Option Decision :=
  (rules key).map fun rule => evaluateRule sourceText key rule ctx

end Ts

/-! ## The server -/

namespace Go

structure PercentRollout where
  percent : Int
  byName : Text

/-- `Rule`: an absent field is its zero value. -/
structure Rule where
  default : Bool
  variant : Text
  allow : List Text
  allowBy : Text
  deny : List Text
  denyBy : Text
  percent : Option PercentRollout

/-- `EvalContext`; a nil map is `none`. -/
structure EvalContext where
  userId : Text
  workspaceId : Text
  attributes : Option (Text → Option Text)

/-- `[]byte(s)`. -/
def bytes (s : Text) : List UInt8 := s.flatMap String.utf8EncodeChar

/-- `Write` of `fnv.New32a()`. -/
def write (hash : UInt32) (data : List UInt8) : UInt32 :=
  data.foldl (fun hash c => (hash ^^^ c.toUInt32) * 0x01000193) hash

def bucketFor (key identifier : Text) : Nat :=
  let h : UInt32 := 0x811c9dc5
  let h := write h (bytes key)
  let h := write h [0]
  let h := write h (bytes identifier)
  (h % 100).toNat

def inPercent (key identifier : Text) (percent : Int) : Bool :=
  if percent ≤ 0 then false
  else if 100 ≤ percent then true
  else decide ((bucketFor key identifier : Int) < percent)

def orDefault (v default : Text) : Text := if v = [] then default else v

def EvalContext.lookup (ec : EvalContext) (name : Text) : Text × Bool :=
  if name = userIdName then
    if ec.userId ≠ [] then (ec.userId, true) else ([], false)
  else if name = workspaceIdName then
    if ec.workspaceId ≠ [] then (ec.workspaceId, true) else ([], false)
  else
    match ec.attributes with
    | none => ([], false)
    | some attributes =>
      match attributes name with
      | none => ([], false)
      | some v => if v = [] then ([], false) else (v, true)

/-- `len(list) > 0` and then `ok && slices.Contains(list, v)`. -/
def hits (ec : EvalContext) (list : List Text) (name : Text) : Bool :=
  0 < list.length && ((ec.lookup name).2 && list.contains (ec.lookup name).1)

def decisionFromRule (key : Text) (rule : Rule) (enabled : Bool) (reason : Reason) : Decision where
  key := key
  enabled := enabled
  variant := if enabled ∧ rule.variant ≠ [] then rule.variant else boolToVariant enabled
  reason := reason
  source := "static".toList

def evaluateRule (key : Text) (rule : Rule) (ec : EvalContext) : Decision :=
  if hits ec rule.deny (orDefault rule.denyBy userIdName) then
    decisionFromRule key rule false .static
  else if hits ec rule.allow (orDefault rule.allowBy userIdName) then
    decisionFromRule key rule true .static
  else
    match rule.percent with
    | some rollout =>
      let ident := (ec.lookup (orDefault rollout.byName userIdName)).1
      if inPercent key ident rollout.percent then decisionFromRule key rule true .percent
      else decisionFromRule key rule false .percent
    | none => decisionFromRule key rule rule.default .static

def lookup (rules : Text → Option Rule) (key : Text) (ec : EvalContext) : Option Decision :=
  (rules key).map fun rule => evaluateRule key rule ec

end Go

/-- The server's reading of a rule: what is absent is its zero value. -/
def Rule.toGo (rule : Rule) : Go.Rule where
  default := rule.default.getD false
  variant := rule.variant.getD []
  allow := rule.allow.getD []
  allowBy := rule.allowBy.getD []
  deny := rule.deny.getD []
  denyBy := rule.denyBy.getD []
  percent := rule.percent.map fun rollout => ⟨rollout.percent, rollout.byName.getD []⟩

def EvalContext.toGo (ctx : EvalContext) : Go.EvalContext where
  userId := ctx.userId.getD []
  workspaceId := ctx.workspaceId.getD []
  attributes := ctx.attributes

/-! ## One bucket -/

/-- FNV-1a takes in a byte. -/
def fnvByte (hash : BitVec 32) (byte : UInt8) : BitVec 32 :=
  (hash ^^^ byte.toBitVec.setWidth 32) * 0x01000193#32

/-- The bucket of an identifier under a key: FNV-1a of the key's bytes, a zero
byte and the identifier's bytes, reduced to one of a hundred. -/
def bucket (key identifier : List UInt8) : Nat :=
  ((key ++ 0 :: identifier).foldl fnvByte 0x811c9dc5#32).toNat % 100

theorem ofInt_hashByte (hash : Int) (byte : UInt8) :
    BitVec.ofInt 32 (Ts.hashByte hash byte) = fnvByte (BitVec.ofInt 32 hash) byte := by
  have hbyte : BitVec.ofInt 32 (byte.toNat : Int) = byte.toBitVec.setWidth 32 := by
    rw [BitVec.ofInt_natCast]
    exact BitVec.ofNat_toNat 32 byte.toBitVec
  rw [Ts.hashByte, Ts.imul, Ts.xor, BitVec.ofInt_toInt, BitVec.ofInt_toInt, hbyte]
  rfl

/-- The signed number of the frontend has the bits of the hash after every byte. -/
theorem ofInt_foldl_hashByte (hash : Int) (data : List UInt8) :
    BitVec.ofInt 32 (data.foldl Ts.hashByte hash) = data.foldl fnvByte (BitVec.ofInt 32 hash) := by
  induction data generalizing hash with
  | nil => rfl
  | cons byte data ih => rw [foldl_cons, foldl_cons, ih, ofInt_hashByte]

theorem toBitVec_write (h : UInt32) (data : List UInt8) :
    (Go.write h data).toBitVec = data.foldl fnvByte h.toBitVec := by
  induction data generalizing h with
  | nil => rfl
  | cons byte data ih => exact ih ((h ^^^ byte.toUInt32) * 0x01000193)

theorem fnv1a_pair (a b : JsString) :
    Ts.fnv1a [a, b] = Ts.unsigned ((utf8 a ++ 0 :: utf8 b).foldl Ts.hashByte 0x811c9dc5) := by
  simp [Ts.fnv1a]

/-- The frontend computes `bucket` of the encoded texts. -/
theorem ts_bucketFor (key identifier : JsString) :
    Ts.bucketFor key identifier = bucket (utf8 key) (utf8 identifier) := by
  rw [Ts.bucketFor, fnv1a_pair, Ts.unsigned, ofInt_foldl_hashByte]
  rfl

/-- So does the server. -/
theorem go_bucketFor (key identifier : Text) :
    Go.bucketFor key identifier = bucket (Go.bytes key) (Go.bytes identifier) := by
  unfold Go.bucketFor bucket
  rw [UInt32.toNat_mod, ← UInt32.toNat_toBitVec, toBitVec_write, toBitVec_write, toBitVec_write,
    ← foldl_append, ← foldl_append]
  rfl

theorem utf8_ofChars (s : Text) : utf8 (ofChars s) = Go.bytes s := by
  rw [utf8, JsString.toChars_ofChars, Go.bytes]

theorem bucketFor_eq (key identifier : Text) :
    Ts.bucketFor (ofChars key) (ofChars identifier) = Go.bucketFor key identifier := by
  rw [ts_bucketFor, go_bucketFor, utf8_ofChars, utf8_ofChars]

/-! ## What the two lookups see -/

/-- The context's own value of an attribute, empty where it has none. -/
def ownValue (ctx : EvalContext) (name : Text) : Text :=
  if name = userIdName then ctx.userId.getD []
  else if name = workspaceIdName then ctx.workspaceId.getD []
  else (ctx.attributes.bind fun attributes => attributes name).getD []

/-- The own value is there and on the list. -/
def Listed (ctx : EvalContext) (list : Option (List Text)) (name : Text) : Prop :=
  ownValue ctx name ≠ [] ∧ ownValue ctx name ∈ list.getD []

instance (ctx : EvalContext) (list : Option (List Text)) (name : Text) :
    Decidable (Listed ctx list name) :=
  inferInstanceAs (Decidable (_ ∧ _))

/-- The attributes object has no such property and inherits a function that
declares an argument. -/
def lends (ctx : EvalContext) (name : Text) : Bool :=
  if name = userIdName then false
  else if name = workspaceIdName then false
  else
    match ctx.attributes with
    | none => false
    | some attributes =>
      (attributes name).isNone && (Ts.inherited.lookup name).any fun length => 0 < length

/-- What the frontend hashes for an attribute name. -/
def hashedIdentifier (sourceText : Text → JsString) (ctx : EvalContext) (name : Text) : JsString :=
  if lends ctx name then sourceText name else ofChars (ownValue ctx name)

theorem nonEmpty_text (v : Option Text) :
    Ts.nonEmpty (v.map .text) = if v.getD [] = [] then none else some (.text (v.getD [])) := by
  cases v with
  | none => rfl
  | some s => cases s <;> rfl

/-- The frontend's lookup: the own value, or a function that was lent. -/
theorem lookupAttr_eq (ctx : EvalContext) (name : Text) :
    ∃ length, Ts.lookupAttr ctx name =
      if lends ctx name then some (.function name length)
      else if ownValue ctx name = [] then none
      else some (.text (ownValue ctx name)) := by
  unfold Ts.lookupAttr lends ownValue
  by_cases huser : name = userIdName
  · simp [huser, nonEmpty_text]
  by_cases hworkspace : name = workspaceIdName
  · have hother : workspaceIdName ≠ userIdName := by decide
    simp [hworkspace, hother, nonEmpty_text]
  simp only [huser, hworkspace, if_false]
  cases ctx.attributes with
  | none => simp [Ts.nonEmpty]
  | some attributes =>
    cases hown : attributes name with
    | some v => simpa [Ts.property, hown] using nonEmpty_text (some v)
    | none =>
      cases hlent : Ts.inherited.lookup name with
      | none => simp [Ts.property, hown, hlent, Ts.nonEmpty]
      | some length =>
        refine ⟨length, ?_⟩
        by_cases hpos : 0 < length
        · simp [Ts.property, hown, hlent, Ts.nonEmpty, Ts.Value.length, hpos]
        · simp [Ts.property, hown, hlent, Ts.nonEmpty, Ts.Value.length, hpos]

theorem ts_hits (ctx : EvalContext) (list : Option (List Text)) (name : Text) :
    Ts.hits ctx list name = true ↔ Listed ctx list name := by
  obtain ⟨length, hlookup⟩ := lookupAttr_eq ctx name
  have hlent : lends ctx name = true → ownValue ctx name = [] := by
    unfold lends ownValue
    split_ifs with huser hworkspace
    · intro h
      cases h
    · intro h
      cases h
    · cases ctx.attributes with
      | none => simp
      | some attributes => simp +contextual
  cases list with
  | none => simp [Ts.hits, Listed]
  | some list =>
    rw [Ts.hits, hlookup, Listed]
    by_cases hl : lends ctx name = true
    · simp [hl, hlent hl]
    · by_cases hown : ownValue ctx name = []
      · simp [hl, hown]
      · simp only [hl, hown, if_false, Option.getD_some]
        have hlen : ownValue ctx name ∈ list → 0 < list.length := length_pos_of_mem
        simp +contextual [hown, hlen]

theorem ts_identifier (sourceText : Text → JsString) (ctx : EvalContext) (name : Text) :
    Ts.identifier sourceText (Ts.lookupAttr ctx name) = hashedIdentifier sourceText ctx name := by
  obtain ⟨length, hlookup⟩ := lookupAttr_eq ctx name
  rw [hlookup, hashedIdentifier]
  by_cases hl : lends ctx name = true
  · simp [hl, Ts.identifier]
  · by_cases hown : ownValue ctx name = []
    · simp [hl, hown, Ts.identifier, ofChars]
    · simp [hl, hown, Ts.identifier]

theorem go_lookup (ctx : EvalContext) (name : Text) :
    ctx.toGo.lookup name = (ownValue ctx name, decide (ownValue ctx name ≠ [])) := by
  unfold Go.EvalContext.lookup ownValue EvalContext.toGo
  split_ifs with huser hu hworkspace hw <;> try simp_all
  cases ctx.attributes with
  | none => simp
  | some attributes =>
    cases hown : attributes name with
    | none => simp [hown]
    | some v => by_cases h : v = [] <;> simp [hown, h]

theorem go_hits (ctx : EvalContext) (list : Option (List Text)) (name : Text) :
    Go.hits ctx.toGo (list.getD []) name = true ↔ Listed ctx list name := by
  have hlen : ownValue ctx name ∈ list.getD [] → 0 < (list.getD []).length :=
    length_pos_of_mem
  rw [Go.hits, go_lookup, Listed]
  simp only [Bool.and_eq_true, decide_eq_true_eq, contains_iff_mem]
  exact ⟨fun h => h.2, fun h => ⟨hlen h.2, h⟩⟩

/-! ## Where the decisions agree -/

/-- An attribute name on the frontend: only an absent one is `user_id`. -/
def written (name : Option Text) : Text := name.getD userIdName

/-- An attribute name on the server: an empty one is `user_id` as well. -/
def filled (name : Option Text) : Text := Go.orDefault (name.getD []) userIdName

/-- The buckets of two identifiers under a key lie on one side of a percentage. -/
def SameSide (key : List UInt8) (percent : Int) (a b : List UInt8) : Prop :=
  0 < percent → percent < 100 → ((bucket key a : Int) < percent ↔ (bucket key b : Int) < percent)

/-- The identifiers that the tiers hash for a rollout lie on one side of it. -/
def RollsAlike (sourceText : Text → JsString) (key : Text) (ctx : EvalContext)
    (rollout : PercentRollout) : Prop :=
  SameSide (Go.bytes key) rollout.percent
    (utf8 (hashedIdentifier sourceText ctx (written rollout.byName)))
    (Go.bytes (ownValue ctx (filled rollout.byName)))

/-- The rule ends without a rollout, in its default. -/
def EndsWith (rule : Rule) (enabled : Bool) : Prop :=
  rule.percent = none ∧ rule.default.getD false = enabled

/-- The list answers of the two tiers lead to one decision: both deny; one
denies and the other ends off by default; both allow; one allows and the other
ends on by default; or no list answers and a rollout has both on one side. -/
def Agreeing (sourceText : Text → JsString) (key : Text) (rule : Rule) (ctx : EvalContext) :
    Prop :=
  if Listed ctx rule.deny (written rule.denyBy) then
    Listed ctx rule.deny (filled rule.denyBy) ∨
      ¬ Listed ctx rule.allow (filled rule.allowBy) ∧ EndsWith rule false
  else if Listed ctx rule.deny (filled rule.denyBy) then
    ¬ Listed ctx rule.allow (written rule.allowBy) ∧ EndsWith rule false
  else if Listed ctx rule.allow (written rule.allowBy) then
    Listed ctx rule.allow (filled rule.allowBy) ∨ EndsWith rule true
  else if Listed ctx rule.allow (filled rule.allowBy) then EndsWith rule true
  else ∀ rollout, rule.percent = some rollout → RollsAlike sourceText key ctx rollout

theorem decisionFromRule_eq (key : Text) (rule : Rule) (enabled : Bool) (reason : Reason) :
    Go.decisionFromRule key rule.toGo enabled reason
      = Ts.decisionFromRule key rule enabled reason := by
  unfold Go.decisionFromRule Ts.decisionFromRule Rule.toGo
  cases rule.variant with
  | none => simp
  | some variant => simp [length_pos_iff]

theorem decisionFromRule_inj (key : Text) (rule : Rule) (e₁ e₂ : Bool) (r₁ r₂ : Reason) :
    Ts.decisionFromRule key rule e₁ r₁ = Ts.decisionFromRule key rule e₂ r₂
      ↔ e₁ = e₂ ∧ r₁ = r₂ := by
  constructor
  · intro h
    exact ⟨congrArg Decision.enabled h, congrArg Decision.reason h⟩
  · rintro ⟨rfl, rfl⟩
    rfl

/-- Where no list answers: the rollout, or the default. -/
def fallback (key : Text) (rule : Rule) (inside : PercentRollout → Bool) : Decision :=
  match rule.percent with
  | some rollout => Ts.decisionFromRule key rule (inside rollout) .percent
  | none => Ts.decisionFromRule key rule (rule.default.getD false) .static

theorem ts_evaluateRule (sourceText : Text → JsString) (key : Text) (rule : Rule)
    (ctx : EvalContext) : Ts.evaluateRule sourceText key rule ctx =
      if Listed ctx rule.deny (written rule.denyBy) then
        Ts.decisionFromRule key rule false .static
      else if Listed ctx rule.allow (written rule.allowBy) then
        Ts.decisionFromRule key rule true .static
      else fallback key rule fun rollout =>
        Ts.inPercent (ofChars key) (hashedIdentifier sourceText ctx (written rollout.byName))
          rollout.percent := by
  simp only [Ts.evaluateRule, ts_hits, ts_identifier, written, fallback]
  rfl

theorem go_evaluateRule (key : Text) (rule : Rule) (ctx : EvalContext) :
    Go.evaluateRule key rule.toGo ctx.toGo =
      if Listed ctx rule.deny (filled rule.denyBy) then
        Ts.decisionFromRule key rule false .static
      else if Listed ctx rule.allow (filled rule.allowBy) then
        Ts.decisionFromRule key rule true .static
      else fallback key rule fun rollout =>
        Go.inPercent key (ownValue ctx (filled rollout.byName)) rollout.percent := by
  have hdeny := go_hits ctx rule.deny (filled rule.denyBy)
  have hallow := go_hits ctx rule.allow (filled rule.allowBy)
  unfold Go.evaluateRule fallback
  simp only [decisionFromRule_eq]
  simp only [Rule.toGo, filled] at hdeny hallow ⊢
  simp only [hdeny, hallow, go_lookup]
  cases rule.percent with
  | none => rfl
  | some rollout =>
    simp only [Option.map_some]
    cases Go.inPercent key (ownValue ctx (Go.orDefault (rollout.byName.getD []) userIdName))
      rollout.percent <;> rfl

theorem fallback_eq_iff (key : Text) (rule : Rule) (inside₁ inside₂ : PercentRollout → Bool) :
    fallback key rule inside₁ = fallback key rule inside₂
      ↔ ∀ rollout, rule.percent = some rollout → inside₁ rollout = inside₂ rollout := by
  unfold fallback
  cases rule.percent with
  | none => simp
  | some rollout => simp [decisionFromRule_inj]

theorem fallback_eq_static_iff (key : Text) (rule : Rule) (enabled : Bool)
    (inside : PercentRollout → Bool) :
    fallback key rule inside = Ts.decisionFromRule key rule enabled .static
      ↔ EndsWith rule enabled := by
  unfold fallback EndsWith
  cases rule.percent with
  | none | some rollout => simp [decisionFromRule_inj]

/-- The tests of both tiers come out alike where the buckets lie on one side. -/
theorem inPercent_eq_iff (sourceText : Text → JsString) (key : Text) (ctx : EvalContext)
    (rollout : PercentRollout) :
    Ts.inPercent (ofChars key) (hashedIdentifier sourceText ctx (written rollout.byName))
        rollout.percent
      = Go.inPercent key (ownValue ctx (filled rollout.byName)) rollout.percent
      ↔ RollsAlike sourceText key ctx rollout := by
  rw [Ts.inPercent, Go.inPercent, ts_bucketFor, go_bucketFor, utf8_ofChars, RollsAlike, SameSide]
  by_cases hlow : rollout.percent ≤ 0
  · simp [hlow, Int.not_lt.mpr hlow]
  · by_cases hhigh : 100 ≤ rollout.percent
    · simp [hlow, hhigh, Int.not_lt.mpr hhigh]
    · simp [hlow, hhigh, Int.not_le.mp hlow, Int.not_le.mp hhigh]

theorem evaluateRule_eq_iff (sourceText : Text → JsString) (key : Text) (rule : Rule)
    (ctx : EvalContext) :
    Ts.evaluateRule sourceText key rule ctx = Go.evaluateRule key rule.toGo ctx.toGo
      ↔ Agreeing sourceText key rule ctx := by
  rw [ts_evaluateRule, go_evaluateRule, Agreeing]
  have hoff : Ts.decisionFromRule key rule false .static
      ≠ Ts.decisionFromRule key rule true .static := by
    simp [decisionFromRule_inj]
  have hends := fallback_eq_static_iff key rule
  have hends' (enabled : Bool) (inside : PercentRollout → Bool) :=
    eq_comm.trans (hends enabled inside)
  -- One case for each combination of the four list answers.
  split_ifs <;> simp_all only [fallback_eq_iff, inPercent_eq_iff, hoff.symm, ne_eq, not_true, not_false_iff,
    true_and, false_and, true_or, false_or, or_false]

/-- Every attribute that the rule names has a name, and the context's attributes do
not merely inherit the one that is rolled out by. -/
structure Named (ctx : EvalContext) (rule : Rule) : Prop where
  deny : rule.denyBy ≠ some []
  allow : rule.allowBy ≠ some []
  rollout : ∀ rollout, rule.percent = some rollout →
    rollout.byName ≠ some [] ∧ lends ctx (written rollout.byName) = false

theorem filled_eq_written {name : Option Text} (h : name ≠ some []) : filled name = written name := by
  cases name with
  | none => rfl
  | some s =>
    have hs : s ≠ [] := fun heq => h (congrArg some heq)
    simp [filled, written, Go.orDefault, hs]

theorem agreeing_of_named (sourceText : Text → JsString) (key : Text) {rule : Rule}
    {ctx : EvalContext} (h : Named ctx rule) : Agreeing sourceText key rule ctx := by
  unfold Agreeing
  rw [filled_eq_written h.deny, filled_eq_written h.allow]
  split_ifs with hdeny hallow
  · exact .inl hdeny
  · exact .inl hallow
  · intro rollout hrollout
    obtain ⟨hname, hlent⟩ := h.rollout rollout hrollout
    rw [RollsAlike, hashedIdentifier, hlent, if_neg Bool.false_ne_true, utf8_ofChars,
      filled_eq_written hname]
    exact fun _ _ => Iff.rfl

theorem lookup_eq_iff (sourceText : Text → JsString) (rules : Text → Option Rule) (key : Text)
    (ctx : EvalContext) :
    Ts.lookup sourceText rules key ctx
        = Go.lookup (fun k => (rules k).map Rule.toGo) key ctx.toGo
      ↔ ∀ rule, rules key = some rule → Agreeing sourceText key rule ctx := by
  rw [Ts.lookup, Go.lookup]
  cases rules key with
  | none => simp
  | some rule => simp [evaluateRule_eq_iff]

/-- The buckets are equal on every input, and the two providers answer alike
exactly where the rule they find is decided alike; so they do where it names its
attributes. -/
theorem tiers_agree (sourceText : Text → JsString) (rules : Text → Option Rule) (key : Text)
    (ctx : EvalContext) :
    (∀ k identifier : Text,
      Ts.bucketFor (ofChars k) (ofChars identifier) = Go.bucketFor k identifier) ∧
    (Ts.lookup sourceText rules key ctx
        = Go.lookup (fun k => (rules k).map Rule.toGo) key ctx.toGo
      ↔ ∀ rule, rules key = some rule → Agreeing sourceText key rule ctx) ∧
    ((∀ rule, rules key = some rule → Named ctx rule) →
      Ts.lookup sourceText rules key ctx
        = Go.lookup (fun k => (rules k).map Rule.toGo) key ctx.toGo) := by
  have hiff := lookup_eq_iff sourceText rules key ctx
  refine ⟨bucketFor_eq, hiff, fun hnamed => hiff.mpr fun rule hrule => ?_⟩
  exact agreeing_of_named sourceText key (hnamed rule hrule)

/-- One user on the allow list of a flag that names no attribute: the server
reads the user id, the frontend an attribute without a name. -/
def namelessRule : Rule := { allow := some ["u1".toList], allowBy := some [] }

theorem tiers_disagree :
    ¬ ∀ sourceText key, Ts.lookup sourceText (fun _ => some namelessRule) key
          { userId := some "u1".toList }
        = Go.lookup (fun _ => some namelessRule.toGo) key
          { userId := some "u1".toList : EvalContext }.toGo := by
  intro h
  have hdecision := h (fun _ => []) "checkout".toList
  revert hdecision
  decide

end ClawMessenger.Ports.FeatureFlags
