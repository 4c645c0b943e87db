import ClawMessenger.Verified.JsonShape

/-!
# Discussion commands, version 2

`parseDiscussionV2Command` admits four kinds of command: a host turn, an
assignment, a cancellation and an artifact acknowledgement.  Each parser checks
the exact set of keys and every field; a command that passes keeps its value.
The requests for a model catalog and for role recommendations are checked in
the same way.
-/

namespace ClawMessenger.Ports.DiscussionV2

open Verified Verified.JsString Verified.Json

/-! ## Limits -/

namespace Limits

def maxId : Nat := 128

def maxTopic : Nat := 4000

def maxGoal : Nat := 8000

def maxTask : Nat := 16000

def maxContribution : Nat := 100000

def maxTitle : Nat := 500

def maxReason : Nat := 2000

def maxPlanSummary : Nat := 1000

def maxHostPrompt : Nat := 32000

def maxPendingAcks : Nat := 128

def maxCancelTombstones : Nat := 256

def maxLogicalTombstones : Nat := 1024

def logicalTombstoneTtlMs : Nat := 10 * 60 * 1000

def ackTimeoutMs : Nat := 15000

end Limits

/-! ## Checks -/

def bounded (max : Nat) (allowEmpty : Bool) (value : Json) : Bool :=
  value.text?.any fun s => decide (s.length ≤ max) && (allowEmpty || decide (0 < s.length))

def boundedIdText (s : JsString) : Bool := boundedText s Limits.maxId

def boundedId (value : Json) : Bool := value.text?.any boundedIdText

/-- `integer(value, minimum)`. -/
def integer (minimum : Nat) (value : Json) : Bool := value.nat?.any fun n => decide (minimum ≤ n)

def validUtf8 (value : Json) : Bool := value.text?.any wellFormed

def jsonWithin (maxBytes : Nat) (value : Json) : Bool :=
  decide (byteLength (stringify value) ≤ maxBytes)

def modelRoute (value : Json) : Bool :=
  bounded 256 false value && value.text?.any fun s =>
    trim s == s && !s.any isSpace &&
      (s.splitOn 0x2F).length == 2 && (s.splitOn 0x2F).all fun part => decide (0 < part.length)

/-- The elements of an array. -/
def items? : Json → Option (List Json)
  | .arr items => some items
  | _ => none

def boundedArray (maxItems : Nat) (value : Json) : Bool :=
  (items? value).any fun items =>
    decide (items.length ≤ maxItems) && jsonWithin Limits.maxContribution value

/-- `new Set(texts).size === texts.length`, on an array of texts. -/
def distinctTexts (items : List Json) : Bool := decide (items.filterMap Json.text?).Nodup

/-- Every own field passes a check of its key and value. -/
def everyField (check : JsString → Json → Bool) : Json → Bool
  | .obj fields => fields.all fun field => check field.1 field.2
  | _ => false

def commandBaseKeys : List JsString :=
  [js "msg_type", js "protocolVersion", js "discussionId", js "chatroomId", js "requestId",
    js "stateVersion", js "round", js "timestamp"]

def baseValid (value : Json) (kind : JsString) : Bool :=
  value.fieldIs (js "msg_type") (isText kind) &&
  value.fieldIs (js "protocolVersion") (fun v => v.nat? == some 2) &&
  value.fieldIs (js "discussionId") boundedId &&
  value.fieldIs (js "chatroomId") boundedId &&
  value.fieldIs (js "requestId") boundedId &&
  value.fieldIs (js "stateVersion") (integer 1) &&
  value.fieldIs (js "round") (integer 0) &&
  value.fieldIs (js "timestamp") (integer 1)

def validCurrentArtifact (value : Json) : Bool :=
  match value with
  | .null => true
  | value =>
    value.isObject &&
    value.exactKeys [js "artifactId", js "artifactType", js "title", js "version"] [] &&
    value.fieldIs (js "artifactId") boundedId &&
    value.fieldIs (js "artifactType") (isOneOf [js "markdown", js "html"]) &&
    value.fieldIs (js "title") (bounded Limits.maxTitle false) &&
    value.fieldIs (js "version") (integer 1)

def isBoolean : Json → Bool
  | .bool _ => true
  | _ => false

def validRoleSnapshot (targetId : JsString) (role : Json) : Bool :=
  boundedIdText targetId &&
  role.isObject &&
  role.exactKeys
    [js "memberId", js "nodeId", js "nickname", js "roleName", js "roleInstructions",
      js "capabilities"]
    [js "portraitUri", js "isHost", js "model", js "speakingOrder"] &&
  role.fieldIs (js "memberId") boundedId &&
  role.fieldIs (js "memberId") (isText targetId) &&
  role.fieldIs (js "nodeId") boundedId &&
  role.fieldIs (js "nickname") (bounded Limits.maxTitle true) &&
  role.fieldIs (js "roleName") (bounded Limits.maxTitle true) &&
  role.fieldIs (js "roleInstructions") (bounded Limits.maxTask true) &&
  role.fieldIs (js "capabilities") (fun v => (items? v).any fun capabilities =>
    decide (capabilities.length ≤ 64) && capabilities.all boundedId) &&
  role.fieldIfPresent (js "portraitUri") (bounded Limits.maxTask true) &&
  role.fieldIfPresent (js "isHost") isBoolean &&
  role.fieldIfPresent (js "model") modelRoute &&
  role.fieldIfPresent (js "speakingOrder") (integer 0)

def validRoleSnapshots (value : Json) : Bool :=
  value.isObject && decide (value.keys.length ≤ 256) && everyField validRoleSnapshot value

/-! ## Commands -/

/-- The fields all commands share. -/
structure DiscussionV2Envelope where
  discussionId : JsString
  chatroomId : JsString
  requestId : JsString
  stateVersion : Nat
  round : Nat
  timestamp : Nat

inductive DiscussionV2Command where
  | hostTurn (envelope : DiscussionV2Envelope) (value : Json)
  | assignment (envelope : DiscussionV2Envelope) (assignmentId targetId : JsString) (value : Json)
  | cancel (envelope : DiscussionV2Envelope) (reason : JsString)
  | artifactAck (envelope : DiscussionV2Envelope) (updateId artifactId : JsString)
      (artifactVersion : Nat)

def textField (value : Json) (key : JsString) : JsString :=
  ((value.field? key).bind Json.text?).getD []

def natField (value : Json) (key : JsString) : Nat := ((value.field? key).bind Json.nat?).getD 0

/-- The envelope of a value that passed `baseValid`. -/
def envelopeOf (value : Json) : DiscussionV2Envelope where
  discussionId := textField value (js "discussionId")
  chatroomId := textField value (js "chatroomId")
  requestId := textField value (js "requestId")
  stateVersion := natField value (js "stateVersion")
  round := natField value (js "round")
  timestamp := natField value (js "timestamp")

/-- `value.mode === 'roundtable'`. -/
def isRoundtable (value : Json) : Bool := value.fieldIs (js "mode") (isText (js "roundtable"))

def hostActions : List JsString :=
  [js "assign", js "synthesize", js "finish", js "fail", js "checkpoint"]

def validAllowedDecisions (value : Json) : Bool :=
  (items? value).any fun allowed =>
    decide (1 ≤ allowed.length ∧ allowed.length ≤ 4) && allowed.all (isOneOf hostActions) &&
      distinctTexts allowed

def validPriorContribution (item : Json) : Bool :=
  item.isObject &&
  item.exactKeys [js "memberId", js "content", js "round"] [] &&
  item.fieldIs (js "memberId") boundedId &&
  item.fieldIs (js "content") (bounded Limits.maxContribution false) &&
  item.fieldIs (js "content") validUtf8 &&
  item.fieldIs (js "round") (integer 0)

/-- What the phase of a roundtable turn allows. -/
def phaseAllows (value : Json) : Bool :=
  (value.fieldIs (js "phase") (isText (js "round_summary")) &&
    value.fieldIs (js "allowedDecisions") (fun v => (items? v).any fun allowed =>
      decide (allowed.length = 1) && allowed.head?.any (isText (js "checkpoint")))) ||
  (value.fieldIs (js "phase") (isText (js "final_synthesis")) &&
    value.fieldIs (js "allowedDecisions") (fun v => (items? v).any fun allowed =>
      allowed.all (isOneOf [js "finish", js "fail"])))

def validHostTurn (value : Json) : Bool :=
  value.exactKeys
    (commandBaseKeys ++ [js "topic", js "goal", js "roles", js "allowedDecisions",
        js "remainingRounds", js "eventSummary", js "currentArtifact"] ++
      if isRoundtable value then
        [js "mode", js "phase", js "roundSummaries", js "userInterjections"]
      else [])
    [js "hostPrompt", js "configVersion", js "priorContributions"] &&
  baseValid value (js "discussion_host_turn") &&
  value.fieldIs (js "topic") (bounded Limits.maxTopic false) &&
  value.fieldIs (js "goal") (bounded Limits.maxGoal true) &&
  value.fieldIs (js "roles") validRoleSnapshots &&
  value.fieldIs (js "allowedDecisions") validAllowedDecisions &&
  value.fieldIs (js "remainingRounds") (integer 0) &&
  value.fieldIs (js "eventSummary") (bounded Limits.maxContribution true) &&
  value.fieldIs (js "currentArtifact") validCurrentArtifact &&
  ((!value.hasOwn (js "hostPrompt") && !value.hasOwn (js "configVersion")) ||
    (value.fieldIs (js "hostPrompt") (bounded Limits.maxHostPrompt false) &&
      value.fieldIs (js "hostPrompt") (fun v => v.text?.any fun s => !(trim s).isEmpty) &&
      value.fieldIs (js "hostPrompt") validUtf8 &&
      value.fieldIs (js "configVersion") (integer 1))) &&
  value.fieldIfPresent (js "priorContributions") (fun v =>
    boundedArray 100 v && (items? v).any fun items => items.all validPriorContribution) &&
  (!isRoundtable value ||
    (value.fieldIs (js "roundSummaries") (boundedArray 100) &&
      value.fieldIs (js "userInterjections") (boundedArray 100) && phaseAllows value))

def parseHostTurn (value : Json) : Option DiscussionV2Command :=
  if validHostTurn value then some (.hostTurn (envelopeOf value) value) else none

def validRole (role : Json) : Bool :=
  role.isObject && role.exactKeys [js "roleName", js "roleInstructions"] [] &&
  role.fieldIs (js "roleName") (bounded Limits.maxTitle false) &&
  role.fieldIs (js "roleInstructions") (bounded Limits.maxTask true)

def isNull : Json → Bool
  | .null => true
  | _ => false

def validAssignment (value : Json) : Bool :=
  value.exactKeys
    (commandBaseKeys ++ [js "assignmentId", js "targetId", js "task", js "topic", js "goal"] ++
      if isRoundtable value then
        [js "mode", js "model", js "role", js "speakingOrder", js "roundFocus",
          js "priorContributions", js "roundSummaries", js "userInterjections", js "attempt"]
      else [])
    [] &&
  baseValid value (js "discussion_assignment") &&
  value.fieldIs (js "assignmentId") boundedId &&
  value.fieldIs (js "targetId") boundedId &&
  value.fieldIs (js "task") (bounded Limits.maxTask false) &&
  value.fieldIs (js "topic") (bounded Limits.maxTopic false) &&
  value.fieldIs (js "goal") (bounded Limits.maxGoal true) &&
  (!isRoundtable value ||
    (value.fieldIs (js "model") (fun v => isNull v || modelRoute v) &&
      value.fieldIs (js "role") validRole &&
      value.fieldIs (js "speakingOrder") (integer 0) &&
      value.fieldIs (js "roundFocus") (bounded Limits.maxGoal true) &&
      value.fieldIs (js "priorContributions") (boundedArray 100) &&
      value.fieldIs (js "roundSummaries") (boundedArray 100) &&
      value.fieldIs (js "userInterjections") (boundedArray 100) &&
      value.fieldIs (js "attempt") (fun v => v.nat?.any fun n => decide (1 ≤ n ∧ n ≤ 2))))

def parseAssignment (value : Json) : Option DiscussionV2Command :=
  if validAssignment value then
    some (.assignment (envelopeOf value) (textField value (js "assignmentId"))
      (textField value (js "targetId")) value)
  else none

def parseCancel (value : Json) : Option DiscussionV2Command :=
  if value.exactKeys (commandBaseKeys ++ [js "reason"]) [] &&
      baseValid value (js "discussion_cancel") &&
      value.fieldIs (js "reason") (bounded Limits.maxReason true) then
    some (.cancel (envelopeOf value) (textField value (js "reason")))
  else none

def parseArtifactAck (value : Json) : Option DiscussionV2Command :=
  if value.exactKeys
        (commandBaseKeys ++
          [js "updateId", js "idempotencyKey", js "artifactId", js "artifactVersion"]) [] &&
      baseValid value (js "discussion_artifact_ack") &&
      value.fieldIs (js "updateId") boundedId &&
      value.fieldIs (js "idempotencyKey") (isText (textField value (js "updateId"))) &&
      value.fieldIs (js "artifactId") boundedId &&
      value.fieldIs (js "artifactVersion") (integer 1) then
    some (.artifactAck (envelopeOf value) (textField value (js "updateId"))
      (textField value (js "artifactId")) (natField value (js "artifactVersion")))
  else none

def parseDiscussionV2Command (value : Json) : Option DiscussionV2Command :=
  if !value.isObject then none
  else
    match (value.field? (js "msg_type")).bind Json.text? with
    | none => none
    | some kind =>
      if kind = js "discussion_host_turn" then parseHostTurn value
      else if kind = js "discussion_assignment" then parseAssignment value
      else if kind = js "discussion_cancel" then parseCancel value
      else if kind = js "discussion_artifact_ack" then parseArtifactAck value
      else none

end ClawMessenger.Ports.DiscussionV2
