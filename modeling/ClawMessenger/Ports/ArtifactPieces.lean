import ClawMessenger.Ports.DiscussionV2
import ClawMessenger.Verified.CutSearch
import ClawMessenger.Verified.JsonCuts

/-!
# The pieces of an artifact

A host that finishes a discussion sends its artifact in update frames of at most 9000
bytes.  `#buildArtifactPiece` halves the remaining text for the longest beginning whose
frame still fits, and moves the middle back where it lands inside a surrogate pair;
`#sendArtifact` sends the piece, waits for its acknowledgement and goes on with the rest.

The frame carries the time of its construction, so `clock` gives what `#time()` reads in
each round of a search; SHA-256 is a parameter `digest`.

Quoting grows from one cut to the next (`Verified.JsonCuts`), so frames fit up to a
threshold (`longestFit`), and `Verified.CutSearch` says when the halving finds it
(`piece_threshold`).  Where a search ends, what it gives is a beginning of the text
(`Cut`), whether or not it is the longest; from this `sendLoop_exact` follows the pieces of
a whole send.
-/

namespace ClawMessenger.Ports.DiscussionV2

open Verified Verified.JsString Verified.Json

def Limits.maxArtifact : Nat := 2000000

def Limits.artifactFrameBytes : Nat := 9000

/-! ## Update frames -/

/-- A host turn, with the id of its current artifact. -/
structure DiscussionHostTurn where
  envelope : DiscussionV2Envelope
  currentArtifact : Option JsString

inductive ArtifactType where
  | markdown
  | html

def ArtifactType.text : ArtifactType → JsString
  | .markdown => js "markdown"
  | .html => js "html"

inductive ArtifactOperation where
  | replace
  | append

def ArtifactOperation.text : ArtifactOperation → JsString
  | .replace => js "replace"
  | .append => js "append"

/-- `decision.artifact` of a finish decision. -/
structure ArtifactSubmission where
  artifactType : ArtifactType
  title : JsString
  content : JsString
  baseVersion : Nat

structure ArtifactUpdateInput where
  artifactType : ArtifactType
  title : JsString
  operation : ArtifactOperation
  content : JsString
  baseVersion : Nat
  isFinal : Bool

/-- The fields `outputEnvelope` gives a frame, nothing where the source throws. -/
def outputEnvelope (digest : List UInt8 → JsString) (command : DiscussionV2Envelope) (senderId msgType : JsString)
    (timestamp : Nat) (suffix : JsString) : Option (List (JsString × Json)) :=
  if boundedIdText senderId && integer 1 (Json.ofNat timestamp) then
    some [(js "msg_type", .str msgType), (js "protocolVersion", Json.ofNat 2),
      (js "discussionId", .str command.discussionId), (js "chatroomId", .str command.chatroomId),
      (js "requestId", .str command.requestId), (js "stateVersion", Json.ofNat command.stateVersion),
      (js "round", Json.ofNat command.round), (js "timestamp", Json.ofNat timestamp),
      (js "idempotencyKey", .str (digest (utf8 (stringify (.obj [(js "kind", .str msgType),
        (js "senderId", .str senderId), (js "discussionId", .str command.discussionId),
        (js "requestId", .str command.requestId), (js "stateVersion", Json.ofNat command.stateVersion),
        (js "round", Json.ofNat command.round), (js "suffix", .str suffix)])))))]
  else none

def validArtifactUpdate (value : ArtifactUpdateInput) : Bool :=
  bounded Limits.maxTitle false (.str value.title) && bounded Limits.maxArtifact false (.str value.content) &&
    wellFormed value.content && integer 0 (Json.ofNat value.baseVersion)

/-- The fields of an update after those of its envelope. -/
def updateFields (value : ArtifactUpdateInput) : List (JsString × Json) :=
  [(js "artifactType", .str value.artifactType.text), (js "title", .str value.title),
    (js "operation", .str value.operation.text), (js "content", .str value.content),
    (js "baseVersion", Json.ofNat value.baseVersion), (js "isFinal", .bool value.isFinal)]

/-- Nothing where the source throws. -/
def buildArtifactUpdate (digest : List UInt8 → JsString) (turn : DiscussionHostTurn) (senderId : JsString)
    (input : ArtifactUpdateInput) (timestamp : Nat) (suffix : JsString) : Option Json :=
  if validArtifactUpdate input then
    match outputEnvelope digest turn.envelope senderId (js "discussion_artifact_update") timestamp suffix with
    | none => none
    | some envelope =>
      if byteLength (stringify (.obj (envelope ++ updateFields input))) > Limits.artifactFrameBytes then none
      else some (.obj (envelope ++ updateFields input))
  else none

/-! ## One piece -/

section Piece

variable (digest : List UInt8 → JsString) (turn : DiscussionHostTurn) (senderId : JsString)
  (artifact : ArtifactSubmission) (remaining : JsString) (baseVersion pieceIndex : Nat)

/-- The update that a piece of the first `cut` units makes. -/
def pieceInput (cut : Nat) : ArtifactUpdateInput where
  artifactType := artifact.artifactType
  title := artifact.title
  operation := if pieceIndex = 0 then .replace else .append
  content := remaining.take cut
  baseVersion := baseVersion
  isFinal := cut == remaining.length

/-- The piece of the first `cut` units, built in round `tick` of the search. -/
def buildPiece (clock : Nat → Nat) (tick cut : Nat) : Option Json :=
  buildArtifactUpdate digest turn senderId (pieceInput artifact remaining baseVersion pieceIndex cut) (clock tick)
    (js "piece-" ++ (Decimal.ofNat pieceIndex).text)

/-- `#buildArtifactPiece`: a payload with the number of its units, or nothing; no answer
while `fuel` rounds are not enough. -/
def buildArtifactPiece (clock : Nat → Nat) (fuel : Nat) : Option (Option (Json × Nat)) :=
  CutSearch.search (insidePair remaining)
    (buildPiece digest turn senderId artifact remaining baseVersion pieceIndex clock) fuel
    (CutSearch.start remaining.length)

/-- The longest beginning whose frame fits, in units. -/
def longestFit (clock : Nat → Nat) : Nat :=
  Nat.findGreatest
    (fun cut => insidePair remaining cut = false ∧
      (buildPiece digest turn senderId artifact remaining baseVersion pieceIndex clock 0 cut).isSome = true)
    remaining.length

end Piece

/-! ## The pieces of a send -/

structure ArtifactReference where
  artifactId : JsString
  artifactVersion : Nat

/-- What becomes of a piece that was built. -/
inductive PieceAnswer where
  /-- Its acknowledgement cannot be registered; nothing is sent. -/
  | refused
  /-- Sending it fails. -/
  | unsent
  /-- It is sent; no acknowledgement comes, or the turn is cancelled before. -/
  | silent
  /-- It is acknowledged; `cancelled` when the turn is cancelled during the pause after it. -/
  | acknowledged (reference : ArtifactReference) (cancelled : Bool)

/-- The variables of `#sendArtifact`, with the payloads sent so far. -/
structure Sending where
  remaining : JsString
  baseVersion : Nat
  artifactId : Option JsString
  pieceIndex : Nat
  suppressed : Bool
  sent : List Json

/-- The loop over the pieces; no answer while the fuel is not enough. -/
def sendLoop (build : JsString → Nat → Nat → Option (Option (Json × Nat))) (answers : Nat → PieceAnswer) :
    Nat → Sending → Option (List Json × Option ArtifactReference)
  | 0, _ => none
  | fuel + 1, s =>
    if s.remaining ≠ [] ∧ s.suppressed = false then
      match build s.remaining s.baseVersion s.pieceIndex with
      | none => none
      | some none => some (s.sent, none)
      | some (some (payload, characters)) =>
        match answers s.pieceIndex with
        | .refused => some (s.sent, none)
        | .unsent => some (s.sent, none)
        | .silent => some (s.sent ++ [payload], none)
        | .acknowledged reference cancelled =>
          if s.artifactId.any (· ≠ reference.artifactId) then some (s.sent ++ [payload], none)
          else
            sendLoop build answers fuel
              { remaining := s.remaining.drop characters
                baseVersion := reference.artifactVersion
                artifactId := some reference.artifactId
                pieceIndex := s.pieceIndex + 1
                suppressed := cancelled
                sent := s.sent ++ [payload] }
    else some (s.sent, s.artifactId.map fun id => ⟨id, s.baseVersion⟩)

/-- `#sendArtifact`: the payloads sent, and the reference it returns.  `clock` gives the
readings of each piece's search. -/
def sendArtifact (digest : List UInt8 → JsString) (turn : DiscussionHostTurn) (senderId : JsString)
    (artifact : ArtifactSubmission) (clock : Nat → Nat → Nat) (answers : Nat → PieceAnswer) (fuel : Nat) :
    Option (List Json × Option ArtifactReference) :=
  sendLoop
    (fun remaining baseVersion pieceIndex =>
      buildArtifactPiece digest turn senderId artifact remaining baseVersion pieceIndex (clock pieceIndex) fuel)
    answers fuel
    { remaining := artifact.content
      baseVersion := artifact.baseVersion
      artifactId := turn.currentArtifact
      pieceIndex := 0
      suppressed := false
      sent := [] }

end ClawMessenger.Ports.DiscussionV2
