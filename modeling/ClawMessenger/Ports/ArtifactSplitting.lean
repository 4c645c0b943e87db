import ClawMessenger.Ports.ArtifactPieces

/-!
# Splitting an artifact

A frame grows with its content, although the last piece says `true` where the others say
`false` (`fits_of_longer`): the frames that fit are those up to a threshold, and the search
for the longest piece is a `CutSearch`.  It ends with the longest piece exactly where the
halving settles on it; with one letter before a pair it never ends.

The pieces that are sent are those of the artifact whatever the searches give: each is a
beginning of what remains, and what remains is what follows it (`Sent`).
-/

namespace ClawMessenger.Ports.DiscussionV2

open Verified Verified.JsString Verified.Json

/-- The readings of the clock all take the same room in a frame. -/
def Steady (clock : Nat → Nat) : Prop :=
  ∀ t, integer 1 (Json.ofNat (clock t)) = integer 1 (Json.ofNat (clock 0)) ∧
    byteLength (stringify (Json.ofNat (clock t))) = byteLength (stringify (Json.ofNat (clock 0)))

/-! ## The room of a frame -/

section Frames

variable {digest : List UInt8 → JsString} {turn : DiscussionHostTurn} {senderId msgType suffix : JsString}
  {command : DiscussionV2Envelope} {input : ArtifactUpdateInput} {time time' : Nat}

theorem envelope_room (hvalid : integer 1 (ofNat time) = integer 1 (ofNat time'))
    (hbytes : byteLength (stringify (ofNat time)) = byteLength (stringify (ofNat time'))) :
    (outputEnvelope digest command senderId msgType time suffix).map fieldsBytes =
      (outputEnvelope digest command senderId msgType time' suffix).map fieldsBytes := by
  unfold outputEnvelope
  rw [hvalid]
  split
  · simp [hbytes]
  · rfl

theorem buildArtifactUpdate_isSome :
    (buildArtifactUpdate digest turn senderId input time suffix).isSome = true ↔
      validArtifactUpdate input = true ∧
        ∃ bytes, (outputEnvelope digest turn.envelope senderId (js "discussion_artifact_update") time suffix).map
            fieldsBytes = some bytes ∧
          1 + (bytes + fieldsBytes (updateFields input)) ≤ Limits.artifactFrameBytes := by
  unfold buildArtifactUpdate
  by_cases hvalid : validArtifactUpdate input = true
  · rw [if_pos hvalid]
    cases henvelope : outputEnvelope digest turn.envelope senderId (js "discussion_artifact_update") time suffix with
    | none =>
      constructor
      · intro h
        cases h
      · intro h
        obtain ⟨_, _, hbytes, _⟩ := h
        cases hbytes
    | some envelope =>
      have hne : envelope ++ updateFields input ≠ [] := by
        apply List.append_ne_nil_of_right_ne_nil
        exact List.cons_ne_nil _ _
      have hroom : byteLength (stringify (.obj (envelope ++ updateFields input))) =
          1 + (fieldsBytes envelope + fieldsBytes (updateFields input)) := by
        rw [byteLength_stringify_obj hne, fieldsBytes_append]
      dsimp only
      rw [hroom]
      constructor
      · intro h
        refine ⟨hvalid, _, rfl, ?_⟩
        by_contra hlarge
        rw [if_pos (by omega)] at h
        cases h
      · intro h
        obtain ⟨_, bytes, hbytes, hle⟩ := h
        cases hbytes
        rw [if_neg (by omega)]
        rfl
  · rw [if_neg hvalid]
    constructor
    · intro h
      cases h
    · intro h
      exact absurd h.1 hvalid

end Frames

/-! ## Frames up to a threshold -/

section Threshold

variable (digest : List UInt8 → JsString) (turn : DiscussionHostTurn) (senderId : JsString)
  (artifact : ArtifactSubmission) {remaining : JsString} (baseVersion pieceIndex : Nat) {clock : Nat → Nat}

variable {cut cut' : Nat}

theorem bounded_take {max : Nat} (hpos : 1 ≤ cut) (hle : cut ≤ cut')
    (hlength : cut' ≤ remaining.length)
    (h : bounded max false (.str (remaining.take cut')) = true) :
    bounded max false (.str (remaining.take cut)) = true := by
  simp only [bounded, text?, Option.any_some, Bool.false_or, Bool.and_eq_true, decide_eq_true_eq,
    List.length_take] at h ⊢
  omega

section

variable (hw : wellFormed remaining = true)
include hw

/-- A shorter piece is a valid update where a longer one is. -/
theorem valid_of_longer (hpos : 1 ≤ cut) (hout : insidePair remaining cut = false)
    (hle : cut ≤ cut') (hlength : cut' ≤ remaining.length)
    (h : validArtifactUpdate (pieceInput artifact remaining baseVersion pieceIndex cut') = true) :
    validArtifactUpdate (pieceInput artifact remaining baseVersion pieceIndex cut) = true := by
  unfold validArtifactUpdate pieceInput at h ⊢
  simp only [Bool.and_eq_true] at h ⊢
  obtain ⟨⟨⟨htitle, hcontent⟩, _⟩, hversion⟩ := h
  exact ⟨⟨⟨htitle, bounded_take hpos hle hlength hcontent⟩, wellFormed_take hw hout⟩, hversion⟩

/-- A shorter piece takes less room, also when the longer one is the last. -/
theorem room_of_longer (hout : insidePair remaining cut = false) (hle : cut ≤ cut')
    (hlength : cut' ≤ remaining.length) :
    fieldsBytes (updateFields (pieceInput artifact remaining baseVersion pieceIndex cut)) ≤
      fieldsBytes (updateFields (pieceInput artifact remaining baseVersion pieceIndex cut')) := by
  by_cases heq : cut = cut'
  · rw [heq]
  · have hcontent := byteLength_quote_take_lt hw hout (by omega : cut < cut') hlength
    have hlast : ∀ b : Bool, 4 ≤ byteLength (stringify (.bool b)) ∧ byteLength (stringify (.bool b)) ≤ 5 := by
      decide
    have hcut := hlast (cut == remaining.length)
    have hcut' := hlast (cut' == remaining.length)
    simp only [updateFields, pieceInput, fieldsBytes_cons, fieldsBytes_nil, stringify] at hcut hcut' ⊢
    omega

/-- A frame that fits fits in every round, and so do those of the shorter pieces. -/
theorem fits_of_longer (hclock : Steady clock) {tick tick' : Nat} (hpos : 1 ≤ cut)
    (hout : insidePair remaining cut = false) (hle : cut ≤ cut')
    (hlength : cut' ≤ remaining.length)
    (h : (buildPiece digest turn senderId artifact remaining baseVersion pieceIndex clock tick' cut').isSome = true) :
    (buildPiece digest turn senderId artifact remaining baseVersion pieceIndex clock tick cut).isSome = true := by
  unfold buildPiece at h ⊢
  rw [buildArtifactUpdate_isSome] at h ⊢
  obtain ⟨hvalid, bytes, hbytes, hfits⟩ := h
  have hroom := room_of_longer artifact baseVersion pieceIndex hw hout hle hlength
  refine ⟨valid_of_longer artifact baseVersion pieceIndex hw hpos hout hle hlength hvalid, bytes, ?_, by omega⟩
  rw [← hbytes]
  apply envelope_room
  · rw [(hclock tick).1, (hclock tick').1]
  · rw [(hclock tick).2, (hclock tick').2]

theorem piece_threshold (hclock : Steady clock) :
    CutSearch.Threshold (insidePair remaining)
      (buildPiece digest turn senderId artifact remaining baseVersion pieceIndex clock) remaining.length
      (longestFit digest turn senderId artifact remaining baseVersion pieceIndex clock) := by
  have hlongest : ∀ i, i = longestFit digest turn senderId artifact remaining baseVersion pieceIndex clock → i ≠ 0 →
      insidePair remaining i = false ∧
        (buildPiece digest turn senderId artifact remaining baseVersion pieceIndex clock 0 i).isSome = true :=
    fun i heq hne => Nat.findGreatest_of_ne_zero heq.symm hne
  have hbound : longestFit digest turn senderId artifact remaining baseVersion pieceIndex clock ≤ remaining.length :=
    Nat.findGreatest_le _
  exact {
    bound := hbound
    whole := by
      by_cases hzero : longestFit digest turn senderId artifact remaining baseVersion pieceIndex clock = 0
      · rw [hzero]
        exact insidePair_zero remaining
      · exact (hlongest _ rfl hzero).1
    within := fun i hin => (insidePair_iff.mp hin).1
    apart := fun i hin => insidePair_apart hw hin
    accepts := by
      intro t i hpos hn hout
      constructor
      · intro hsome
        apply Nat.le_findGreatest hn
        exact ⟨hout, fits_of_longer digest turn senderId artifact baseVersion pieceIndex hw hclock hpos hout le_rfl hn hsome⟩
      · intro hle
        have hne : longestFit digest turn senderId artifact remaining baseVersion pieceIndex clock ≠ 0 := by omega
        exact fits_of_longer digest turn senderId artifact baseVersion pieceIndex hw hclock hpos hout hle hbound
          (hlongest _ rfl hne).2 }

end

end Threshold

/-! ## What a piece carries -/

section Pieces

variable {digest : List UInt8 → JsString} {turn : DiscussionHostTurn} {senderId : JsString}
  {artifact : ArtifactSubmission} {remaining : JsString} {baseVersion pieceIndex : Nat} {clock : Nat → Nat}

/-- The payload of a piece of a text, the last one exactly when it is the whole text. -/
structure Cut (remaining : JsString) (baseVersion pieceIndex : Nat) (payload : Json) (characters : Nat) : Prop where
  pos : 1 ≤ characters
  le : characters ≤ remaining.length
  content : textField payload (js "content") = remaining.take characters
  operation : payload.field? (js "operation") =
    some (.str (if pieceIndex = 0 then ArtifactOperation.replace else ArtifactOperation.append).text)
  version : payload.field? (js "baseVersion") = some (Json.ofNat baseVersion)
  final : payload.field? (js "isFinal") = some (.bool (characters == remaining.length))

variable {payload : Json}

theorem cut_of_buildPiece {tick characters : Nat} (hpos : 1 ≤ characters)
    (hle : characters ≤ remaining.length)
    (h : buildPiece digest turn senderId artifact remaining baseVersion pieceIndex clock tick characters = some payload) :
    Cut remaining baseVersion pieceIndex payload characters := by
  unfold buildPiece buildArtifactUpdate outputEnvelope at h
  split at h
  · split at h
    · cases h
    · rename_i envelope henvelope
      split at henvelope
      · cases henvelope
        split at h
        · cases h
        · cases h
          exact ⟨hpos, hle, rfl, rfl, rfl, rfl⟩
      · cases henvelope
  · cases h

theorem cut_of_search {fuel characters : Nat}
    (h : buildArtifactPiece digest turn senderId artifact remaining baseVersion pieceIndex clock fuel = some (some (payload, characters))) :
    Cut remaining baseVersion pieceIndex payload characters := by
  have hstart : ∀ b i, (CutSearch.start remaining.length : CutSearch.Window Json).selected = some (b, i) →
      1 ≤ i ∧ i ≤ remaining.length ∧ ∃ t, buildPiece digest turn senderId artifact remaining baseVersion pieceIndex
        clock t i = some b := by
    intro b i hselected
    cases hselected
  obtain ⟨hpos, hle, tick, hpiece⟩ := CutSearch.probed_of_ends hstart (le_refl remaining.length) h
  exact cut_of_buildPiece hpos hle hpiece

end Pieces

/-! ## The whole send -/

/-- Every piece is acknowledged with the next version, and the turn is not cancelled. -/
def Acknowledged (baseVersion : Nat) (answers : Nat → PieceAnswer) : Prop :=
  ∀ i, ∃ id, answers i = .acknowledged ⟨id, baseVersion + i + 1⟩ false

def contents (sent : List Json) : JsString := (sent.map fun payload => textField payload (js "content")).flatten

/-- The payloads of an artifact: its content in order, the first replacing and the others
appended, from version to version, the last one final. -/
structure Exact (content : JsString) (baseVersion : Nat) (sent : List Json) : Prop where
  whole : contents sent = content
  operation : ∀ (i : Nat) (payload : Json), sent[i]? = some payload → payload.field? (js "operation") =
    some (.str (if i = 0 then ArtifactOperation.replace else ArtifactOperation.append).text)
  version : ∀ (i : Nat) (payload : Json), sent[i]? = some payload → payload.field? (js "baseVersion") = some (Json.ofNat (baseVersion + i))
  final : ∀ (i : Nat) (payload : Json), sent[i]? = some payload → payload.field? (js "isFinal") = some (.bool (i + 1 == sent.length))

/-- A send under way: what was sent is followed by what remains, and only the payload after
which nothing remains is final. -/
structure Sent (content : JsString) (baseVersion : Nat) (s : Sending) : Prop where
  live : s.suppressed = false
  count : s.sent.length = s.pieceIndex
  base : s.baseVersion = baseVersion + s.pieceIndex
  split : contents s.sent ++ s.remaining = content
  operation : ∀ (i : Nat) (payload : Json), s.sent[i]? = some payload → payload.field? (js "operation") =
    some (.str (if i = 0 then ArtifactOperation.replace else ArtifactOperation.append).text)
  version : ∀ (i : Nat) (payload : Json), s.sent[i]? = some payload →
    payload.field? (js "baseVersion") = some (Json.ofNat (baseVersion + i))
  final : ∀ (i : Nat) (payload : Json), s.sent[i]? = some payload →
    payload.field? (js "isFinal") = some (.bool (decide (i + 1 = s.sent.length ∧ s.remaining = [])))

section Send

variable {content : JsString} {baseVersion : Nat} {s : Sending} {payload : Json} {characters : Nat}

theorem contents_append (sent : List Json) (payload : Json) :
    contents (sent ++ [payload]) = contents sent ++ textField payload (js "content") := by
  unfold contents
  rw [List.map_append, List.flatten_append, List.map_singleton, List.flatten_singleton]

variable {sent : List Json}

/-- Each payload is an old one or the new one. -/
theorem getElem?_sent {i : Nat} {other : Json} (h : (sent ++ [payload])[i]? = some other) :
    i < sent.length ∧ sent[i]? = some other ∨ i = sent.length ∧ other = payload := by
  rcases Nat.lt_trichotomy i sent.length with hlt | heq | hgt
  · rw [List.getElem?_append_left hlt] at h
    exact .inl ⟨hlt, h⟩
  · rw [heq, List.getElem?_concat_length] at h
    exact .inr ⟨heq, (Option.some.inj h).symm⟩
  · rw [List.getElem?_eq_none (by rw [List.length_append, List.length_singleton]; omega)] at h
    cases h

theorem Sent.next (hs : Sent content baseVersion s) (hremaining : s.remaining ≠ [])
    (hcut : Cut s.remaining s.baseVersion s.pieceIndex payload characters) (id : JsString) :
    Sent content baseVersion
      { remaining := s.remaining.drop characters
        baseVersion := baseVersion + s.pieceIndex + 1
        artifactId := some id
        pieceIndex := s.pieceIndex + 1
        suppressed := false
        sent := s.sent ++ [payload] } where
  live := rfl
  count := by
    rw [List.length_append, List.length_singleton, hs.count]
  base := rfl
  split := by
    rw [contents_append, hcut.content, List.append_assoc, List.take_append_drop, hs.split]
  operation := by
    intro i other hother
    cases getElem?_sent hother with
    | inl hold => exact hs.operation i other hold.2
    | inr hnew =>
      obtain ⟨rfl, rfl⟩ := hnew
      rw [hcut.operation, hs.count]
  version := by
    intro i other hother
    cases getElem?_sent hother with
    | inl hold => exact hs.version i other hold.2
    | inr hnew =>
      obtain ⟨rfl, rfl⟩ := hnew
      rw [hcut.version, hs.base, hs.count]
  final := by
    intro i other hother
    rw [List.length_append, List.length_singleton]
    cases getElem?_sent hother with
    | inl hold =>
      have hlt := hold.1
      rw [hs.final i other hold.2, decide_eq_false (fun h => hremaining h.2), decide_eq_false (fun h => by omega)]
    | inr hnew =>
      obtain ⟨rfl, rfl⟩ := hnew
      have hle := hcut.le
      have hlast : (characters == s.remaining.length) =
          decide (s.sent.length + 1 = s.sent.length + 1 ∧ s.remaining.drop characters = []) := by
        rw [beq_eq_decide]
        apply decide_eq_decide.mpr
        constructor
        · intro heq
          exact ⟨rfl, List.drop_eq_nil_iff.mpr (by omega)⟩
        · intro h
          exact le_antisymm hle (List.drop_eq_nil_iff.mp h.2)
      rw [hcut.final, hlast]

theorem Sent.exact (hs : Sent content baseVersion s) (hremaining : s.remaining = []) :
    Exact content baseVersion s.sent where
  whole := by
    have hsplit := hs.split
    rw [hremaining, List.append_nil] at hsplit
    exact hsplit
  operation := hs.operation
  version := hs.version
  final := by
    intro i payload hpayload
    rw [hs.final i payload hpayload, beq_eq_decide]
    congr 2
    apply decide_eq_decide.mpr
    exact and_iff_left hremaining

/-- A send that ends with a reference has sent the whole artifact. -/
theorem sendLoop_exact {build : JsString → Nat → Nat → Option (Option (Json × Nat))}
    {answers : Nat → PieceAnswer}
    (hbuild : ∀ remaining version pieceIndex payload characters, build remaining version pieceIndex = some (some (payload, characters)) → Cut remaining version pieceIndex payload characters)
    (hanswers : Acknowledged baseVersion answers) {fuel : Nat} {reference : ArtifactReference}
    (hs : Sent content baseVersion s)
    (h : sendLoop build answers fuel s = some (sent, some reference)) :
    Exact content baseVersion sent := by
  induction fuel generalizing s with
  | zero => cases h
  | succ fuel ih =>
    unfold sendLoop at h
    by_cases hremaining : s.remaining = []
    · rw [if_neg (fun hgo => hgo.1 hremaining)] at h
      obtain ⟨rfl, _⟩ := Prod.mk.inj (Option.some.inj h)
      exact hs.exact hremaining
    · rw [if_pos ⟨hremaining, hs.live⟩] at h
      obtain ⟨id, hanswer⟩ := hanswers s.pieceIndex
      cases hpiece : build s.remaining s.baseVersion s.pieceIndex with
      | none =>
        rw [hpiece] at h
        cases h
      | some found =>
        cases found with
        | none =>
          rw [hpiece] at h
          cases h
        | some piece =>
          obtain ⟨payload, characters⟩ := piece
          rw [hpiece, hanswer] at h
          dsimp only at h
          split at h
          · cases h
          · exact ih (hs.next hremaining (hbuild _ _ _ _ _ hpiece) id) h

/-- A loop ends whose searches do, since each piece leaves less of the content. -/
theorem sendLoop_ends {build : Nat → JsString → Nat → Nat → Option (Option (Json × Nat))}
    (hends : ∀ rest, rest <:+ content → ∀ version pieceIndex, ∃ least found,
      (∀ piece, found = some piece → 1 ≤ piece.2) ∧ ∀ fuel ≥ least, build fuel rest version pieceIndex = some found)
    (answers : Nat → PieceAnswer) (hs : s.remaining <:+ content) :
    ∃ least, ∀ fuel ≥ least, ∀ rounds ≥ least, (sendLoop (build fuel) answers rounds s).isSome := by
  induction hlength : s.remaining.length using Nat.strong_induction_on generalizing s with
  | _ length ih =>
    obtain ⟨least, found, hpos, hfound⟩ := hends s.remaining hs s.baseVersion s.pieceIndex
    suffices hround : ∃ bound, ∀ fuel ≥ bound, ∀ rounds ≥ bound, (sendLoop (build fuel) answers (rounds + 1) s).isSome by
      obtain ⟨bound, hbound⟩ := hround
      refine ⟨bound + 1, fun fuel hfuel rounds hrounds => ?_⟩
      obtain ⟨rounds, rfl⟩ := Nat.exists_eq_add_of_le' (Nat.le_of_add_left_le hrounds)
      exact hbound fuel (by omega) rounds (by omega)
    by_cases hgo : s.remaining ≠ [] ∧ s.suppressed = false
    · simp only [sendLoop, if_pos hgo]
      cases found with
      | none => exact ⟨least, fun fuel hfuel rounds _ => by rw [hfound fuel hfuel]; rfl⟩
      | some piece =>
        cases answers s.pieceIndex with
        | acknowledged reference cancelled =>
          have hshorter : (s.remaining.drop piece.2).length < length := by
            have hpiece := hpos piece rfl
            have hlong := List.length_pos_iff.mpr hgo.1
            rw [List.length_drop]
            omega
          obtain ⟨bound, hbound⟩ := ih _ hshorter (s := ⟨s.remaining.drop piece.2, reference.artifactVersion,
            some reference.artifactId, s.pieceIndex + 1, cancelled, s.sent ++ [piece.1]⟩)
            ((List.drop_suffix _ _).trans hs) rfl
          refine ⟨max least bound, fun fuel hfuel rounds hrounds => ?_⟩
          rw [hfound fuel (le_of_max_le_left hfuel)]
          dsimp only
          split
          · rfl
          · exact hbound fuel (le_of_max_le_right hfuel) rounds (le_of_max_le_right hrounds)
        | _ => exact ⟨least, fun fuel hfuel rounds _ => by rw [hfound fuel hfuel]; rfl⟩
    · exact ⟨0, fun fuel _ rounds _ => by rw [sendLoop, if_neg hgo]; rfl⟩

end Send

/-! ## Splitting -/

/-- A search gives the longest piece exactly where its halving settles on it; with every
piece acknowledged the pieces sent are exactly those of the artifact; and a send returns
whose searches end, whatever the answers. -/
theorem artifact_splitting (digest : List UInt8 → JsString) (turn : DiscussionHostTurn) (senderId : JsString)
    (artifact : ArtifactSubmission) :
    (∀ remaining baseVersion pieceIndex clock, wellFormed remaining = true → Steady clock →
      ((∃ fuel found,
          buildArtifactPiece digest turn senderId artifact remaining baseVersion pieceIndex clock fuel = some found ∧
            CutSearch.Longest (insidePair remaining)
              (buildPiece digest turn senderId artifact remaining baseVersion pieceIndex clock) remaining.length found) ↔
        CutSearch.Settles (insidePair remaining) remaining.length
          (longestFit digest turn senderId artifact remaining baseVersion pieceIndex clock))) ∧
      (∀ clock answers fuel sent reference, Acknowledged artifact.baseVersion answers →
        sendArtifact digest turn senderId artifact clock answers fuel = some (sent, some reference) →
          Exact artifact.content artifact.baseVersion sent) ∧
      ∀ clock answers, (∀ rest, rest <:+ artifact.content → ∀ baseVersion pieceIndex, ∃ fuel,
          (buildArtifactPiece digest turn senderId artifact rest baseVersion pieceIndex (clock pieceIndex) fuel).isSome) →
        ∃ fuel, (sendArtifact digest turn senderId artifact clock answers fuel).isSome := by
  refine ⟨?_, ?_, ?_⟩
  · intro remaining baseVersion pieceIndex clock hw hclock
    exact CutSearch.halts_iff (piece_threshold digest turn senderId artifact baseVersion pieceIndex hw hclock)
  · intro clock answers fuel sent reference hanswers h
    apply sendLoop_exact (fun _ _ _ _ _ hpiece => cut_of_search hpiece) hanswers _ h
    exact {
      live := rfl
      count := rfl
      base := rfl
      split := rfl
      operation := fun i payload hpayload => nomatch hpayload
      version := fun i payload hpayload => nomatch hpayload
      final := fun i payload hpayload => nomatch hpayload }
  · intro clock answers hends
    have hsearch : ∀ rest, rest <:+ artifact.content → ∀ version pieceIndex, ∃ least found,
        (∀ piece, found = some piece → 1 ≤ piece.2) ∧ ∀ fuel ≥ least,
          buildArtifactPiece digest turn senderId artifact rest version pieceIndex (clock pieceIndex) fuel = some found := by
      intro rest hrest version pieceIndex
      obtain ⟨least, hsome⟩ := hends rest hrest version pieceIndex
      obtain ⟨found, hfound⟩ := Option.isSome_iff_exists.mp hsome
      refine ⟨least, found, ?_, fun fuel hle => CutSearch.search_mono hle hfound⟩
      intro piece hpiece
      rw [hpiece] at hfound
      exact (cut_of_search hfound).pos
    obtain ⟨least, hleast⟩ := sendLoop_ends hsearch answers
      (s := ⟨artifact.content, artifact.baseVersion, turn.currentArtifact, 0, false, []⟩) (List.suffix_refl _)
    exact ⟨least, hleast least le_rfl least le_rfl⟩

section Samples

/-- A turn and an artifact to try the search on. -/
def sampleTurn : DiscussionHostTurn where
  envelope := ⟨js "d1", js "room", js "r1", 1, 0, 1⟩
  currentArtifact := none

def sampleArtifact (content : JsString) : ArtifactSubmission where
  artifactType := .markdown
  title := js "Notes"
  content := content
  baseVersion := 0

/-- The probe of the search for the first piece of a text. -/
def samplePiece (content : JsString) : Nat → Nat → Option Json :=
  buildPiece (fun _ => js "digest") sampleTurn (js "node") (sampleArtifact content) content 0 0 fun _ => 1

/-- One letter before an emoji: the window of the last two units never closes. -/
theorem artifact_splitting_stalls :
    wellFormed (js "a😀") = true ∧ Steady (fun _ => 1) ∧
      ∀ fuel, buildArtifactPiece (fun _ => js "digest") sampleTurn (js "node") (sampleArtifact (js "a😀")) (js "a😀") 0 0
        (fun _ => 1) fuel = none := by
  refine ⟨by decide, fun _ => ⟨rfl, rfl⟩, ?_⟩
  have hone : ∀ t, (samplePiece (js "a😀") t 1).isSome = true := by
    intro t
    show (samplePiece (js "a😀") 0 1).isSome = true
    decide +kernel
  have hmiddle : ∀ low, low = 1 ∨ low = 2 → CutSearch.middle (insidePair (js "a😀")) low 3 = 1 := by
    intro low hlow
    cases hlow with
    | inl h =>
      subst h
      decide
    | inr h =>
      subst h
      decide
  have hloop : ∀ fuel (w : CutSearch.Window Json), w.low = 1 ∨ w.low = 2 → w.high = 3 →
      CutSearch.search (insidePair (js "a😀")) (samplePiece (js "a😀")) fuel w = none := by
    intro fuel
    induction fuel with
    | zero =>
      intro w _ _
      rfl
    | succ fuel ih =>
      intro w hlow hhigh
      have hmid : CutSearch.middle (insidePair (js "a😀")) w.low w.high = 1 := by
        rw [hhigh]
        exact hmiddle w.low hlow
      obtain ⟨payload, hpayload⟩ := Option.isSome_iff_exists.mp (hone w.tick)
      have hprobe : samplePiece (js "a😀") w.tick (CutSearch.middle (insidePair (js "a😀")) w.low w.high) =
          some payload := by
        rw [hmid]
        exact hpayload
      rw [CutSearch.search_accept fuel (by omega) (by omega) hprobe]
      apply ih (w.accept (insidePair (js "a😀")) payload) _ hhigh
      right
      show CutSearch.middle (insidePair (js "a😀")) w.low w.high + 1 = 2
      rw [hmid]
  intro fuel
  exact hloop fuel _ (.inl rfl) rfl

theorem artifact_splitting_letters :
    (∃ fuel found,
      buildArtifactPiece (fun _ => js "digest") sampleTurn (js "node") (sampleArtifact (js "ab")) (js "ab") 0 0
          (fun _ => 1) fuel = some found ∧
        CutSearch.Longest (insidePair (js "ab")) (samplePiece (js "ab")) (js "ab").length found) ∧
      (∃ sent reference, sendArtifact (fun _ => js "digest") sampleTurn (js "node") (sampleArtifact (js "ab"))
          (fun _ _ => 1) (fun i => .acknowledged ⟨js "a1", 0 + i + 1⟩ false) 4 = some (sent, some reference) ∧
        Exact (js "ab") 0 sent) ∧
      ∃ fuel, (sendArtifact (fun _ => js "digest") sampleTurn (js "node") (sampleArtifact (js "ab"))
        (fun _ _ => 1) (fun _ => .silent) fuel).isSome := by
  have hsettles : ∀ rest, rest <:+ js "ab" → ∀ n k, CutSearch.Settles (insidePair rest) n k := by
    intro rest hrest n k
    have hclear : ∀ k, insidePair rest k = false := by
      intro k
      rw [Bool.eq_false_iff]
      intro hin
      obtain ⟨_, u, hu, hhigh⟩ := insidePair_iff.mp hin
      have hletters : ((js "ab").all fun u => !isHighSurrogate u) = true := by decide
      have hletter := List.all_eq_true.mp hletters u (hrest.mem (List.mem_of_getElem? hu))
      rw [hhigh] at hletter
      cases hletter
    right
    exact ⟨hclear _, fun hin => absurd hin (by rw [hclear]; exact Bool.false_ne_true)⟩
  have hsplit := artifact_splitting (fun _ => js "digest") sampleTurn (js "node") (sampleArtifact (js "ab"))
  refine ⟨?_, ?_, ?_⟩
  · apply (hsplit.1 (js "ab") 0 0 (fun _ => 1) (by decide) fun _ => ⟨rfl, rfl⟩).mpr
    exact hsettles _ (List.suffix_refl _) _ _
  · have hrun : (sendArtifact (fun _ => js "digest") sampleTurn (js "node") (sampleArtifact (js "ab")) (fun _ _ => 1)
        (fun i => .acknowledged ⟨js "a1", 0 + i + 1⟩ false) 4).any (fun answer => answer.2.isSome) = true := by
      decide +kernel
    obtain ⟨⟨sent, answer⟩, hsent, hsome⟩ := (Option.any_eq_true _ _).mp hrun
    obtain ⟨reference, rfl⟩ := Option.isSome_iff_exists.mp hsome
    exact ⟨sent, reference, hsent, hsplit.2.1 _ _ 4 sent reference (fun i => ⟨js "a1", rfl⟩) hsent⟩
  · apply hsplit.2.2
    intro rest hrest version pieceIndex
    have hwell : wellFormed rest = true := by
      have hall : ∀ k ≤ (js "ab").length, wellFormed ((js "ab").drop k) = true := by decide
      rw [List.suffix_iff_eq_drop.mp hrest]
      exact hall _ (Nat.sub_le _ _)
    obtain ⟨fuel, found, hfound, _⟩ := (hsplit.1 rest version pieceIndex (fun _ => 1) hwell fun _ => ⟨rfl, rfl⟩).mpr
      (hsettles rest hrest _ _)
    exact ⟨fuel, Option.isSome_iff_exists.mpr ⟨found, hfound⟩⟩

end Samples

end ClawMessenger.Ports.DiscussionV2
