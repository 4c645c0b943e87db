import ClawMessenger.Ports.BridgeTask
import ClawMessenger.Ports.EventStream
import ClawMessenger.Verified.Decimal

/-!
# What the bridge writes is what the client reads

`handleTaskEvents` of `server/internal/daemon/bridge_http.go` writes an event in three lines and
a heartbeat as a comment, each with an empty line after it.  What it has written is read from one
start of a frame to the next (`nextChunk_written`), up to the first frame that is too large.
-/

namespace ClawMessenger.Ports.EventStream

open ClawMessenger.Verified JsString Decimal List
open Bridge (BridgeTaskEvent BridgeEventType)

/-! ## The writer -/

/-- What the loop of the writer selects. -/
inductive Selected
  | event (e : BridgeTaskEvent)
  | tick

def idText (e : BridgeTaskEvent) : JsString := (natDigits e.id).map digitUnit

def line (field : String) (value : JsString) : List UInt8 := utf8 (js field) ++ utf8 value

/-- `"id: %d\nevent: %s\ndata: %s\n\n"` and `": heartbeat\n\n"`; `marshal` is `json.Marshal`. -/
def Selected.written (marshal : BridgeTaskEvent → JsString) : Selected → List UInt8
  | event e =>
    line "id: " (idText e) ++ 0x0A :: (line "event: " (ofChars e.type.text) ++ 0x0A ::
      (line "data: " (marshal e) ++ [0x0A, 0x0A]))
  | tick => utf8 (js ": heartbeat") ++ [0x0A, 0x0A]

def Selected.message (marshal : BridgeTaskEvent → JsString) : Selected → SSEMessage
  | event e => .event (idText e) (ofChars e.type.text) (marshal e)
  | tick => .heartbeat

/-- What the parser counts; it counts again after a comment. -/
def Selected.size (marshal : BridgeTaskEvent → JsString) : Selected → Nat
  | event e => ((event e).written marshal).length
  | tick => 12

/-- Ids count from 1 and are safe integers. -/
def Selected.Numbered : Selected → Prop
  | event e => 0 < e.id ∧ e.id ≤ maxSafeInteger
  | tick => True

/-! ## A line -/

def OneLine (bytes : List UInt8) : Prop := ∀ b ∈ bytes, b ≠ 0x0A ∧ b ≠ 0x0D

variable {maximumBytes : Nat} {bytes rest : List UInt8} {q : Parser} {message : Option SSEMessage}
  {frame frame' : Frame} {count : Nat}

theorem OneLine.append (h : OneLine bytes) (hrest : OneLine rest) : OneLine (bytes ++ rest) := by
  intro b hb
  cases mem_append.mp hb with
  | inl hb => exact h b hb
  | inr hb => exact hrest b hb

theorem oneLine_of_all (h : bytes.all (fun b => b ≠ 0x0A ∧ b ≠ 0x0D) = true) : OneLine bytes :=
  fun b hb => of_decide_eq_true (all_eq_true.mp h b hb)

/-- A line is collected and finished, unless it is too large. -/
theorem nextChunk_line {line : List UInt8} (hplain : OneLine bytes)
    (hfinish : count + bytes.length + 1 ≤ maximumBytes →
      finishLine maximumBytes ⟨frame, count + bytes.length + 1, line ++ bytes, false⟩ = .ok (message, q)) :
    nextChunk maximumBytes (bytes ++ 0x0A :: rest) ⟨frame, count, line, false⟩ =
      if maximumBytes < count + bytes.length + 1 then ([], .error .frameTooLarge)
      else (message.toList ++ (nextChunk maximumBytes rest q).1, (nextChunk maximumBytes rest q).2) := by
  induction bytes generalizing count line with
  | nil =>
    rw [append_nil] at hfinish
    rw [nil_append, nextChunk, nextByte, if_neg Bool.false_ne_true]
    by_cases hlarge : maximumBytes < count + 1
    · rw [if_pos hlarge]
      exact (if_pos hlarge).symm
    · have hq : finishLine maximumBytes ⟨frame, count + 1, line, false⟩ = .ok (message, q) :=
        hfinish (Nat.le_of_not_lt hlarge)
      rw [if_neg hlarge, if_neg (by decide), if_pos rfl, hq]
      exact (if_neg hlarge).symm
  | cons b bytes ih =>
    obtain ⟨hb, hrest⟩ := forall_mem_cons.mp hplain
    have hlength : count + (b :: bytes).length + 1 = count + 1 + bytes.length + 1 := by
      rw [length_cons]
      omega
    rw [hlength] at hfinish ⊢
    rw [cons_append, nextChunk, nextByte, if_neg Bool.false_ne_true, if_neg hb.1, if_neg hb.2]
    by_cases hlarge : maximumBytes < count + 1
    · rw [if_pos hlarge, if_pos (by omega)]
    · rw [if_neg hlarge]
      dsimp only
      rw [ih hrest]
      · simp
      · simpa only [append_assoc, singleton_append] using hfinish

/-! ## A field -/

variable {value : JsString}

theorem decodeLine_line {field : String} (hfield : (js field).all (fun u => u.toNat < 0x80) = true)
    (hfirst : (utf8 (js field)).head?.any (· ≠ 0xEF) = true) (hvalue : wellFormed value = true) :
    decodeLine (line field value) = .ok (js field ++ value) := by
  have hascii : ∀ u ∈ js field, u.toNat < 0x80 := fun u hu => of_decide_eq_true (all_eq_true.mp hfield u hu)
  have hclosed : Closed (js field) := closed_of_all_lt fun u hu => Nat.lt_trans (hascii u hu) (by decide)
  have hwell : wellFormed (js field ++ value) = true := by
    rw [wellFormed_append _ _ hclosed, wellFormed_of_ascii _ hascii, hvalue, Bool.and_true]
  have hbom : (line field value).take 3 ≠ [0xEF, 0xBB, 0xBF] := by
    obtain ⟨first, hhead, hne⟩ := (Option.any_eq_true _ _).mp hfirst
    obtain ⟨tail, hbytes⟩ := head?_eq_some_iff.mp hhead
    rw [line, hbytes]
    intro h
    exact of_decide_eq_true hne (cons.inj h).1
  unfold decodeLine
  rw [if_neg hbom, line, ← utf8_append _ _ hclosed, decodeUtf8_utf8 _ hwell]

theorem finishLine_field {first : UInt8} {tail : List UInt8} (hfirst : first ≠ 0x3A)
    (hadd : addLine frame (first :: tail) maximumBytes = .ok frame') :
    finishLine maximumBytes ⟨frame, count, first :: tail, false⟩ = .ok (none, ⟨frame', count, [], false⟩) := by
  unfold finishLine
  dsimp only
  rw [if_neg hfirst, hadd]
  rfl

theorem addLine_id (hvalue : wellFormed value = true) (hid : isId value = true) (hnone : frame.id = none) :
    addLine frame (line "id: " value) maximumBytes =
      .ok { frame with id := some value, fields := frame.fields + 1 } := by
  have hname : (js "id: " ++ value).takeWhile (· ≠ 0x3A) = js "id" := rfl
  have hrest : (js "id: " ++ value).drop ((js "id").length + 1) = 0x20 :: value := rfl
  unfold addLine
  rw [decodeLine_line (by decide) (by decide) hvalue]
  dsimp only [bind, Except.bind]
  rw [hname, hrest, if_pos rfl, hnone, head?_cons, if_pos rfl, tail_cons, hid]
  rfl

theorem addLine_event (hvalue : wellFormed value = true) (hlength : 0 < value.length ∧ value.length ≤ 64)
    (hnone : frame.event = none) : addLine frame (line "event: " value) maximumBytes =
      .ok { frame with event := some value, fields := frame.fields + 1 } := by
  have hname : (js "event: " ++ value).takeWhile (· ≠ 0x3A) = js "event" := rfl
  have hrest : (js "event: " ++ value).drop ((js "event").length + 1) = 0x20 :: value := rfl
  unfold addLine
  rw [decodeLine_line (by decide) (by decide) hvalue]
  dsimp only [bind, Except.bind]
  rw [hname, hrest, if_neg (by decide), if_pos rfl, hnone, head?_cons, if_pos rfl, tail_cons,
    isEmpty_eq_false_iff.mpr (ne_nil_of_length_pos hlength.1), decide_eq_false (Nat.not_lt.mpr hlength.2)]
  rfl

theorem addLine_data (hvalue : wellFormed value = true)
    (hsize : (line "data: " value).length ≤ maximumBytes) (hnone : frame.data = none) :
    addLine frame (line "data: " value) maximumBytes = .ok { frame with
      data := some value
      dataBytes := (line "data: " value).length -
        min (line "data: " value).length (byteLength (js "data: " ++ value) - byteLength value)
      fields := frame.fields + 1 } := by
  have hname : (js "data: " ++ value).takeWhile (· ≠ 0x3A) = js "data" := rfl
  have hrest : (js "data: " ++ value).drop ((js "data").length + 1) = 0x20 :: value := rfl
  unfold addLine
  rw [decodeLine_line (by decide) (by decide) hvalue]
  dsimp only [bind, Except.bind]
  rw [hname, hrest, if_neg (by decide), if_neg (by decide), if_pos rfl, hnone, head?_cons, if_pos rfl,
    tail_cons, if_neg (by decide), if_neg (by omega)]
  rfl

/-! ## What is written -/

theorem digitUnit_spec : ∀ d : Digit, isDigit (digitUnit d) = true ∧ (d ≠ 0 → digitUnit d ≠ 0x30) ∧
    (utf8 [digitUnit d]).all (fun b => b ≠ 0x0A ∧ b ≠ 0x0D) = true := by
  decide

theorem digits_ascii (ds : List Digit) : ∀ u ∈ ds.map digitUnit, u.toNat < 0x80 := by
  intro u hu
  obtain ⟨d, -, rfl⟩ := mem_map.mp hu
  exact digitUnit_lt d

theorem oneLine_digits (ds : List Digit) : OneLine (utf8 (ds.map digitUnit)) := by
  induction ds with
  | nil => exact oneLine_of_all rfl
  | cons d ds ih =>
    have hclosed : Closed [digitUnit d] :=
      closed_of_all_lt fun u hu => Nat.lt_trans (digits_ascii [d] u hu) (by decide)
    rw [map_cons, ← singleton_append, utf8_append _ _ hclosed]
    exact (oneLine_of_all (digitUnit_spec d).2.2).append ih

theorem isId_idText {e : BridgeTaskEvent} (h : 0 < e.id ∧ e.id ≤ maxSafeInteger) : isId (idText e) = true := by
  obtain ⟨d, ds, hdigits, hd⟩ := natDigits_head e.id (Nat.ne_of_gt h.1)
  have hunits : (idText e).all isDigit = true := by
    rw [idText, all_map, all_eq_true]
    exact fun d _ => (digitUnit_spec d).1
  have hvalue : (idText e).foldl (fun n u => 10 * n + (u.toNat - 0x30)) 0 = e.id := by
    rw [idText, foldl_map]
    simp only [toNat_digitUnit, Nat.add_sub_cancel_left, Nat.mul_comm 10]
    exact digitsValue_natDigits e.id
  have hhead : (idText e).head? = some (digitUnit d) := by rw [idText, hdigits, map_cons, head?_cons]
  unfold isId
  rw [hunits, hvalue, hhead]
  simpa using ⟨(digitUnit_spec d).2.1 hd, h.2⟩

theorem typeText_spec (type : BridgeEventType) : wellFormed (ofChars type.text) = true ∧
    (utf8 (ofChars type.text)).all (fun b => b ≠ 0x0A ∧ b ≠ 0x0D) = true ∧
    0 < (ofChars type.text).length ∧ (ofChars type.text).length ≤ 64 := by
  cases type <;> decide

variable {marshal : BridgeTaskEvent → JsString}

/-- From the start of a frame to the start of the next. -/
theorem nextChunk_written (hmarshal : ∀ e, wellFormed (marshal e) = true ∧ OneLine (utf8 (marshal e)))
    {s : Selected} (hs : s.Numbered) :
    nextChunk maximumBytes (s.written marshal ++ rest) Parser.start =
      if maximumBytes < s.size marshal then ([], .error .frameTooLarge)
      else (s.message marshal :: (nextChunk maximumBytes rest Parser.start).1,
        (nextChunk maximumBytes rest Parser.start).2) := by
  have hnil : OneLine [] := oneLine_of_all rfl
  have hstart : Parser.start = ⟨emptyFrame, 0, [], false⟩ := rfl
  cases s with
  | tick =>
    have hline : OneLine (utf8 (js ": heartbeat")) := oneLine_of_all (by decide)
    have hbeat : finishLine maximumBytes ⟨emptyFrame, 12, utf8 (js ": heartbeat"), false⟩ =
        .ok (some .heartbeat, ⟨emptyFrame, 0, [], false⟩) := rfl
    have hempty : finishLine maximumBytes ⟨emptyFrame, 1, [], false⟩ = .ok (none, ⟨emptyFrame, 0, [], false⟩) := rfl
    have hlength : (utf8 (js ": heartbeat")).length = 11 := rfl
    have hbytes : Selected.tick.written marshal ++ rest = utf8 (js ": heartbeat") ++ 0x0A :: ([] ++ 0x0A :: rest) := rfl
    rw [hbytes, hstart, nextChunk_line hline fun _ => hbeat, nextChunk_line hnil fun _ => hempty, hlength, Selected.size]
    simp only [Option.toList_none, Option.toList_some, nil_append, singleton_append, length_nil]
    split_ifs <;> first | rfl | omega
  | event e =>
    have hid := wellFormed_of_ascii (idText e) (digits_ascii _)
    obtain ⟨htype, honeType, hlength⟩ := typeText_spec e.type
    obtain ⟨hdata, honeData⟩ := hmarshal e
    have hone : OneLine (line "id: " (idText e)) := (oneLine_of_all (by decide)).append (oneLine_digits _)
    have htwo : OneLine (line "event: " (ofChars e.type.text)) :=
      (oneLine_of_all (by decide)).append (oneLine_of_all honeType)
    have hthree : OneLine (line "data: " (marshal e)) := (oneLine_of_all (by decide)).append honeData
    simp only [Selected.written, Selected.size, append_assoc, cons_append, nil_append,
      length_append, length_cons]
    -- the empty line that ends the frame is a line, too
    rw [← nil_append (0x0A :: rest), hstart,
      nextChunk_line hone fun _ => finishLine_field (by decide) (addLine_id hid (isId_idText hs) rfl),
      nextChunk_line htwo fun _ => finishLine_field (by decide) (addLine_event htype hlength rfl),
      nextChunk_line hthree fun hfits => finishLine_field (by decide) (addLine_data hdata (by omega) rfl),
      nextChunk_line hnil fun _ => rfl]
    generalize (line "id: " (idText e)).length = one
    generalize (line "event: " (ofChars e.type.text)).length = two
    generalize (line "data: " (marshal e)).length = three
    split_ifs <;> first | rfl | omega

/-! ## A stream -/

theorem nextChunk_stream (hmarshal : ∀ e, wellFormed (marshal e) = true ∧ OneLine (utf8 (marshal e)))
    {selected : List Selected} (hs : ∀ s ∈ selected, s.Numbered) :
    nextChunk maximumBytes (selected.flatMap (Selected.written marshal)) Parser.start =
      ((selected.takeWhile (fun s => s.size marshal ≤ maximumBytes)).map (Selected.message marshal),
        if ∀ s ∈ selected, s.size marshal ≤ maximumBytes then .ok Parser.start else .error .frameTooLarge) := by
  induction selected with
  | nil => rfl
  | cons s selected ih =>
    obtain ⟨hfirst, hrest⟩ := forall_mem_cons.mp hs
    rw [flatMap_cons, nextChunk_written hmarshal hfirst, ih hrest, takeWhile_cons]
    by_cases hlarge : maximumBytes < s.size marshal
    · simp [hlarge, Nat.not_le.mpr hlarge]
    · simp [hlarge, Nat.le_of_not_lt hlarge]

/-- Cut anywhere into chunks, the stream is read as it was written up to the first frame that is
too large; what is read of a stream that breaks off is the beginning of those messages. -/
theorem parseSSE_written (hmarshal : ∀ e, wellFormed (marshal e) = true ∧ OneLine (utf8 (marshal e)))
    (hmaximum : 0 < maximumBytes ∧ maximumBytes ≤ DEFAULT_SSE_LIMIT) {selected : List Selected}
    (hs : ∀ s ∈ selected, s.Numbered) (source : List (List UInt8)) :
    (source.flatten = selected.flatMap (Selected.written marshal) → parseSSE source maximumBytes =
      ((selected.takeWhile (fun s => s.size marshal ≤ maximumBytes)).map (Selected.message marshal),
        if ∀ s ∈ selected, s.size marshal ≤ maximumBytes then .ok () else .error .frameTooLarge)) ∧
      (source.flatten <+: selected.flatMap (Selected.written marshal) → (parseSSE source maximumBytes).1 <+:
        (selected.takeWhile (fun s => s.size marshal ≤ maximumBytes)).map (Selected.message marshal)) := by
  have hlimit : ¬(maximumBytes = 0 ∨ DEFAULT_SSE_LIMIT < maximumBytes) := by omega
  unfold parseSSE
  rw [if_neg hlimit, nextChunks_flatten]
  constructor
  · intro hall
    rw [hall, nextChunk_stream hmarshal hs]
    split_ifs <;> rfl
  · rintro ⟨later, hlater⟩
    have htaken : (nextChunk maximumBytes (selected.flatMap (Selected.written marshal)) Parser.start).1 <+:
        (selected.takeWhile (fun s => s.size marshal ≤ maximumBytes)).map (Selected.message marshal) := by
      rw [nextChunk_stream hmarshal hs]
    -- what is missing could only have added messages
    rw [← hlater, nextChunk_append] at htaken
    cases hread : nextChunk maximumBytes source.flatten Parser.start with
    | mk messages result =>
      rw [hread] at htaken
      cases result with
      | error code => exact htaken
      | ok p =>
        dsimp only at htaken ⊢
        split <;> exact (prefix_append _ _).trans htaken

def started : BridgeTaskEvent := { id := 1, type := .started, taskId := Bridge.go "t" }

def startedJson (_ : BridgeTaskEvent) : JsString :=
  js "\x7b\"id\":1,\"type\":\"started\",\"task_id\":\"t\",\"time\":\"1970-01-01T00:00:00Z\"\x7d"

theorem parseSSE_written_started :
    let bytes := [Selected.event started, .tick].flatMap (Selected.written startedJson)
    parseSSE [bytes.take 30, bytes.drop 30] DEFAULT_SSE_LIMIT =
      ([.event (js "1") (js "started") (startedJson started), .heartbeat], .ok ()) := by
  intro bytes
  have hmarshal : ∀ e, wellFormed (startedJson e) = true ∧ OneLine (utf8 (startedJson e)) := by
    intro e
    unfold startedJson
    exact ⟨by decide +kernel, oneLine_of_all (by decide +kernel)⟩
  have hs : ∀ s ∈ [Selected.event started, .tick], s.Numbered := by
    simp [Selected.Numbered, started, maxSafeInteger]
  have hcut : [bytes.take 30, bytes.drop 30].flatten = bytes := by simp
  apply ((parseSSE_written hmarshal ⟨by decide, le_rfl⟩ hs _).1 hcut).trans
  rw [if_pos (by decide +kernel)]
  rfl

end ClawMessenger.Ports.EventStream
