import ClawMessenger.Ports.DiscussionWire

/-!
# Frames of an encoded record

Three facts about `encodeDiscussionWire` on a record that needs chunking: it
does not throw (`encode_ok`), every frame fits the provider limit
(`frameOf_byteLength_le`), and a frame read back passes `validFrame` with the
fields it was built from (`validFrame_frameOf`).  The longest frame, with an
eighteen-byte `discussionId` escape per unit budget and a full chunk, takes
8648 bytes.
-/

namespace ClawMessenger.Ports.DiscussionWire

open Verified Verified.JsString List
open Verified.Json (parse stringify)
open Json (nat? quote str text?)

/-! ## Chunks -/

theorem length_chunkBytes_le (whole : List UInt8) (i : Nat) :
    (chunkBytes whole i).length ≤ RAW_CHUNK_BYTES :=
  length_take_le _ _

theorem lt_chunkCount_iff {length i : Nat} :
    i < chunkCount length ↔ i * RAW_CHUNK_BYTES < length := by
  rw [chunkCount, RAW_CHUNK_BYTES]
  omega

theorem chunkBytes_ne_nil {whole : List UInt8} {i : Nat} (h : i < chunkCount whole.length) :
    chunkBytes whole i ≠ [] := by
  have hlt := lt_chunkCount_iff.mp h
  have hlen : (chunkBytes whole i).length = min RAW_CHUNK_BYTES (whole.length - i * RAW_CHUNK_BYTES) := by
    rw [chunkBytes, length_take, length_drop]
  intro hnil
  rw [hnil, length_nil] at hlen
  have hpos : 0 < RAW_CHUNK_BYTES := by decide
  omega

/-- The first `m` chunks are the bytes up to the `m`-th cut. -/
theorem flatten_chunkBytes (whole : List UInt8) (m : Nat) :
    ((range m).map (chunkBytes whole)).flatten = whole.take (m * RAW_CHUNK_BYTES) := by
  induction m with
  | zero => simp
  | succ m ih =>
    rw [range_succ, map_append, flatten_append, ih, Nat.succ_mul, take_add]
    simp [chunkBytes]

/-- Together the chunks are the whole message. -/
theorem flatten_all_chunkBytes (whole : List UInt8) :
    ((range (chunkCount whole.length)).map (chunkBytes whole)).flatten = whole := by
  rw [flatten_chunkBytes, take_of_length_le]
  rw [chunkCount, RAW_CHUNK_BYTES]
  omega

/-! ## Reading a frame back -/

section FrameValue

variable (payload : Json) (sha256 : JsString) (index count : Nat) (chunk : List UInt8)

theorem frameValue_keys : (frameValue payload sha256 index count chunk).keys =
    [js "msg_type", js "protocolVersion", js "messageId", js "sha256", js "chunkIndex",
      js "chunkCount"]
      ++ (if (payloadDiscussionId payload).isSome then [js "discussionId"] else [])
      ++ [js "data"] := by
  unfold frameValue
  cases payloadDiscussionId payload <;> rfl

theorem frameValue_keys_nodup : (frameValue payload sha256 index count chunk).keys.Nodup := by
  rw [frameValue_keys]
  split <;> decide

theorem frameValue_keys_allowed :
    ((frameValue payload sha256 index count chunk).keys.all
      fun key => allowedKeys.contains key) = true := by
  rw [frameValue_keys]
  split <;> decide

theorem frameValue_hasOwn :
    requiredKeys.all (frameValue payload sha256 index count chunk).hasOwn = true := by
  unfold frameValue
  cases payloadDiscussionId payload <;> rfl

theorem frameValue_data :
    (frameValue payload sha256 index count chunk).field? (js "data") =
      some (.str (Base64.encode chunk)) := by
  unfold frameValue
  cases payloadDiscussionId payload <;> rfl

theorem isWireFrame_frameValue : isWireFrame (frameValue payload sha256 index count chunk) = true := by
  cases payloadDiscussionId payload <;> rfl

theorem frameDiscussionId?_frameValue :
    frameDiscussionId? (frameValue payload sha256 index count chunk) =
      some (payloadDiscussionId payload) := by
  cases hid : payloadDiscussionId payload with
  | none =>
    have hfield : (frameValue payload sha256 index count chunk).field? (js "discussionId") = none := by
      unfold frameValue
      rw [hid]
      rfl
    rw [frameDiscussionId?, hfield]
  | some id =>
    have hbounded : boundedId id = true := by
      rw [payloadDiscussionId, Option.filter_eq_some_iff] at hid
      exact hid.2
    have hfield : (frameValue payload sha256 index count chunk).field? (js "discussionId") =
        some (.str id) := by
      unfold frameValue
      rw [hid]
      rfl
    rw [frameDiscussionId?, hfield]
    exact if_pos hbounded

theorem frameValue_distinct (h : (declaredVersion payload).Distinct) :
    (frameValue payload sha256 index count chunk).Distinct := by
  refine ⟨frameValue_keys_nodup payload sha256 index count chunk, ?_⟩
  cases hid : payloadDiscussionId payload <;>
    simp [Json.Distinct.DistinctFields, Json.Distinct, Json.ofNat, h]

end FrameValue

/-! ## Records that need chunking -/

/-- A record that travels in chunks: its text is longer than one frame and at
most 8 MiB, and it declares no version or one of the two the wire carries. -/
structure Chunked (payload : Json) : Prop where
  object : payload.isObject = true
  distinct : payload.Distinct
  version : payload.field? (js "protocolVersion") = none ∨
    payload.field? (js "protocolVersion") = some (Json.ofNat 2) ∨
    payload.field? (js "protocolVersion") = some (Json.ofNat 3)
  lower : WIRE_BYTE_LIMIT < byteLength (stringify payload)
  upper : byteLength (stringify payload) ≤ MAX_MESSAGE_BYTES

/-- The text form of every digest is 64 lower-case hexadecimal digits. -/
def HexDigest (digest : List UInt8 → JsString) : Prop :=
  ∀ bytes, isHexOfLength 64 (digest bytes) = true

/-- The version frames of a payload carry. -/
def wireVersion (payload : Json) : Nat := (declaredVersion payload).nat?.getD 2

theorem nat?_ofNat_of_le {n : Nat} (h : n ≤ Decimal.maxSafeInteger) :
    (Json.ofNat n).nat? = some n :=
  Decimal.safeNat?_ofNat h

variable {payload : Json}

theorem Chunked.wireVersion_eq (h : Chunked payload) :
    declaredVersion payload = Json.ofNat (wireVersion payload) ∧
      (wireVersion payload = 2 ∨ wireVersion payload = 3) := by
  have h2 : (Json.ofNat 2).nat? = some 2 := nat?_ofNat_of_le (by decide)
  have h3 : (Json.ofNat 3).nat? = some 3 := nat?_ofNat_of_le (by decide)
  rcases h.version with hv | hv | hv
  · have hd : declaredVersion payload = Json.ofNat 2 := by rw [declaredVersion, hv]; rfl
    rw [wireVersion, hd, h2]
    exact ⟨rfl, .inl rfl⟩
  · have hd : declaredVersion payload = Json.ofNat 2 := by rw [declaredVersion, hv]; rfl
    rw [wireVersion, hd, h2]
    exact ⟨rfl, .inl rfl⟩
  · have hd : declaredVersion payload = Json.ofNat 3 := by rw [declaredVersion, hv]; rfl
    rw [wireVersion, hd, h3]
    exact ⟨rfl, .inr rfl⟩

theorem Chunked.nat?_declaredVersion (h : Chunked payload) :
    (declaredVersion payload).nat? = some (wireVersion payload) := by
  obtain ⟨heq, hv⟩ := h.wireVersion_eq
  rw [heq]
  refine nat?_ofNat_of_le ?_
  have : 3 ≤ Decimal.maxSafeInteger := by decide
  omega

/-- The bytes cut into chunks. -/
def wholeBytes (payload : Json) : List UInt8 := utf8 (stringify payload)

theorem length_wholeBytes (payload : Json) :
    (wholeBytes payload).length = byteLength (stringify payload) := rfl

/-- How many frames a payload takes. -/
def frameCount (payload : Json) : Nat := chunkCount (wholeBytes payload).length

theorem Chunked.frameCount_bounds (h : Chunked payload) :
    2 ≤ frameCount payload ∧ frameCount payload ≤ 1472 := by
  have hlo := h.lower
  have hhi := h.upper
  rw [← length_wholeBytes] at hlo hhi
  rw [WIRE_BYTE_LIMIT] at hlo
  rw [MAX_MESSAGE_BYTES] at hhi
  rw [frameCount, chunkCount, RAW_CHUNK_BYTES]
  omega

/-! ## Frame sizes -/

section FrameSize

variable {digest : List UInt8 → JsString} {payload : Json}

theorem isLowerHex_plain {u : UInt16} (h : isLowerHex u = true) : Json.Plain u := by
  simp only [isLowerHex, Bool.or_eq_true, Bool.and_eq_true, decide_eq_true_eq] at h
  have hquote : (0x22 : UInt16).toNat = 0x22 := rfl
  have hback : (0x5C : UInt16).toNat = 0x5C := rfl
  refine ⟨by omega, by omega, ?_, ?_⟩
  · rintro rfl
    omega
  · rintro rfl
    omega

variable {s : JsString}

theorem isHexOfLength_plain {n : Nat} (h : isHexOfLength n s = true) :
    s.length = n ∧ ∀ u ∈ s, Json.Plain u := by
  simp only [isHexOfLength, Bool.and_eq_true, beq_iff_eq, all_eq_true] at h
  exact ⟨h.1, fun u hu => isLowerHex_plain (h.2 u hu)⟩

theorem byteLength_quote_hex (h : isHexOfLength 64 s = true) :
    byteLength (quote s) = 66 := by
  obtain ⟨hlen, hplain⟩ := isHexOfLength_plain h
  rw [Json.byteLength_quote_plain hplain, hlen]

theorem byteLength_quote_messageId (h : isHexOfLength 64 s = true) :
    byteLength (quote (wireMessageId s)) = 71 := by
  obtain ⟨hlen, hplain⟩ := isHexOfLength_plain h
  have hword : ∀ u ∈ js "wire_", Json.Plain u := by
    have : (js "wire_").all (fun u => decide (Json.Plain u)) = true := by decide
    simpa using this
  rw [Json.byteLength_quote_plain, wireMessageId, length_append, hlen]
  · rfl
  · intro u hu
    rcases mem_append.mp hu with hu | hu
    · exact hword u hu
    · exact hplain u hu

theorem byteLength_stringify_ofNat {n k : Nat} (h : n < 10 ^ (k + 1)) (hk : k < 21) :
    byteLength (stringify (Json.ofNat n)) ≤ k + 1 := by
  rw [Json.ofNat, stringify, byteLength_of_ascii _ (Decimal.text_ascii _)]
  exact Decimal.length_text_ofNat_le h hk

theorem byteLength_quote_chunk (whole : List UInt8) (i : Nat) :
    byteLength (quote (Base64.encode (chunkBytes whole i))) ≤ 7602 := by
  have hlen := length_chunkBytes_le whole i
  rw [RAW_CHUNK_BYTES] at hlen
  rw [Json.byteLength_quote_plain (Base64.encode_plain _), Base64.length_encode]
  omega

theorem byteLength_quote_discussionId {id : JsString} (h : payloadDiscussionId payload = some id) :
    byteLength (quote id) ≤ 770 := by
  rw [payloadDiscussionId, Option.filter_eq_some_iff] at h
  have hbounded := h.2
  simp only [boundedId, boundedText, Bool.and_eq_true, decide_eq_true_eq] at hbounded
  have := Json.byteLength_quote_le id
  omega

/-- The longest frame takes 8648 bytes. -/
theorem frameValue_byteLength_le (hd : HexDigest digest) (h : Chunked payload) {index : Nat}
    (hi : index < frameCount payload) :
    byteLength (stringify (frameValue payload (digest (wholeBytes payload)) index
      (frameCount payload) (chunkBytes (wholeBytes payload) index))) ≤ 8648 := by
  obtain ⟨_, hcount⟩ := h.frameCount_bounds
  obtain ⟨hversion, hv⟩ := h.wireVersion_eq
  have hversionBytes : byteLength (stringify (declaredVersion payload)) ≤ 1 := by
    rw [hversion]
    exact byteLength_stringify_ofNat (k := 0) (by omega) (by omega)
  have hmessageId := byteLength_quote_messageId (hd (wholeBytes payload))
  have hsha := byteLength_quote_hex (hd (wholeBytes payload))
  have hindex := byteLength_stringify_ofNat (n := index) (k := 3) (by omega) (by omega)
  have hcountBytes :=
    byteLength_stringify_ofNat (n := frameCount payload) (k := 3) (by omega) (by omega)
  have hdata := byteLength_quote_chunk (wholeBytes payload) index
  have hkeys : byteLength (quote (js "msg_type")) = 10 ∧
      byteLength (quote (js "discussion_wire_chunk")) = 23 ∧
      byteLength (quote (js "protocolVersion")) = 17 ∧
      byteLength (quote (js "messageId")) = 11 ∧
      byteLength (quote (js "sha256")) = 8 ∧
      byteLength (quote (js "chunkIndex")) = 12 ∧
      byteLength (quote (js "chunkCount")) = 12 ∧
      byteLength (quote (js "discussionId")) = 14 ∧
      byteLength (quote (js "data")) = 6 := by decide
  obtain ⟨hk1, hk2, hk3, hk4, hk5, hk6, hk7, hk8, hk9⟩ := hkeys
  have hid : Json.fieldsBytes ((payloadDiscussionId payload).map
      fun id => (js "discussionId", str id)).toList ≤ 786 := by
    cases hopt : payloadDiscussionId payload with
    | none => simp
    | some id =>
      have := byteLength_quote_discussionId hopt
      simp only [Option.map_some, Option.toList_some, Json.fieldsBytes_cons,
        Json.fieldsBytes_nil, stringify]
      omega
  rw [frameValue, Json.byteLength_stringify_obj (by simp), Json.fieldsBytes_append,
    Json.fieldsBytes_append]
  simp only [Json.fieldsBytes_cons, Json.fieldsBytes_nil, stringify]
  omega

end FrameSize

/-! ## The encoder -/

section Encode

variable (digest : List UInt8 → JsString) (payload : Json)

/-- Frame `index` of a payload, before printing. -/
def frameOf (index : Nat) : Json :=
  frameValue payload (digest (wholeBytes payload)) index (frameCount payload)
    (chunkBytes (wholeBytes payload) index)

/-- The frames of a payload in order. -/
def frameTexts : List JsString :=
  (List.range (frameCount payload)).map fun index => stringify (frameOf digest payload index)

theorem length_frameTexts : (frameTexts digest payload).length = frameCount payload := by
  simp [frameTexts]

variable {digest payload}

variable {index : Nat}

theorem frameTexts_getElem? (hi : index < frameCount payload) :
    (frameTexts digest payload)[index]? = some (stringify (frameOf digest payload index)) := by
  simp [frameTexts, hi]

private theorem mapM_ok {α β : Type} {ε : Type} {f : α → Except ε β} {g : α → β} {l : List α}
    (h : ∀ a ∈ l, f a = .ok (g a)) : l.mapM f = .ok (l.map g) := by
  induction l with
  | nil => rfl
  | cons a l ih =>
    have hhead := h a (mem_cons_self ..)
    have htail := ih fun b hb => h b (mem_cons_of_mem _ hb)
    rw [mapM_cons, hhead, htail]
    rfl

section

variable (hd : HexDigest digest) (h : Chunked payload)
include hd h

theorem frameOf_byteLength_le (hi : index < frameCount payload) :
    byteLength (stringify (frameOf digest payload index)) ≤ 8648 :=
  frameValue_byteLength_le hd h hi

/-- The encoder does not throw on a record that needs chunking. -/
theorem encode_ok :
    encodeDiscussionWire digest payload = .ok (frameTexts digest payload) := by
  have hlo : ¬(wholeBytes payload).length ≤ WIRE_BYTE_LIMIT := Nat.not_le.mpr h.lower
  have hhi : ¬(wholeBytes payload).length > MAX_MESSAGE_BYTES := Nat.not_lt.mpr h.upper
  have hcount : ¬chunkCount (wholeBytes payload).length > MAX_CHUNKS := by
    have := h.frameCount_bounds.2
    rw [frameCount] at this
    rw [MAX_CHUNKS]
    omega
  have hframes : ∀ index ∈ range (frameCount payload),
      encodeFrame payload (digest (wholeBytes payload)) (wholeBytes payload) (frameCount payload)
        index = .ok (stringify (frameOf digest payload index)) := by
    intro index hindex
    have hle := frameOf_byteLength_le hd h (mem_range.mp hindex)
    refine if_neg ?_
    rw [WIRE_BYTE_LIMIT]
    rw [frameOf] at hle
    omega
  have hmap := mapM_ok hframes
  rw [wholeBytes] at hlo hhi hcount
  rw [encodeDiscussionWire]
  simp only [hlo, hhi, hcount, if_false]
  exact hmap

theorem frameTexts_byteLength_le {frame : JsString} (hframe : frame ∈ frameTexts digest payload) :
    byteLength frame ≤ WIRE_BYTE_LIMIT := by
  obtain ⟨index, hindex, rfl⟩ := mem_map.mp hframe
  have := frameOf_byteLength_le hd h (mem_range.mp hindex)
  rw [WIRE_BYTE_LIMIT]
  omega

end

/-! ## Reading a frame back -/

theorem frameOf_distinct (h : Chunked payload) (index : Nat) :
    (frameOf digest payload index).Distinct := by
  refine frameValue_distinct _ _ _ _ _ ?_
  rw [h.wireVersion_eq.1]
  exact trivial

theorem parse_frameOf (h : Chunked payload) (index : Nat) :
    parse (stringify (frameOf digest payload index)) = some (frameOf digest payload index) :=
  Json.parse_stringify _ (frameOf_distinct h index)

theorem byteLength_stringify_obj_pos {v : Json} (h : v.isObject = true) :
    1 ≤ byteLength (stringify v) := by
  cases v with
  | obj fields =>
    cases fields with
    | nil => decide
    | cons field rest =>
      rw [Json.byteLength_stringify_obj (cons_ne_nil field rest)]
      omega
  | _ => cases h

/-- The fields `validFrame` reads from a frame of the encoder. -/
def frameFields (digest : List UInt8 → JsString) (payload : Json) (index : Nat) : Frame :=
  { protocolVersion := wireVersion payload
    messageId := wireMessageId (digest (wholeBytes payload))
    sha256 := digest (wholeBytes payload)
    chunkIndex := index
    chunkCount := frameCount payload
    data := Base64.encode (chunkBytes (wholeBytes payload) index)
    discussionId := payloadDiscussionId payload }

/-- A frame of the encoder passes `validFrame` and gives its fields back. -/
theorem validFrame_frameOf (hd : HexDigest digest) (h : Chunked payload) {senderId : JsString}
    (hsender : boundedId senderId = true) (hi : index < frameCount payload) :
    validFrame Limits.default senderId (frameOf digest payload index)
      (byteLength (stringify (frameOf digest payload index))) =
        some (frameFields digest payload index) := by
  obtain ⟨hlo, hhi⟩ := h.frameCount_bounds
  have hbytes := frameOf_byteLength_le hd h hi
  have hpos : 1 ≤ byteLength (stringify (frameOf digest payload index)) :=
    byteLength_stringify_obj_pos rfl
  have hown : requiredKeys.all (frameOf digest payload index).hasOwn = true :=
    frameValue_hasOwn ..
  have hkeys : ((frameOf digest payload index).keys.all fun key => allowedKeys.contains key) = true :=
    frameValue_keys_allowed ..
  have hversion : ((frameOf digest payload index).field? (js "protocolVersion")).bind nat? =
      some (wireVersion payload) := h.nat?_declaredVersion
  have hsha : ((frameOf digest payload index).field? (js "sha256")).bind text? =
      some (digest (wholeBytes payload)) := rfl
  have hmessage : ((frameOf digest payload index).field? (js "messageId")).bind text? =
      some (wireMessageId (digest (wholeBytes payload))) := rfl
  have hsafe : ∀ n, n ≤ 1472 → (Json.ofNat n).nat? = some n := by
    intro n hn
    have : 1472 ≤ Decimal.maxSafeInteger := by decide
    exact nat?_ofNat_of_le (by omega)
  have hindex : ((frameOf digest payload index).field? (js "chunkIndex")).bind nat? =
      some index := hsafe index (by omega)
  have hcount : ((frameOf digest payload index).field? (js "chunkCount")).bind nat? =
      some (frameCount payload) := hsafe _ hhi
  have hdata : ((frameOf digest payload index).field? (js "data")).bind text? =
      some (Base64.encode (chunkBytes (wholeBytes payload) index)) := by
    rw [frameOf, frameValue_data]
    rfl
  have hdiscussion : frameDiscussionId? (frameOf digest payload index) =
      some (payloadDiscussionId payload) := frameDiscussionId?_frameValue ..
  have hmax : Limits.default.maxChunks = 2048 := rfl
  unfold validFrame
  rw [hown, hkeys, hversion, hsha, hmessage, hindex, hcount, hdata, hdiscussion, hsender, hmax]
  have hexpect : WIRE_BYTE_LIMIT = 9000 := rfl
  have hcountOk : 1 ≤ frameCount payload ∧ frameCount payload ≤ 2048 := by omega
  have hbytesOk : 1 ≤ byteLength (stringify (frameOf digest payload index)) ∧
      byteLength (stringify (frameOf digest payload index)) ≤ WIRE_BYTE_LIMIT := by omega
  simp [guard, h.wireVersion_eq.2, hd (wholeBytes payload), hcountOk, hi, hbytesOk, frameFields]

theorem canonicalDecode_frame (hi : index < frameCount payload) :
    Base64.canonicalDecode (Base64.encode (chunkBytes (wholeBytes payload) index)) =
      some (chunkBytes (wholeBytes payload) index) :=
  Base64.canonicalDecode_encode (chunkBytes_ne_nil hi)

end Encode

end ClawMessenger.Ports.DiscussionWire
