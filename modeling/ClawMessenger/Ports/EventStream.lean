import ClawMessenger.Verified.JsString

/-!
# Server-sent events

`parseSSE` of `packages/quukk-clawmessenger/src/go/sse.ts`: the bytes of a stream are taken
one by one, lines are collected and added to a frame, and an empty line sends the frame.  The
messages are what was sent before the end of the stream or the error that ended it.
-/

namespace ClawMessenger.Ports.EventStream

open ClawMessenger.Verified JsString List

def DEFAULT_SSE_LIMIT : Nat := 1048576

inductive SSEMessage where
  | heartbeat
  | event (id event data : JsString)

inductive SSEProtocolErrorCode where
  | protocolError
  | frameTooLarge

structure Frame where
  id : Option JsString
  event : Option JsString
  data : Option JsString
  dataBytes : Nat
  fields : Nat

def emptyFrame : Frame := ⟨none, none, none, 0, 0⟩

/-! ## Lines -/

/-- A `TextDecoder` that is fatal; it drops a byte order mark. -/
def decodeLine (bytes : List UInt8) : Except SSEProtocolErrorCode JsString :=
  match decodeUtf8 (if bytes.take 3 = [0xEF, 0xBB, 0xBF] then bytes.drop 3 else bytes) with
  | some line => .ok line
  | none => .error .protocolError

def isDigit (u : UInt16) : Bool := 0x30 ≤ u && u ≤ 0x39

/-- A positive safe integer in digits without a leading zero. -/
def isId (value : JsString) : Bool :=
  value.head?.any (· ≠ 0x30) && value.all isDigit &&
    value.foldl (fun n u => 10 * n + (u.toNat - 0x30)) 0 ≤ 9007199254740991

def addLine (frame : Frame) (bytes : List UInt8) (maximumBytes : Nat) : Except SSEProtocolErrorCode Frame := do
  let line ← decodeLine bytes
  let field := line.takeWhile (· ≠ 0x3A)
  let rest := line.drop (field.length + 1)
  let value := if rest.head? = some 0x20 then rest.tail else rest
  if field = js "id" then
    if frame.id.isSome || !isId value then throw .protocolError
    else return { frame with id := some value, fields := frame.fields + 1 }
  else if field = js "event" then
    if frame.event.isSome || value.isEmpty || 64 < value.length then throw .protocolError
    else return { frame with event := some value, fields := frame.fields + 1 }
  else if field = js "data" then
    if frame.data.isSome then throw .protocolError
    else
      let dataBytes := bytes.length - min bytes.length (byteLength line - byteLength value)
      if maximumBytes < dataBytes then throw .frameTooLarge
      else return { frame with data := some value, dataBytes := dataBytes, fields := frame.fields + 1 }
  else throw .protocolError

def dispatch (frame : Frame) : Except SSEProtocolErrorCode (Option SSEMessage) :=
  if frame.fields = 0 then .ok none
  else
    match frame.id, frame.event, frame.data with
    | some id, some event, some data => .ok (some (.event id event data))
    | _, _, _ => .error .protocolError

/-! ## Bytes -/

structure Parser where
  frame : Frame
  frameBytes : Nat
  line : List UInt8
  pendingCR : Bool

def Parser.start : Parser := ⟨emptyFrame, 0, [], false⟩

def finishLine (maximumBytes : Nat) (p : Parser) : Except SSEProtocolErrorCode (Option SSEMessage × Parser) :=
  match p.line with
  | [] => do
      let message ← dispatch p.frame
      return (message, { p with frame := emptyFrame, frameBytes := 0 })
  | first :: _ =>
    if first = 0x3A then
      if p.frame.fields ≠ 0 then throw .protocolError
      else do
        let _ ← decodeLine p.line
        return (some .heartbeat, { p with line := [], frameBytes := 0 })
    else do
      let frame ← addLine p.frame p.line maximumBytes
      return (none, { p with frame := frame, line := [] })

/-- The body of the loop over the bytes. -/
def nextByte (maximumBytes : Nat) (p : Parser) (byte : UInt8) :
    Except SSEProtocolErrorCode (Option SSEMessage × Parser) :=
  if p.pendingCR then
    if byte ≠ 0x0A then .error .protocolError
    else if maximumBytes < p.frameBytes + 1 then .error .frameTooLarge
    else do
      let (message, p) ← finishLine maximumBytes { p with frameBytes := p.frameBytes + 1 }
      return (message, { p with pendingCR := false })
  else if maximumBytes < p.frameBytes + 1 then .error .frameTooLarge
  else if byte = 0x0D then .ok (none, { p with frameBytes := p.frameBytes + 1, pendingCR := true })
  else if byte = 0x0A then finishLine maximumBytes { p with frameBytes := p.frameBytes + 1 }
  else .ok (none, { p with frameBytes := p.frameBytes + 1, line := p.line ++ [byte] })

/-- The bytes of a chunk, slice by slice, with the messages that are sent. -/
def nextChunk (maximumBytes : Nat) : List UInt8 → Parser → List SSEMessage × Except SSEProtocolErrorCode Parser
  | [], p => ([], .ok p)
  | byte :: rest, p =>
    match nextByte maximumBytes p byte with
    | .error code => ([], .error code)
    | .ok (message, p) =>
      let after := nextChunk maximumBytes rest p
      (message.toList ++ after.1, after.2)

def nextChunks (maximumBytes : Nat) :
    List (List UInt8) → Parser → List SSEMessage × Except SSEProtocolErrorCode Parser
  | [], p => ([], .ok p)
  | chunk :: rest, p =>
    match nextChunk maximumBytes chunk p with
    | (messages, .error code) => (messages, .error code)
    | (messages, .ok p) =>
      let after := nextChunks maximumBytes rest p
      (messages ++ after.1, after.2)

/-- A maximum that is no positive safe integer is refused as 0 is. -/
def parseSSE (source : List (List UInt8)) (maximumBytes : Nat) :
    List SSEMessage × Except SSEProtocolErrorCode Unit :=
  if maximumBytes = 0 ∨ DEFAULT_SSE_LIMIT < maximumBytes then ([], .error .protocolError)
  else
    match nextChunks maximumBytes source Parser.start with
    | (messages, .error code) => (messages, .error code)
    | (messages, .ok p) =>
      if p.pendingCR || !p.line.isEmpty || p.frame.fields ≠ 0 then (messages, .error .protocolError)
      else (messages, .ok ())

/-! ## Chunks -/

theorem nextChunk_append (maximumBytes : Nat) (bytes rest : List UInt8) (p : Parser) :
    nextChunk maximumBytes (bytes ++ rest) p =
      match nextChunk maximumBytes bytes p with
      | (messages, .error code) => (messages, .error code)
      | (messages, .ok p) => (messages ++ (nextChunk maximumBytes rest p).1, (nextChunk maximumBytes rest p).2) := by
  induction bytes generalizing p with
  | nil => rfl
  | cons byte bytes ih =>
    rw [cons_append, nextChunk, nextChunk]
    cases hbyte : nextByte maximumBytes p byte with
    | error code => rfl
    | ok next =>
      obtain ⟨message, q⟩ := next
      dsimp only
      rw [ih q]
      cases hrun : nextChunk maximumBytes bytes q with
      | mk messages result =>
        cases result with
        | error code => rfl
        | ok p' =>
          dsimp only
          rw [append_assoc]

/-- Only the bytes matter. -/
theorem nextChunks_flatten (maximumBytes : Nat) (source : List (List UInt8)) (p : Parser) :
    nextChunks maximumBytes source p = nextChunk maximumBytes source.flatten p := by
  induction source generalizing p with
  | nil => rfl
  | cons chunk rest ih =>
    rw [flatten_cons, nextChunk_append, nextChunks]
    cases hrun : nextChunk maximumBytes chunk p with
    | mk messages result =>
      cases result with
      | error code => rfl
      | ok q =>
        dsimp only
        rw [ih q]

/-! ## Line ends -/

/-- Each LF that does not follow a CR becomes CRLF; the first argument is whether a CR stands
before. -/
def withCRLF : Bool → List UInt8 → List UInt8
  | _, [] => []
  | afterCR, byte :: rest =>
    if byte = 0x0A ∧ afterCR = false then 0x0D :: 0x0A :: withCRLF false rest
    else byte :: withCRLF (byte = 0x0D) rest

/-- The same frame and line, whatever the counts. -/
structure Near (p q : Parser) : Prop where
  frame : q.frame = p.frame
  line : q.line = p.line

variable {maximumBytes : Nat} {p q p' : Parser} {message : Option SSEMessage}

/-- A line is finished without regard to the count and the flag. -/
theorem finishLine_near (h : Near p q) (hp : finishLine maximumBytes p = .ok (message, p')) :
    p'.pendingCR = p.pendingCR ∧
      ∃ q', finishLine maximumBytes q = .ok (message, q') ∧ q'.pendingCR = q.pendingCR ∧ Near p' q' := by
  obtain ⟨_, count, _, pending⟩ := p
  obtain ⟨frame, count', line, pending'⟩ := q
  obtain ⟨rfl, rfl⟩ := h
  cases line with
  | nil =>
    simp only [finishLine, bind, Except.bind] at hp ⊢
    cases hdispatch : dispatch frame with
    | error code =>
      rw [hdispatch] at hp
      cases hp
    | ok sent =>
      rw [hdispatch] at hp
      cases hp
      exact ⟨rfl, _, rfl, rfl, ⟨rfl, rfl⟩⟩
  | cons first rest =>
    simp only [finishLine, bind, Except.bind] at hp ⊢
    split at hp
    · rw [if_pos ‹_›]
      split at hp
      · cases hp
      · rw [if_neg ‹_›]
        cases hline : decodeLine (first :: rest) with
        | error code =>
          rw [hline] at hp
          cases hp
        | ok text =>
          rw [hline] at hp
          cases hp
          exact ⟨rfl, _, rfl, rfl, ⟨rfl, rfl⟩⟩
    · rw [if_neg ‹_›]
      cases hadd : addLine frame (first :: rest) maximumBytes with
      | error code =>
        rw [hadd] at hp
        cases hp
      | ok next =>
        rw [hadd] at hp
        cases hp
        exact ⟨rfl, _, rfl, rfl, ⟨rfl, rfl⟩⟩

/-- The LF of a CRLF. -/
theorem finishCRLF_near (h : Near p q) (hq : q.pendingCR = true)
    (hp : finishLine maximumBytes p = .ok (message, p')) :
    (∃ q', nextByte maximumBytes q 0x0A = .ok (message, q') ∧ q'.pendingCR = false ∧ Near p' q') ∨
      nextByte maximumBytes q 0x0A = .error .frameTooLarge := by
  simp only [nextByte, hq, if_true, ne_eq, not_true_eq_false, if_false]
  split
  · exact .inr rfl
  · left
    have hnear : Near p { q with frameBytes := q.frameBytes + 1, pendingCR := true } := ⟨h.frame, h.line⟩
    obtain ⟨_, q', hq', _, hnear'⟩ := finishLine_near hnear hp
    refine ⟨{ q' with pendingCR := false }, ?_, rfl, ⟨hnear'.frame, hnear'.line⟩⟩
    simp [hq']

/-- The bytes that stand for a byte. -/
def recode (byte : UInt8) (afterCR : Bool) : List UInt8 :=
  if byte = 0x0A ∧ afterCR = false then [0x0D, 0x0A] else [byte]

/-- A byte that is taken is taken as a line end with a CR too, unless the count passes the
maximum. -/
theorem nextByte_near {byte : UInt8} (h : Near p q) (hflag : q.pendingCR = p.pendingCR)
    (hp : nextByte maximumBytes p byte = .ok (message, p')) :
    p'.pendingCR = decide (byte = 0x0D) ∧
      ((∃ q', nextChunk maximumBytes (recode byte p.pendingCR) q = (message.toList, .ok q') ∧
          q'.pendingCR = p'.pendingCR ∧ Near p' q') ∨
        nextChunk maximumBytes (recode byte p.pendingCR) q = ([], .error .frameTooLarge)) := by
  unfold recode
  cases hpending : p.pendingCR with
  | true =>
    rw [if_neg (fun hboth => nomatch hboth.2)]
    simp only [nextByte, hpending, if_true] at hp
    split at hp
    · cases hp
    · rename_i hbyte
      have hLF : byte = 0x0A := not_not.mp hbyte
      split at hp
      · cases hp
      · cases hfinish : finishLine maximumBytes { p with frameBytes := p.frameBytes + 1, pendingCR := true } with
        | error code =>
          simp only [bind, Except.bind, hfinish] at hp
          cases hp
        | ok next =>
          simp only [bind, Except.bind, hfinish, pure, Except.pure] at hp
          cases hp
          rw [hLF]
          refine ⟨rfl, ?_⟩
          have hnear : Near { p with frameBytes := p.frameBytes + 1, pendingCR := true } q := ⟨h.frame, h.line⟩
          cases finishCRLF_near hnear (hflag.trans hpending) hfinish with
          | inl hnext =>
            obtain ⟨q', hq', hno, hnear'⟩ := hnext
            refine .inl ⟨q', ?_, hno, ⟨hnear'.frame, hnear'.line⟩⟩
            simp [nextChunk, hq']
          | inr hlarge =>
            right
            simp only [nextChunk, hlarge]
  | false =>
    have hq := hflag.trans hpending
    simp only [nextByte, hpending, Bool.false_eq_true, if_false] at hp
    split at hp
    · cases hp
    · split at hp
      · rename_i hCR
        cases hp
        rw [hCR, if_neg (by decide)]
        refine ⟨rfl, ?_⟩
        simp only [nextChunk, nextByte, hq, Bool.false_eq_true, if_false, if_true]
        by_cases hlarge : maximumBytes < q.frameBytes + 1
        · rw [if_pos hlarge]
          exact .inr rfl
        · rw [if_neg hlarge]
          exact .inl ⟨_, rfl, rfl, ⟨h.frame, h.line⟩⟩
      · rename_i hCR
        split at hp
        · rename_i hLF
          rw [if_pos ⟨hLF, rfl⟩]
          have hnear : Near { p with frameBytes := p.frameBytes + 1, pendingCR := false }
              { q with frameBytes := q.frameBytes + 1, pendingCR := true } := ⟨h.frame, h.line⟩
          refine ⟨(finishLine_near hnear hp).1.trans (decide_eq_false hCR).symm, ?_⟩
          have hfirst : nextByte maximumBytes q 0x0D =
              if maximumBytes < q.frameBytes + 1 then .error .frameTooLarge
              else .ok (none, { q with frameBytes := q.frameBytes + 1, pendingCR := true }) := by
            simp [nextByte, hq]
          by_cases hlarge : maximumBytes < q.frameBytes + 1
          · right
            rw [if_pos hlarge] at hfirst
            simp only [nextChunk, hfirst]
          · rw [if_neg hlarge] at hfirst
            cases finishCRLF_near hnear rfl hp with
            | inl hnext =>
              obtain ⟨q', hq', hno, hnear'⟩ := hnext
              refine .inl ⟨q', ?_, hno.trans (finishLine_near hnear hp).1.symm, hnear'⟩
              simp only [nextChunk, hfirst, hq', Option.toList_none, nil_append, append_nil]
            | inr hsecond =>
              right
              simp only [nextChunk, hfirst, hsecond, Option.toList_none, nil_append]
        · rename_i hLF
          cases hp
          rw [if_neg (fun hboth => hLF hboth.1)]
          refine ⟨(decide_eq_false hCR).symm, ?_⟩
          simp only [nextChunk, nextByte, hq, Bool.false_eq_true, if_false]
          by_cases hlarge : maximumBytes < q.frameBytes + 1
          · rw [if_pos hlarge]
            exact .inr rfl
          · rw [if_neg hlarge, if_neg hCR, if_neg hLF]
            refine .inl ⟨_, rfl, rfl, ⟨h.frame, ?_⟩⟩
            rw [h.line]

theorem withCRLF_cons (afterCR : Bool) (byte : UInt8) (rest : List UInt8) :
    withCRLF afterCR (byte :: rest) = recode byte afterCR ++ withCRLF (decide (byte = 0x0D)) rest := by
  unfold recode
  rw [withCRLF]
  split
  · rename_i hLF
    rw [hLF.1]
    rfl
  · rfl

variable {bytes : List UInt8}

/-- The run lemma. -/
theorem nextChunk_near {messages : List SSEMessage} (h : Near p q)
    (hflag : q.pendingCR = p.pendingCR) (hp : nextChunk maximumBytes bytes p = (messages, .ok p')) :
    (∃ q', nextChunk maximumBytes (withCRLF p.pendingCR bytes) q = (messages, .ok q') ∧
        q'.pendingCR = p'.pendingCR ∧ Near p' q') ∨
      ∃ sent, sent <+: messages ∧
        nextChunk maximumBytes (withCRLF p.pendingCR bytes) q = (sent, .error .frameTooLarge) := by
  induction bytes generalizing p q messages with
  | nil =>
    cases hp
    exact .inl ⟨q, rfl, hflag, h⟩
  | cons byte rest ih =>
    rw [nextChunk] at hp
    split at hp
    · cases hp
    · rename_i message next hbyte
      obtain ⟨hnext, hstep⟩ := nextByte_near h hflag hbyte
      cases hrun : nextChunk maximumBytes rest next with
      | mk later result =>
        rw [hrun] at hp
        cases hp
        rw [withCRLF_cons, nextChunk_append, ← hnext]
        cases hstep with
        | inl hgood =>
          obtain ⟨q', hq', hflag', hnear⟩ := hgood
          rw [hq']
          dsimp only
          cases ih hnear hflag' hrun with
          | inl hall =>
            obtain ⟨q'', hq'', hflag'', hnear'⟩ := hall
            rw [hq'']
            exact .inl ⟨q'', rfl, hflag'', hnear'⟩
          | inr hpart =>
            obtain ⟨sent, hsent, hlarge⟩ := hpart
            rw [hlarge]
            exact .inr ⟨_, (prefix_append_right_inj _).mpr hsent, rfl⟩
        | inr hlarge =>
          rw [hlarge]
          exact .inr ⟨[], nil_prefix, rfl⟩

/-! ## Sizes of frames -/

/-- The sizes of the frames of a stream, of which `size` bytes and the unfinished `line` are
read: a frame ends with an empty line or a comment, and the last one with the stream. -/
def frameSizes (size : Nat) (line : List UInt8) : List UInt8 → List Nat
  | [] => [size]
  | byte :: rest =>
    if byte = 0x0A then
      if line.head?.all (· = 0x3A) then (size + 1) :: frameSizes 0 [] rest
      else frameSizes (size + 1) [] rest
    else if byte = 0x0D then frameSizes (size + 1) line rest
    else frameSizes (size + 1) (line ++ [byte]) rest

/-- A byte that is read counts in the frame it belongs to. -/
theorem exists_frameSize (size : Nat) (line : List UInt8) (byte : UInt8) (rest : List UInt8) :
    ∃ n ∈ frameSizes size line (byte :: rest), size < n := by
  induction rest generalizing size line byte with
  | nil =>
    rw [frameSizes]
    split_ifs <;> exact ⟨size + 1, by simp [frameSizes], Nat.lt_succ_self size⟩
  | cons next rest ih =>
    have hlater : ∀ line', ∃ n ∈ frameSizes (size + 1) line' (next :: rest), size < n := by
      intro line'
      obtain ⟨n, hn, hlt⟩ := ih (size + 1) line' next
      exact ⟨n, hn, by omega⟩
    rw [frameSizes]
    split_ifs
    · exact ⟨size + 1, mem_cons_self, Nat.lt_succ_self size⟩
    · exact hlater _
    · exact hlater _
    · exact hlater _

/-- The unfinished line is part of what is counted, and the count is within the maximum. -/
structure Counted (maximumBytes : Nat) (p : Parser) : Prop where
  line : p.line.length ≤ p.frameBytes
  within : p.frameBytes ≤ maximumBytes

theorem addLine_within {frame : Frame} (h : bytes.length ≤ maximumBytes) :
    addLine frame bytes maximumBytes ≠ .error .frameTooLarge := by
  intro hlarge
  unfold addLine at hlarge
  cases hline : decodeLine bytes with
  | error code =>
    rw [hline] at hlarge
    unfold decodeLine at hline
    split at hline <;> cases hline
    cases hlarge
  | ok text =>
    rw [hline] at hlarge
    simp only [bind, Except.bind, pure, Except.pure, throw, throwThe, MonadExceptOf.throw] at hlarge
    split_ifs at hlarge <;> simp_all <;> omega

theorem dispatch_within (frame : Frame) : dispatch frame ≠ .error .frameTooLarge := by
  unfold dispatch
  split_ifs
  · simp
  · split <;> simp

theorem decodeLine_within (bytes : List UInt8) : decodeLine bytes ≠ .error .frameTooLarge := by
  unfold decodeLine
  split <;> simp

/-- A line that is finished ends its frame or goes on with the count. -/
theorem finishLine_sizes (h : p.line.length ≤ maximumBytes) :
    finishLine maximumBytes p ≠ .error .frameTooLarge ∧
      ∀ message q, finishLine maximumBytes p = .ok (message, q) →
        q.line = [] ∧ q.frameBytes = if p.line.head?.all (· = 0x3A) then 0 else p.frameBytes := by
  obtain ⟨frame, count, line, pending⟩ := p
  cases line with
  | nil =>
    have hne := dispatch_within frame
    cases hdispatch : dispatch frame <;>
      simp_all [finishLine, bind, Except.bind, pure, Except.pure]
  | cons first rest =>
    have hdecode := decodeLine_within (first :: rest)
    have hadd : addLine frame (first :: rest) maximumBytes ≠ .error .frameTooLarge := addLine_within h
    by_cases hcomment : first = 0x3A
    · by_cases hfields : frame.fields = 0
      · cases hline : decodeLine (first :: rest) <;>
          simp_all [finishLine, bind, Except.bind, pure, Except.pure]
      · simp [finishLine, hcomment, hfields, throw, throwThe, MonadExceptOf.throw]
    · cases hline : addLine frame (first :: rest) maximumBytes <;>
        simp_all [finishLine, bind, Except.bind, pure, Except.pure]

/-- After a byte the parser is `q`: the count is right again, and a frame that has ended has
kept within the maximum. -/
def Continues (maximumBytes : Nat) (p q : Parser) (byte : UInt8) : Prop :=
  Counted maximumBytes q ∧ ∃ ended, (∀ n ∈ ended, n ≤ maximumBytes) ∧
    ∀ rest, frameSizes p.frameBytes p.line (byte :: rest) = ended ++ frameSizes q.frameBytes q.line rest

/-- A line feed within the maximum finishes its line. -/
theorem finishLine_continues (h : Counted maximumBytes p)
    (hwithin : p.frameBytes + 1 ≤ maximumBytes) (pending : Bool) :
    let p' := { p with frameBytes := p.frameBytes + 1, pendingCR := pending }
    finishLine maximumBytes p' ≠ .error .frameTooLarge ∧
      ∀ message q, finishLine maximumBytes p' = .ok (message, q) → Continues maximumBytes p q 0x0A := by
  intro p'
  obtain ⟨hne, hfinish⟩ := finishLine_sizes (p := p') (h.line.trans h.within)
  refine ⟨hne, fun message q hq => ?_⟩
  obtain ⟨hline, hcount⟩ := hfinish message q hq
  by_cases hends : p.line.head?.all (· = 0x3A) = true
  · have hzero : q.frameBytes = 0 := by simpa [p', hends] using hcount
    refine ⟨⟨by simp [hline], by omega⟩, [p.frameBytes + 1], ?_, fun rest => ?_⟩
    · intro n hn
      rw [mem_singleton.mp hn]
      exact hwithin
    · rw [frameSizes, if_pos rfl, if_pos hends, hline, hzero]
      rfl
  · have hsame : q.frameBytes = p.frameBytes + 1 := by simpa [p', hends] using hcount
    refine ⟨⟨by simp [hline], by omega⟩, [], by simp, fun rest => ?_⟩
    rw [frameSizes, if_pos rfl, if_neg hends, hline, hsame]
    rfl

/-- The step lemma. -/
theorem nextByte_sizes (h : Counted maximumBytes p) (byte : UInt8) :
    (nextByte maximumBytes p byte = .error .frameTooLarge → maximumBytes < p.frameBytes + 1) ∧
      ∀ message q, nextByte maximumBytes p byte = .ok (message, q) → Continues maximumBytes p q byte := by
  by_cases hlarge : maximumBytes < p.frameBytes + 1
  · refine ⟨fun _ => hlarge, fun message q hq => ?_⟩
    simp only [nextByte, if_pos hlarge] at hq
    split_ifs at hq
  · have hwithin : p.frameBytes + 1 ≤ maximumBytes := Nat.le_of_not_lt hlarge
    obtain ⟨hne, hfinish⟩ := finishLine_continues h hwithin p.pendingCR
    simp only [nextByte, if_neg hlarge]
    by_cases hpending : p.pendingCR = true
    · by_cases hbyte : byte = 0x0A
      · rw [if_pos hpending, if_neg (not_not.mpr hbyte), hbyte]
        cases hline : finishLine maximumBytes { p with frameBytes := p.frameBytes + 1 } with
        | error code => simp_all [bind, Except.bind]
        | ok next =>
          obtain ⟨message, q⟩ := next
          obtain ⟨hcounted, hsizes⟩ := hfinish message q hline
          refine ⟨by simp [bind, Except.bind, pure, Except.pure], fun message' q' hq => ?_⟩
          cases hq
          exact ⟨⟨hcounted.line, hcounted.within⟩, hsizes⟩
      · simp [hpending, hbyte]
    · rw [if_neg hpending]
      by_cases hCR : byte = 0x0D
      · refine ⟨by simp [hCR], fun message q hq => ?_⟩
        rw [if_pos hCR] at hq
        cases hq
        refine ⟨⟨Nat.le_succ_of_le h.line, hwithin⟩, [], by simp, fun rest => ?_⟩
        rw [hCR, frameSizes, if_neg (by decide), if_pos rfl]
        rfl
      · rw [if_neg hCR]
        by_cases hLF : byte = 0x0A
        · rw [if_pos hLF, hLF]
          exact ⟨fun herror => absurd herror hne, hfinish⟩
        · refine ⟨by simp [hLF], fun message q hq => ?_⟩
          rw [if_neg hLF] at hq
          cases hq
          refine ⟨⟨by simpa using h.line, hwithin⟩, [], by simp, fun rest => ?_⟩
          rw [frameSizes, if_neg hLF, if_neg hCR]
          rfl

/-- The run lemma: a run that goes through counts no frame beyond the maximum, and one that
ends for size has come to such a frame. -/
theorem nextChunk_sizes (h : Counted maximumBytes p) :
    ((nextChunk maximumBytes bytes p).2 = .error .frameTooLarge →
        ∃ n ∈ frameSizes p.frameBytes p.line bytes, maximumBytes < n) ∧
      ∀ q, (nextChunk maximumBytes bytes p).2 = .ok q →
        ∀ n ∈ frameSizes p.frameBytes p.line bytes, n ≤ maximumBytes := by
  induction bytes generalizing p with
  | nil =>
    constructor
    · intro hlarge
      cases hlarge
    · intro q _ n hn
      rw [mem_singleton.mp hn]
      exact h.within
  | cons byte rest ih =>
    obtain ⟨hlarge, hok⟩ := nextByte_sizes h byte
    rw [nextChunk]
    cases hbyte : nextByte maximumBytes p byte with
    | error code =>
      dsimp only
      refine ⟨fun hcode => ?_, fun q hq => by cases hq⟩
      cases hcode
      obtain ⟨n, hn, hlt⟩ := exists_frameSize p.frameBytes p.line byte rest
      have hover := hlarge hbyte
      exact ⟨n, hn, by omega⟩
    | ok next =>
      obtain ⟨message, q⟩ := next
      obtain ⟨hcounted, ended, hended, hsizes⟩ := hok message q hbyte
      obtain ⟨hlater, hgone⟩ := ih hcounted
      dsimp only
      rw [hsizes rest]
      constructor
      · intro hcode
        obtain ⟨n, hn, hover⟩ := hlater hcode
        exact ⟨n, mem_append_right _ hn, hover⟩
      · intro q' hq' n hn
        cases mem_append.mp hn with
        | inl hmem => exact hended n hmem
        | inr hmem => exact hgone q' hq' n hmem

/-- The chunks of a stream do not matter.  With CRLF for LF a stream without an error gives the
same messages as long as every frame, its CRs counted, keeps within the maximum; it ends at
the first frame that does not. -/
theorem parseSSE_chunks (source source' : List (List UInt8)) (maximumBytes : Nat) :
    (source.flatten = source'.flatten → parseSSE source maximumBytes = parseSSE source' maximumBytes) ∧
      ∀ messages, parseSSE source maximumBytes = (messages, .ok ()) →
        source'.flatten = withCRLF false source.flatten →
          if ∀ n ∈ frameSizes 0 [] source'.flatten, n ≤ maximumBytes then
            parseSSE source' maximumBytes = (messages, .ok ())
          else ∃ sent, sent <+: messages ∧ parseSSE source' maximumBytes = (sent, .error .frameTooLarge) := by
  constructor
  · intro hflatten
    unfold parseSSE
    rw [nextChunks_flatten, nextChunks_flatten, hflatten]
  · intro messages hmessages hflatten
    by_cases hmax : maximumBytes = 0 ∨ DEFAULT_SSE_LIMIT < maximumBytes
    · rw [parseSSE, if_pos hmax] at hmessages
      cases hmessages
    · simp only [parseSSE, if_neg hmax, nextChunks_flatten, hflatten] at hmessages ⊢
      split at hmessages
      · cases hmessages
      · rename_i found p hrun
        split at hmessages
        · cases hmessages
        · rename_i hend
          cases hmessages
          have hnear : Near Parser.start Parser.start := ⟨rfl, rfl⟩
          have hcounted : Counted maximumBytes Parser.start := ⟨Nat.le_refl 0, Nat.zero_le _⟩
          obtain ⟨hover, hwithin⟩ :
              ((nextChunk maximumBytes (withCRLF false source.flatten) Parser.start).2 = .error .frameTooLarge →
                ∃ n ∈ frameSizes 0 [] (withCRLF false source.flatten), maximumBytes < n) ∧
              ∀ q, (nextChunk maximumBytes (withCRLF false source.flatten) Parser.start).2 = .ok q →
                ∀ n ∈ frameSizes 0 [] (withCRLF false source.flatten), n ≤ maximumBytes :=
            nextChunk_sizes hcounted
          cases nextChunk_near hnear rfl hrun with
          | inl hall =>
            obtain ⟨q, hq, hflag, hnear'⟩ := hall
            have hrun' : nextChunk maximumBytes (withCRLF false source.flatten) Parser.start = (messages, .ok q) := hq
            rw [hrun'] at hwithin ⊢
            rw [if_pos (hwithin q rfl)]
            dsimp only
            rw [hflag, hnear'.frame, hnear'.line, if_neg hend]
          | inr hpart =>
            obtain ⟨sent, hsent, hlarge⟩ := hpart
            have hrun' : nextChunk maximumBytes (withCRLF false source.flatten) Parser.start =
                (sent, .error .frameTooLarge) := hlarge
            rw [hrun'] at hover ⊢
            obtain ⟨n, hn, hlt⟩ := hover rfl
            rw [if_neg fun hle => absurd (hle n hn) (Nat.not_le.mpr hlt)]
            exact ⟨sent, hsent, rfl⟩

/-- `id:1`, `event:e`, `data:é` and the end of the frame, each with a line end. -/
def accentedEvent (lineEnd : List UInt8) : List UInt8 :=
  [0x69, 0x64, 0x3A, 0x31] ++ lineEnd ++ [0x65, 0x76, 0x65, 0x6E, 0x74, 0x3A, 0x65] ++ lineEnd ++
    [0x64, 0x61, 0x74, 0x61, 0x3A, 0xC3, 0xA9] ++ lineEnd ++ lineEnd

/-- An event cut inside its `é` and, with CRLF, between a CR and its LF. -/
theorem parseSSE_chunks_cut :
    let lf := accentedEvent [0x0A]
    let crlf := accentedEvent [0x0D, 0x0A]
    let messages := [SSEMessage.event (js "1") (js "e") (js "é")]
    parseSSE [lf] 25 = (messages, .ok ()) ∧
      parseSSE [lf.take 19, lf.drop 19] 25 = parseSSE [lf] 25 ∧
      parseSSE [crlf.take 5, (crlf.drop 5).take 16, crlf.drop 21] 26 = (messages, .ok ()) ∧
      ∃ sent, sent <+: messages ∧ parseSSE [crlf] 25 = (sent, .error .frameTooLarge) := by
  intro lf crlf messages
  have hlf : ∀ maximumBytes, maximumBytes = 25 ∨ maximumBytes = 26 →
      parseSSE [lf] maximumBytes = (messages, .ok ()) := by
    rintro maximumBytes (rfl | rfl) <;> rfl
  refine ⟨hlf 25 (.inl rfl), (parseSSE_chunks _ _ 25).1 (by decide +kernel), ?_, ?_⟩
  · have h := (parseSSE_chunks [lf] [crlf.take 5, (crlf.drop 5).take 16, crlf.drop 21] 26).2 messages
      (hlf 26 (.inr rfl)) (by decide +kernel)
    rwa [if_pos (by decide +kernel)] at h
  · have h := (parseSSE_chunks [lf] [crlf] 25).2 messages (hlf 25 (.inl rfl)) (by decide +kernel)
    rwa [if_neg (by decide +kernel)] at h

end ClawMessenger.Ports.EventStream
