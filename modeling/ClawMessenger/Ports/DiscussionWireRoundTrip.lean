import ClawMessenger.Ports.DiscussionWireDelivery

/-!
# Round trip of the discussion wire

`wire_roundtrip` is the delivery theorem.  A record that needs chunking is
encoded without error into frames that fit, and in every run of a fresh
reassembler in which neither the clock nor the capacities drop what is stored
of the message, the calls that carry its frames answer `incomplete` until the
last missing index arrives, `complete` at that moment, and `replay` ever after.

Completed messages are remembered for ten minutes only, so the clock condition
covers the completed entry too (`replay_forgotten`).  `prompt_allowed` shows
that a handful of calls inside one TTL always meets the conditions.
-/

namespace ClawMessenger.Ports.DiscussionWire

open Verified Verified.Machine Verified.JsString List
open Verified.Json (parse stringify)

/-- The history of a reassembler under `deliver`. -/
abbrev WireRun := Config Reassembler Arrival DiscussionWireResult

section

variable (frames : List JsString) (senderId : JsString) (past : List (Arrival × DiscussionWireResult))

/-- Frame `i` of the sender's message is among the calls. -/
def Arrived (i : Nat) : Prop :=
  ∃ e ∈ past, OwnFrame frames senderId e.1.call i

def AllArrived : Prop :=
  ∀ i, i < frames.length → Arrived frames senderId past i

end

/-- A call the environment may make: nothing stored of the message expires at
its clock reading, and it either carries a frame of the message, with capacity
left for it, or nothing of the message. -/
structure Allowed (digest : List UInt8 → JsString) (payload : Json) (senderId : JsString)
    (c : WireRun) (arrival : Arrival) : Prop where
  unexpired : Unexpired digest payload senderId c.state arrival.now
  call : (∃ i, OwnFrame (frameTexts digest payload) senderId arrival.call i ∧
      Room digest payload senderId (c.state.cleanup arrival.now)
        (chunkBytes (wholeBytes payload) i).length) ∨
    Foreign senderId (wireMessageId (digest (wholeBytes payload))) arrival.call

section Run

variable {digest : List UInt8 → JsString} {payload : Json} {senderId : JsString}

variable {arrival : Arrival} {past : List (Arrival × DiscussionWireResult)}
  {result : DiscussionWireResult}

variable {frames : List JsString}

theorem arrived_append {i : Nat} :
    Arrived frames senderId (past ++ [(arrival, result)]) i ↔
      Arrived frames senderId past i ∨ OwnFrame frames senderId arrival.call i := by
  simp only [Arrived, mem_append, mem_singleton]
  constructor
  · rintro ⟨e, he | rfl, hown⟩
    · exact .inl ⟨e, he, hown⟩
    · exact .inr hown
  · rintro (⟨e, he, hown⟩ | hown)
    · exact ⟨e, .inl he, hown⟩
    · exact ⟨_, .inr rfl, hown⟩

theorem AllArrived.mono {past' : List (Arrival × DiscussionWireResult)}
    (h : AllArrived frames senderId past) (hsub : ∀ e ∈ past, e ∈ past') :
    AllArrived frames senderId past' := by
  intro i hi
  obtain ⟨e, he, hown⟩ := h i hi
  exact ⟨e, hsub e he, hown⟩

/-- `S` is the set of indices that arrived. -/
def Indices (digest : List UInt8 → JsString) (payload : Json) (senderId : JsString)
    (past : List (Arrival × DiscussionWireResult)) (S : Finset Nat) : Prop :=
  ∀ i, i ∈ S ↔ Arrived (frameTexts digest payload) senderId past i

variable {S : Finset Nat}

theorem Indices.eq_range_iff (h : Chunked payload) (hS : Indices digest payload senderId past S) :
    S = Finset.range (frameCount payload) ↔
      AllArrived (frameTexts digest payload) senderId past := by
  constructor
  · rintro rfl i hi
    rw [length_frameTexts] at hi
    exact (hS i).mp (Finset.mem_range.mpr hi)
  · intro hall
    ext i
    rw [hS i, Finset.mem_range]
    constructor
    · rintro ⟨e, _, hown⟩
      exact (hown.spec h).1
    · intro hi
      exact hall i (by rwa [length_frameTexts])

theorem Indices.snoc_own (h : Chunked payload) (hS : Indices digest payload senderId past S)
    {i : Nat} (hown : OwnFrame (frameTexts digest payload) senderId arrival.call i) :
    Indices digest payload senderId (past ++ [(arrival, result)]) (insert i S) := by
  intro j
  rw [arrived_append, Finset.mem_insert, hS j, or_comm]
  refine or_congr_right ?_
  constructor
  · rintro rfl
    exact hown
  · exact fun hj => hj.index_unique h hown

theorem Indices.snoc_foreign (hS : Indices digest payload senderId past S)
    (hforeign : ∀ i, ¬OwnFrame (frameTexts digest payload) senderId arrival.call i) :
    Indices digest payload senderId (past ++ [(arrival, result)]) S := by
  intro j
  rw [arrived_append, hS j]
  simp [hforeign j]

/-- The invariant of a run: the stored state is what the arrived indices say,
and so was every answer given to a frame of the message. -/
structure RunInv (digest : List UInt8 → JsString) (payload : Json) (senderId : JsString)
    (c : WireRun) : Prop where
  live : c.state.disposed = false
  progress : ∃ S, Indices digest payload senderId c.past S ∧
    Progress digest payload senderId c.state S
  answers : ∀ k arrival result i, c.past[k]? = some (arrival, result) →
    OwnFrame (frameTexts digest payload) senderId arrival.call i →
    ∃ S, Indices digest payload senderId (c.past.take k) S ∧ Outcome payload S i result

theorem progress_empty (now : Int) :
    Progress digest payload senderId (Reassembler.cleanup {} now) ∅ := .fresh rfl rfl rfl

theorem runInv_start : RunInv digest payload senderId (start {}) := by
  refine ⟨rfl, ⟨∅, fun i => ?_, .fresh rfl rfl rfl⟩, fun k arrival result i hk => ?_⟩
  · simp [Arrived]
  · simp at hk

theorem answers_append (hpast : ∀ k arrival result i, past[k]? = some (arrival, result) →
      OwnFrame (frameTexts digest payload) senderId arrival.call i →
      ∃ S, Indices digest payload senderId (past.take k) S ∧ Outcome payload S i result)
    {last : Arrival} {answer : DiscussionWireResult}
    (hlast : ∀ i, OwnFrame (frameTexts digest payload) senderId last.call i →
      ∃ S, Indices digest payload senderId past S ∧ Outcome payload S i answer) :
    ∀ k arrival result i, (past ++ [(last, answer)])[k]? = some (arrival, result) →
      OwnFrame (frameTexts digest payload) senderId arrival.call i →
      ∃ S, Indices digest payload senderId ((past ++ [(last, answer)]).take k) S ∧
        Outcome payload S i result := by
  intro k arrival result i hk hown
  rcases Nat.lt_trichotomy k past.length with hlt | heq | hgt
  · rw [getElem?_append_left hlt] at hk
    rw [take_append_of_le_length (Nat.le_of_lt hlt)]
    exact hpast k arrival result i hk hown
  · subst heq
    rw [getElem?_append_right (Nat.le_refl _), Nat.sub_self] at hk
    cases hk
    rw [take_append_of_le_length (Nat.le_refl _), take_length]
    exact hlast i hown
  · rw [getElem?_eq_none (by simp; omega)] at hk
    cases hk

section

variable (hd : HexDigest digest) (h : Chunked payload) (hsender : boundedId senderId = true)
include hd h hsender

theorem runInv_step (c : WireRun) (arrival : Arrival)
    (hallowed : Allowed digest payload senderId c arrival)
    (hinv : RunInv digest payload senderId c) :
    RunInv digest payload senderId (advance (deliver digest) c arrival) := by
  obtain ⟨S, hS, hprogress⟩ := hinv.progress
  have hclean := hprogress.of_agree (agree_cleanup hallowed.unexpired)
  rcases hallowed.call with ⟨i, hown, hroom⟩ | hforeign
  · have hi := (hown.spec h).1
    have hdeliver := deliver_own hd h hinv.live hown
    obtain ⟨houtcome, hprogress', hdisposed⟩ := acceptFrame_own hd h hsender hi hclean hroom
    rw [← hdeliver] at houtcome hprogress' hdisposed
    refine ⟨hdisposed.trans hinv.live, ⟨insert i S, hS.snoc_own h hown, hprogress'⟩, ?_⟩
    refine answers_append hinv.answers fun j hj => ⟨S, hS, ?_⟩
    rw [hj.index_unique h hown]
    exact houtcome
  · have hnot : ∀ i, ¬OwnFrame (frameTexts digest payload) senderId arrival.call i :=
      fun _ => hforeign.not_own h
    have hagree := agree_deliver_foreign hallowed.unexpired hforeign
    refine ⟨hagree.disposed.trans hinv.live,
      ⟨S, hS.snoc_foreign hnot, hprogress.of_agree hagree⟩, ?_⟩
    exact answers_append hinv.answers fun j hj => absurd hj (hnot j)

theorem runInv_reach {c : WireRun}
    (hrun : Reach (deliver digest) (Allowed digest payload senderId) (start {}) c) :
    RunInv digest payload senderId c :=
  hrun.invariant (runInv_step hd h hsender) runInv_start

end

/-- Every answer, by what had arrived before and with it. -/
theorem RunInv.answer (h : Chunked payload) {c : WireRun} (hinv : RunInv digest payload senderId c)
    {k i : Nat} (hk : c.past[k]? = some (arrival, result))
    (hown : OwnFrame (frameTexts digest payload) senderId arrival.call i) :
    (AllArrived (frameTexts digest payload) senderId (c.past.take k) → result = .replay) ∧
    (¬AllArrived (frameTexts digest payload) senderId (c.past.take k) →
      AllArrived (frameTexts digest payload) senderId (c.past.take (k + 1)) →
      result = .complete payload (stringify payload)) ∧
    (¬AllArrived (frameTexts digest payload) senderId (c.past.take (k + 1)) →
      result = .incomplete) := by
  obtain ⟨S, hS, houtcome⟩ := hinv.answers k arrival result i hk hown
  have hnext : c.past.take (k + 1) = c.past.take k ++ [(arrival, result)] := by
    rw [take_add_one, hk]
    rfl
  have hS' : Indices digest payload senderId (c.past.take (k + 1)) (insert i S) := by
    rw [hnext]
    exact hS.snoc_own h hown
  have hbefore := hS.eq_range_iff h
  have hafter := hS'.eq_range_iff h
  have hgrow : S = Finset.range (frameCount payload) →
      insert i S = Finset.range (frameCount payload) := by
    rintro rfl
    exact Finset.insert_eq_self.mpr (Finset.mem_range.mpr (hown.spec h).1)
  cases houtcome with
  | incomplete hne =>
    refine ⟨fun hall => absurd (hgrow (hbefore.mpr hall)) hne,
      fun _ hall => absurd (hafter.mpr hall) hne, fun _ => rfl⟩
  | complete hne heq =>
    exact ⟨fun hall => absurd (hbefore.mpr hall) hne, fun _ _ => rfl,
      fun hnot => absurd (hafter.mp heq) hnot⟩
  | replay heq =>
    exact ⟨fun _ => rfl, fun hnot => absurd (hbefore.mp heq) hnot,
      fun hnot => absurd (hafter.mp (hgrow heq)) hnot⟩

/-- Once all frames are there, one call was the one that brought the last. -/
theorem exists_last (h : Chunked payload)
    (hall : AllArrived (frameTexts digest payload) senderId past) :
    ∃ k arrival result i, past[k]? = some (arrival, result) ∧
      OwnFrame (frameTexts digest payload) senderId arrival.call i ∧
      ¬AllArrived (frameTexts digest payload) senderId (past.take k) ∧
      AllArrived (frameTexts digest payload) senderId (past.take (k + 1)) := by
  classical
  have hex : ∃ m, AllArrived (frameTexts digest payload) senderId (past.take m) :=
    ⟨past.length, by rwa [take_length]⟩
  obtain ⟨hcount, _⟩ := h.frameCount_bounds
  have hzero : Nat.find hex ≠ 0 := by
    intro hfind
    have hnil := Nat.find_spec hex
    rw [hfind, take_zero] at hnil
    obtain ⟨e, he, _⟩ := hnil 0 (by rw [length_frameTexts]; omega)
    cases he
  obtain ⟨k, hk⟩ := Nat.exists_eq_succ_of_ne_zero hzero
  have hbefore : ¬AllArrived (frameTexts digest payload) senderId (past.take k) :=
    Nat.find_min hex (by omega)
  have hafter : AllArrived (frameTexts digest payload) senderId (past.take (k + 1)) := by
    have := Nat.find_spec hex
    rwa [hk] at this
  cases hget : past[k]? with
  | none =>
    rw [take_add_one, hget] at hafter
    exact absurd (by simpa using hafter) hbefore
  | some e =>
    obtain ⟨arrival, result⟩ := e
    have hnext : past.take (k + 1) = past.take k ++ [(arrival, result)] := by
      rw [take_add_one, hget]
      rfl
    obtain ⟨i, hi⟩ := not_forall.mp hbefore
    obtain ⟨hlt, hmissing⟩ := Classical.not_imp.mp hi
    have hnew := hafter i hlt
    rw [hnext, arrived_append] at hnew
    exact ⟨k, arrival, result, i, hget, hnew.resolve_left hmissing, hbefore, hafter⟩

end Run

/-- The delivery theorem.  Every call that carries a frame of the message
answers by what had arrived; and once all frames have arrived, exactly the call
that brought the last missing one completed the message, with the payload its
own text parses to. -/
theorem wire_roundtrip (digest : List UInt8 → JsString) (payload : Json) (senderId : JsString)
    (hd : HexDigest digest) (h : Chunked payload) (hsender : boundedId senderId = true) :
    ∃ frames, encodeDiscussionWire digest payload = .ok frames ∧
      (∀ frame ∈ frames, byteLength frame ≤ WIRE_BYTE_LIMIT) ∧
      ∀ c : WireRun,
        Reach (deliver digest) (Allowed digest payload senderId) (start {}) c →
        (∀ k arrival result i, c.past[k]? = some (arrival, result) →
          OwnFrame frames senderId arrival.call i →
          ¬AllArrived frames senderId (c.past.take (k + 1)) → result = .incomplete) ∧
        (AllArrived frames senderId c.past →
          ∃ k arrival i payload', c.past[k]? = some (arrival, .complete payload' (stringify payload)) ∧
            parse (stringify payload) = some payload' ∧
            OwnFrame frames senderId arrival.call i ∧
            ¬AllArrived frames senderId (c.past.take k) ∧
            AllArrived frames senderId (c.past.take (k + 1)) ∧
            ∀ k' arrival' result' i', c.past[k']? = some (arrival', result') →
              OwnFrame frames senderId arrival'.call i' →
              (k' < k → result' = .incomplete) ∧ (k < k' → result' = .replay)) := by
  refine ⟨frameTexts digest payload, encode_ok hd h,
    fun frame hframe => frameTexts_byteLength_le hd h hframe, fun c hrun => ?_⟩
  have hinv := runInv_reach hd h hsender hrun
  refine ⟨fun k arrival result i hk hown hnot => (hinv.answer h hk hown).2.2 hnot, fun hall => ?_⟩
  obtain ⟨k, arrival, result, i, hk, hown, hbefore, hafter⟩ := exists_last h hall
  have hresult := (hinv.answer h hk hown).2.1 hbefore hafter
  refine ⟨k, arrival, i, payload, by rw [← hresult]; exact hk,
    Json.parse_stringify payload h.distinct, hown, hbefore, hafter, ?_⟩
  intro k' arrival' result' i' hk' hown'
  have htake : ∀ {m n : Nat}, m ≤ n → ∀ e ∈ c.past.take m, e ∈ c.past.take n := by
    intro m n hmn e he
    exact (take_prefix_take_left hmn).subset he
  constructor
  · intro hlt
    exact (hinv.answer h hk' hown').2.2 fun hall' => hbefore (hall'.mono (htake hlt))
  · intro hgt
    exact (hinv.answer h hk' hown').1 (hafter.mono (htake hgt))

/-! ## Prompt delivery -/

section Prompt

variable {digest : List UInt8 → JsString} {payload : Json} {senderId : JsString}

variable {first last : Int} {n : Nat}

theorem room_of_within (hn : n < MAX_INFLIGHT_MESSAGES) {r : Reassembler}
    (h : Within r first last n n n) (i : Nat) :
    Room digest payload senderId r (chunkBytes (wholeBytes payload) i).length := by
  have hmessages : MAX_INFLIGHT_MESSAGES = 64 := rfl
  refine ⟨fun _ _ => Nat.lt_of_le_of_lt h.inflight hn, fun _ => ?_, fun _ => ?_⟩
  · have hbytes := h.inflightBytes
    have hchunk := length_chunkBytes_le (wholeBytes payload) i
    rw [RAW_CHUNK_BYTES] at hbytes hchunk
    rw [MAX_INFLIGHT_BYTES]
    omega
  · have := h.completed
    rw [MAX_COMPLETED]
    omega

theorem allowed_of_within (httl : last < first + DEFAULT_TTL_MS) (hn : n < MAX_INFLIGHT_MESSAGES)
    {c : WireRun} (h : Within c.state first last n n n) {arrival : Arrival}
    (hlast : arrival.now ≤ last)
    (hcall : (∃ i, OwnFrame (frameTexts digest payload) senderId arrival.call i) ∨ Foreign senderId (wireMessageId (digest (wholeBytes payload))) arrival.call) :
    Allowed digest payload senderId c arrival := by
  refine ⟨⟨fun message hget => ?_, fun done hget => ?_⟩, ?_⟩
  · have := h.partialExpires _ message hget
    omega
  · have := h.completedExpires _ done hget
    omega
  · exact hcall.imp_left fun ⟨i, hown⟩ => ⟨i, hown, room_of_within hn (h.cleanup arrival.now) i⟩

/-- Up to 64 calls inside one TTL meet the conditions of the delivery theorem. -/
theorem prompt_allowed (httl : last < first + DEFAULT_TTL_MS) {c : WireRun}
    (h : Within c.state first last n n n) {arrivals : List Arrival}
    (hlength : n + arrivals.length ≤ MAX_INFLIGHT_MESSAGES)
    (hclock : ∀ a ∈ arrivals, first ≤ a.now ∧ a.now ≤ last)
    (hcall : ∀ a ∈ arrivals, (∃ i, OwnFrame (frameTexts digest payload) senderId a.call i) ∨ Foreign senderId (wireMessageId (digest (wholeBytes payload))) a.call) :
    Reach (deliver digest) (Allowed digest payload senderId) c
      (exec (deliver digest) c arrivals) := by
  induction arrivals generalizing c n with
  | nil => exact Reach.refl c
  | cons arrival rest ih =>
    rw [length_cons] at hlength
    obtain ⟨hfirst, hlast⟩ := hclock arrival (mem_cons_self ..)
    have hallowed : Allowed digest payload senderId c arrival :=
      allowed_of_within httl (by omega) h hlast (hcall arrival (mem_cons_self ..))
    have hnext : Within (deliver digest c.state arrival).2 first last (n + 1) (n + 1) (n + 1) :=
      h.deliver hfirst hlast
    refine Reach.trans (Reach.tail (Reach.refl c) arrival hallowed) ?_
    exact ih hnext (by omega) (fun a ha => hclock a (mem_cons_of_mem _ ha))
      fun a ha => hcall a (mem_cons_of_mem _ ha)

end Prompt

/-! ## Forgetting -/

section Forget

variable {digest : List UInt8 → JsString} {payload : Json} {senderId : JsString}

variable {r : Reassembler} {S : Finset Nat}

/-- A frame of the message, taken in a state of little content. -/
theorem deliver_within (hd : HexDigest digest) (h : Chunked payload)
    (hsender : boundedId senderId = true) (hlive : r.disposed = false) {arrival : Arrival}
    {i n : Nat} {first last : Int}
    (hown : OwnFrame (frameTexts digest payload) senderId arrival.call i)
    (hn : n < MAX_INFLIGHT_MESSAGES) (hwithin : Within r first last n n n)
    (hclean : Progress digest payload senderId (r.cleanup arrival.now) S) :
    Outcome payload S i (deliver digest r arrival).1 ∧
      Progress digest payload senderId (deliver digest r arrival).2 (insert i S) ∧
      (deliver digest r arrival).2.disposed = false := by
  obtain ⟨houtcome, hprogress, hdisposed⟩ := acceptFrame_own hd h hsender (hown.spec h).1 hclean
    (room_of_within hn (hwithin.cleanup arrival.now) i)
  rw [deliver_own hd h hlive hown]
  exact ⟨houtcome, hprogress, hdisposed.trans hlive⟩

theorem progress_complete (h : Progress digest payload senderId r S)
    (hS : S = Finset.range (frameCount payload)) (hne : S ≠ ∅) :
    r.partials.get? (ownKey digest payload senderId) = none := by
  cases h with
  | fresh hempty _ _ => exact absurd hempty hne
  | collecting _ hsub _ _ => exact absurd hS hsub.ne
  | complete _ _ _ _ hpartials => exact hpartials

/-- A message of two frames completes, and a copy of its first frame one TTL
later is taken for the start of a new message. -/
theorem forgotten_after_ttl (hd : HexDigest digest) (h : Chunked payload)
    (hsender : boundedId senderId = true) (htwo : frameCount payload = 2)
    {a₀ a₁ a₂ : Arrival} (h₀ : OwnFrame (frameTexts digest payload) senderId a₀.call 0)
    (h₁ : OwnFrame (frameTexts digest payload) senderId a₁.call 1)
    (h₂ : OwnFrame (frameTexts digest payload) senderId a₂.call 0)
    (hnow₁ : a₁.now = a₀.now) (hnow₂ : a₂.now = a₀.now + DEFAULT_TTL_MS) :
    let step₀ := deliver digest {} a₀
    let step₁ := deliver digest step₀.2 a₁
    let step₂ := deliver digest step₁.2 a₂
    step₀.1 = .incomplete ∧ step₁.1 = .complete payload (stringify payload) ∧
      step₁.2.partials.get? (ownKey digest payload senderId) = none ∧ step₂.1 = .incomplete := by
  have hsets : (∅ : Finset Nat) ≠ Finset.range (frameCount payload) ∧
      insert 0 (∅ : Finset Nat) ≠ Finset.range (frameCount payload) ∧
      insert 1 (insert 0 (∅ : Finset Nat)) = Finset.range (frameCount payload) := by
    rw [htwo]
    decide
  obtain ⟨hempty, hone, hall⟩ := hsets
  have httl : (0 : Int) < DEFAULT_TTL_MS := by decide
  intro step₀ step₁ step₂
  -- The first frame opens the message.
  have hw₀ : Within step₀.2 a₀.now a₀.now 1 1 1 :=
    (within_empty a₀.now a₀.now).deliver (Int.le_refl _) (Int.le_refl _)
  obtain ⟨ho₀, hp₀, hl₀⟩ : Outcome payload ∅ 0 step₀.1 ∧
      Progress digest payload senderId step₀.2 (insert 0 ∅) ∧ step₀.2.disposed = false :=
    deliver_within hd h hsender rfl h₀ (by decide) (within_empty a₀.now a₀.now)
      (progress_empty a₀.now)
  have hu₀ : Unexpired digest payload senderId step₀.2 a₁.now := by
    refine ⟨fun message hget => ?_, fun done hget => ?_⟩
    · have := hw₀.partialExpires _ message hget
      omega
    · have := (hw₀.completedExpires _ done hget).1
      omega
  -- The second completes it.
  have hw₁ : Within step₁.2 a₀.now a₀.now 2 2 2 :=
    hw₀.deliver (Int.le_of_eq hnow₁.symm) (Int.le_of_eq hnow₁)
  obtain ⟨ho₁, hp₁, hl₁⟩ : Outcome payload (insert 0 ∅) 1 step₁.1 ∧
      Progress digest payload senderId step₁.2 (insert 1 (insert 0 ∅)) ∧
      step₁.2.disposed = false :=
    deliver_within hd h hsender hl₀ h₁ (by decide) hw₀ (hp₀.of_agree (agree_cleanup hu₀))
  have hpartial := progress_complete hp₁ hall (Finset.insert_ne_empty _ _)
  -- One TTL later nothing is left of it.
  have hp₂ : Progress digest payload senderId (step₁.2.cleanup a₂.now) ∅ := by
    refine .fresh rfl ?_ ?_
    · rw [Reassembler.cleanup_get?_completed, Option.filter_eq_none_iff]
      intro done hget
      have := (hw₁.completedExpires _ done hget).2
      simp
      omega
    · rw [Reassembler.cleanup_get?_partials, hpartial]
      rfl
  obtain ⟨ho₂, _, _⟩ : Outcome payload ∅ 0 step₂.1 ∧
      Progress digest payload senderId step₂.2 (insert 0 ∅) ∧ step₂.2.disposed = false :=
    deliver_within hd h hsender hl₁ h₂ (by decide) hw₁ hp₂
  exact ⟨ho₀.incomplete_of hempty hone, ho₁.complete_of hone hall, hpartial,
    ho₂.incomplete_of hempty hone⟩

/-- A sender id that is no bounded id gets no frame accepted. -/
theorem deliver_unbounded (h : boundedId senderId = false) (hp : Chunked payload) (i : Nat)
    (now : Int) (r : Reassembler) :
    (deliver digest r ⟨now, .text senderId (stringify (frameOf digest payload i))⟩).1 =
      .invalid := by
  have hwire : isWireFrame (frameOf digest payload i) = true := isWireFrame_frameValue ..
  have hframe : ∀ value bytes, validFrame Limits.default senderId value bytes = none := by
    intro value bytes
    rw [validFrame, h]
    rfl
  rw [deliver]
  dsimp only
  rw [acceptSerialized]
  split
  · rfl
  · rw [parse_frameOf hp i]
    dsimp only
    rw [hwire]
    split
    · next hnot => cases hnot
    · split
      · rfl
      · rw [acceptFrame, hframe]

end Forget

/-! ## A record of two frames -/

/-- A record with one text field. -/
def contentPayload (content : JsString) : Json := .obj [(js "content", .str content)]

variable {content : JsString}

theorem contentPayload_byteLength (h : ∀ u ∈ content, Json.Plain u) :
    byteLength (stringify (contentPayload content)) = content.length + 14 := by
  have hkey : byteLength (Json.quote (js "content")) = 9 := by decide
  have hvalue : byteLength (stringify (.str content)) = content.length + 2 := by
    rw [stringify, Json.byteLength_quote_plain h]
  rw [contentPayload, Json.byteLength_stringify_obj (cons_ne_nil _ _),
    Json.fieldsBytes_cons, Json.fieldsBytes_nil, hkey, hvalue]
  omega

theorem contentPayload_chunked (h : ∀ u ∈ content, Json.Plain u) (hlo : 8987 ≤ content.length)
    (hhi : content.length ≤ 8388594) :
    Chunked (contentPayload content) where
  object := rfl
  distinct := ⟨nodup_singleton _, trivial, trivial⟩
  version := .inl rfl
  lower := by rw [contentPayload_byteLength h, WIRE_BYTE_LIMIT]; omega
  upper := by rw [contentPayload_byteLength h, MAX_MESSAGE_BYTES]; omega

/-- 9000 letters: a record of 9014 bytes. -/
def twoFramePayload : Json := contentPayload (List.replicate 9000 0x78)

/-- SHA-256 where it is used on that record. -/
def twoFrameDigest (_ : List UInt8) : JsString :=
  js "4f5f8ca2459eb755c4f4bda03d8d331914641aff8442504a0796da67206e64bb"

theorem twoFrameDigest_hex : HexDigest twoFrameDigest := by
  intro bytes
  rw [twoFrameDigest]
  decide

theorem letters_plain (n : Nat) : ∀ u ∈ replicate n (0x78 : UInt16), Json.Plain u := by
  intro u hu
  rw [eq_of_mem_replicate hu]
  decide

theorem twoFramePayload_chunked : Chunked twoFramePayload := by
  have hlen : (replicate 9000 (0x78 : UInt16)).length = 9000 := length_replicate
  exact contentPayload_chunked (letters_plain 9000) (by omega) (by omega)

theorem twoFramePayload_frameCount : frameCount twoFramePayload = 2 := by
  have hbytes : byteLength (stringify twoFramePayload) = 9014 := by
    rw [twoFramePayload, contentPayload_byteLength (letters_plain 9000), length_replicate]
  rw [frameCount, length_wholeBytes, hbytes]
  rfl

/-- The sender hands frame `i` over as text. -/
def twoFrameArrival (now : Int) (i : Nat) : Arrival :=
  ⟨now, .text (js "node") (stringify (frameOf twoFrameDigest twoFramePayload i))⟩

@[simp] theorem twoFrameArrival_now (now : Int) (i : Nat) : (twoFrameArrival now i).now = now := rfl

theorem twoFrameArrival_own (now : Int) {i : Nat} (hi : i < 2) :
    OwnFrame (frameTexts twoFrameDigest twoFramePayload) (js "node") (twoFrameArrival now i).call i :=
  .text (frameTexts_getElem? (by rwa [twoFramePayload_frameCount]))

/-- The last frame, the first one, and the last one again. -/
def twoFrameArrivals : List Arrival :=
  [twoFrameArrival 0 1, twoFrameArrival 1 0, twoFrameArrival 2 1]

theorem twoFrameArrivals_prompt : ∀ a ∈ twoFrameArrivals, (0 ≤ a.now ∧ a.now ≤ 2) ∧
    ∃ i, OwnFrame (frameTexts twoFrameDigest twoFramePayload) (js "node") a.call i := by
  intro a ha
  simp only [twoFrameArrivals, mem_cons, not_mem_nil, or_false] at ha
  rcases ha with rfl | rfl | rfl
  · exact ⟨by simp, 1, twoFrameArrival_own 0 (by omega)⟩
  · exact ⟨by simp, 0, twoFrameArrival_own 1 (by omega)⟩
  · exact ⟨by simp, 1, twoFrameArrival_own 2 (by omega)⟩

theorem twoFrameArrivals_all : AllArrived (frameTexts twoFrameDigest twoFramePayload) (js "node")
    (exec (deliver twoFrameDigest) (start {}) twoFrameArrivals).past := by
  intro i hi
  rw [length_frameTexts, twoFramePayload_frameCount] at hi
  have hmem : twoFrameArrival (if i = 0 then 1 else 0) i ∈ twoFrameArrivals := by
    have hcases : i = 0 ∨ i = 1 := by omega
    rcases hcases with rfl | rfl <;> simp [twoFrameArrivals]
  have hpast : ∃ e ∈ (exec (deliver twoFrameDigest) (start {}) twoFrameArrivals).past,
      e.1 = twoFrameArrival (if i = 0 then 1 else 0) i := mem_exec_past (.inl hmem)
  obtain ⟨e, he, heq⟩ := hpast
  exact ⟨e, he, by rw [heq]; exact twoFrameArrival_own _ hi⟩

theorem wire_roundtrip_two_frames :
    ∃ (k : Nat) (arrival : Arrival),
      (exec (deliver twoFrameDigest) (start {}) twoFrameArrivals).past[k]? =
        some (arrival, DiscussionWireResult.complete twoFramePayload
          (stringify twoFramePayload)) := by
  obtain ⟨frames, hencode, _, hruns⟩ := wire_roundtrip twoFrameDigest twoFramePayload (js "node")
    twoFrameDigest_hex twoFramePayload_chunked (by decide)
  rw [encode_ok twoFrameDigest_hex twoFramePayload_chunked, Except.ok.injEq] at hencode
  subst hencode
  have hstart : Within (start {} : WireRun).state 0 2 0 0 0 := within_empty 0 2
  have hrun := prompt_allowed (by decide) hstart (by decide)
    (fun a ha => (twoFrameArrivals_prompt a ha).1)
    fun a ha => .inl (twoFrameArrivals_prompt a ha).2
  obtain ⟨k, arrival, i, payload', hk, hparse, _⟩ := (hruns _ hrun).2 twoFrameArrivals_all
  rw [Json.parse_stringify _ twoFramePayload_chunked.distinct, Option.some.injEq] at hparse
  subst hparse
  exact ⟨k, arrival, hk⟩

/-- Ten minutes after it completed, a copy of the first frame is `incomplete`
and not `replay`, although no partial message was there to expire; and an empty
sender id gets no frame accepted. -/
theorem replay_forgotten :
    encodeDiscussionWire twoFrameDigest twoFramePayload =
      .ok (frameTexts twoFrameDigest twoFramePayload) ∧
    (let step₀ := deliver twoFrameDigest {} (twoFrameArrival 0 0)
    let step₁ := deliver twoFrameDigest step₀.2 (twoFrameArrival 0 1)
    let step₂ := deliver twoFrameDigest step₁.2 (twoFrameArrival (0 + DEFAULT_TTL_MS) 0)
    step₀.1 = .incomplete ∧
      step₁.1 = .complete twoFramePayload (stringify twoFramePayload) ∧
      step₁.2.partials.get? (ownKey twoFrameDigest twoFramePayload (js "node")) = none ∧
      step₂.1 = .incomplete) ∧
    (deliver twoFrameDigest {}
      ⟨0, .text [] (stringify (frameOf twoFrameDigest twoFramePayload 0))⟩).1 = .invalid := by
  have hencode := encode_ok twoFrameDigest_hex twoFramePayload_chunked
  have hforgotten := forgotten_after_ttl twoFrameDigest_hex twoFramePayload_chunked (by decide)
    twoFramePayload_frameCount (twoFrameArrival_own 0 Nat.zero_lt_two)
    (twoFrameArrival_own 0 Nat.one_lt_two)
    (twoFrameArrival_own (0 + DEFAULT_TTL_MS) Nat.zero_lt_two) rfl rfl
  have hunbounded : boundedId [] = false := by decide
  refine ⟨hencode, hforgotten, ?_⟩
  exact deliver_unbounded hunbounded twoFramePayload_chunked 0 0 {}

end ClawMessenger.Ports.DiscussionWire
