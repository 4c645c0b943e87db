import ClawMessenger.Ports.SessionStoreInvariant

/-!
# What finished discussions give back

A finished request is dropped when the next one is reserved.  The room and the
head of its discussion are not: rooms keep ordinary routing away from a
discussion's room, heads turn replays away, and both maps hold 2048 entries.
With room left in them and in the file a fresh discussion is always taken
(`fresh_discussion_reserved`); after 2048 rooms no new one is (`rooms_fill_up`).
-/

namespace ClawMessenger.Ports.SessionStore

open Verified Verified.Machine Verified.JsString List

open Conversation Dedup

variable {state : RouterState} {now : Nat}

/-! ## Sizes after pruning -/

theorem RouterState.Valid.sizes (h : state.Valid) :
    state.collectionSizes = true ∧ state.runtimeSizes = true := by
  obtain ⟨_, ⟨_, _, hcollections⟩, hruntimes, _⟩ := validateState_eq_ok h
  exact ⟨hcollections, hruntimes⟩

/-- Pruning only shortens the deduplication table. -/
theorem RouterState.Valid.pruned_sizes (h : state.Valid) (now : Nat) :
    (state.pruned now).collectionSizes = true ∧ (state.pruned now).runtimeSizes = true := by
  obtain ⟨hcollections, hruntimes⟩ := h.sizes
  have hsub : (pruneDedup state.dedup now).Sublist state.dedup := filter_sublist
  simp only [RouterState.collectionSizes, RouterState.runtimeSizes, Bool.and_eq_true,
    decide_eq_true_eq, all_eq_true, countByRuntime] at hcollections hruntimes ⊢
  constructor
  · exact ⟨⟨⟨⟨⟨hcollections.1.1.1.1.1, hsub.length_le.trans hcollections.1.1.1.1.2⟩,
      hcollections.1.1.1.2⟩, hcollections.1.1.2⟩, hcollections.1.2⟩, hcollections.2⟩
  · refine ⟨hruntimes.1, fun id hid => ?_⟩
    have hsubIds := hsub.map DedupEntry.runtimeId
    have hcount := of_decide_eq_true (hruntimes.2 id (hsubIds.subset hid))
    exact decide_eq_true ((hsubIds.count_le id).trans hcount)

theorem size_set_le {α : Type} (m : OrderedMap JsString α) (key : JsString) (value : α) :
    (m.set key value).size ≤ m.size + 1 := by
  rw [OrderedMap.size_set]
  split <;> omega

/-! ## A fresh discussion -/

/-- Every request is terminal and past its expiry. -/
def RouterState.Finished (state : RouterState) (now : Int) : Prop :=
  ∀ entry ∈ state.interactiveRequests, entry.status = .terminal ∧ (entry.expiresAt : Int) ≤ now

theorem RouterState.Finished.retaining_nil (h : state.Finished now) :
    (state.retaining now).interactiveRequests = [] := by
  rw [RouterState.retaining, filter_eq_nil_iff]
  intro entry hentry
  obtain ⟨hterminal, hexpired⟩ := h entry hentry
  simp [retained, hterminal]
  omega

/-- The state with the room of a discussion. -/
def RouterState.withRoom (state : RouterState) (identity : BindingIdentity)
    (roomId discussionId : JsString) : RouterState :=
  { state with
    interactiveRooms := state.interactiveRooms.set
      (interactiveSessionKey identity.runtimeId identity.nodeId (js "chatroom") roomId)
      discussionId }

/-- What `rememberInteractiveRoom` and then `reserveInteractive` have to write. -/
def roomWritten (state : RouterState) (time : Nat) (identity : BindingIdentity)
    (roomId discussionId : JsString) : RouterState :=
  (state.pruned time).withRoom identity roomId discussionId

def requestWritten (state : RouterState) (time : Nat) (record : InteractiveRequest) :
    RouterState :=
  ((state.pruned time).retaining time).pushRequest record

variable {identity : BindingIdentity} {roomId discussionId : JsString}

theorem rememberInteractiveRoom_fresh
    (hfresh : state.interactiveRooms.get? (interactiveSessionKey identity.runtimeId identity.nodeId (js "chatroom") roomId) = none)
    (hdiscussion : identifier 256 discussionId = true) :
    rememberInteractiveRoom identity roomId discussionId state =
      .ok ⟨true, (), state.withRoom identity roomId discussionId⟩ := by
  unfold rememberInteractiveRoom
  dsimp only
  rw [hfresh]
  rw [if_pos hdiscussion]
  rfl

variable {record : InteractiveRequest}

theorem reserveInteractive_fresh (hrecord : record.schema = true) (hfinished : state.Finished now)
    (hhead : state.interactiveHeads.get? record.sessionKey = none)
    (hexpires : now < record.expiresAt) :
    reserveInteractive record state now =
      .ok ⟨true, some record, (state.retaining now).pushRequest record⟩ := by
  have hnil := hfinished.retaining_nil
  have hfind : findRequest (state.retaining now) record.key = none := by
    rw [findRequest, hnil]
    rfl
  have hbusy : sessionBusy (state.retaining now) record = false := by
    rw [sessionBusy, hnil]
    simp
  have hlength : ¬(state.retaining now).interactiveRequests.length ≥ MAX_INTERACTIVE := by
    rw [hnil]
    decide
  rw [reserveInteractive_eq hrecord, hfind, hhead, Option.elim_none]
  have hrefused : ¬(record.expiresAt ≤ now ∨
      (state.retaining now).interactiveRequests.length ≥ MAX_INTERACTIVE ∨
      sessionBusy (state.retaining now) record = true) := by
    rw [hbusy]
    rintro (h | h | h)
    · omega
    · exact hlength h
    · cases h
  simp only [Option.any_none, Bool.false_eq_true, if_false, and_false]
  rw [if_neg hrefused]
  rfl

variable {time : Nat}

/-- A changed and sound candidate within the capacities is written. -/
theorem mutate_writes {store : Store} {op : StoreOp} (call : StoreCall)
    {t : Transition StoreAnswer} (hinv : store.Inv) (hinit : store.initialized = true)
    (htime : checkTime call.now = .ok time) (hwrite : call.writeOk = true)
    (ht : op.transition (store.persisted.pruned time) time = .ok t) (hchanged : t.changed = true)
    (hvalid : t.state.Valid) (hbytes : serializedBytes t.state ≤ MAX_STATE_BYTES) :
    store.mutate op call.now call.writeOk =
      (.ok t.value, { store with memory := t.state, disk := some (.current t.state) }) := by
  have hplan : plan op store.persisted time = .ok (t.value, some t.state) := by
    have hvalid' : validateState t.state = .ok t.state := hvalid
    rw [plan, ht]
    dsimp only [bind, Except.bind]
    rw [hchanged, Bool.true_or, Bool.not_true, if_neg Bool.false_ne_true, hvalid']
    dsimp only
    rw [if_neg (Nat.not_lt.mpr hbytes)]
    rfl
  rw [Store.mutate, hinit, Bool.not_true, if_neg Bool.false_ne_true, htime, hinv.agree hinit]
  dsimp only
  rw [hplan]
  dsimp only
  rw [if_pos hwrite]

/-- What a fresh discussion needs: nothing seen of it yet, a record that is
still good, and room in both maps. -/
structure FreshDiscussion (state : RouterState) (identity : BindingIdentity) (roomId : JsString)
    (record : InteractiveRequest) : Prop where
  room : state.interactiveRooms.get?
    (interactiveSessionKey identity.runtimeId identity.nodeId (js "chatroom") roomId) = none
  head : state.interactiveHeads.get? record.sessionKey = none
  roomsLeft : state.interactiveRooms.size < MAX_INTERACTIVE
  headsLeft : state.interactiveHeads.size < MAX_INTERACTIVE

theorem roomWritten_valid (h : state.Valid)
    (hsound : (roomWritten state time identity roomId discussionId).Sound)
    (hleft : state.interactiveRooms.size < MAX_INTERACTIVE) :
    (roomWritten state time identity roomId discussionId).Valid := by
  obtain ⟨hcollections, hruntimes⟩ := h.pruned_sizes time
  apply hsound.valid
  · simp only [RouterState.collectionSizes, Bool.and_eq_true, decide_eq_true_eq] at hcollections ⊢
    refine ⟨hcollections.1, ?_⟩
    have hsize := size_set_le state.interactiveRooms
      (interactiveSessionKey identity.runtimeId identity.nodeId (js "chatroom") roomId) discussionId
    exact hsize.trans hleft
  · exact hruntimes

theorem requestWritten_valid (h : state.Valid) (hsound : (requestWritten state time record).Sound)
    (hfinished : state.Finished time) (hleft : state.interactiveHeads.size < MAX_INTERACTIVE) :
    (requestWritten state time record).Valid := by
  obtain ⟨hcollections, hruntimes⟩ := h.pruned_sizes time
  apply hsound.valid
  · have hfinished' : (state.pruned time).Finished time := hfinished
    have hnil := hfinished'.retaining_nil
    have hone : (requestWritten state time record).interactiveRequests.length ≤ MAX_INTERACTIVE := by
      rw [requestWritten, RouterState.pushRequest, hnil]
      show 1 ≤ MAX_INTERACTIVE
      decide
    have hheads : (requestWritten state time record).interactiveHeads.size ≤ MAX_INTERACTIVE := by
      unfold requestWritten RouterState.pushRequest
      split
      · exact (size_set_le _ _ _).trans hleft
      · exact Nat.le_of_lt hleft
    simp only [RouterState.collectionSizes, Bool.and_eq_true, decide_eq_true_eq] at hcollections ⊢
    exact ⟨⟨⟨⟨⟨hcollections.1.1.1.1.1, hcollections.1.1.1.1.2⟩, hone⟩, hcollections.1.1.2⟩, hheads⟩,
      hcollections.2⟩
  · exact hruntimes

/-- Where every request is over, a fresh discussion gets its room and its
reservation as long as fewer than 2048 rooms and heads are kept and the file
stays within its size. -/
theorem fresh_discussion_reserved {c : StoreRun}
    (h : Reach Store.call Disciplined (start Store.fresh) c)
    (hinit : c.state.initialized = true) {identity : BindingIdentity} {roomId : JsString}
    {record : InteractiveRequest} {call call' : StoreCall}
    (hcall : Disciplined c call) (hcall' : Disciplined (advance Store.call c call) call')
    (hop : call.input = .op (.rememberInteractiveRoom identity roomId record.discussionId))
    (hop' : call'.input = .op (.reserveInteractive record))
    (hwrite : call.writeOk = true) (hwrite' : call'.writeOk = true)
    (hfinished : c.state.persisted.Finished call.now)
    (hfresh : FreshDiscussion c.state.persisted identity roomId record)
    (hexpires : call'.now < record.expiresAt)
    (hbytes : serializedBytes (roomWritten c.state.persisted call.now.toNat identity roomId
      record.discussionId) ≤ MAX_STATE_BYTES)
    (hbytes' : serializedBytes (requestWritten
      (roomWritten c.state.persisted call.now.toNat identity roomId record.discussionId)
      call'.now.toNat record) ≤ MAX_STATE_BYTES) :
    (c.state.call call).1 = .ok .done ∧
      Grants (advance Store.call c call).state call' record := by
  have hkept := wellKept_of_reach h
  obtain ⟨htime, _, hnow⟩ := hcall.checkTime
  obtain ⟨htime', _, hnow'⟩ := hcall'.checkTime
  have hdiscussion : identifier 256 record.discussionId = true := hcall.args _ hop
  -- The room is written.
  have ht : (StoreOp.rememberInteractiveRoom identity roomId record.discussionId).transition
      (c.state.persisted.pruned call.now.toNat) call.now.toNat =
      .ok ⟨true, .done, roomWritten c.state.persisted call.now.toNat identity roomId
        record.discussionId⟩ :=
    map_eq_ok.mpr ⟨_, rememberInteractiveRoom_fresh hfresh.room hdiscussion, rfl⟩
  have hsound := (store_invariant h hinit hcall hop).1 _ ht
  have hvalid := roomWritten_valid hkept.inv.valid hsound hfresh.roomsLeft
  have hfirst := mutate_writes call hkept.inv hinit htime hwrite ht rfl hvalid hbytes
  have hcalled : c.state.call call = (.ok .done, { c.state with
      memory := roomWritten c.state.persisted call.now.toNat identity roomId record.discussionId
      disk := some (.current (roomWritten c.state.persisted call.now.toNat identity roomId
        record.discussionId)) }) := by
    rw [Store.call, hop]
    exact hfirst
  refine ⟨by rw [hcalled], ?_⟩
  -- The request is written over it.
  have hkept' := hkept.step hcall
  have hpersisted : (advance Store.call c call).state.persisted =
      roomWritten c.state.persisted call.now.toNat identity roomId record.discussionId := by
    rw [advance_state, hcalled]
    rfl
  have hinit' : (advance Store.call c call).state.initialized = true := by
    rw [advance_state, hcalled]
    exact hinit
  have hle : call.now ≤ call'.now :=
    hcall'.ordered _ (mem_append_right _ (mem_singleton_self _))
  have hfinished' : (advance Store.call c call).state.persisted.Finished call'.now.toNat := by
    rw [hpersisted]
    intro entry hentry
    obtain ⟨hterminal, hexpired⟩ := hfinished entry hentry
    exact ⟨hterminal, by omega⟩
  have hhead : (advance Store.call c call).state.persisted.interactiveHeads.get?
      record.sessionKey = none := by
    rw [hpersisted]
    exact hfresh.head
  have hheads : (advance Store.call c call).state.persisted.interactiveHeads.size <
      MAX_INTERACTIVE := by
    rw [hpersisted]
    exact hfresh.headsLeft
  have hrecord := (hcall'.args _ hop').1
  have ht' : (StoreOp.reserveInteractive record).transition
      ((advance Store.call c call).state.persisted.pruned call'.now.toNat) call'.now.toNat =
      .ok ⟨true, .reservation (some record),
        requestWritten (advance Store.call c call).state.persisted call'.now.toNat record⟩ :=
    map_eq_ok.mpr ⟨_, reserveInteractive_fresh hrecord.schema hfinished' hhead (by omega), rfl⟩
  have hsound' := (store_invariant (h.tail call hcall) hinit' hcall' hop').1 _ ht'
  have hvalid' := requestWritten_valid hkept'.inv.valid hsound' hfinished' hheads
  rw [← hpersisted] at hbytes'
  have hsecond := mutate_writes call' hkept'.inv hinit' htime' hwrite' ht' rfl hvalid' hbytes'
  refine ⟨hop', ?_, fun hmem => ?_, ?_⟩
  · rw [Store.call, hop']
    exact congrArg Prod.fst hsecond
  · have hexpired := (hfinished' record hmem).2
    omega
  · have hstate : ((advance Store.call c call).state.call call').2.persisted =
        requestWritten (advance Store.call c call).state.persisted call'.now.toNat record := by
      rw [Store.call, hop']
      exact congrArg (fun r => r.2.persisted) hsecond
    rw [hstate]
    exact mem_append_right _ (mem_singleton_self _)

instance (state : RouterState) (now : Int) : Decidable (state.Finished now) :=
  inferInstanceAs (Decidable (∀ entry ∈ state.interactiveRequests, _ ∧ _))

/-- The request of the next discussion, `e` in room `f`. -/
def nextRequest : InteractiveRequest :=
  { sampleRequest (js "q") (js "task_2_1") 1 1 with
    key := requestKey sampleBinding.runtimeId (js "n") (js "s") (js "e") (js "q")
    sessionKey := interactiveSessionKey sampleBinding.runtimeId (js "n") (js "discussion") (js "e")
    discussionId := js "e"
    chatroomId := js "f"
    expiresAt := 30 }

theorem fresh_discussion_reserved_expired :
    let c := exec Store.call (start Store.fresh) finishedDiscussion
    let call : StoreCall :=
      ⟨20, true, true, .op (.rememberInteractiveRoom sampleBinding (js "f") (js "e"))⟩
    let call' : StoreCall := ⟨21, true, true, .op (.reserveInteractive nextRequest)⟩
    (∃ entry ∈ c.state.persisted.interactiveRequests,
      entry.status = .terminal ∧ (entry.expiresAt : Int) ≤ call.now) ∧
      (c.state.call call).1 = .ok .done ∧
      Grants (advance Store.call c call).state call' nextRequest := by
  intro c call call'
  have hfacts : AllAllowed Store.call Disciplined (start Store.fresh)
      (finishedDiscussion ++ [call, call']) ∧
      c.state.initialized = true ∧ c.state.persisted.Finished call.now ∧
      (∃ entry ∈ c.state.persisted.interactiveRequests,
        entry.status = .terminal ∧ (entry.expiresAt : Int) ≤ call.now) ∧
      c.state.persisted.interactiveRooms.get?
        (interactiveSessionKey sampleBinding.runtimeId (js "n") (js "chatroom") (js "f")) = none ∧
      c.state.persisted.interactiveHeads.get? nextRequest.sessionKey = none ∧
      c.state.persisted.interactiveRooms.size < MAX_INTERACTIVE ∧
      c.state.persisted.interactiveHeads.size < MAX_INTERACTIVE := by decide +kernel
  obtain ⟨hallowed, hinit, hfinished, hkept, hroom, hhead, hrooms, hheads⟩ := hfacts
  rw [allAllowed_append] at hallowed
  obtain ⟨hrun, hcall, hcall', -⟩ := hallowed
  refine ⟨hkept, ?_⟩
  exact fresh_discussion_reserved (reach_exec hrun) hinit hcall hcall' rfl rfl rfl rfl hfinished
    ⟨hroom, hhead, hrooms, hheads⟩ (by decide) (by decide +kernel) (by decide +kernel)

/-! ## Rooms fill up -/

/-- The `k`-th of a series of rooms: two printable units. -/
def roomName (k : Nat) : JsString :=
  [UInt16.ofNat (0x30 + k / 46), UInt16.ofNat (0x30 + k % 46)]

def roomKey (k : Nat) : JsString :=
  interactiveSessionKey sampleBinding.runtimeId sampleBinding.nodeId (js "chatroom") (roomName k)

/-- The rooms remembered after the first `n` of the series. -/
def roomsUpTo : Nat → OrderedMap JsString JsString
  | 0 => ∅
  | n + 1 => (roomsUpTo n).set (roomKey n) (js "d")

def roomState (n : Nat) : RouterState := { interactiveRooms := roomsUpTo n }

variable {n : Nat}

theorem toNat_ofNat_small (h : n < 0x7F) : (UInt16.ofNat n).toNat = n := by
  rw [UInt16.toNat_ofNat']
  omega

variable {k : Nat}

theorem roomName_printable (h : k < 2116) : Json.Printable (roomName k) := by
  intro u hu
  rcases mem_cons.mp hu with rfl | hu
  · rw [toNat_ofNat_small (by omega)]
    omega
  · rw [mem_singleton.mp hu, toNat_ofNat_small (by omega)]
    omega

theorem roomKey_injective {k' : Nat} (hk : k < 2116) (hk' : k' < 2116)
    (h : roomKey k = roomKey k') : k = k' := by
  obtain ⟨_, _, _, hname⟩ := interactiveSessionKey_injective h
  unfold roomName at hname
  simp only [cons.injEq, and_true] at hname
  have hhigh := congrArg UInt16.toNat hname.1
  have hlow := congrArg UInt16.toNat hname.2
  rw [toNat_ofNat_small (by omega), toNat_ofNat_small (by omega)] at hhigh hlow
  omega

theorem get?_roomsUpTo (hn : n ≤ 2048) (hk : k < 2116) :
    (roomsUpTo n).get? (roomKey k) = if k < n then some (js "d") else none := by
  induction n with
  | zero => rfl
  | succ n ih =>
    rw [roomsUpTo, OrderedMap.get?_set]
    by_cases heq : k = n
    · rw [heq, if_pos rfl, if_pos (Nat.lt_succ_self n)]
    · have hne : roomKey k ≠ roomKey n := fun h => heq (roomKey_injective hk (by omega) h)
      rw [if_neg hne, ih (by omega)]
      by_cases hlt : k < n
      · rw [if_pos hlt, if_pos (by omega)]
      · rw [if_neg hlt, if_neg (by omega)]

theorem size_roomsUpTo (hn : n ≤ 2048) : (roomsUpTo n).size = n := by
  induction n with
  | zero => rfl
  | succ n ih =>
    have hfresh : (roomsUpTo n).has (roomKey n) = false := by
      rw [OrderedMap.has_eq_false_iff, get?_roomsUpTo (by omega) (by omega),
        if_neg (Nat.lt_irrefl n)]
    rw [roomsUpTo, OrderedMap.size_set, hfresh, if_neg Bool.false_ne_true, ih (by omega)]

theorem mem_roomsUpTo {e : JsString × JsString} (h : e ∈ (roomsUpTo n).entries) :
    ∃ k < n, e = (roomKey k, js "d") := by
  induction n with
  | zero => exact (not_mem_nil h).elim
  | succ n ih =>
    rcases OrderedMap.mem_entries_set_iff.mp h with rfl | ⟨_, hold⟩
    · exact ⟨n, Nat.lt_succ_self n, rfl⟩
    · obtain ⟨k, hk, heq⟩ := ih hold
      exact ⟨k, by omega, heq⟩

/-! ### The file stays small -/

theorem roomKey_length (hk : k < 2116) : (roomKey k).length ≤ 300 := by
  have hname := (roomName_printable hk).hasControl
  have hbounded : boundedText (roomKey k) 300 = true := by
    apply Json.keyText_bounded
    · intro v hv
      have hruntime : hasControl sampleBinding.runtimeId = false := by decide
      have hnode : hasControl sampleBinding.nodeId = false := by decide
      have hkind : hasControl (js "chatroom") = false := by decide
      simp only [mem_cons, not_mem_nil, or_false] at hv
      rcases hv with rfl | rfl | rfl | rfl
      · exact hruntime
      · exact hnode
      · exact hkind
      · exact hname
    · have hruntime : sampleBinding.runtimeId.length = 35 := by decide
      have hnode : sampleBinding.nodeId.length = 1 := by decide
      have hkind : (js "chatroom").length = 8 := by decide
      have hlength : (roomName k).length = 2 := rfl
      simp only [map_cons, map_nil, sum_cons, sum_nil, Json.itemUnits]
      omega
  exact (identifier_spec hbounded).1

theorem roomsUpTo_bytes (hn : n ≤ 2048) :
    byteLength ((recordToJson Json.str (roomsUpTo n)).pretty 1) ≤ 1820 * n + 4 := by
  have hfields : Json.prettyFieldsBytes 1
      ((roomsUpTo n).entries.map fun e => (e.1, Json.str e.2)) ≤ 1820 * n := by
    have hsum := sum_le_card_nsmul
      (((roomsUpTo n).entries.map fun e => (e.1, Json.str e.2)).map fun f =>
        byteLength (Json.quote f.1) + byteLength (Json.pretty 2 f.2) + 8) 1820 (fun bytes hbytes => ?_)
    · rw [length_map, length_map, smul_eq_mul] at hsum
      have hsize : (roomsUpTo n).entries.length = n := size_roomsUpTo hn
      rw [hsize, Nat.mul_comm] at hsum
      exact hsum
    · obtain ⟨field, hfield, rfl⟩ := mem_map.mp hbytes
      obtain ⟨e, he, rfl⟩ := mem_map.mp hfield
      obtain ⟨k, hk, rfl⟩ := mem_roomsUpTo he
      have hkey := Json.byteLength_quote_le (roomKey k)
      have hlength := roomKey_length (k := k) (by omega)
      have hvalue : byteLength (Json.pretty 2 (.str (js "d"))) = 3 := by decide +kernel
      dsimp only
      omega
  unfold recordToJson
  by_cases hempty : ((roomsUpTo n).entries.map fun e => (e.1, Json.str e.2)) = []
  · rw [hempty]
    have hbraces : byteLength (Json.pretty 1 (.obj [])) = 2 := by decide +kernel
    omega
  · rw [Json.byteLength_pretty_obj hempty]
    omega

/-- Everything in the file but the rooms. -/
def otherFields : List (JsString × Json) :=
  [(js "schemaVersion", Json.ofNat 2), (js "sessions", .arr []), (js "dedup", .arr []),
    (js "interactiveRequests", .arr []), (js "interactiveSessions", .obj []),
    (js "interactiveHeads", .obj [])]

theorem roomState_bytes (hn : n ≤ 2048) :
    serializedBytes (roomState n) ≤ MAX_STATE_BYTES := by
  have hjson : (roomState n).toJson =
      .obj (otherFields ++ [(js "interactiveRooms", recordToJson Json.str (roomsUpTo n))]) := rfl
  have hother : Json.prettyFieldsBytes 0 otherFields ≤ 1000 := by decide +kernel
  have hrooms := roomsUpTo_bytes hn
  have hkey : byteLength (Json.quote (js "interactiveRooms")) = 18 := by decide +kernel
  have hline : byteLength [(0x0A : UInt16)] = 1 := by decide +kernel
  have hsplit : Json.prettyFieldsBytes 0
      (otherFields ++ [(js "interactiveRooms", recordToJson Json.str (roomsUpTo n))]) =
      Json.prettyFieldsBytes 0 otherFields +
        (byteLength (Json.quote (js "interactiveRooms")) +
          byteLength ((recordToJson Json.str (roomsUpTo n)).pretty 1) + 6) := by
    unfold Json.prettyFieldsBytes
    rw [map_append, sum_append, map_singleton, sum_singleton]
  rw [serializedBytes, byteLength_append _ _ (Json.pretty_sound 0 _).closed, hjson,
    Json.byteLength_pretty_obj (append_ne_nil_of_right_ne_nil _ (cons_ne_nil _ _)),
    hsplit, hline, hkey]
  have hmax : MAX_STATE_BYTES = 8388608 := rfl
  omega

/-! ### The run -/

def roomCall (k : Nat) : StoreCall :=
  ⟨0, true, true, .op (.rememberInteractiveRoom sampleBinding (roomName k) (js "d"))⟩

/-- A run that has remembered the first `n` rooms of the series. -/
structure RoomRun (n : Nat) (c : StoreRun) : Prop where
  reached : Reach Store.call Disciplined (start Store.fresh) c
  initialized : c.state.initialized = true
  persisted : c.state.persisted = roomState n
  clock : ∀ e ∈ c.past, e.1.now = 0

variable {c : StoreRun}

theorem RoomRun.disciplined (h : RoomRun n c) (k : Nat) :
    Disciplined c (roomCall k) := by
  refine ⟨fun e he => ?_, ⟨Int.le_refl 0, show (0 : Int) ≤ Decimal.maxSafeInteger by decide⟩,
    fun op hop => ?_⟩
  · rw [h.clock e he]
    exact Int.le_refl 0
  · cases hop
    exact (by decide +kernel : identifier 256 (js "d") = true)

theorem RoomRun.transition (hn : n ≤ 2048) :
    (StoreOp.rememberInteractiveRoom sampleBinding (roomName n) (js "d")).transition
      ((roomState n).pruned 0) 0 = .ok ⟨true, .done, roomState (n + 1)⟩ := by
  have hfresh : (roomState n).interactiveRooms.get? (roomKey n) = none := by
    rw [roomState, get?_roomsUpTo hn (by omega), if_neg (Nat.lt_irrefl n)]
  have hdiscussion : identifier 256 (js "d") = true := by decide +kernel
  exact map_eq_ok.mpr ⟨_, rememberInteractiveRoom_fresh hfresh hdiscussion, rfl⟩

theorem RoomRun.next (h : RoomRun n c) (hn : n < 2048) :
    RoomRun (n + 1) (advance Store.call c (roomCall n)) := by
  have hinv := inv_of_reach h.reached
  have hcall := h.disciplined n
  have ht : (StoreOp.rememberInteractiveRoom sampleBinding (roomName n) (js "d")).transition
      (c.state.persisted.pruned 0) 0 = .ok ⟨true, .done, roomState (n + 1)⟩ := by
    rw [h.persisted]
    exact RoomRun.transition (by omega)
  have hsound : (roomState (n + 1)).Sound :=
    (store_invariant h.reached h.initialized hcall rfl).1 _ ht
  have hvalid : (roomState (n + 1)).Valid := by
    apply hsound.valid
    · have hsize := size_roomsUpTo (n := n + 1) (by omega)
      simp only [RouterState.collectionSizes, roomState, hsize, Bool.and_eq_true,
        decide_eq_true_eq, MAX_INTERACTIVE]
      exact ⟨⟨⟨⟨⟨rfl, rfl⟩, rfl⟩, rfl⟩, rfl⟩, by omega⟩
    · rfl
  have hwritten := mutate_writes (roomCall n) hinv h.initialized rfl rfl ht rfl hvalid
    (roomState_bytes (by omega))
  have hstate : (advance Store.call c (roomCall n)).state =
      { c.state with memory := roomState (n + 1), disk := some (.current (roomState (n + 1))) } :=
    congrArg Prod.snd hwritten
  refine ⟨h.reached.tail _ hcall, ?_, ?_, fun e he => ?_⟩
  · rw [hstate]
    exact h.initialized
  · rw [hstate]
    rfl
  · rcases mem_append.mp he with hold | hnew
    · exact h.clock e hold
    · rw [mem_singleton.mp hnew]
      rfl

theorem exists_roomRun (hn : n ≤ 2048) : ∃ c, RoomRun n c := by
  induction n with
  | zero =>
    refine ⟨opened, opened_reached, rfl, rfl, fun e he => ?_⟩
    rw [mem_singleton.mp he]
  | succ n ih =>
    obtain ⟨c, hc⟩ := ih (by omega)
    exact ⟨_, hc.next (by omega)⟩

/-- The room map holds 2048 rooms and not one more. -/
theorem RoomRun.full (h : RoomRun n c) (hn : n = 2048) :
    c.state.persisted.Finished 0 ∧
      c.state.persisted.interactiveRooms.get? (roomKey n) = none ∧
      (∀ key, c.state.persisted.interactiveHeads.get? key = none) ∧
      (c.state.call (roomCall n)).1 = .error .routerStateInvalid := by
  have hfresh : (roomsUpTo n).get? (roomKey n) = none := by
    rw [get?_roomsUpTo (by omega) (by omega), if_neg (Nat.lt_irrefl n)]
  have hinvalid : validateState (roomState (n + 1)) = .error .routerStateInvalid := by
    have hsize : (roomState (n + 1)).interactiveRooms.size = 2049 := by
      show (roomsUpTo (n + 1)).size = 2049
      rw [roomsUpTo, OrderedMap.size_set, OrderedMap.has_eq_false_iff.mpr hfresh,
        if_neg Bool.false_ne_true, size_roomsUpTo (by omega), hn]
    have hcollections : (roomState (n + 1)).collectionSizes = false := by
      unfold RouterState.collectionSizes
      rw [hsize]
      simp [MAX_INTERACTIVE]
    unfold validateState
    rw [hcollections, Bool.and_false, Bool.not_false, if_pos rfl]
  have hplan : plan (.rememberInteractiveRoom sampleBinding (roomName n) (js "d"))
      (roomState n) 0 = .error .routerStateInvalid := by
    rw [plan, RoomRun.transition (by omega)]
    dsimp only [bind, Except.bind]
    rw [Bool.true_or, Bool.not_true, if_neg Bool.false_ne_true, hinvalid]
  rw [h.persisted]
  refine ⟨fun entry hentry => (not_mem_nil hentry).elim, hfresh, fun key => rfl, ?_⟩
  show (c.state.mutate (.rememberInteractiveRoom sampleBinding (roomName n) (js "d")) 0 true).1 = _
  have htime : checkTime 0 = .ok 0 := rfl
  rw [Store.mutate, h.initialized, Bool.not_true, if_neg Bool.false_ne_true, htime,
    (inv_of_reach h.reached).agree h.initialized, h.persisted]
  dsimp only
  rw [hplan]

/-- After 2048 rooms, with no request left, a fresh discussion is refused. -/
theorem rooms_fill_up :
    let record := sampleRequest (js "q") (js "task_1_1") 1 1
    ∃ c, Reach Store.call Disciplined (start Store.fresh) c ∧
      c.state.initialized = true ∧ c.state.persisted.Finished 0 ∧
      c.state.persisted.interactiveRooms.get? (roomKey 2048) = none ∧
      c.state.persisted.interactiveHeads.get? record.sessionKey = none ∧
      record.Sound ∧ 0 < record.expiresAt ∧ Disciplined c (roomCall 2048) ∧
      (c.state.call (roomCall 2048)).1 = .error .routerStateInvalid := by
  intro record
  obtain ⟨c, hc⟩ := exists_roomRun (Nat.le_refl 2048)
  obtain ⟨hfinished, hroom, hheads, herror⟩ := hc.full rfl
  exact ⟨c, hc.reached, hc.initialized, hfinished, hroom, hheads _,
    ⟨by decide +kernel, by decide +kernel⟩, by decide, hc.disciplined 2048, herror⟩

end ClawMessenger.Ports.SessionStore
