import ClawMessenger.Ports.OutputBuffer
import ClawMessenger.Verified.Redelivery
import ClawMessenger.Verified.Rows

/-!
# A buffered snapshot is replayed whole

The entry of a terminal snapshot is followed from the moment it is buffered.  While it
stands in the buffer, it is either among its frames, whose cursor is the number of frames
sent since the last failure, or among its cards, the first of which is the next to be
sent (`Inside`); a send of the drain that is under way is a send of its next message.
`Standing.step` goes through the actions once, `snapshot_replayed` through a run.
-/

namespace ClawMessenger.Ports.OutputBuffer

open Verified Verified.Machine Verified.Redelivery List

variable {T M : Type}

/-- The orders of the entries in the buffer. -/
def Router.orders (s : Router T M) : List Nat := s.buffered.map BufferedOutput.order

theorem mem_orders {s : Router T M} {o : Nat} : o ∈ s.orders ↔ ∃ entry ∈ s.buffered, entry.order = o := mem_map

/-! ## What the operations keep -/

theorem oldest?_mem {entries : List (BufferedOutput T M)} {entry : BufferedOutput T M}
    (h : oldest? entries = some entry) : entry ∈ entries := by
  cases entries with
  | nil => cases h
  | cons first rest =>
    have hfold : ∀ (rest : List (BufferedOutput T M)) (first : BufferedOutput T M),
        rest.foldl (fun oldest candidate => if candidate.order < oldest.order then candidate else oldest) first ∈
          first :: rest := by
      intro rest
      induction rest with
      | nil =>
        intro first
        exact mem_singleton_self first
      | cons next rest ih =>
        intro first
        have hmem := ih (if next.order < first.order then next else first)
        rw [foldl_cons]
        split at hmem
        · rw [if_pos ‹_›]
          exact mem_cons_of_mem first hmem
        · rw [if_neg ‹_›]
          rw [mem_cons] at hmem ⊢
          cases hmem with
          | inl heq => exact .inl heq
          | inr hrest => exact .inr (mem_cons_of_mem next hrest)
    cases h
    exact hfold rest first

theorem makeRoom_sublist (n : Nat) (retained : List (BufferedOutput T M)) : (makeRoom n retained).Sublist retained := by
  induction n generalizing retained with
  | zero => exact Sublist.refl _
  | succ n ih =>
    unfold makeRoom
    split
    · split
      · exact Sublist.refl _
      · exact (ih _).trans eraseP_sublist
    · exact Sublist.refl _

theorem deleteBufferedEntry_sublist (s : Router T M) (order : Nat) :
    (deleteBufferedEntry s order).buffered.Sublist s.buffered := filter_sublist

/-- What the loop of the drain does up to its next send. -/
structure Looped (s s' : Router T M) : Prop where
  buffered : s'.buffered.Sublist s.buffered
  bufferOrder : s'.bufferOrder = s.bufferOrder
  /-- An entry with a message stays. -/
  kept : s.orders.Nodup → ∀ entry ∈ s.buffered, entry.next?.isSome = true → entry ∈ s'.buffered
  /-- The next send is that of the next message of an entry. -/
  sends : ∀ order taskId message, s'.drain = some (.sending order taskId message) →
    ∃ entry ∈ s'.buffered, entry.order = order ∧ entry.next? = some message

theorem orders_sublist {s s' : Router T M} (h : s'.buffered.Sublist s.buffered) : s'.orders.Sublist s.orders := h.map _

theorem looped_ended (s : Router T M) : Looped s { s with drain := some .ended } where
  buffered := Sublist.refl _
  bufferOrder := rfl
  kept := fun _ _ hmem _ => hmem
  sends := fun _ _ _ h => nomatch h

theorem drainLoop_looped (n : Nat) (s : Router T M) : Looped s (drainLoop n s) := by
  induction n generalizing s with
  | zero => exact looped_ended s
  | succ n ih =>
    unfold drainLoop
    split
    · exact looped_ended s
    · split
      · exact looped_ended s
      · rename_i entry hentry
        split
        · rename_i hnone
          have hrest := ih (deleteBufferedEntry s entry.order)
          exact {
            buffered := hrest.buffered.trans (deleteBufferedEntry_sublist s entry.order)
            bufferOrder := hrest.bufferOrder
            kept := by
              intro hnodup other hother hnext
              apply hrest.kept (hnodup.sublist (orders_sublist (deleteBufferedEntry_sublist s entry.order))) other _ hnext
              rw [deleteBufferedEntry, mem_filter, decide_eq_true_eq]
              refine ⟨hother, ?_⟩
              intro heq
              have hsame : other = entry := inj_on_of_nodup_map hnodup hother (oldest?_mem hentry) heq
              rw [hsame, hnone] at hnext
              cases hnext
            sends := hrest.sends }
        · rename_i message hmessage
          exact {
            buffered := Sublist.refl _
            bufferOrder := rfl
            kept := fun _ _ hmem _ => hmem
            sends := by
              intro order taskId other hdrain
              cases hdrain
              exact ⟨entry, oldest?_mem hentry, rfl, hmessage⟩ }

theorem goOn_looped (s : Router T M) : Looped s (goOn s) := drainLoop_looped _ s

section Steps

/-! ## Orders -/

variable {chunkAt : M → Option (Nat × Nat)} {serializedBytes : List M → Nat}
  {entry other : BufferedOutput T M} {s : Router T M} {message : M}

/-- Orders are fresh when an entry comes and go with it. -/
structure Tidy (s : Router T M) : Prop where
  nodup : s.orders.Nodup
  bound : ∀ o ∈ s.orders, o < s.bufferOrder
  drain : ∀ o taskId message, s.drain = some (.sending o taskId message) → o < s.bufferOrder

theorem tidy_init : Tidy (Router.init T M) where
  nodup := nodup_nil
  bound := fun _ h => nomatch h
  drain := fun _ _ _ h => nomatch h

theorem Tidy.entry_eq (h : Tidy s) (hentry : entry ∈ s.buffered) (hother : other ∈ s.buffered)
    (heq : other.order = entry.order) : other = entry :=
  inj_on_of_nodup_map h.nodup hother hentry heq

theorem orders_map (s : Router T M) (f : BufferedOutput T M → BufferedOutput T M)
    (hf : ∀ entry, (f entry).order = entry.order) : (s.buffered.map f).map BufferedOutput.order = s.orders := by
  rw [map_map]
  apply map_congr_left
  intro entry _
  exact hf entry

theorem orders_setEntry (s : Router T M) (entry : BufferedOutput T M) : (setEntry s entry).orders = s.orders := by
  apply orders_map
  intro item
  split
  · exact Eq.symm ‹_›
  · rfl

theorem orders_storeAdvanced (s : Router T M) (entry : BufferedOutput T M) :
    (storeAdvanced s entry).orders.Sublist s.orders := by
  unfold storeAdvanced
  split
  · exact orders_sublist (deleteBufferedEntry_sublist s entry.order)
  · rw [orders_setEntry]

theorem find?_entry (hs : Tidy s) (hentry : entry ∈ s.buffered) :
    s.buffered.find? (fun item => item.order = entry.order) = some entry := by
  cases hfind : s.buffered.find? fun item => item.order = entry.order with
  | none =>
    have hnot := find?_eq_none.mp hfind entry hentry
    exact absurd (decide_eq_true rfl) hnot
  | some found =>
    have hfound := find?_some (p := fun item : BufferedOutput T M => decide (item.order = entry.order)) hfind
    rw [hs.entry_eq hentry (mem_of_find?_eq_some hfind) (of_decide_eq_true hfound)]

theorem mem_setEntry_other (hother : other ∈ s.buffered) (hne : other.order ≠ entry.order) :
    other ∈ (setEntry s entry).buffered := by
  apply mem_map.mpr
  exact ⟨other, hother, if_neg hne⟩

theorem mem_delete_other {order : Nat} (hother : other ∈ s.buffered) (hne : other.order ≠ order) :
    other ∈ (deleteBufferedEntry s order).buffered :=
  mem_filter.mpr ⟨hother, decide_eq_true hne⟩

theorem advance_order (entry : BufferedOutput T M) : (entry.advance serializedBytes).order = entry.order := by
  unfold BufferedOutput.advance
  split
  · split <;> rfl
  · rfl

/-- An entry that is in the buffer after an action, under an order it had before, is unchanged
where the action adds at most a new entry. -/
theorem kept_of_orders {s' : Router T M} (hs : Tidy s) (new : BufferedOutput T M)
    (hnew : new.order = s.bufferOrder) (hsub : s'.buffered ⊆ s.buffered ++ [new])
    (hentry : entry ∈ s.buffered) (hmem : entry.order ∈ s'.orders) : entry ∈ s'.buffered := by
  obtain ⟨other, hother, horder⟩ := mem_orders.mp hmem
  have hold := hsub hother
  rw [mem_append, mem_singleton] at hold
  cases hold with
  | inl hin =>
    rw [← hs.entry_eq hentry hin horder]
    exact hother
  | inr heq =>
    have hlt := hs.bound entry.order (mem_orders.mpr ⟨entry, hentry, rfl⟩)
    rw [heq, hnew] at horder
    omega

/-! ## The entry of a snapshot -/

variable {frames cards : List M} {o : Nat} {log : List (M × Bool)}

/-- Where the entry stands after the attempts of `log`: at frame `k` of the snapshot, or
before the first card of `rest`. -/
def Inside (frames cards : List M) (log : List (M × Bool)) (entry : BufferedOutput T M) : Prop :=
  (∃ k, k < frames.length ∧ entry.frameCount = some frames.length ∧ entry.frameCursor = some k ∧
    entry.messages = frames ++ cards ∧ InFrames frames k log) ∨
  ∃ done item rest, cards = done ++ item :: rest ∧ entry.frameCount = none ∧ entry.frameCursor = none ∧
    entry.messages = item :: rest ∧ InItems frames done item log

theorem Inside.next (h : Inside frames cards log entry) : entry.next?.isSome = true := by
  unfold BufferedOutput.next?
  cases h with
  | inl hframes =>
    obtain ⟨k, hk, _, hcursor, hmessages, _⟩ := hframes
    rw [hcursor, hmessages, Option.getD_some, getElem?_append_left hk, getElem?_eq_getElem hk]
    rfl
  | inr hcards =>
    obtain ⟨_, _, _, _, _, hcursor, hmessages, _⟩ := hcards
    rw [hcursor, hmessages]
    rfl

/-- The entry is in the buffer, and what the drain sends of it is its next message. -/
def Standing (o : Nat) (frames cards : List M) (log : List (M × Bool)) (s : Router T M) : Prop :=
  ∃ entry ∈ s.buffered, entry.order = o ∧ Inside frames cards log entry ∧
    ∀ taskId message, s.drain = some (.sending o taskId message) → entry.next? = some message

/-- The entry is gone and nothing of it is being sent. -/
def Finished (o : Nat) (frames cards : List M) (log : List (M × Bool)) (s : Router T M) : Prop :=
  o < s.bufferOrder ∧ o ∉ s.orders ∧ (∀ taskId message, s.drain ≠ some (.sending o taskId message)) ∧
    Complete frames cards log

/-- The attempts to send messages of an entry. -/
def attempts (o : Nat) (past : List (Action T M × Report M)) : List (M × Bool) :=
  past.filterMap fun entry => entry.2.bind fun report => if report.1 = o then some report.2 else none

/-- What a step adds to the attempts. -/
def attempted (o : Nat) (report : Report M) : List (M × Bool) :=
  (report.bind fun report => if report.1 = o then some report.2 else none).toList

theorem attempts_advance (o : Nat) (past : List (Action T M × Report M)) (a : Action T M) (report : Report M) :
    attempts o (past ++ [(a, report)]) = attempts o past ++ attempted o report := by
  unfold attempts attempted
  rw [filterMap_append]
  rfl

theorem attempted_self (o : Nat) (attempt : M × Bool) : attempted o (some (o, attempt)) = [attempt] := by
  unfold attempted
  rw [Option.bind_some, if_pos rfl]
  rfl

theorem attempted_other {o' : Nat} (h : o' ≠ o) (attempt : M × Bool) : attempted o (some (o', attempt)) = [] := by
  unfold attempted
  rw [Option.bind_some, if_neg h]
  rfl

variable (serializedBytes) in
/-- A send of the next message advances the entry. -/
theorem Inside.sent (h : Inside frames cards log entry) (hnext : entry.next? = some message) :
    (entry.advance serializedBytes).messages.isEmpty = true ∧ Complete frames cards (log ++ [(message, true)]) ∨
      (entry.advance serializedBytes).messages.isEmpty = false ∧
        Inside frames cards (log ++ [(message, true)]) (entry.advance serializedBytes) := by
  unfold BufferedOutput.next? at hnext
  unfold BufferedOutput.advance
  cases h with
  | inl hframes =>
    obtain ⟨k, hk, hcount, hcursor, hmessages, hlog⟩ := hframes
    rw [hcursor, hmessages, Option.getD_some, getElem?_append_left hk] at hnext
    have hsent := hlog.sent hnext
    rw [hcount, hcursor]
    dsimp only
    by_cases hmore : k + 1 < frames.length
    · right
      rw [if_pos hmore]
      refine ⟨?_, .inl ⟨k + 1, hmore, rfl, rfl, hmessages, hsent⟩⟩
      show entry.messages.isEmpty = false
      rw [hmessages, isEmpty_eq_false_iff]
      apply append_ne_nil_of_left_ne_nil
      exact ne_nil_of_length_pos (by omega)
    · have hlast : k + 1 = frames.length := by omega
      rw [hlast] at hsent
      have hcomplete := hsent.complete
      have hrest : entry.messages.drop frames.length = cards := by
        rw [hmessages, drop_left]
      rw [if_neg hmore]
      show (entry.messages.drop frames.length).isEmpty = true ∧ _ ∨ (entry.messages.drop frames.length).isEmpty = false ∧ _
      cases hcards : cards with
      | nil =>
        left
        rw [hrest, hcards]
        exact ⟨rfl, hcomplete⟩
      | cons item rest =>
        right
        rw [hrest, hcards]
        exact ⟨rfl, .inr ⟨[], item, rest, rfl, rfl, rfl, rfl, hcomplete.next item⟩⟩
  | inr hcards =>
    obtain ⟨done, item, rest, rfl, hcount, hcursor, hmessages, hlog⟩ := hcards
    rw [hcursor, hmessages] at hnext
    cases hnext
    have hsent := hlog.sent
    have htail : entry.messages.tail = rest := by rw [hmessages]; rfl
    rw [hcount, hcursor]
    dsimp only
    rw [htail]
    cases rest with
    | nil => exact .inl ⟨rfl, hsent⟩
    | cons next rest =>
      right
      refine ⟨rfl, .inr ⟨done ++ [message], next, rest, ?_, rfl, rfl, rfl, hsent.next next⟩⟩
      rw [append_assoc]
      rfl

/-- A transient failure sends the frames back to their beginning. -/
theorem Inside.failed (h : Inside frames cards log entry) (hnext : entry.next? = some message) :
    Inside frames cards (log ++ [(message, false)])
      { entry with frameCursor := entry.frameCursor.map fun _ => 0 } := by
  unfold BufferedOutput.next? at hnext
  cases h with
  | inl hframes =>
    obtain ⟨k, hk, hcount, hcursor, hmessages, hlog⟩ := hframes
    rw [hcursor, hmessages, Option.getD_some, getElem?_append_left hk] at hnext
    refine .inl ⟨0, by omega, hcount, ?_, hmessages, hlog.failed hnext⟩
    show entry.frameCursor.map (fun _ => 0) = some 0
    rw [hcursor]
    rfl
  | inr hcards =>
    obtain ⟨done, item, rest, hsplit, hcount, hcursor, hmessages, hlog⟩ := hcards
    rw [hcursor, hmessages] at hnext
    cases hnext
    refine .inr ⟨done, message, rest, hsplit, hcount, ?_, hmessages, hlog.failed⟩
    show entry.frameCursor.map (fun _ => 0) = none
    rw [hcursor]
    rfl

/-! ## Operations on the buffer -/

variable [DecidableEq T]

theorem releaseTask_fields (s : Router T M) (taskId : T) :
    (releaseTask s taskId).buffered = s.buffered ∧ (releaseTask s taskId).bufferOrder = s.bufferOrder ∧
      (releaseTask s taskId).drain = s.drain := by
  unfold releaseTask
  split
  · exact ⟨rfl, rfl, rfl⟩
  · exact ⟨rfl, rfl, rfl⟩

theorem drainFailed_orders (s : Router T M) (order : Nat) (taskId : T) (transient : Bool) :
    (drainFailed s order taskId transient).orders.Sublist s.orders ∧
      (drainFailed s order taskId transient).bufferOrder = s.bufferOrder := by
  obtain ⟨hbuffered, horder, _⟩ := releaseTask_fields s taskId
  unfold drainFailed
  split
  · refine ⟨?_, horder⟩
    have hmap := orders_map s (fun entry => if entry.order = order then
      { entry with frameCursor := entry.frameCursor.map fun _ => 0 } else entry) (fun entry => by split <;> rfl)
    exact hmap ▸ Sublist.refl _
  · have hlooped := goOn_looped (deleteBufferedEntry (releaseTask s taskId) order)
    constructor
    · have hall := hlooped.buffered.trans (deleteBufferedEntry_sublist (releaseTask s taskId) order)
      rw [hbuffered] at hall
      exact orders_sublist hall
    · rw [hlooped.bufferOrder]
      exact horder

variable (chunkAt serializedBytes) in
theorem bufferTaskOutput_buffered (s : Router T M) (taskId : T) (kind : Kind) (messages : List M) :
    (bufferTaskOutput chunkAt serializedBytes s taskId kind messages = s) ∨
      (bufferTaskOutput chunkAt serializedBytes s taskId kind messages).bufferOrder = s.bufferOrder + 1 ∧
        (bufferTaskOutput chunkAt serializedBytes s taskId kind messages).buffered.Sublist
          (s.buffered ++ [newEntry chunkAt serializedBytes taskId kind messages s.bufferOrder]) := by
  unfold bufferTaskOutput
  split
  · exact .inl rfl
  · right
    refine ⟨rfl, ?_⟩
    exact (makeRoom_sublist _ _).trans (filter_sublist.append (Sublist.refl _))

theorem bufferTaskOutput_drain (s : Router T M) (taskId : T) (kind : Kind) (messages : List M) :
    (bufferTaskOutput chunkAt serializedBytes s taskId kind messages).drain = s.drain := by
  unfold bufferTaskOutput
  split <;> rfl

theorem drainFailed_kept (hs : Tidy s) (order : Nat) (taskId : T) (transient : Bool)
    (hentry : entry ∈ s.buffered) (hne : entry.order ≠ order)
    (hnext : entry.next?.isSome = true) : entry ∈ (drainFailed s order taskId transient).buffered := by
  obtain ⟨hbuffered, _, _⟩ := releaseTask_fields s taskId
  unfold drainFailed
  split
  · exact mem_map.mpr ⟨entry, hentry, if_neg hne⟩
  · have hmem : entry ∈ (deleteBufferedEntry (releaseTask s taskId) order).buffered :=
      mem_delete_other (hbuffered ▸ hentry) hne
    apply (goOn_looped _).kept _ entry hmem hnext
    apply Nodup.sublist _ hs.nodup
    have hsub := orders_sublist (deleteBufferedEntry_sublist (releaseTask s taskId) order)
    unfold Router.orders at hsub ⊢
    rw [hbuffered] at hsub
    exact hsub

theorem buffer_standing (hs : Tidy s) {taskId : T} (hne : frames ≠ [])
    (hchunk : (frames ++ cards).head?.bind chunkAt = some (0, frames.length))
    (hin : s.bufferOrder ∈ (bufferTaskOutput chunkAt serializedBytes s taskId .terminal (frames ++ cards)).orders) :
    Standing s.bufferOrder frames cards []
      (bufferTaskOutput chunkAt serializedBytes s taskId .terminal (frames ++ cards)) := by
  have hfresh : s.bufferOrder ∉ s.orders := fun hmem => absurd (hs.bound _ hmem) (lt_irrefl _)
  cases bufferTaskOutput_buffered chunkAt serializedBytes s taskId .terminal
      (frames ++ cards) with
  | inl hsame =>
    rw [hsame] at hin
    exact absurd hin hfresh
  | inr hnew =>
    obtain ⟨entry, hentry, horder⟩ := mem_orders.mp hin
    have hold := hnew.2.subset hentry
    rw [mem_append, mem_singleton] at hold
    cases hold with
    | inl hmem => exact absurd (mem_orders.mpr ⟨entry, hmem, horder⟩) hfresh
    | inr heq =>
      have hcount : frameCountOf chunkAt .terminal (frames ++ cards) = some frames.length := by
        unfold frameCountOf
        rw [hchunk]
        rfl
      refine ⟨entry, hentry, horder, ?_, ?_⟩
      · rw [heq]
        refine .inl ⟨0, length_pos_of_ne_nil hne, hcount, ?_, rfl, InFrames.start frames⟩
        show (frameCountOf chunkAt .terminal (frames ++ cards)).map (fun _ => 0) = some 0
        rw [hcount]
        rfl
      · intro t m hdrain
        rw [bufferTaskOutput_drain] at hdrain
        exact absurd (hs.drain _ t m hdrain) (lt_irrefl _)

variable [DecidableEq M]

variable (serializedBytes) in
theorem drainSent_orders (s : Router T M) (order : Nat) (taskId : T) (message : M) :
    (drainSent serializedBytes s order taskId message).orders.Sublist s.orders ∧
      (drainSent serializedBytes s order taskId message).bufferOrder = s.bufferOrder := by
  obtain ⟨hbuffered, horder, _⟩ := releaseTask_fields s taskId
  have hrelease : (releaseTask s taskId).orders = s.orders := congrArg (map BufferedOutput.order) hbuffered
  have hplain : (goOn (releaseTask s taskId)).orders.Sublist s.orders ∧
      (goOn (releaseTask s taskId)).bufferOrder = s.bufferOrder := by
    have hlooped := goOn_looped (releaseTask s taskId)
    rw [← hrelease, ← horder]
    exact ⟨orders_sublist hlooped.buffered, hlooped.bufferOrder⟩
  unfold drainSent
  split
  · exact hplain
  · rename_i entry _
    split
    · have hlooped := goOn_looped (storeAdvanced (releaseTask s taskId) (entry.advance serializedBytes))
      constructor
      · rw [← hrelease]
        exact (orders_sublist hlooped.buffered).trans (orders_storeAdvanced _ _)
      · rw [hlooped.bufferOrder, ← horder]
        unfold storeAdvanced
        split <;> rfl
    · exact hplain

variable (chunkAt serializedBytes) in
/-- An action takes at most one new order, the next one. -/
theorem step_orders (s : Router T M) (a : Action T M) :
    (step chunkAt serializedBytes s a).2.orders.Sublist s.orders ∧
        s.bufferOrder ≤ (step chunkAt serializedBytes s a).2.bufferOrder ∨
      (step chunkAt serializedBytes s a).2.orders.Sublist (s.orders ++ [s.bufferOrder]) ∧
        (step chunkAt serializedBytes s a).2.bufferOrder = s.bufferOrder + 1 := by
  cases a with
  | buffer taskId kind messages =>
    cases bufferTaskOutput_buffered chunkAt serializedBytes s taskId kind messages with
    | inl hsame =>
      left
      rw [step, hsame]
      exact ⟨Sublist.refl _, le_rfl⟩
    | inr hnew =>
      right
      refine ⟨?_, hnew.1⟩
      have hmap := hnew.2.map BufferedOutput.order
      rw [map_append] at hmap
      exact hmap
  | remove taskId kind => exact .inl ⟨orders_sublist filter_sublist, le_rfl⟩
  | drain =>
    left
    rw [step, drainBufferedOutput]
    split
    · exact ⟨Sublist.refl _, le_rfl⟩
    · split
      · exact ⟨Sublist.refl _, le_rfl⟩
      · have hlooped := goOn_looped s
        exact ⟨orders_sublist hlooped.buffered, le_of_eq hlooped.bufferOrder.symm⟩
  | sent =>
    left
    rw [step]
    split
    · rename_i order taskId message _
      have hsent := drainSent_orders serializedBytes s order taskId message
      exact ⟨hsent.1, le_of_eq hsent.2.symm⟩
    · exact ⟨Sublist.refl _, le_rfl⟩
  | failed transient =>
    left
    rw [step]
    split
    · rename_i order taskId message _
      have hfailed := drainFailed_orders s order taskId transient
      exact ⟨hfailed.1, le_of_eq hfailed.2.symm⟩
    · exact ⟨Sublist.refl _, le_rfl⟩
  | settle =>
    left
    rw [step]
    split
    · exact ⟨Sublist.refl _, le_rfl⟩
    · exact ⟨Sublist.refl _, le_rfl⟩
  | dispose => exact .inl ⟨nil_sublist _, le_rfl⟩
  | activate => exact .inl ⟨Sublist.refl _, le_rfl⟩
  | elsewhere => exact .inl ⟨Sublist.refl _, Nat.le_succ _⟩

theorem drainSent_sends (s : Router T M) (order : Nat) (taskId : T) (message : M) {o : Nat} {t : T} {m : M}
    (h : (drainSent serializedBytes s order taskId message).drain = some (.sending o t m)) :
    ∃ entry ∈ (drainSent serializedBytes s order taskId message).buffered, entry.order = o ∧ entry.next? = some m := by
  unfold drainSent at h ⊢
  split at h
  · exact (goOn_looped _).sends o t m h
  · split at h
    · rw [if_pos ‹_›]
      exact (goOn_looped _).sends o t m h
    · rw [if_neg ‹_›]
      exact (goOn_looped _).sends o t m h

/-- A send that is under way after an action was so before, or is of the next message of an
entry that stands. -/
theorem step_drain (s : Router T M) (a : Action T M) {o : Nat} {taskId : T}
    (h : (step chunkAt serializedBytes s a).2.drain = some (.sending o taskId message)) :
    s.drain = some (.sending o taskId message) ∨
      ∃ entry ∈ (step chunkAt serializedBytes s a).2.buffered, entry.order = o ∧ entry.next? = some message := by
  cases a with
  | buffer =>
    left
    rw [step, bufferTaskOutput_drain] at h
    exact h
  | remove => exact .inl h
  | drain =>
    rw [step, drainBufferedOutput] at h ⊢
    split at h
    · exact .inl h
    · split at h
      · exact .inl h
      · right
        rw [if_neg ‹_›]
        exact (goOn_looped s).sends o taskId message h
  | sent =>
    rw [step] at h ⊢
    split at h
    · right
      rename_i order t m hdrain
      exact drainSent_sends s order t m h
    · exact .inl h
  | failed transient =>
    rw [step] at h ⊢
    split at h
    · right
      cases transient with
      | true => cases h
      | false => exact (goOn_looped _).sends o taskId message h
    · exact .inl h
  | settle =>
    left
    rw [step] at h
    split at h
    · cases h
    · exact h
  | dispose | activate | elsewhere => exact .inl h

theorem Tidy.step (h : Tidy s) (a : Action T M) : Tidy (step chunkAt serializedBytes s a).2 := by
  have hdrain : ∀ o taskId message, (OutputBuffer.step chunkAt serializedBytes s a).2.drain =
      some (.sending o taskId message) → o < s.bufferOrder ∨ o ∈ (OutputBuffer.step chunkAt serializedBytes s a).2.orders := by
    intro o taskId message hsending
    cases step_drain s a hsending with
    | inl hold => exact .inl (h.drain o taskId message hold)
    | inr hnew =>
      obtain ⟨entry, hentry, horder, _⟩ := hnew
      exact .inr (mem_orders.mpr ⟨entry, hentry, horder⟩)
  cases step_orders chunkAt serializedBytes s a with
  | inl hless =>
    obtain ⟨hsub, hle⟩ := hless
    have hbound : ∀ o ∈ (OutputBuffer.step chunkAt serializedBytes s a).2.orders, o < s.bufferOrder :=
      fun o ho => h.bound o (hsub.subset ho)
    exact {
      nodup := h.nodup.sublist hsub
      bound := fun o ho => lt_of_lt_of_le (hbound o ho) hle
      drain := by
        intro o taskId message hsending
        cases hdrain o taskId message hsending with
        | inl hlt => exact lt_of_lt_of_le hlt hle
        | inr hmem => exact lt_of_lt_of_le (hbound o hmem) hle }
  | inr hmore =>
    obtain ⟨hsub, heq⟩ := hmore
    have hbound : ∀ o ∈ (OutputBuffer.step chunkAt serializedBytes s a).2.orders, o < s.bufferOrder + 1 := by
      intro o ho
      have hmem := hsub.subset ho
      rw [mem_append, mem_singleton] at hmem
      cases hmem with
      | inl hold => exact Nat.lt_succ_of_lt (h.bound o hold)
      | inr hnew => omega
    have hnodup : (s.orders ++ [s.bufferOrder]).Nodup := by
      rw [nodup_append]
      refine ⟨h.nodup, nodup_singleton _, ?_⟩
      intro o ho o' ho'
      rw [mem_singleton] at ho'
      have hlt := h.bound o ho
      omega
    exact {
      nodup := hnodup.sublist hsub
      bound := fun o ho => heq ▸ hbound o ho
      drain := by
        intro o taskId message hsending
        rw [heq]
        cases hdrain o taskId message hsending with
        | inl hlt => exact Nat.lt_succ_of_lt hlt
        | inr hmem => exact hbound o hmem }

/-- The entry is not evicted or replaced, and no send of it fails for good. -/
def Undisturbed (chunkAt : M → Option (Nat × Nat)) (serializedBytes : List M → Nat) (o : Nat)
    (c : Config (Router T M) (Action T M) (Report M)) (a : Action T M) : Prop :=
  match a with
  | .buffer _ _ _ | .remove _ _ | .dispose | .failed false =>
    o ∈ c.state.orders → o ∈ (OutputBuffer.step chunkAt serializedBytes c.state a).2.orders
  | _ => True

/-! ## One action -/

/-- The drain leaves the entries it does not send from. -/
theorem drainSent_kept (hs : Tidy s) (order : Nat) (taskId : T) (message : M)
    (hentry : entry ∈ s.buffered) (hne : entry.order ≠ order)
    (hnext : entry.next?.isSome = true) : entry ∈ (drainSent serializedBytes s order taskId message).buffered := by
  obtain ⟨hbuffered, _, _⟩ := releaseTask_fields s taskId
  have hnodup : (releaseTask s taskId).orders.Nodup := by
    unfold Router.orders
    rw [hbuffered]
    exact hs.nodup
  have hmem : entry ∈ (releaseTask s taskId).buffered := hbuffered ▸ hentry
  unfold drainSent
  split
  · exact (goOn_looped _).kept hnodup entry hmem hnext
  · rename_i found hfound
    have hd := find?_some (p := fun item : BufferedOutput T M => decide (item.order = order)) hfound
    have horder : found.order = order := of_decide_eq_true hd
    split
    · apply (goOn_looped _).kept (hnodup.sublist (orders_storeAdvanced _ _)) entry _ hnext
      unfold storeAdvanced
      have hother : entry.order ≠ (found.advance serializedBytes).order := by
        rw [advance_order, horder]
        exact hne
      split
      · exact mem_delete_other hmem hother
      · exact mem_setEntry_other hmem hother
    · exact (goOn_looped _).kept hnodup entry hmem hnext

variable (serializedBytes) in
/-- The entry that the drain has sent from, as it is afterwards. -/
theorem drainSent_entry (hs : Tidy s) (taskId : T) (hentry : entry ∈ s.buffered)
    (hnext : entry.next? = some message) :
    ((entry.advance serializedBytes).messages.isEmpty = true →
        entry.order ∉ (drainSent serializedBytes s entry.order taskId message).orders) ∧
      ((entry.advance serializedBytes).messages.isEmpty = false →
        (entry.advance serializedBytes).next?.isSome = true →
          entry.advance serializedBytes ∈ (drainSent serializedBytes s entry.order taskId message).buffered) := by
  obtain ⟨hbuffered, _, _⟩ := releaseTask_fields s taskId
  have hdrain : drainSent serializedBytes s entry.order taskId message =
      goOn (storeAdvanced (releaseTask s taskId) (entry.advance serializedBytes)) := by
    unfold drainSent
    rw [find?_entry hs hentry]
    dsimp only
    rw [if_pos hnext]
  rw [hdrain]
  have hlooped := goOn_looped (storeAdvanced (releaseTask s taskId) (entry.advance serializedBytes))
  constructor
  · intro hempty hmem
    have hmem' := (orders_sublist hlooped.buffered).subset hmem
    unfold storeAdvanced at hmem'
    rw [if_pos hempty, mem_orders] at hmem'
    obtain ⟨other, hother, horder⟩ := hmem'
    have hne := of_decide_eq_true (mem_filter.mp hother).2
    rw [advance_order] at hne
    exact hne horder
  · intro hsome hnext'
    have hnodup : (releaseTask s taskId).orders.Nodup := by
      unfold Router.orders
      rw [hbuffered]
      exact hs.nodup
    apply hlooped.kept (hnodup.sublist (orders_storeAdvanced _ _)) _ _ hnext'
    unfold storeAdvanced
    rw [if_neg (by rw [hsome]; exact Bool.false_ne_true)]
    apply mem_map.mpr
    exact ⟨entry, hbuffered ▸ hentry, if_pos (advance_order entry).symm⟩

/-- An action that settles no send of the entry and leaves it in the buffer. -/
theorem Standing.keep (hs : Tidy s) (h : Standing o frames cards log s) (a : Action T M)
    (hnone : attempted o (step chunkAt serializedBytes s a).1 = [])
    (hkept : ∀ entry ∈ s.buffered, entry.order = o → entry.next?.isSome = true →
      entry ∈ (step chunkAt serializedBytes s a).2.buffered) :
    Standing o frames cards (log ++ attempted o (step chunkAt serializedBytes s a).1)
      (step chunkAt serializedBytes s a).2 := by
  rw [hnone, append_nil]
  obtain ⟨entry, hentry, horder, hinside, hsending⟩ := h
  have hentry' := hkept entry hentry horder hinside.next
  refine ⟨entry, hentry', horder, hinside, ?_⟩
  intro taskId message hdrain
  cases step_drain s a hdrain with
  | inl hold => exact hsending taskId message hold
  | inr hnew =>
    obtain ⟨other, hother, horder', hnext⟩ := hnew
    have heq : other = entry := (hs.step a).entry_eq hentry' hother (horder'.trans horder.symm)
    rw [← heq]
    exact hnext

/-- A send that settles while none is under way. -/
theorem Standing.idle (hs : Tidy s) (h : Standing o frames cards log s) (a : Action T M)
    (hsame : step chunkAt serializedBytes s a = (none, s)) :
    Standing o frames cards (log ++ attempted o (step chunkAt serializedBytes s a).1)
      (step chunkAt serializedBytes s a).2 := by
  apply h.keep hs
  · rw [hsame]
    rfl
  · intro entry hentry _ _
    rw [hsame]
    exact hentry

/-- The step lemma: the entry stands with its attempts, or its last message was sent and it
is gone. -/
theorem Standing.step {c : Config (Router T M) (Action T M) (Report M)} (hs : Tidy c.state)
    (h : Standing o frames cards log c.state) {a : Action T M} (ha : Undisturbed chunkAt serializedBytes o c a) :
    Standing o frames cards (log ++ attempted o (step chunkAt serializedBytes c.state a).1)
        (step chunkAt serializedBytes c.state a).2 ∨
      Finished o frames cards (log ++ attempted o (step chunkAt serializedBytes c.state a).1)
        (step chunkAt serializedBytes c.state a).2 := by
  have hbound : o < c.state.bufferOrder := by
    obtain ⟨entry, hentry, horder, _⟩ := h
    exact hs.bound o (mem_orders.mpr ⟨entry, hentry, horder⟩)
  have hpresent : o ∈ c.state.orders := by
    obtain ⟨entry, hentry, horder, _⟩ := h
    exact mem_orders.mpr ⟨entry, hentry, horder⟩
  cases a with
  | buffer taskId kind messages =>
    refine .inl (h.keep hs _ rfl ?_)
    intro entry hentry horder _
    have hmem : entry.order ∈ (bufferTaskOutput chunkAt serializedBytes c.state taskId kind messages).orders :=
      horder ▸ ha hpresent
    cases bufferTaskOutput_buffered chunkAt serializedBytes c.state taskId kind
        messages with
    | inl hsame =>
      show entry ∈ (bufferTaskOutput chunkAt serializedBytes c.state taskId kind messages).buffered
      rw [hsame]
      exact hentry
    | inr hnew => exact kept_of_orders hs _ rfl hnew.2.subset hentry hmem
  | remove taskId kind =>
    refine .inl (h.keep hs _ rfl ?_)
    intro entry hentry horder _
    have hmem : entry.order ∈ (removeBufferedTask c.state taskId kind).orders := horder ▸ ha hpresent
    exact kept_of_orders hs (newEntry chunkAt serializedBytes taskId .coarse [] c.state.bufferOrder) rfl
      (fun other hother => mem_append_left _ (mem_of_mem_filter hother)) hentry hmem
  | drain =>
    refine .inl (h.keep hs _ rfl ?_)
    intro entry hentry _ hnext
    show entry ∈ (drainBufferedOutput c.state).buffered
    unfold drainBufferedOutput
    split
    · exact hentry
    · split
      · exact hentry
      · exact (goOn_looped c.state).kept hs.nodup entry hentry hnext
  | sent =>
    cases hdrain : c.state.drain with
    | none =>
      refine .inl (h.idle hs _ ?_)
      rw [OutputBuffer.step, hdrain]
    | some d =>
      cases d with
      | ended =>
        refine .inl (h.idle hs _ ?_)
        rw [OutputBuffer.step, hdrain]
      | sending order taskId message =>
        by_cases heq : order = o
        · subst heq
          obtain ⟨entry, hentry, rfl, hinside, hsending⟩ := h
          have hnext := hsending taskId message hdrain
          obtain ⟨hgone, hstays⟩ := drainSent_entry serializedBytes hs taskId hentry hnext
          have hstep : OutputBuffer.step chunkAt serializedBytes c.state .sent =
              (some (entry.order, message, true), drainSent serializedBytes c.state entry.order taskId message) := by
            rw [OutputBuffer.step, hdrain]
          have htidy : Tidy (OutputBuffer.step chunkAt serializedBytes c.state .sent).2 := hs.step .sent
          rw [hstep] at htidy ⊢
          rw [attempted_self]
          cases hinside.sent serializedBytes hnext with
          | inl hlast =>
            right
            have hnot := hgone hlast.1
            refine ⟨?_, hnot, ?_, hlast.2⟩
            · have horders := drainSent_orders serializedBytes c.state entry.order taskId message
              show entry.order < (drainSent serializedBytes c.state entry.order taskId message).bufferOrder
              rw [horders.2]
              exact hbound
            · intro t m hsend
              obtain ⟨other, hother, horder', _⟩ := drainSent_sends c.state entry.order taskId message hsend
              exact hnot (mem_orders.mpr ⟨other, hother, horder'⟩)
          | inr hmore =>
            left
            have hmem := hstays hmore.1 hmore.2.next
            refine ⟨entry.advance serializedBytes, hmem, advance_order entry, hmore.2, ?_⟩
            intro t m hsend
            obtain ⟨other, hother, horder', hnext'⟩ := drainSent_sends c.state entry.order taskId message hsend
            have hsame : other = entry.advance serializedBytes :=
              htidy.entry_eq hmem hother (horder'.trans (advance_order entry).symm)
            rw [← hsame]
            exact hnext'
        · refine .inl (h.keep hs _ ?_ ?_)
          · rw [OutputBuffer.step, hdrain]
            exact attempted_other heq _
          · intro entry hentry horder hnext
            rw [OutputBuffer.step, hdrain]
            exact drainSent_kept hs order taskId message hentry (fun hsame => heq (hsame.symm.trans horder)) hnext
  | failed transient =>
    cases hdrain : c.state.drain with
    | none =>
      refine .inl (h.idle hs _ ?_)
      rw [OutputBuffer.step, hdrain]
    | some d =>
      cases d with
      | ended =>
        refine .inl (h.idle hs _ ?_)
        rw [OutputBuffer.step, hdrain]
      | sending order taskId message =>
        by_cases heq : order = o
        · subst heq
          cases transient with
          | true =>
            left
            obtain ⟨entry, hentry, rfl, hinside, hsending⟩ := h
            have hnext := hsending taskId message hdrain
            have hstep : OutputBuffer.step chunkAt serializedBytes c.state (.failed true) =
                (some (entry.order, message, false), drainFailed c.state entry.order taskId true) := by
              rw [OutputBuffer.step, hdrain]
            rw [hstep, attempted_self]
            refine ⟨{ entry with frameCursor := entry.frameCursor.map fun _ => 0 }, ?_, rfl, hinside.failed hnext, ?_⟩
            · exact mem_map.mpr ⟨entry, hentry, if_pos rfl⟩
            · intro t m hsend
              cases hsend
          | false =>
            have hmem := ha hpresent
            rw [OutputBuffer.step, hdrain] at hmem
            obtain ⟨other, hother, horder'⟩ := mem_orders.mp hmem
            have hdeleted := (goOn_looped _).buffered.subset hother
            exact absurd horder' (of_decide_eq_true (mem_filter.mp hdeleted).2)
        · refine .inl (h.keep hs _ ?_ ?_)
          · rw [OutputBuffer.step, hdrain]
            exact attempted_other heq _
          · intro entry hentry horder hnext
            rw [OutputBuffer.step, hdrain]
            exact drainFailed_kept hs order taskId transient hentry (fun hsame => heq (hsame.symm.trans horder)) hnext
  | settle =>
    have hstep : (OutputBuffer.step chunkAt serializedBytes c.state (.settle : Action T M)).1 = none ∧
        (OutputBuffer.step chunkAt serializedBytes c.state (.settle : Action T M)).2.buffered = c.state.buffered := by
      rw [OutputBuffer.step]
      split <;> exact ⟨rfl, rfl⟩
    refine .inl (h.keep hs _ ?_ ?_)
    · rw [hstep.1]
      rfl
    · intro entry hentry _ _
      rw [hstep.2]
      exact hentry
  | dispose => exact absurd (ha hpresent) not_mem_nil
  | activate | elsewhere => exact .inl (h.keep hs _ rfl fun entry hentry _ _ => hentry)

theorem Finished.step (h : Finished o frames cards log s) (a : Action T M) :
    Finished o frames cards (log ++ attempted o (step chunkAt serializedBytes s a).1)
      (step chunkAt serializedBytes s a).2 := by
  obtain ⟨hbound, hgone, hidle, hcomplete⟩ := h
  have hgone' : o ∉ (OutputBuffer.step chunkAt serializedBytes s a).2.orders := by
    intro hmem
    cases step_orders chunkAt serializedBytes s a with
    | inl hless => exact hgone (hless.1.subset hmem)
    | inr hmore =>
      have hold := hmore.1.subset hmem
      rw [mem_append, mem_singleton] at hold
      cases hold with
      | inl hin => exact hgone hin
      | inr hnew => omega
  have hnone : attempted o (OutputBuffer.step chunkAt serializedBytes s a).1 = [] := by
    cases a with
    | sent =>
      rw [OutputBuffer.step]
      split
      · rename_i order taskId message hdrain
        exact attempted_other (fun heq => hidle taskId message (by rw [← heq]; exact hdrain)) _
      · rfl
    | failed transient =>
      rw [OutputBuffer.step]
      split
      · rename_i order taskId message hdrain
        exact attempted_other (fun heq => hidle taskId message (by rw [← heq]; exact hdrain)) _
      · rfl
    | settle =>
      rw [OutputBuffer.step]
      split <;> rfl
    | buffer | remove | drain | dispose | activate | elsewhere => rfl
  rw [hnone, append_nil]
  refine ⟨?_, hgone', ?_, hcomplete⟩
  · cases step_orders chunkAt serializedBytes s a with
    | inl hless => exact lt_of_lt_of_le hbound hless.2
    | inr hmore =>
      rw [hmore.2]
      exact Nat.lt_succ_of_lt hbound
  · intro taskId message hsend
    cases step_drain s a hsend with
    | inl hold => exact hidle taskId message hold
    | inr hnew =>
      obtain ⟨entry, hentry, horder, _⟩ := hnew
      exact hgone' (mem_orders.mpr ⟨entry, hentry, horder⟩)

/-! ## Whole runs -/

theorem tidy_of_reach {allowed : Config (Router T M) (Action T M) (Report M) → Action T M → Prop}
    {c c' : Config (Router T M) (Action T M) (Report M)} (hreach : Reach (step chunkAt serializedBytes) allowed c c')
    (hc : Tidy c.state) : Tidy c'.state :=
  hreach.invariant (I := fun d => Tidy d.state) (fun _ a _ hd => hd.step a) hc

/-- From the moment the entry is buffered: while it is there, its frames since the last
failure are sent in order, or all of them and then its cards one after the other; and it is
gone exactly when everything was sent. -/
theorem snapshot_replayed {c d : Config (Router T M) (Action T M) (Report M)} {taskId : T}
    (hreach : Reach (step chunkAt serializedBytes) (fun _ _ => True) (start (Router.init T M)) c) (hne : frames ≠ [])
    (hchunk : (frames ++ cards).head?.bind chunkAt = some (0, frames.length))
    (hin : c.state.bufferOrder ∈ (step chunkAt serializedBytes c.state (.buffer taskId .terminal (frames ++ cards))).2.orders)
    (hrun : Reach (step chunkAt serializedBytes) (Undisturbed chunkAt serializedBytes c.state.bufferOrder)
      (start (step chunkAt serializedBytes c.state (.buffer taskId .terminal (frames ++ cards))).2) d) :
    (c.state.bufferOrder ∈ d.state.orders →
        (∃ k, k < frames.length ∧ InFrames frames k (attempts c.state.bufferOrder d.past)) ∨
        ∃ done item rest, cards = done ++ item :: rest ∧
          InItems frames done item (attempts c.state.bufferOrder d.past)) ∧
      (c.state.bufferOrder ∉ d.state.orders → Complete frames cards (attempts c.state.bufferOrder d.past)) := by
  have htidy : Tidy c.state := tidy_of_reach hreach tidy_init
  have hwhole : Tidy d.state ∧ (Standing c.state.bufferOrder frames cards (attempts c.state.bufferOrder d.past) d.state ∨
      Finished c.state.bufferOrder frames cards (attempts c.state.bufferOrder d.past) d.state) := by
    apply hrun.invariant (I := fun e => Tidy e.state ∧
      (Standing c.state.bufferOrder frames cards (attempts c.state.bufferOrder e.past) e.state ∨
        Finished c.state.bufferOrder frames cards (attempts c.state.bufferOrder e.past) e.state))
    · intro e a ha he
      refine ⟨he.1.step a, ?_⟩
      rw [advance_past, attempts_advance]
      cases he.2 with
      | inl hstanding => exact hstanding.step he.1 ha
      | inr hfinished => exact .inr (hfinished.step a)
    · exact ⟨htidy.step _, .inl (buffer_standing htidy hne hchunk hin)⟩
  constructor
  · intro hmem
    cases hwhole.2 with
    | inl hstanding =>
      obtain ⟨_, _, _, hinside, _⟩ := hstanding
      cases hinside with
      | inl hframes =>
        obtain ⟨k, hk, _, _, _, hlog⟩ := hframes
        exact .inl ⟨k, hk, hlog⟩
      | inr hcards =>
        obtain ⟨done, item, rest, hsplit, _, _, _, hlog⟩ := hcards
        exact .inr ⟨done, item, rest, hsplit, hlog⟩
    | inr hfinished => exact absurd hmem hfinished.2.1
  · intro hgone
    cases hwhole.2 with
    | inl hstanding =>
      obtain ⟨entry, hentry, horder, _⟩ := hstanding
      exact absurd (mem_orders.mpr ⟨entry, hentry, horder⟩) hgone
    | inr hfinished => exact hfinished.2.2.2

end Steps

/-- Messages 0 and 1 are the chunks of a snapshot. -/
def twoChunks : Nat → Option (Nat × Nat)
  | 0 => some (0, 2)
  | 1 => some (1, 2)
  | _ => none

/-- A drain that fails once at the second chunk and once at the card. -/
def twoFailures : List (Action Bool Nat) :=
  [.drain, .sent, .failed true, .settle, .drain, .sent, .sent, .failed true, .settle, .drain, .sent]

theorem snapshot_replayed_failures :
    Complete [0, 1] [7] (attempts 0 (exec (step twoChunks length)
      (start (step twoChunks length (Router.init Bool Nat) (.buffer true .terminal [0, 1, 7])).2) twoFailures).past) := by
  have hrun : Reach (step twoChunks length) (Undisturbed twoChunks length 0)
      (start (step twoChunks length (Router.init Bool Nat) (.buffer true .terminal [0, 1, 7])).2)
      (exec (step twoChunks length)
        (start (step twoChunks length (Router.init Bool Nat) (.buffer true .terminal [0, 1, 7])).2) twoFailures) :=
    reach_exec ⟨trivial, trivial, trivial, trivial, trivial, trivial, trivial, trivial, trivial, trivial, trivial, trivial⟩
  have hchunk : ([0, 1] ++ [7]).head?.bind twoChunks = some (0, [0, 1].length) := rfl
  exact (snapshot_replayed (Reach.refl (start (Router.init Bool Nat))) (by decide) hchunk (by decide) hrun).2 (by decide)

end ClawMessenger.Ports.OutputBuffer
