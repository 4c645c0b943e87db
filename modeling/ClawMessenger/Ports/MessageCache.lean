import ClawMessenger.Verified.Absorb
import Mathlib.Data.Finmap

/-!
# The door into the chat message caches

`packages/core/chat/message-cache.ts` writes one settled message into the flat
list and into the paged list of a session.  A row that is there keeps the
fields it defines and takes the others from the message, so what an upsert
does to it is `fill`, and two messages that agree on what they share fill in
either order (`fill_comm`).  A new row goes to the end of the list and to the
end of page 0.

A message has an id and, for each field that is not `undefined`, a value.
-/

namespace ClawMessenger.Ports.MessageCache

open Verified.Absorb List

variable {I K V C : Type} [DecidableEq I] [DecidableEq K]

structure ChatMessage (I K V : Type) where
  id : I
  fields : Finmap fun _ : K => V

structure ChatMessagesPage (I K V C : Type) where
  messages : List (ChatMessage I K V)
  limit : Nat
  has_more : Bool
  next_cursor : Option C

structure InfiniteData (I K V C : Type) where
  pages : List (ChatMessagesPage I K V C)
  pageParams : List (Option C)

/-- The row filled from the message, or `none` for the row itself when there
was nothing to fill. -/
def mergeChatMessage (existing incoming : ChatMessage I K V) : Option (ChatMessage I K V) :=
  if ∃ key ∈ incoming.fields.keys, key ∉ existing.fields then
    some { existing with fields := existing.fields ∪ incoming.fields }
  else none

/-- The list with its first row of this id merged, or `none` for the list
itself. -/
def mergeIntoList : List (ChatMessage I K V) → ChatMessage I K V →
    Option (List (ChatMessage I K V))
  | [], _ => none
  | m :: rest, message =>
    if m.id = message.id then (mergeChatMessage m message).map (· :: rest)
    else (mergeIntoList rest message).map (m :: ·)

def upsertIntoList (messages : List (ChatMessage I K V)) (message : ChatMessage I K V) :
    List (ChatMessage I K V) :=
  match mergeIntoList messages message with
  | some merged => merged
  | none =>
    if messages.any fun m => m.id = message.id then messages else messages ++ [message]

def upsertIntoPages (data : InfiniteData I K V C) (message : ChatMessage I K V) :
    InfiniteData I K V C :=
  if data.pages.any fun page => page.messages.any fun m => m.id = message.id then
    { data with
      pages := data.pages.map fun page =>
        match mergeIntoList page.messages message with
        | none => page
        | some next => { page with messages := next } }
  else
    { data with
      pages :=
        match data.pages with
        | [] => []
        | page :: older => { page with messages := page.messages ++ [message] } :: older }

def seedPage (message : ChatMessage I K V) : InfiniteData I K V C where
  pages := [{ messages := [message], limit := 50, has_more := false, next_cursor := none }]
  pageParams := [none]

/-- The two cache entries of one session. -/
structure Caches (I K V C : Type) where
  flat : Option (List (ChatMessage I K V))
  paged : Option (InfiniteData I K V C)

/-- The updater of the flat entry. -/
def flatUpdater (message : ChatMessage I K V) (seedIfMissing : Bool) :
    Option (List (ChatMessage I K V)) → Option (List (ChatMessage I K V))
  | none => if seedIfMissing then some [message] else none
  | some old => some (upsertIntoList old message)

/-- The updater of the paged entry; one without pages counts as missing. -/
def pagedUpdater (message : ChatMessage I K V) (seedIfMissing : Bool) :
    Option (InfiniteData I K V C) → Option (InfiniteData I K V C)
  | none => if seedIfMissing then some (seedPage message) else none
  | some old =>
    if old.pages.length = 0 then
      if seedIfMissing then some (seedPage message) else some old
    else some (upsertIntoPages old message)

def upsertChatMessageToCaches (caches : Caches I K V C) (message : ChatMessage I K V)
    (seedIfMissing : Bool) : Caches I K V C where
  flat := flatUpdater message seedIfMissing caches.flat
  paged := pagedUpdater message seedIfMissing caches.paged

/-! ## Filling a row -/

/-- The row with the fields it lacks taken from the message. -/
def fill (existing incoming : ChatMessage I K V) : ChatMessage I K V :=
  { existing with fields := existing.fields ∪ incoming.fields }

/-- The two records agree on the fields they share. -/
def Agree (a b : ChatMessage I K V) : Prop :=
  ∀ key v w, a.fields.lookup key = some v → b.fields.lookup key = some w → v = w

theorem lookup_union (s t : Finmap fun _ : K => V) (key : K) :
    (s ∪ t).lookup key = (s.lookup key).or (t.lookup key) := by
  by_cases h : key ∈ s
  · rw [Finmap.lookup_union_left h]
    obtain ⟨v, hv⟩ := Finmap.mem_iff.mp h
    simp [hv]
  · rw [Finmap.lookup_union_right h, Finmap.lookup_eq_none.mpr h, Option.none_or]

omit [DecidableEq I] in
theorem mergeChatMessage_getD (existing incoming : ChatMessage I K V) :
    (mergeChatMessage existing incoming).getD existing = fill existing incoming := by
  unfold mergeChatMessage fill
  by_cases h : ∃ key ∈ incoming.fields.keys, key ∉ existing.fields
  · rw [if_pos h, Option.getD_some]
  · rw [if_neg h, Option.getD_none]
    have hfields : existing.fields ∪ incoming.fields = existing.fields := by
      apply Finmap.ext_lookup
      intro key
      rw [lookup_union]
      by_cases hmem : key ∈ existing.fields
      · obtain ⟨v, hv⟩ := Finmap.mem_iff.mp hmem
        simp [hv]
      · have hnone : key ∉ incoming.fields := by
          intro hin
          exact h ⟨key, Finmap.mem_keys.mpr hin, hmem⟩
        rw [Finmap.lookup_eq_none.mpr hnone, Option.or_none]
    rw [hfields]

variable {a b : ChatMessage I K V} {messages : List (ChatMessage I K V)} {id : I}
  {c : Caches I K V C}

omit [DecidableEq I] in
theorem fill_comm (hagree : Agree a b) (r : ChatMessage I K V) :
    fill (fill r a) b = fill (fill r b) a := by
  have hfields : r.fields ∪ a.fields ∪ b.fields = r.fields ∪ b.fields ∪ a.fields := by
    apply Finmap.ext_lookup
    intro key
    have hkey := hagree key
    simp only [lookup_union]
    cases r.fields.lookup key <;> cases ha : a.fields.lookup key <;>
      cases hb : b.fields.lookup key <;> simp_all
  simp only [fill, hfields]

omit [DecidableEq I] in
theorem fill_swap (hagree : Agree a b) (hid : a.id = b.id) :
    fill a b = fill b a := by
  have hfields : a.fields ∪ b.fields = b.fields ∪ a.fields := by
    apply Finmap.ext_lookup
    intro key
    have hkey := hagree key
    simp only [lookup_union]
    cases ha : a.fields.lookup key <;> cases hb : b.fields.lookup key <;> simp_all
  simp only [fill, hfields, hid]

omit [DecidableEq I] in
theorem fill_idem (r a : ChatMessage I K V) : fill (fill r a) a = fill r a := by
  have hfields : r.fields ∪ a.fields ∪ a.fields = r.fields ∪ a.fields := by
    apply Finmap.ext_lookup
    intro key
    simp only [lookup_union]
    cases r.fields.lookup key <;> cases a.fields.lookup key <;> rfl
  simp only [fill, hfields]

omit [DecidableEq I] in
theorem fill_self (a : ChatMessage I K V) : fill a a = a := by
  have hfields : a.fields ∪ a.fields = a.fields := by
    apply Finmap.ext_lookup
    intro key
    simp [lookup_union]
  simp only [fill, hfields]

/-! ## One list -/

def ids (messages : List (ChatMessage I K V)) : List I := messages.map ChatMessage.id

/-- The list after `mergeIntoList`, whichever reference it returned. -/
def patched (messages : List (ChatMessage I K V)) (message : ChatMessage I K V) :
    List (ChatMessage I K V) :=
  (mergeIntoList messages message).getD messages

theorem patched_cons (m : ChatMessage I K V) (rest : List (ChatMessage I K V))
    (x : ChatMessage I K V) : patched (m :: rest) x =
      if m.id = x.id then fill m x :: rest else m :: patched rest x := by
  unfold patched
  rw [mergeIntoList]
  by_cases h : m.id = x.id
  · rw [if_pos h, if_pos h, ← mergeChatMessage_getD]
    cases mergeChatMessage m x <;> rfl
  · rw [if_neg h, if_neg h]
    cases mergeIntoList rest x <;> rfl

variable {x : ChatMessage I K V}

theorem mergeIntoList_of_notMem (h : x.id ∉ ids messages) : mergeIntoList messages x = none := by
  induction messages with
  | nil => rfl
  | cons m rest ih =>
    simp only [ids, map_cons, mem_cons, not_or] at h
    rw [mergeIntoList, if_neg (Ne.symm h.1), ih h.2]
    rfl

theorem patched_of_notMem (h : x.id ∉ ids messages) : patched messages x = messages := by
  rw [patched, mergeIntoList_of_notMem h, Option.getD_none]

omit [DecidableEq K] in
theorem any_id (messages : List (ChatMessage I K V)) (x : ChatMessage I K V) :
    (messages.any fun m => m.id = x.id) = decide (x.id ∈ ids messages) := by
  rw [Bool.eq_iff_iff, any_eq_true, decide_eq_true_eq, ids, mem_map]
  simp only [decide_eq_true_eq]

theorem upsertIntoList_eq (messages : List (ChatMessage I K V)) (x : ChatMessage I K V) :
    upsertIntoList messages x =
      if x.id ∈ ids messages then patched messages x else messages ++ [x] := by
  unfold upsertIntoList
  rw [any_id]
  by_cases h : x.id ∈ ids messages
  · rw [if_pos h, patched]
    cases mergeIntoList messages x <;> simp [h]
  · rw [if_neg h, mergeIntoList_of_notMem h]
    simp [h]

@[simp] theorem ids_patched (messages : List (ChatMessage I K V)) (x : ChatMessage I K V) :
    ids (patched messages x) = ids messages := by
  induction messages with
  | nil => rfl
  | cons m rest ih =>
    rw [patched_cons]
    split_ifs
    · rfl
    · exact congrArg (m.id :: ·) ih

theorem patched_comm (hagree : Agree a b) (hid : a.id = b.id)
    (messages : List (ChatMessage I K V)) :
    patched (patched messages a) b = patched (patched messages b) a := by
  induction messages with
  | nil => rfl
  | cons m rest ih =>
    by_cases h : m.id = b.id
    · have hfill (x : ChatMessage I K V) : (fill m x).id = b.id := h
      simp only [patched_cons, hid, h, hfill, if_true, fill_comm hagree]
    · simp only [patched_cons, hid, h, if_false, ih]

theorem patched_idem (messages : List (ChatMessage I K V)) (a : ChatMessage I K V) :
    patched (patched messages a) a = patched messages a := by
  induction messages with
  | nil => rfl
  | cons m rest ih =>
    by_cases h : m.id = a.id
    · have hfill : (fill m a).id = a.id := h
      simp only [patched_cons, h, hfill, if_true, fill_idem]
    · simp only [patched_cons, h, if_false, ih]

/-- A row appended by one message is filled by the next. -/
theorem patched_append (hid : a.id = b.id) (h : b.id ∉ ids messages) :
    patched (messages ++ [a]) b = messages ++ [fill a b] := by
  induction messages with
  | nil => simp [patched_cons, hid]
  | cons m rest ih =>
    simp only [ids, map_cons, mem_cons, not_or] at h
    rw [cons_append, patched_cons, if_neg (Ne.symm h.1), ih h.2]
    rfl

/-- Every row but those of the id. -/
def others (id : I) (messages : List (ChatMessage I K V)) : List (ChatMessage I K V) :=
  messages.filter fun m => m.id ≠ id

def row (id : I) (messages : List (ChatMessage I K V)) : Option (ChatMessage I K V) :=
  messages.find? fun m => m.id = id

/-- The row after the message: filled, or the message itself. -/
def rowWith (x : ChatMessage I K V) : Option (ChatMessage I K V) → ChatMessage I K V
  | none => x
  | some r => fill r x

theorem others_patched (messages : List (ChatMessage I K V)) (x : ChatMessage I K V) :
    others x.id (patched messages x) = others x.id messages := by
  induction messages with
  | nil => rfl
  | cons m rest ih =>
    rw [patched_cons]
    split_ifs with h
    · have hfill : (fill m x).id = x.id := h
      simp [others, h, hfill]
    · simpa [others, h] using ih

theorem row_patched (messages : List (ChatMessage I K V)) (x : ChatMessage I K V) :
    row x.id (patched messages x) = (row x.id messages).map (fill · x) := by
  induction messages with
  | nil => rfl
  | cons m rest ih =>
    rw [patched_cons]
    split_ifs with h
    · have hfill : (fill m x).id = x.id := h
      simp [row, h, hfill]
    · simpa [row, h] using ih

omit [DecidableEq K] in
theorem row_eq_none (h : id ∉ ids messages) :
    row id messages = none := by
  rw [row, find?_eq_none]
  intro m hm hid
  exact h (mem_map.mpr ⟨m, hm, of_decide_eq_true hid⟩)

omit [DecidableEq K] in
theorem row_isSome (h : id ∈ ids messages) :
    ∃ r, row id messages = some r := by
  obtain ⟨m, hm, hid⟩ := mem_map.mp h
  rw [← Option.isSome_iff_exists, row, find?_isSome]
  exact ⟨m, hm, decide_eq_true hid⟩

/-! ## Pages -/

def allMessages (pages : List (ChatMessagesPage I K V C)) : List (ChatMessage I K V) :=
  pages.flatMap ChatMessagesPage.messages

def patchPage (x : ChatMessage I K V) (page : ChatMessagesPage I K V C) :
    ChatMessagesPage I K V C :=
  { page with messages := patched page.messages x }

/-- What an upsert does to a paged cache that has a page. -/
def upsertPages (x : ChatMessage I K V) (page : ChatMessagesPage I K V C)
    (older : List (ChatMessagesPage I K V C)) : List (ChatMessagesPage I K V C) :=
  if x.id ∈ ids (allMessages (page :: older)) then (page :: older).map (patchPage x)
  else { page with messages := page.messages ++ [x] } :: older

theorem upsertIntoPages_eq (x : ChatMessage I K V) (page : ChatMessagesPage I K V C)
    (older : List (ChatMessagesPage I K V C)) (params : List (Option C)) :
    upsertIntoPages ⟨page :: older, params⟩ x = ⟨upsertPages x page older, params⟩ := by
  have hseen (pages : List (ChatMessagesPage I K V C)) :
      (pages.any fun page => page.messages.any fun m => m.id = x.id)
        = decide (x.id ∈ ids (allMessages pages)) := by
    rw [← any_id, allMessages, any_flatMap]
  have hpatch (page : ChatMessagesPage I K V C) :
      (match mergeIntoList page.messages x with
        | none => page
        | some next => { page with messages := next }) = patchPage x page := by
    unfold patchPage patched
    cases mergeIntoList page.messages x <;> rfl
  unfold upsertIntoPages upsertPages
  simp only [hseen, hpatch, decide_eq_true_eq]
  split_ifs <;> rfl

theorem ids_map_patchPage (x : ChatMessage I K V) (pages : List (ChatMessagesPage I K V C)) :
    ids (allMessages (pages.map (patchPage x))) = ids (allMessages pages) := by
  induction pages with
  | nil => rfl
  | cons page older ih =>
    simp only [allMessages, map_cons, flatMap_cons, ids, map_append] at ih ⊢
    rw [ih]
    exact congrArg (· ++ _) (ids_patched page.messages x)

theorem map_patchPage_of_notMem {pages : List (ChatMessagesPage I K V C)}
    (h : x.id ∉ ids (allMessages pages)) : pages.map (patchPage x) = pages := by
  induction pages with
  | nil => rfl
  | cons page older ih =>
    simp only [allMessages, flatMap_cons, ids, map_append, mem_append,
      not_or] at h ih
    have hpage : patchPage x page = page := by
      rw [patchPage, patched_of_notMem h.1]
    rw [map_cons, hpage, ih h.2]

/-- Two messages of one id, one after the other, on a cache with a page. -/
theorem upsertPages_twice (hid : a.id = b.id) (page : ChatMessagesPage I K V C)
    (older : List (ChatMessagesPage I K V C)) :
    ∃ page' older', upsertPages a page older = page' :: older' ∧
      upsertPages b page' older' =
        if b.id ∈ ids (allMessages (page :: older)) then
          (page :: older).map fun p => patchPage b (patchPage a p)
        else { page with messages := page.messages ++ [fill a b] } :: older := by
  by_cases h : b.id ∈ ids (allMessages (page :: older))
  · refine ⟨patchPage a page, older.map (patchPage a), ?_, ?_⟩
    · rw [upsertPages, hid, if_pos h, map_cons]
    · have hkept : b.id ∈ ids (allMessages (patchPage a page :: older.map (patchPage a))) := by
        rw [← map_cons, ids_map_patchPage]
        exact h
      rw [upsertPages, if_pos hkept, if_pos h, ← map_cons, map_map]
      rfl
  · refine ⟨{ page with messages := page.messages ++ [a] }, older, ?_, ?_⟩
    · rw [upsertPages, hid, if_neg h]
    · simp only [allMessages, flatMap_cons, ids, map_append, mem_append,
        not_or] at h
      have hfound : b.id ∈ ids (allMessages
          ({ page with messages := page.messages ++ [a] } :: older)) := by
        simp [allMessages, ids, hid]
      rw [upsertPages, if_pos hfound, if_neg (by simpa [allMessages, ids] using h), map_cons,
        map_patchPage_of_notMem h.2, patchPage, patched_append hid h.1]

/-! ## Two upserts of one id -/

theorem upsertIntoList_twice (hid : a.id = b.id) (messages : List (ChatMessage I K V)) :
    upsertIntoList (upsertIntoList messages a) b =
      if b.id ∈ ids messages then patched (patched messages a) b
      else messages ++ [fill a b] := by
  rw [upsertIntoList_eq messages a, hid]
  by_cases h : b.id ∈ ids messages
  · rw [if_pos h, if_pos h, upsertIntoList_eq, if_pos (by rwa [ids_patched])]
  · have hfound : b.id ∈ ids (messages ++ [a]) := by simp [ids, hid]
    rw [if_neg h, if_neg h, upsertIntoList_eq, if_pos hfound, patched_append hid h]

theorem flatUpdater_comm {s t : Bool} (hid : a.id = b.id) (hagree : Agree a b)
    {old : Option (List (ChatMessage I K V))} (h : old ≠ none ∨ s = t) :
    flatUpdater b t (flatUpdater a s old) = flatUpdater a s (flatUpdater b t old) := by
  cases old with
  | some messages =>
    simp only [flatUpdater]
    rw [upsertIntoList_twice hid, upsertIntoList_twice hid.symm, hid, patched_comm hagree hid,
      fill_swap hagree hid]
  | none =>
    obtain rfl := h.resolve_left (fun h => h rfl)
    cases s with
    | false => rfl
    | true =>
      have hone (x y : ChatMessage I K V) (h : x.id = y.id) :
          upsertIntoList [x] y = [fill x y] := by
        simp [upsertIntoList_eq, ids, h, patched_cons]
      simp only [flatUpdater, if_true]
      rw [hone a b hid, hone b a hid.symm, fill_swap hagree hid]

theorem flatUpdater_idem (a : ChatMessage I K V) (s : Bool)
    (old : Option (List (ChatMessage I K V))) :
    flatUpdater a s (flatUpdater a s old) = flatUpdater a s old := by
  cases old with
  | some messages =>
    simp only [flatUpdater]
    rw [upsertIntoList_twice rfl, upsertIntoList_eq, patched_idem, fill_self]
  | none =>
    cases s with
    | false => rfl
    | true => simp [flatUpdater, upsertIntoList_eq, ids, patched_cons, fill_self]

theorem pagedUpdater_pages (a : ChatMessage I K V) (s : Bool) (page : ChatMessagesPage I K V C)
    (older : List (ChatMessagesPage I K V C)) (params : List (Option C)) :
    pagedUpdater a s (some ⟨page :: older, params⟩) = some ⟨upsertPages a page older, params⟩ := by
  rw [pagedUpdater, if_neg (by simp), upsertIntoPages_eq]

theorem pagedUpdater_seeded (hid : a.id = b.id) (s : Bool) :
    pagedUpdater (C := C) b s (some (seedPage a)) = some (seedPage (fill a b)) := by
  rw [seedPage, pagedUpdater_pages]
  simp [upsertPages, allMessages, ids, hid, patchPage, patched_cons, seedPage]

theorem pagedUpdater_comm {s t : Bool} (hid : a.id = b.id) (hagree : Agree a b)
    {old : Option (InfiniteData I K V C)}
    (h : (∃ page older params, old = some ⟨page :: older, params⟩) ∨ s = t) :
    pagedUpdater b t (pagedUpdater a s old) = pagedUpdater a s (pagedUpdater b t old) := by
  have hmissing (old : Option (InfiniteData I K V C))
      (hold : ∀ (x : ChatMessage I K V) s,
        pagedUpdater x s old = if s then some (seedPage x) else old) (hst : s = t) :
      pagedUpdater b t (pagedUpdater a s old) = pagedUpdater a s (pagedUpdater b t old) := by
    subst hst
    cases s with
    | false => simp [hold]
    | true =>
      simp only [hold, if_true]
      rw [pagedUpdater_seeded hid, pagedUpdater_seeded hid.symm, fill_swap hagree hid]
  rcases old with _ | ⟨_ | ⟨page, older⟩, params⟩
  · exact hmissing none (fun x s => rfl) (h.resolve_left (by simp))
  · exact hmissing _ (fun x s => by simp [pagedUpdater]) (h.resolve_left (by simp))
  · obtain ⟨page₁, older₁, hfirst, hthen⟩ := upsertPages_twice hid page older
    obtain ⟨page₂, older₂, hfirst', hthen'⟩ := upsertPages_twice hid.symm page older
    rw [pagedUpdater_pages, pagedUpdater_pages, hfirst, hfirst', pagedUpdater_pages,
      pagedUpdater_pages, hthen, hthen', hid, fill_swap hagree hid]
    simp only [patchPage, patched_comm hagree hid]

theorem pagedUpdater_idem (a : ChatMessage I K V) (s : Bool) (old : Option (InfiniteData I K V C)) :
    pagedUpdater a s (pagedUpdater a s old) = pagedUpdater a s old := by
  have hmissing (old : Option (InfiniteData I K V C))
      (hold : ∀ s, pagedUpdater a s old = if s then some (seedPage a) else old) :
      pagedUpdater a s (pagedUpdater a s old) = pagedUpdater a s old := by
    cases s with
    | false => simp [hold]
    | true =>
      simp only [hold, if_true]
      rw [pagedUpdater_seeded rfl, fill_self]
  rcases old with _ | ⟨_ | ⟨page, older⟩, params⟩
  · exact hmissing none fun s => rfl
  · exact hmissing _ fun s => by simp [pagedUpdater]
  · obtain ⟨page₁, older₁, hfirst, hthen⟩ := upsertPages_twice (rfl : a.id = a.id) page older
    have hpatch (p : ChatMessagesPage I K V C) : patchPage a (patchPage a p) = patchPage a p := by
      simp only [patchPage, patched_idem]
    rw [pagedUpdater_pages, hfirst, pagedUpdater_pages, hthen, ← hfirst, fill_self, upsertPages]
    simp only [hpatch]

/-! ## Runs -/

/-- One call of `upsertChatMessageToCaches`. -/
structure Upsert (I K V : Type) where
  message : ChatMessage I K V
  seedIfMissing : Bool

def upsert (c : Caches I K V C) (u : Upsert I K V) : Caches I K V C :=
  upsertChatMessageToCaches c u.message u.seedIfMissing

def run (c : Caches I K V C) (l : List (Upsert I K V)) : Caches I K V C := l.foldl upsert c

/-- Ids are unique in the flat list and across all pages. -/
def Unique (c : Caches I K V C) : Prop :=
  (∀ messages, c.flat = some messages → (ids messages).Nodup) ∧
  ∀ data, c.paged = some data → (ids (allMessages data.pages)).Nodup

/-- Nothing but rows of this id changed: each entry is still there and has the
other rows it had, in the same order. -/
def Keeps (id : I) (c c' : Caches I K V C) : Prop :=
  (∀ messages, c.flat = some messages →
    ∃ messages', c'.flat = some messages' ∧ others id messages' = others id messages) ∧
  ∀ data, c.paged = some data → ∃ data', c'.paged = some data' ∧
    others id (allMessages data'.pages) = others id (allMessages data.pages)

/-- The flat list is there, and the paged one with at least one page. -/
def Ready (c : Caches I K V C) : Prop :=
  (∃ messages, c.flat = some messages) ∧
  ∃ page older params, c.paged = some ⟨page :: older, params⟩

/-- The row of an id in each entry. -/
def rows (id : I) (c : Caches I K V C) :
    Option (ChatMessage I K V) × Option (ChatMessage I K V) :=
  (c.flat.bind (row id), c.paged.bind fun data => row id (allMessages data.pages))

/-- Upserts of one id whose records agree. -/
structure Agreeing (id : I) (l : List (Upsert I K V)) : Prop where
  same : ∀ u ∈ l, u.message.id = id
  agree : ∀ u ∈ l, ∀ v ∈ l, Agree u.message v.message

theorem nodup_upsertIntoList (h : (ids messages).Nodup)
    (x : ChatMessage I K V) : (ids (upsertIntoList messages x)).Nodup := by
  rw [upsertIntoList_eq]
  split_ifs with hmem
  · rwa [ids_patched]
  · rw [ids, map_append, nodup_append_comm]
    exact nodup_cons.mpr ⟨hmem, h⟩

theorem others_upsertIntoList (messages : List (ChatMessage I K V)) (x : ChatMessage I K V) :
    others x.id (upsertIntoList messages x) = others x.id messages := by
  rw [upsertIntoList_eq]
  split_ifs with hmem
  · exact others_patched messages x
  · simp [others]

theorem row_upsertIntoList (messages : List (ChatMessage I K V)) (x : ChatMessage I K V) :
    row x.id (upsertIntoList messages x) = some (rowWith x (row x.id messages)) := by
  rw [upsertIntoList_eq]
  split_ifs with hmem
  · obtain ⟨r, hr⟩ := row_isSome hmem
    rw [row_patched, hr]
    rfl
  · have hnone := row_eq_none hmem
    rw [hnone]
    rw [row] at hnone ⊢
    rw [find?_append, hnone]
    simp [rowWith]

theorem allMessages_map_patchPage (x : ChatMessage I K V)
    (pages : List (ChatMessagesPage I K V C)) :
    others x.id (allMessages (pages.map (patchPage x))) = others x.id (allMessages pages) ∧
    row x.id (allMessages (pages.map (patchPage x)))
      = (row x.id (allMessages pages)).map (fill · x) := by
  induction pages with
  | nil => exact ⟨rfl, rfl⟩
  | cons page older ih =>
    have hothers := others_patched page.messages x
    have hrow := row_patched page.messages x
    simp only [allMessages, others, row, map_cons, flatMap_cons, filter_append,
      find?_append, patchPage] at ih hothers hrow ⊢
    refine ⟨by rw [hothers, ih.1], ?_⟩
    rw [hrow, ih.2]
    cases find? (fun m => decide (m.id = x.id)) page.messages <;> rfl

theorem upsertPages_spec (x : ChatMessage I K V) (page : ChatMessagesPage I K V C)
    (older : List (ChatMessagesPage I K V C)) :
    let before := allMessages (page :: older)
    let after := allMessages (upsertPages x page older)
    ((ids before).Nodup → (ids after).Nodup) ∧ others x.id after = others x.id before ∧
      row x.id after = some (rowWith x (row x.id before)) := by
  unfold upsertPages
  split_ifs with hmem
  · obtain ⟨r, hr⟩ := row_isSome hmem
    obtain ⟨hothers, hrow⟩ := allMessages_map_patchPage x (page :: older)
    refine ⟨fun h => by rwa [ids_map_patchPage], hothers, ?_⟩
    rw [hrow, hr]
    rfl
  · have hnone := row_eq_none hmem
    refine ⟨fun h => ?_, ?_, ?_⟩
    · simp only [allMessages, flatMap_cons, ids, map_append, append_assoc,
        map_cons, map_nil] at h hmem ⊢
      exact perm_middle.nodup_iff.mpr (nodup_cons.mpr ⟨hmem, h⟩)
    · simp [allMessages, others]
    · rw [hnone]
      simp only [allMessages, row, flatMap_cons, find?_append, Option.or_eq_none_iff]
        at hnone ⊢
      simp [hnone.1, rowWith]

/-! ## One step -/

theorem Ready.upsert (h : Ready c) (u : Upsert I K V) :
    Ready (upsert c u) := by
  obtain ⟨⟨messages, hflat⟩, page, older, params, hpaged⟩ := h
  refine ⟨⟨upsertIntoList messages u.message, ?_⟩, ?_⟩
  · simp [MessageCache.upsert, upsertChatMessageToCaches, hflat, flatUpdater]
  · obtain ⟨page', older', hpages, _⟩ := upsertPages_twice (rfl : u.message.id = u.message.id) page older
    refine ⟨page', older', params, ?_⟩
    simp only [MessageCache.upsert, upsertChatMessageToCaches, hpaged, pagedUpdater_pages, hpages]

theorem Unique.upsert (h : Unique c) (u : Upsert I K V) :
    Unique (upsert c u) := by
  have hseed : (ids (allMessages (C := C) (seedPage u.message).pages)).Nodup := by
    simp [seedPage, allMessages, ids]
  refine ⟨fun messages hflat => ?_, fun data hpaged => ?_⟩
  · cases hc : c.flat with
    | none =>
      simp only [MessageCache.upsert, upsertChatMessageToCaches, hc, flatUpdater] at hflat
      split_ifs at hflat
      cases hflat
      simp [ids]
    | some old =>
      simp only [MessageCache.upsert, upsertChatMessageToCaches, hc, flatUpdater] at hflat
      cases hflat
      exact nodup_upsertIntoList (h.1 old hc) u.message
  · simp only [MessageCache.upsert, upsertChatMessageToCaches] at hpaged
    rcases hc : c.paged with _ | ⟨_ | ⟨page, older⟩, params⟩
    · simp only [hc, pagedUpdater] at hpaged
      split_ifs at hpaged
      cases hpaged
      exact hseed
    · simp only [hc, pagedUpdater, length_nil, if_true] at hpaged
      split_ifs at hpaged <;> cases hpaged
      · exact hseed
      · exact nodup_nil
    · rw [hc, pagedUpdater_pages] at hpaged
      cases hpaged
      exact (upsertPages_spec u.message page older).1 (h.2 _ hc)

theorem keeps_upsert (c : Caches I K V C) (u : Upsert I K V) :
    Keeps u.message.id c (upsert c u) := by
  refine ⟨fun messages hflat => ?_, fun data hpaged => ?_⟩
  · refine ⟨upsertIntoList messages u.message, ?_, others_upsertIntoList messages u.message⟩
    simp [upsert, upsertChatMessageToCaches, hflat, flatUpdater]
  · rcases data with ⟨_ | ⟨page, older⟩, params⟩
    · simp only [upsert, upsertChatMessageToCaches, hpaged, pagedUpdater,
        length_nil, if_true]
      cases u.seedIfMissing with
      | false => exact ⟨_, rfl, rfl⟩
      | true => exact ⟨_, rfl, by simp [seedPage, allMessages, others]⟩
    · refine ⟨⟨upsertPages u.message page older, params⟩, ?_,
        (upsertPages_spec u.message page older).2.1⟩
      simp only [upsert, upsertChatMessageToCaches, hpaged, pagedUpdater_pages]

/-- Both entries do the same to their row; a missing one that is seeded had none. -/
theorem rows_upsert (u : Upsert I K V) (h : Ready c ∨ u.seedIfMissing = true) :
    rows u.message.id (upsert c u) = (some (rowWith u.message (rows u.message.id c).1),
      some (rowWith u.message (rows u.message.id c).2)) := by
  have hseeded (hmissing : ¬Ready c) : u.seedIfMissing = true := h.resolve_left hmissing
  have hseed : row u.message.id (allMessages (seedPage (C := C) u.message).pages) =
      some (rowWith u.message none) := by
    simp [seedPage, allMessages, row, rowWith]
  apply Prod.ext
  · show (flatUpdater u.message u.seedIfMissing c.flat).bind _ = _
    cases hflat : c.flat with
    | none =>
      rw [hseeded (by simp [Ready, hflat])]
      simp [flatUpdater, rows, row, rowWith, hflat]
    | some messages => simp [flatUpdater, rows, hflat, row_upsertIntoList]
  · show (pagedUpdater u.message u.seedIfMissing c.paged).bind _ = _
    rcases hpaged : c.paged with _ | ⟨_ | ⟨page, older⟩, params⟩
    · rw [hseeded (by simp [Ready, hpaged])]
      simp [pagedUpdater, rows, hpaged, hseed]
    · rw [hseeded (by simp [Ready, hpaged])]
      have hnone : row u.message.id (allMessages ([] : List (ChatMessagesPage I K V C))) = none := rfl
      simp [pagedUpdater, rows, hpaged, hseed, hnone]
    · simp [pagedUpdater_pages, rows, hpaged, (upsertPages_spec u.message page older).2.2]

/-! ## Whole runs -/

theorem Unique.run (h : Unique c) (l : List (Upsert I K V)) :
    Unique (run c l) := by
  induction l generalizing c with
  | nil => exact h
  | cons u l ih => exact ih (h.upsert u)

variable {l : List (Upsert I K V)}

theorem keeps_run (c : Caches I K V C) (hl : ∀ u ∈ l, u.message.id = id) :
    Keeps id c (run c l) := by
  induction l generalizing c with
  | nil => exact ⟨fun messages h => ⟨messages, h, rfl⟩, fun data h => ⟨data, h, rfl⟩⟩
  | cons u l ih =>
    have hfirst := keeps_upsert c u
    rw [hl u mem_cons_self] at hfirst
    have hrest := ih (upsert c u) fun v hv => hl v (mem_cons_of_mem _ hv)
    refine ⟨fun messages h => ?_, fun data h => ?_⟩
    · obtain ⟨messages₁, h₁, hsame₁⟩ := hfirst.1 messages h
      obtain ⟨messages₂, h₂, hsame₂⟩ := hrest.1 messages₁ h₁
      exact ⟨messages₂, h₂, hsame₂.trans hsame₁⟩
    · obtain ⟨data₁, h₁, hsame₁⟩ := hfirst.2 data h
      obtain ⟨data₂, h₂, hsame₂⟩ := hrest.2 data₁ h₁
      exact ⟨data₂, h₂, hsame₂.trans hsame₁⟩

theorem rows_run (h : Ready c ∨ ∀ u ∈ l, u.seedIfMissing = true) (hl : ∀ u ∈ l, u.message.id = id)
    (hsame : (rows id c).1 = (rows id c).2) :
    (rows id (run c l)).1 = (rows id (run c l)).2 := by
  induction l generalizing c with
  | nil => exact hsame
  | cons u l ih =>
    have hrows := rows_upsert u (h.imp (fun h => h) fun hseed => hseed u mem_cons_self)
    rw [hl u mem_cons_self] at hrows
    exact ih (h.imp (fun hready => hready.upsert u) fun hseed v hv => hseed v (mem_cons_of_mem _ hv))
      (fun v hv => hl v (mem_cons_of_mem _ hv)) (by rw [hrows, hsame])

/-- Agreeing upserts commute and absorb their repetitions where both entries
are there, or where all of them treat a missing entry alike. -/
theorem Agreeing.absorbs (hl : Agreeing id l) (alike : Prop)
    (halike : alike → ∃ seed, ∀ u ∈ l, u.seedIfMissing = seed) :
    Absorbs (upsert (C := C)) (fun c => Ready c ∨ alike) (· ∈ l) where
  keeps := by
    intro c u h _
    exact h.imp (fun hready => hready.upsert u) (fun h => h)
  comm := by
    intro c u v h hu hv
    have hid : u.message.id = v.message.id := (hl.same u hu).trans (hl.same v hv).symm
    have hagree := hl.agree u hu v hv
    have hseed : alike → u.seedIfMissing = v.seedIfMissing := by
      intro ha
      obtain ⟨seed, hseed⟩ := halike ha
      exact (hseed u hu).trans (hseed v hv).symm
    have hloaded : c.flat ≠ none ∨ u.seedIfMissing = v.seedIfMissing := by
      refine h.imp (fun hready => ?_) hseed
      obtain ⟨⟨messages, hflat⟩, _⟩ := hready
      simp [hflat]
    have hflat := flatUpdater_comm hid hagree hloaded
    have hpages := h.imp (fun hready => hready.2) hseed
    have hpaged := pagedUpdater_comm hid hagree hpages
    simp only [upsert, upsertChatMessageToCaches, hflat, hpaged]
  idem := by
    intro c u _ _
    simp only [upsert, upsertChatMessageToCaches, flatUpdater_idem, pagedUpdater_idem]

/-- Ids stay unique, no other row changes, the row ends the same in both
entries if it began so and each entry is there or seeded, and a message upserted again changes nothing.  Where
both entries are there, or all upserts seed alike, the caches depend only on
which upserts arrived. -/
theorem upserts_converge (id : I) (c : Caches I K V C) (hunique : Unique c)
    (l : List (Upsert I K V)) (hl : Agreeing id l) :
    Unique (run c l) ∧ Keeps id c (run c l) ∧
    ((Ready c ∨ ∀ u ∈ l, u.seedIfMissing = true) → (rows id c).1 = (rows id c).2 →
      (rows id (run c l)).1 = (rows id (run c l)).2) ∧
    (∀ u, upsert (upsert c u) u = upsert c u) ∧
    ((Ready c ∨ ∃ seed, ∀ u ∈ l, u.seedIfMissing = seed) →
      (∀ l', (∀ u, u ∈ l' ↔ u ∈ l) → run c l' = run c l) ∧
      ∀ u ∈ l, upsert (run c l) u = run c l) := by
  refine ⟨hunique.run l, keeps_run c hl.same, fun h => rows_run h hl.same, fun u => ?_,
    fun h => ?_⟩
  · simp only [upsert, upsertChatMessageToCaches, flatUpdater_idem, pagedUpdater_idem]
  · have habsorbs := hl.absorbs (C := C) _ (fun ha => ha)
    exact ⟨fun l' hsame => habsorbs.foldl_eq (fun u hu => hu) hsame h,
      fun u hu => habsorbs.foldl_idem l (fun u hu => hu) h hu⟩

/-- The reply of a send and its echo on the socket, with a field each. -/
def reply : Upsert Nat Nat Nat := ⟨⟨0, Finmap.singleton 0 5⟩, true⟩

def echo : Upsert Nat Nat Nat := ⟨⟨0, Finmap.singleton 1 7⟩, false⟩

theorem agreeing_reply_echo : Agreeing 0 [reply, echo] where
  same := by
    intro u hu
    simp only [mem_cons, not_mem_nil, or_false] at hu
    rcases hu with rfl | rfl <;> rfl
  agree := by
    intro u hu v hv key a b ha hb
    simp only [mem_cons, not_mem_nil, or_false] at hu hv
    have hkey {u : Upsert Nat Nat Nat} {a : Nat} (h : u.message.fields.lookup key = some a) :
        key ∈ u.message.fields := Finmap.mem_of_lookup_eq_some h
    rcases hu with rfl | rfl <;> rcases hv with rfl | rfl <;>
      first
      | exact Option.some.inj (ha.symm.trans hb)
      | exact absurd ((Finmap.mem_singleton _ _ _).mp (hkey ha)).symm
          (by rw [(Finmap.mem_singleton _ _ _).mp (hkey hb)]; decide)

/-- Two entries of an open session, with one older row. -/
def opened : Caches Nat Nat Nat Nat where
  flat := some [⟨3, ∅⟩]
  paged := some ⟨[⟨[⟨3, ∅⟩], 50, false, none⟩], [none]⟩

theorem upserts_converge_opened :
    run opened [echo, reply, echo] = run opened [reply, echo] := by
  have hunique : Unique opened := by
    refine ⟨fun messages h => ?_, fun data h => ?_⟩ <;> cases h <;> decide
  have hready : Ready opened := ⟨⟨_, rfl⟩, _, _, _, rfl⟩
  obtain ⟨_, _, _, _, horder⟩ := upserts_converge 0 opened hunique _ agreeing_reply_echo
  exact (horder (.inl hready)).1 _ (by simp)

/-- A paged entry without pages counts as missing: the echo before the reply
is dropped, the echo after it is merged. -/
theorem upserts_diverge :
    ¬ ∀ (c : Caches Nat Nat Nat Nat) (l l' : List (Upsert Nat Nat Nat)), Unique c →
      Agreeing 0 l → (∀ u, u ∈ l' ↔ u ∈ l) → run c l' = run c l := by
  intro h
  have hunique : Unique (⟨some [], some ⟨[], []⟩⟩ : Caches Nat Nat Nat Nat) := by
    refine ⟨fun messages h => ?_, fun data h => ?_⟩ <;> cases h <;> decide
  have hsame := h ⟨some [], some ⟨[], []⟩⟩ [reply, echo] [echo, reply] hunique agreeing_reply_echo
    (by simp [or_comm])
  have hkeys := congrArg (fun c => c.paged.map fun data =>
    (allMessages data.pages).map fun m => m.fields.keys.card) hsame
  revert hkeys
  decide

end ClawMessenger.Ports.MessageCache
