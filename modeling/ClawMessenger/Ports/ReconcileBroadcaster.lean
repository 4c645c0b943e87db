import ClawMessenger.Verified.Machine

/-!
# The broadcaster of reconciliation signals

`reconcileBroadcaster` of `server/internal/daemon/reconcile.go` with the loops that wait on
its channels.  A channel is a number; `closed` lists those that were closed.  A broadcast
that fires closes the channel of the loops that wait and sets a replay flag, and the next
call of `notify` takes the flag and returns a channel that is already closed.

A `Ledger` counts what the loops get of each broadcast: which of them it wakes, and to which
it is replayed.  The flag is set whether or not a loop was waiting; `awaited_once` says that
each broadcast is delivered once in the runs where a broadcast that found a waiting loop is
followed, before the next call of `notify`, by one that found none.
-/

namespace ClawMessenger.Ports.ReconcileBroadcaster

open Verified Verified.Machine List

/-! ## The broadcaster -/

/-- Times are nanoseconds since the zero time. -/
structure Broadcaster where
  ch : Nat
  pending : Bool
  lastBroadcast : Int
  closed : List Nat
  /-- The next channel that is made. -/
  next : Nat

def newReconcileBroadcaster : Broadcaster := ⟨0, false, 0, [], 1⟩

def notify (b : Broadcaster) : Nat × Broadcaster :=
  if b.pending then (b.next, { b with pending := false, closed := b.next :: b.closed, next := b.next + 1 })
  else (b.ch, b)

def broadcast (minBroadcastInterval now : Int) (b : Broadcaster) : Bool × Broadcaster :=
  if b.lastBroadcast ≠ 0 ∧ now - b.lastBroadcast < minBroadcastInterval then (false, b)
  else
    (true, { b with
      lastBroadcast := now
      pending := true
      closed := b.ch :: b.closed
      ch := b.next
      next := b.next + 1 })

/-! ## Loops -/

variable {L : Type} [DecidableEq L]

structure System (L : Type) where
  broadcaster : Broadcaster
  /-- The channel that each loop holds. -/
  held : List (L × Nat)

def System.init (L : Type) : System L := ⟨newReconcileBroadcaster, []⟩

/-- The loops whose channel is open. -/
def System.waiting (s : System L) : List L :=
  (s.held.filter fun entry => entry.2 ∉ s.broadcaster.closed).map Prod.fst

inductive Action (L : Type) where
  /-- A loop that holds no channel calls `notify` and waits. -/
  | notify (l : L)
  /-- A loop whose channel is closed goes on. -/
  | wake (l : L)
  | broadcast (now : Int)

inductive Event (L : Type) where
  /-- A broadcast fired while these loops were waiting. -/
  | fired (waiting : List L)
  /-- A loop was given a channel that is already closed. -/
  | replayed (l : L)
  /-- A loop was given the channel that the next broadcast closes. -/
  | waits (l : L)

def step (minBroadcastInterval : Int) (s : System L) : Action L → Option (Event L) × System L
  | .notify l =>
    if l ∈ s.held.map Prod.fst then (none, s)
    else
      let answer := notify s.broadcaster
      (some (if answer.1 ∈ answer.2.closed then .replayed l else .waits l), ⟨answer.2, (l, answer.1) :: s.held⟩)
  | .wake l =>
    (none, { s with held := s.held.filter fun entry => decide (entry.1 ≠ l ∨ entry.2 ∉ s.broadcaster.closed) })
  | .broadcast now =>
    let answer := broadcast minBroadcastInterval now s.broadcaster
    (if answer.1 then some (.fired s.waiting) else none, { s with broadcaster := answer.2 })

/-! ## What the loops get -/

/-- Broadcasts are numbered in the order in which they fire. -/
structure Ledger (L : Type) where
  fired : Nat
  /-- Fired while no loop was waiting, and not replayed yet. -/
  unseen : List Nat
  /-- The loops whose channel a broadcast closed. -/
  closes : List (L × Nat)
  /-- The loops that a broadcast was replayed to. -/
  replays : List (L × Nat)

def Ledger.empty (L : Type) : Ledger L := ⟨0, [], [], []⟩

/-- A replay is of the unseen broadcasts, and of the last one where there are none. -/
def Ledger.record (ledger : Ledger L) : Option (Event L) → Ledger L
  | none | some (.waits _) => ledger
  | some (.fired waiting) =>
    { ledger with
      fired := ledger.fired + 1
      unseen := if waiting.isEmpty then ledger.unseen ++ [ledger.fired] else ledger.unseen
      closes := ledger.closes ++ waiting.map fun l => (l, ledger.fired) }
  | some (.replayed l) =>
    { ledger with
      unseen := []
      replays := ledger.replays ++
        (if ledger.unseen.isEmpty then [ledger.fired - 1] else ledger.unseen).map fun k => (l, k) }

def ledgerOf (past : List (Action L × Option (Event L))) : Ledger L :=
  past.foldl (fun ledger entry => ledger.record entry.2) (Ledger.empty L)

/-- Each broadcast wakes a loop at most once, is replayed only where it closed the channel of
no loop, and then once; what was not delivered yet is unseen. -/
structure Delivered (ledger : Ledger L) : Prop where
  once : (ledger.closes ++ ledger.replays).Nodup
  alone : ∀ k ∈ ledger.replays.map Prod.snd, k ∉ ledger.closes.map Prod.snd
  replayed_once : (ledger.replays.map Prod.snd).Nodup
  all : ∀ k < ledger.fired, k ∈ ledger.closes.map Prod.snd ∨ k ∈ ledger.replays.map Prod.snd ∨ k ∈ ledger.unseen

/-- The loops that were waiting at each broadcast since the last call of `notify`. -/
def sinceNotify (past : List (Action L × Option (Event L))) : List (List L) :=
  past.foldl (fun found entry =>
    match entry.2 with
    | none => found
    | some (.fired waiting) => found ++ [waiting]
    | some (.replayed _) | some (.waits _) => []) []

/-- A broadcast that found a waiting loop was followed by one that found none before the next
call of `notify`. -/
def Followed (c : Config (System L) (Action L) (Option (Event L))) : Action L → Prop
  | .notify l => l ∉ c.state.held.map Prod.fst →
      (∃ waiting ∈ sinceNotify c.past, waiting ≠ []) → [] ∈ sinceNotify c.past
  | _ => True

instance (c : Config (System L) (Action L) (Option (Event L))) : (a : Action L) → Decidable (Followed c a)
  | .notify _ => inferInstanceAs (Decidable (_ → _ → _))
  | .wake _ | .broadcast _ => isTrue trivial

/-! ## Channels -/

/-- Whoever waits, waits on the current channel. -/
structure Sound (s : System L) : Prop where
  open_ch : s.broadcaster.ch ∉ s.broadcaster.closed
  ch_lt : s.broadcaster.ch < s.broadcaster.next
  closed_lt : ∀ c ∈ s.broadcaster.closed, c < s.broadcaster.next
  held : ∀ entry ∈ s.held, entry.2 ∉ s.broadcaster.closed → entry.2 = s.broadcaster.ch
  distinct : (s.held.map Prod.fst).Nodup

omit [DecidableEq L] in
theorem sound_init : Sound (System.init L) where
  open_ch := not_mem_nil
  ch_lt := Nat.one_pos
  closed_lt := fun _ h => nomatch h
  held := fun _ h => nomatch h
  distinct := nodup_nil

theorem notify_cases (b : Broadcaster) :
    (b.pending = true ∧ notify b =
        (b.next, { b with pending := false, closed := b.next :: b.closed, next := b.next + 1 })) ∨
      (b.pending = false ∧ notify b = (b.ch, b)) := by
  cases hpending : b.pending with
  | true => exact .inl ⟨rfl, if_pos hpending⟩
  | false => exact .inr ⟨rfl, if_neg (by rw [hpending]; exact Bool.false_ne_true)⟩

theorem broadcast_cases (interval now : Int) (b : Broadcaster) :
    broadcast interval now b = (false, b) ∨
      broadcast interval now b = (true, { b with
        lastBroadcast := now
        pending := true
        closed := b.ch :: b.closed
        ch := b.next
        next := b.next + 1 }) := by
  unfold broadcast
  split
  · exact .inl rfl
  · exact .inr rfl

variable {s : System L}

theorem Sound.step (h : Sound s) (interval : Int) (a : Action L) : Sound (step interval s a).2 := by
  cases a with
  | notify l =>
    rw [ReconcileBroadcaster.step]
    split
    · exact h
    · rename_i hnew
      have hdistinct : (((l, (notify s.broadcaster).1) :: s.held).map Prod.fst).Nodup :=
        nodup_cons.mpr ⟨hnew, h.distinct⟩
      cases notify_cases s.broadcaster with
      | inl hreplay =>
        rw [hreplay.2] at hdistinct ⊢
        have hlt := h.ch_lt
        refine ⟨?_, Nat.lt_succ_of_lt h.ch_lt, ?_, ?_, hdistinct⟩
        · intro hmem
          cases mem_cons.mp hmem with
          | inl heq => exact absurd (show s.broadcaster.ch = s.broadcaster.next from heq) (Nat.ne_of_lt hlt)
          | inr hold => exact h.open_ch hold
        · intro c hc
          cases mem_cons.mp hc with
          | inl heq => exact heq ▸ Nat.lt_succ_self _
          | inr hold => exact Nat.lt_succ_of_lt (h.closed_lt c hold)
        · intro entry hentry hopen
          cases mem_cons.mp hentry with
          | inl heq =>
            rw [heq] at hopen
            exact absurd mem_cons_self hopen
          | inr hold => exact h.held entry hold fun hc => hopen (mem_cons_of_mem _ hc)
      | inr hquiet =>
        rw [hquiet.2] at hdistinct ⊢
        refine ⟨h.open_ch, h.ch_lt, h.closed_lt, ?_, hdistinct⟩
        intro entry hentry hopen
        cases mem_cons.mp hentry with
        | inl heq => rw [heq]
        | inr hold => exact h.held entry hold hopen
  | wake l =>
    exact ⟨h.open_ch, h.ch_lt, h.closed_lt, fun entry hentry => h.held entry (mem_of_mem_filter hentry),
      h.distinct.sublist (filter_sublist.map _)⟩
  | broadcast now =>
    rw [ReconcileBroadcaster.step]
    cases broadcast_cases interval now s.broadcaster with
    | inl hdropped =>
      rw [hdropped]
      exact h
    | inr hfired =>
      rw [hfired]
      refine ⟨?_, Nat.lt_succ_self _, ?_, ?_, h.distinct⟩
      · intro hmem
        cases mem_cons.mp hmem with
        | inl heq => exact absurd heq (Nat.ne_of_gt h.ch_lt)
        | inr hold => exact absurd (h.closed_lt _ hold) (lt_irrefl _)
      · intro c hc
        cases mem_cons.mp hc with
        | inl heq =>
          rw [heq]
          exact Nat.lt_succ_of_lt h.ch_lt
        | inr hold => exact Nat.lt_succ_of_lt (h.closed_lt c hold)
      · intro entry hentry hopen
        have hwas := h.held entry hentry fun hc => hopen (mem_cons_of_mem _ hc)
        exact absurd (hwas ▸ mem_cons_self) hopen

/-! ## Deliveries -/

/-- What the ledger keeps: every broadcast in it has fired, and what is unseen reached nobody. -/
structure Kept (ledger : Ledger L) : Prop where
  delivered : Delivered ledger
  unseen_lt : ∀ k ∈ ledger.unseen, k < ledger.fired
  closes_lt : ∀ k ∈ ledger.closes.map Prod.snd, k < ledger.fired
  replays_lt : ∀ k ∈ ledger.replays.map Prod.snd, k < ledger.fired
  unseen_nodup : ledger.unseen.Nodup
  unseen_alone : ∀ k ∈ ledger.unseen, k ∉ ledger.closes.map Prod.snd ∧ k ∉ ledger.replays.map Prod.snd

/-- The flag is set from a broadcast to the next call of `notify`, and something is unseen
exactly where one of these broadcasts found no loop. -/
structure Flagged (s : System L) (past : List (Action L × Option (Event L))) : Prop where
  flag : s.broadcaster.pending = true ↔ sinceNotify past ≠ []
  unseen : (ledgerOf past).unseen ≠ [] ↔ [] ∈ sinceNotify past

omit [DecidableEq L] in
theorem kept_empty : Kept (Ledger.empty L) where
  delivered := ⟨nodup_nil, (fun _ h => nomatch h), nodup_nil, fun _ h => absurd h (Nat.not_lt_zero _)⟩
  unseen_lt := fun _ h => nomatch h
  closes_lt := fun _ h => nomatch h
  replays_lt := fun _ h => nomatch h
  unseen_nodup := nodup_nil
  unseen_alone := fun _ h => nomatch h

variable {ledger : Ledger L} {waiting : List L}

omit [DecidableEq L] in
theorem mem_closes {k : Nat} :
    k ∈ (ledger.record (some (.fired waiting))).closes.map Prod.snd ↔
      k ∈ ledger.closes.map Prod.snd ∨ k = ledger.fired ∧ waiting ≠ [] := by
  have hsnd : (waiting.map fun l => (l, ledger.fired)).map Prod.snd = replicate waiting.length ledger.fired := by
    rw [map_map]
    exact map_const'
  show k ∈ (ledger.closes ++ waiting.map fun l => (l, ledger.fired)).map Prod.snd ↔ _
  rw [map_append, mem_append, hsnd, mem_replicate, and_comm, ne_eq, length_eq_zero_iff]

omit [DecidableEq L] in
theorem Kept.fired (h : Kept ledger) (hnodup : waiting.Nodup) :
    Kept (ledger.record (some (.fired waiting))) := by
  have hunseen : ∀ k ∈ (ledger.record (some (.fired waiting))).unseen,
      k ∈ ledger.unseen ∨ k = ledger.fired ∧ waiting = [] := by
    intro k hk
    cases waiting with
    | nil =>
      rw [Ledger.record, if_pos isEmpty_nil, mem_append, mem_singleton] at hk
      exact hk.imp_right fun heq => ⟨heq, rfl⟩
    | cons l rest => exact .inl hk
  have hnew : ∀ entry ∈ waiting.map fun l => (l, ledger.fired), entry.2 = ledger.fired := by
    intro entry hentry
    obtain ⟨l, _, rfl⟩ := mem_map.mp hentry
    rfl
  constructor
  · constructor
    · have hperm : ((ledger.closes ++ waiting.map fun l => (l, ledger.fired)) ++ ledger.replays).Perm
          ((ledger.closes ++ ledger.replays) ++ waiting.map fun l => (l, ledger.fired)) := by
        rw [append_assoc, append_assoc]
        exact Perm.append_left _ perm_append_comm
      apply hperm.nodup_iff.mpr
      rw [nodup_append]
      refine ⟨h.delivered.once, hnodup.map fun _ _ heq => (Prod.mk.inj heq).1, ?_⟩
      intro entry hold other hother heq
      have hlt : entry.2 < ledger.fired := by
        cases mem_append.mp hold with
        | inl hc => exact h.closes_lt _ (mem_map_of_mem hc)
        | inr hr => exact h.replays_lt _ (mem_map_of_mem hr)
      rw [heq, hnew other hother] at hlt
      exact lt_irrefl _ hlt
    · intro k hk hc
      cases mem_closes.mp hc with
      | inl hold => exact h.delivered.alone k hk hold
      | inr hlast =>
        have hlt := h.replays_lt k hk
        omega
    · exact h.delivered.replayed_once
    · intro k hk
      cases Nat.lt_succ_iff_lt_or_eq.mp hk with
      | inl hlt =>
        rcases h.delivered.all k hlt with hc | hr | hu
        · exact .inl (mem_closes.mpr (.inl hc))
        · exact .inr (.inl hr)
        · right
          right
          show k ∈ if waiting.isEmpty then ledger.unseen ++ [ledger.fired] else ledger.unseen
          split
          · exact mem_append_left _ hu
          · exact hu
      | inr heq =>
        cases hwaiting : waiting with
        | nil =>
          right
          right
          rw [heq]
          exact mem_append_right _ (mem_singleton_self _)
        | cons l rest => exact .inl (mem_closes.mpr (.inr ⟨heq, cons_ne_nil l rest⟩))
  · intro k hk
    cases hunseen k hk with
    | inl hold => exact Nat.lt_succ_of_lt (h.unseen_lt k hold)
    | inr hlast => exact hlast.1 ▸ Nat.lt_succ_self _
  · intro k hk
    cases mem_closes.mp hk with
    | inl hold => exact Nat.lt_succ_of_lt (h.closes_lt k hold)
    | inr hlast => exact hlast.1 ▸ Nat.lt_succ_self _
  · exact fun k hk => Nat.lt_succ_of_lt (h.replays_lt k hk)
  · show (if waiting.isEmpty then ledger.unseen ++ [ledger.fired] else ledger.unseen).Nodup
    split
    · rw [nodup_append]
      refine ⟨h.unseen_nodup, nodup_singleton _, ?_⟩
      intro k hk k' hk' heq
      have hlt := h.unseen_lt k hk
      rw [mem_singleton] at hk'
      omega
    · exact h.unseen_nodup
  · intro k hk
    cases hunseen k hk with
    | inl hold =>
      refine ⟨?_, (h.unseen_alone k hold).2⟩
      intro hc
      cases mem_closes.mp hc with
      | inl hclosed => exact (h.unseen_alone k hold).1 hclosed
      | inr hlast =>
        have hlt := h.unseen_lt k hold
        omega
    | inr hlast =>
      constructor
      · intro hc
        cases mem_closes.mp hc with
        | inl hclosed =>
          have hlt := h.closes_lt k hclosed
          omega
        | inr hsome => exact hsome.2 hlast.2
      · intro hr
        have hlt := h.replays_lt k hr
        omega

omit [DecidableEq L] in
theorem Kept.replayed (h : Kept ledger) (hne : ledger.unseen ≠ []) (l : L) :
    Kept (ledger.record (some (.replayed l))) := by
  have hreplays : (ledger.record (some (.replayed l))).replays = ledger.replays ++ ledger.unseen.map fun k => (l, k) := by
    rw [Ledger.record, if_neg (fun hempty => hne (isEmpty_iff.mp hempty))]
  have hsnd : (ledger.record (some (.replayed l))).replays.map Prod.snd = ledger.replays.map Prod.snd ++ ledger.unseen := by
    rw [hreplays, map_append, map_map]
    exact congrArg _ (map_id _)
  constructor
  · constructor
    · rw [hreplays, ← append_assoc]
      show (ledger.closes ++ ledger.replays ++ ledger.unseen.map fun k => (l, k)).Nodup
      rw [nodup_append]
      refine ⟨h.delivered.once, h.unseen_nodup.map fun _ _ heq => (Prod.mk.inj heq).2, ?_⟩
      intro entry hold other hother heq
      obtain ⟨k, hk, rfl⟩ := mem_map.mp hother
      have hnot := h.unseen_alone k hk
      cases mem_append.mp hold with
      | inl hc => exact hnot.1 (mem_map.mpr ⟨entry, hc, congrArg Prod.snd heq⟩)
      | inr hr => exact hnot.2 (mem_map.mpr ⟨entry, hr, congrArg Prod.snd heq⟩)
    · intro k hk hc
      rw [hsnd] at hk
      cases mem_append.mp hk with
      | inl hr => exact h.delivered.alone k hr hc
      | inr hu => exact (h.unseen_alone k hu).1 hc
    · rw [hsnd, nodup_append]
      refine ⟨h.delivered.replayed_once, h.unseen_nodup, ?_⟩
      intro k hr k' hu heq
      exact (h.unseen_alone k' hu).2 (heq ▸ hr)
    · intro k hk
      rw [hsnd]
      rcases h.delivered.all k hk with hc | hr | hu
      · exact .inl hc
      · exact .inr (.inl (mem_append_left _ hr))
      · exact .inr (.inl (mem_append_right _ hu))
  · exact fun _ hk => nomatch hk
  · exact h.closes_lt
  · intro k hk
    rw [hsnd] at hk
    cases mem_append.mp hk with
    | inl hr => exact h.replays_lt k hr
    | inr hu => exact h.unseen_lt k hu
  · exact nodup_nil
  · exact fun _ hk => nomatch hk

omit [DecidableEq L] in
theorem ledgerOf_advance (past : List (Action L × Option (Event L))) (entry : Action L × Option (Event L)) :
    ledgerOf (past ++ [entry]) = (ledgerOf past).record entry.2 := by
  unfold ledgerOf
  rw [foldl_append]
  rfl

omit [DecidableEq L] in
theorem sinceNotify_advance (past : List (Action L × Option (Event L))) (a : Action L) (event : Option (Event L)) :
    sinceNotify (past ++ [(a, event)]) =
      match event with
      | none => sinceNotify past
      | some (.fired waiting) => sinceNotify past ++ [waiting]
      | some (.replayed _) | some (.waits _) => [] := by
  unfold sinceNotify
  rw [foldl_append]
  rfl

/-- What a step gets out of the broadcaster. -/
theorem step_cases (interval : Int) (hs : Sound s) (a : Action L) :
    ((step interval s a).1 = none ∧ (step interval s a).2.broadcaster = s.broadcaster) ∨
      (∃ l, a = .notify l ∧ l ∉ s.held.map Prod.fst ∧ (step interval s a).2.broadcaster.pending = false ∧
        ((s.broadcaster.pending = true ∧ (step interval s a).1 = some (.replayed l)) ∨
          (s.broadcaster.pending = false ∧ (step interval s a).1 = some (.waits l)))) ∨
      ((step interval s a).1 = some (.fired s.waiting) ∧ (step interval s a).2.broadcaster.pending = true) := by
  cases a with
  | notify l =>
    rw [step]
    split
    · exact .inl ⟨rfl, rfl⟩
    · rename_i hfree
      right
      left
      refine ⟨l, rfl, hfree, ?_⟩
      cases notify_cases s.broadcaster with
      | inl hreplay =>
        rw [hreplay.2]
        exact ⟨rfl, .inl ⟨hreplay.1, congrArg some (if_pos mem_cons_self)⟩⟩
      | inr hquiet =>
        rw [hquiet.2]
        exact ⟨hquiet.1, .inr ⟨hquiet.1, congrArg some (if_neg hs.open_ch)⟩⟩
  | wake l => exact .inl ⟨rfl, rfl⟩
  | broadcast now =>
    rw [step]
    cases broadcast_cases interval now s.broadcaster with
    | inl hdropped =>
      rw [hdropped]
      exact .inl ⟨rfl, rfl⟩
    | inr hfired =>
      rw [hfired]
      exact .inr (.inr ⟨rfl, rfl⟩)

variable {c : Config (System L) (Action L) (Option (Event L))}

theorem Flagged.step (interval : Int) (hs : Sound c.state) (h : Flagged c.state c.past)
    (a : Action L) :
    Flagged (advance (step interval) c a).state (advance (step interval) c a).past := by
  rw [advance_past, advance_state]
  rcases step_cases interval hs a with ⟨hnone, hsame⟩ | ⟨l, _, _, hclear, hevent⟩ | ⟨hfired, hset⟩
  · constructor
    · rw [sinceNotify_advance, hnone, hsame]
      exact h.flag
    · rw [ledgerOf_advance, sinceNotify_advance, hnone]
      exact h.unseen
  · have hsince : sinceNotify (c.past ++ [(a, (ReconcileBroadcaster.step interval c.state a).1)]) = [] := by
      rw [sinceNotify_advance]
      rcases hevent with ⟨_, hreplayed⟩ | ⟨_, hwaits⟩
      · rw [hreplayed]
      · rw [hwaits]
    constructor
    · rw [hsince, hclear]
      exact iff_of_false Bool.false_ne_true fun hne => hne rfl
    · rw [hsince, ledgerOf_advance]
      apply iff_of_false _ not_mem_nil
      intro hne
      apply hne
      rcases hevent with ⟨_, hreplayed⟩ | ⟨hquiet, hwaits⟩
      · rw [hreplayed]
        rfl
      · rw [hwaits]
        by_contra hunseen
        have hpending := h.flag.mpr (ne_nil_of_mem (h.unseen.mp hunseen))
        rw [hquiet] at hpending
        cases hpending
  · constructor
    · rw [sinceNotify_advance, hfired, hset]
      exact iff_of_true rfl (append_ne_nil_of_right_ne_nil _ (cons_ne_nil _ _))
    · rw [ledgerOf_advance, sinceNotify_advance, hfired]
      cases hwaiting : c.state.waiting with
      | nil =>
        apply iff_of_true
        · exact append_ne_nil_of_right_ne_nil _ (cons_ne_nil _ _)
        · exact mem_append_right _ (mem_singleton_self _)
      | cons l rest =>
        show (ledgerOf c.past).unseen ≠ [] ↔ [] ∈ sinceNotify c.past ++ [l :: rest]
        rw [h.unseen, mem_append, mem_singleton]
        exact ⟨.inl, fun hor => hor.resolve_right (cons_ne_nil l rest).symm⟩

/-- Where the flag is taken, a broadcast is unseen. -/
theorem Flagged.owed (h : Flagged c.state c.past) {l : L} (hfree : l ∉ c.state.held.map Prod.fst)
    (hfollowed : Followed c (.notify l)) (hpending : c.state.broadcaster.pending = true) :
    (ledgerOf c.past).unseen ≠ [] := by
  rw [h.unseen]
  by_contra hnone
  obtain ⟨waiting, hmem⟩ := exists_mem_of_ne_nil _ (h.flag.mp hpending)
  have hwaiting : waiting ≠ [] := fun hempty => hnone (hempty ▸ hmem)
  exact hnone (hfollowed hfree ⟨waiting, hmem, hwaiting⟩)

omit [DecidableEq L] in
theorem flagged_init : Flagged (System.init L) [] where
  flag := iff_of_false Bool.false_ne_true fun hne => hne rfl
  unseen := iff_of_false (fun hne => hne rfl) not_mem_nil

/-- The step lemma. -/
theorem Kept.step (interval : Int) (hs : Sound c.state) (hflagged : Flagged c.state c.past)
    (h : Kept (ledgerOf c.past)) {a : Action L} (ha : Followed c a) :
    Kept ((ledgerOf c.past).record (step interval c.state a).1) := by
  rcases step_cases interval hs a with ⟨hnone, _⟩ | ⟨l, hl, hfree, _, hevent⟩ | ⟨hfired, _⟩
  · rw [hnone]
    exact h
  · rw [hl] at ha
    rcases hevent with ⟨hpending, hreplayed⟩ | ⟨_, hwaits⟩
    · rw [hreplayed]
      exact h.replayed (hflagged.owed hfree ha hpending) l
    · rw [hwaits]
      exact h
  · rw [hfired]
    exact h.fired (hs.distinct.sublist (filter_sublist.map _))

/-- In a run where every broadcast that found a waiting loop is followed by one that found none
before the next call of `notify`, every broadcast is delivered once; one that fires closes the
channels of all loops that wait, and a loop that subscribes takes what was unseen. -/
theorem awaited_once (interval : Int) {c : Config (System L) (Action L) (Option (Event L))}
    (hreach : Reach (step interval) Followed (start (System.init L)) c) :
    Delivered (ledgerOf c.past) ∧
      (∀ now, (broadcast interval now c.state.broadcaster).1 = true → ∀ entry ∈ c.state.held,
        entry.2 ∈ (step interval c.state (.broadcast now)).2.broadcaster.closed) ∧
      ∀ l, l ∉ c.state.held.map Prod.fst →
        (ledgerOf (advance (step interval) c (.notify l)).past).unseen = [] := by
  have hinv : Sound c.state ∧ Flagged c.state c.past ∧ Kept (ledgerOf c.past) := by
    apply hreach.invariant (I := fun d => Sound d.state ∧ Flagged d.state d.past ∧ Kept (ledgerOf d.past))
    · intro d a ha hd
      obtain ⟨hs, hflagged, hkept⟩ := hd
      refine ⟨hs.step interval a, hflagged.step interval hs a, ?_⟩
      rw [advance_past, ledgerOf_advance]
      exact hkept.step interval hs hflagged ha
    · exact ⟨sound_init, flagged_init, kept_empty⟩
  obtain ⟨hs, hflagged, hkept⟩ := hinv
  refine ⟨hkept.delivered, ?_, ?_⟩
  · intro now hfires entry hentry
    rw [step]
    cases broadcast_cases interval now c.state.broadcaster with
    | inl hdropped =>
      rw [hdropped] at hfires
      cases hfires
    | inr hfired =>
      rw [hfired]
      by_cases hclosed : entry.2 ∈ c.state.broadcaster.closed
      · exact mem_cons_of_mem _ hclosed
      · exact hs.held entry hentry hclosed ▸ mem_cons_self
  · intro l hfree
    have hafter := hflagged.step interval hs (.notify l)
    by_contra hunseen
    have hmem := hafter.unseen.mp hunseen
    rw [advance_past, sinceNotify_advance] at hmem
    rcases step_cases interval hs (.notify l) with ⟨hnone, _⟩ | ⟨_, _, _, _, hevent⟩ | ⟨hfired, _⟩
    · rw [step, if_neg hfree] at hnone
      cases hnone
    · rcases hevent with ⟨_, hreplayed⟩ | ⟨_, hwaits⟩
      · rw [hreplayed] at hmem
        exact not_mem_nil hmem
      · rw [hwaits] at hmem
        exact not_mem_nil hmem
    · rw [step, if_neg hfree] at hfired
      dsimp only at hfired
      split at hfired
      · cases hfired
      · cases hfired

/-- A loop that waits while a broadcast fires, a second broadcast that finds nobody, and a loop
that comes late. -/
def lateLoop : List (Action Bool) :=
  [.notify true, .broadcast 1, .wake true, .broadcast 2000000000, .notify false, .wake false, .notify true]

theorem awaited_once_late :
    Delivered (ledgerOf (exec (step 1000000000) (start (System.init Bool)) lateLoop).past) ∧
      (ledgerOf (exec (step 1000000000) (start (System.init Bool)) lateLoop).past).replays = [(false, 1)] := by
  have hrun : Reach (step 1000000000) Followed (start (System.init Bool))
      (exec (step 1000000000) (start (System.init Bool)) lateLoop) := by
    apply reach_exec
    decide
  exact ⟨(awaited_once 1000000000 hrun).1, rfl⟩

/-- A loop that waited is woken, calls again, and is woken for the same broadcast. -/
theorem awaited_once_fails :
    ¬ ∀ actions : List (Action Bool),
      Delivered (ledgerOf (exec (step 1000000000) (start (System.init Bool)) actions).past) := by
  intro hall
  have hdelivered := hall [.notify true, .broadcast 1, .wake true, .notify true]
  have honce := hdelivered.once
  revert honce
  decide

end ClawMessenger.Ports.ReconcileBroadcaster
