import ClawMessenger.Ports.LocalSkillStoresAgree

/-!
# Which request the two local-skill stores hand out

Memory looks at every request and takes the oldest that is in line; Redis reads
the first of the sorted set, five times at most, and passes over what is not
pending any more.  They hand out the same request where the first of the sorted
set that is in line is among its first five and is older than the others.

`stores_alike` puts the operations together: under calls of which `Alike` holds,
both stores return the same all along.
-/

namespace ClawMessenger.Ports.LocalSkill

open ClawMessenger.Verified Machine List
open Request (aged_createdAt aged_inTime aged_of_inTime overdue_of_pending shown)
open RedisStore (attempts claim popMaxRetries popPending)

variable {K : Kind}

/-! ## The oldest request -/

section Oldest

variable {β : Type} {runtimeId : String} {req : Request β}

def Eligible (runtimeId : String) (req : Request β) : Prop :=
  req.runtimeId = runtimeId ∧ req.status = .pending

instance (runtimeId : String) (req : Request β) : Decidable (Eligible runtimeId req) :=
  inferInstanceAs (Decidable (_ ∧ _))

theorem older_of_not (oldest : Option (Request β)) (h : ¬ Eligible runtimeId req) :
    InMemoryStore.older runtimeId oldest req = oldest := if_neg h

theorem older_first (h : Eligible runtimeId req) :
    InMemoryStore.older runtimeId none req = some req := if_pos h

theorem older_next (o : Request β) (h : Eligible runtimeId req) :
    InMemoryStore.older runtimeId (some o) req =
      if req.createdAt < o.createdAt then some req else some o := if_pos h

theorem oldest_none (reqs : List (Request β)) (oldest : Option (Request β))
    (h : ∀ req ∈ reqs, ¬ Eligible runtimeId req) :
    reqs.foldl (InMemoryStore.older runtimeId) oldest = oldest := by
  induction reqs with
  | nil => rfl
  | cons req rest ih =>
    rw [foldl_cons, older_of_not oldest (h req mem_cons_self)]
    exact ih fun req hreq => h req (mem_cons_of_mem _ hreq)

/-- A request that is older than every other one wins, wherever it stands. -/
theorem oldest_some (reqs : List (Request β)) (oldest : Option (Request β))
    (hreq : Eligible runtimeId req)
    (holder : ∀ other ∈ reqs, Eligible runtimeId other → other = req ∨ req.createdAt < other.createdAt)
    (hthere : oldest = some req ∨
      (req ∈ reqs ∧ ∀ o, oldest = some o → req.createdAt < o.createdAt)) :
    reqs.foldl (InMemoryStore.older runtimeId) oldest = some req := by
  induction reqs generalizing oldest with
  | nil =>
    rcases hthere with hthere | ⟨hmem, -⟩
    · exact hthere
    · cases hmem
  | cons other rest ih =>
    have hrest : ∀ o ∈ rest, Eligible runtimeId o → o = req ∨ req.createdAt < o.createdAt :=
      fun o ho => holder o (mem_cons_of_mem _ ho)
    rw [foldl_cons]
    apply ih _ hrest
    by_cases hother : Eligible runtimeId other
    · rcases hthere with rfl | ⟨hmem, hlater⟩
      · left
        rw [older_next req hother]
        rcases holder other mem_cons_self hother with rfl | hlt
        · exact ite_self _
        · rw [if_neg (by omega)]
      · cases oldest with
        | none =>
          rw [older_first hother]
          rcases holder other mem_cons_self hother with rfl | hlt
          · exact .inl rfl
          · refine .inr ⟨?_, ?_⟩
            · rcases mem_cons.mp hmem with rfl | hmem
              · omega
              · exact hmem
            · rintro o ⟨rfl⟩
              exact hlt
        | some o =>
          have ho := hlater o rfl
          rw [older_next o hother]
          rcases holder other mem_cons_self hother with rfl | hlt
          · exact .inl (if_pos ho)
          · refine .inr ⟨?_, ?_⟩
            · rcases mem_cons.mp hmem with rfl | hmem
              · omega
              · exact hmem
            · intro o' ho'
              split at ho'
              · cases ho'
                exact hlt
              · cases ho'
                exact ho
    · rw [older_of_not oldest hother]
      rcases hthere with hthere | ⟨hmem, hlater⟩
      · exact .inl hthere
      · refine .inr ⟨?_, hlater⟩
        rcases mem_cons.mp hmem with rfl | hmem
        · exact absurd hreq hother
        · exact hmem

end Oldest

/-! ## What is in line -/

/-- The request is pending in time for this runtime. -/
def inLine {β : Type} (memory : InMemoryStore β) (now : Nat) (runtimeId id : String) : Bool :=
  (memory id).any fun m => decide (Eligible runtimeId m) && !m.overdue now

/-- The first of the sorted set that is in line is among those that are tried,
and is older than all others in line. -/
def PopsOldest (memory : InMemoryStore K.Body) (redis : RedisStore K) (now : Nat)
    (runtimeId : String) : Prop :=
  ∀ id ∈ ((redis.live now).pendingOf runtimeId).members.find? (inLine memory now runtimeId),
    id ∈ ((redis.live now).pendingOf runtimeId).members.take popMaxRetries ∧
      ∀ k ∈ ((redis.live now).pendingOf runtimeId).members, k ≠ id →
        inLine memory now runtimeId k = true →
          ∀ m ∈ memory id, ∀ m' ∈ memory k, m.createdAt < m'.createdAt

variable {runtimeId id : String}

theorem inLine_iff {β : Type} {memory : InMemoryStore β} {now : Nat} :
    inLine memory now runtimeId id = true ↔
      ∃ m, memory id = some m ∧ Eligible runtimeId m ∧ m.overdue now = false := by
  unfold inLine
  rw [Option.any_eq_true]
  simp

/-- What a sweep leaves eligible was in line. -/
theorem inLine_sweep {β : Type} {memory : InMemoryStore β} {now : Nat} :
    inLine memory now runtimeId id = true ↔
      ∃ m, memory.sweep now id = some m ∧ Eligible runtimeId m := by
  rw [inLine_iff]
  constructor
  · rintro ⟨m, hm, hopen, htime⟩
    refine ⟨m, ?_, hopen⟩
    show (memory id).map _ = some m
    rw [hm, Option.map_some, aged_of_inTime htime]
  · rintro ⟨m, hm, hruntime, hstatus⟩
    obtain ⟨old, hold, rfl⟩ := Option.map_eq_some_iff.mp hm
    obtain ⟨hopen, htime⟩ := Request.aged_pending_iff.mp hstatus
    exact ⟨old, hold, ⟨Request.aged_runtimeId.symm.trans hruntime, hopen⟩, htime⟩

namespace Agree

variable {t : Nat} {memory : InMemoryStore K.Body} {redis : RedisStore K}
  {born : String → Option Nat} {id runtimeId : String}

section

variable (h : Agree K t memory redis born)
include h

theorem sweep : Agree K t (memory.sweep t) redis born :=
  h.age fun _ => .inr rfl

/-- What is in line is pending in Redis too, and in the sorted set. -/
theorem listed_of_inLine (hline : inLine memory t runtimeId id = true) :
    ∃ m s, memory id = some m ∧ redis.records id = some s ∧ Match K t m (K.unmarshal s.value) ∧
      (K.unmarshal s.value).status = .pending ∧ (K.unmarshal s.value).overdue t = false ∧
      id ∈ (redis.pendingOf runtimeId).members := by
  obtain ⟨m, hm, ⟨hruntime, hpending⟩, htime⟩ := inLine_iff.mp hline
  have hborn := ((h id).memory m hm).2
  have hlate : ¬ pendingTimeout < t - m.createdAt := by
    rw [overdue_of_pending hpending, decide_eq_false_iff_not] at htime
    exact htime
  have hwindow : t ≤ m.createdAt + storeRetention := by
    unfold pendingTimeout at hlate
    unfold storeRetention
    omega
  obtain ⟨m', s, deadline, hm', hs, -, -, hmatch⟩ := (h id).paired _ hborn hwindow
  rw [hm] at hm'
  cases hm'
  have hstatus : (K.unmarshal s.value).status = .pending := by
    rcases hmatch.state with ⟨hstatus, -⟩ | ⟨htimeout, -⟩
    · exact hstatus.trans hpending
    · rw [hpending] at htimeout
      cases htimeout
  have hredis : (K.unmarshal s.value).overdue t = false := by
    rw [overdue_of_pending hstatus, hmatch.createdAt, ← overdue_of_pending hpending]
    exact htime
  refine ⟨m, s, hm, hs, hmatch, hstatus, hredis, ?_⟩
  have hlists := (h id).listed s hs hstatus (by rw [hmatch.createdAt]; omega)
  rw [hmatch.runtimeId, hruntime] at hlists
  exact hlists.mem

/-- What Redis reads pending and in time from the sorted set is in line. -/
theorem inLine_of_load (hmem : id ∈ (redis.pendingOf runtimeId).members) {s : Stored K.Wire}
    (hs : redis.records id = some s) (hstatus : ((K.unmarshal s.value).aged t).status = .pending) :
    (K.unmarshal s.value).overdue t = false ∧ inLine memory t runtimeId id = true := by
  obtain ⟨hpending, htime⟩ := Request.aged_pending_iff.mp hstatus
  refine ⟨htime, ?_⟩
  have hborn := ((h id).redis s hs).2
  have hlate : ¬ pendingTimeout < t - (K.unmarshal s.value).createdAt := by
    rw [overdue_of_pending hpending, decide_eq_false_iff_not] at htime
    exact htime
  have hwindow : t ≤ (K.unmarshal s.value).createdAt + storeRetention := by
    unfold pendingTimeout at hlate
    unfold storeRetention
    omega
  obtain ⟨m, s', deadline, hm, hs', -, -, hmatch⟩ := (h id).paired _ hborn hwindow
  rw [hs] at hs'
  cases hs'
  have hm' : m.status = .pending := by
    rcases hmatch.state with ⟨heq, -⟩ | ⟨-, ⟨-, -, hahead⟩ | ⟨hrunning, -⟩⟩
    · exact heq.symm.trans hpending
    · rw [hmatch.createdAt] at hlate
      exact absurd hahead hlate
    · rw [hpending] at hrunning
      cases hrunning
  refine inLine_iff.mpr ⟨m, hm, ⟨hmatch.runtimeId.symm.trans ((h id).owned s runtimeId hs hmem), hm'⟩, ?_⟩
  rw [overdue_of_pending hm', ← hmatch.createdAt, ← overdue_of_pending hpending]
  exact htime

end

/-! ## The turns of the loop -/

variable {rest : List String}

theorem members_zrem (redis : RedisStore K)
    (hmembers : (redis.pendingOf runtimeId).members = id :: rest) :
    ((redis.zrem runtimeId id).pendingOf runtimeId).members = rest := by
  rw [of_eq, of_zrem, if_pos rfl]
  exact SortedSet.remove_first hmembers

/-- Removing the first member twice is removing it once. -/
theorem members_zrem_again (redis : RedisStore K)
    (hmembers : (redis.pendingOf runtimeId).members = id :: rest) :
    (((redis.zrem runtimeId id).zrem runtimeId id).pendingOf runtimeId).members = rest := by
  have hnodup : (redis.pendingOf runtimeId).members.Nodup := (redis.pendingOf runtimeId).nodup
  have hfirst := members_zrem redis hmembers
  rw [hmembers, nodup_cons] at hnodup
  rw [of_eq, of_zrem, if_pos rfl, SortedSet.remove_of_notMem]
  · exact hfirst
  · rw [hfirst]
    exact hnodup.1

/-- What is first and not in line is passed over. -/
theorem attempts_passes (h : Agree K t memory redis born)
    (hswept : ∀ k m, memory k = some m → m.overdue t = false)
    (hmembers : (redis.pendingOf runtimeId).members = id :: rest)
    (hline : inLine memory t runtimeId id = false) :
    ∃ redis' : RedisStore K, Agree K t memory redis' born ∧
      (redis'.pendingOf runtimeId).members = rest ∧
        ∀ n, attempts t runtimeId (n + 1) redis =
          attempts t runtimeId n redis' := by
  have hmem : id ∈ (redis.pendingOf runtimeId).members := by
    rw [hmembers]
    exact mem_cons_self
  cases hs : redis.records id with
  | none =>
    refine ⟨redis.zrem runtimeId id, h.zrem ?_, members_zrem redis hmembers, ?_⟩
    · intro s hs'
      rw [hs] at hs'
      cases hs'
    · intro n
      rw [attempts]
      simp only [hmembers, load_of_none hs]
  | some s =>
    have hstatus : ((K.unmarshal s.value).aged t).status ≠ .pending := by
      intro hpending
      rw [(h.inLine_of_load hmem hs hpending).2] at hline
      cases hline
    have hfst : (redis.load t id).1 = some ((K.unmarshal s.value).aged t) := by
      rw [load_fst, hs]
      rfl
    have hload : Agree K t memory (redis.load t id).2 born := by
      refine h.load ?_
      intro m s' hm _ hover hmatch
      rcases hmatch.overdue hover with hlate | htimeout
      · rw [hswept id m hm] at hlate
        cases hlate
      · exact htimeout
    refine ⟨(redis.load t id).2.zrem runtimeId id, hload.zrem ?_, ?_, ?_⟩
    · intro s' hs' hpending
      cases hover : (K.unmarshal s.value).overdue t with
      | false =>
        rw [load_of_inTime hs hover, hs] at hs'
        cases hs'
        rw [aged_of_inTime hover] at hstatus
        exact absurd hpending hstatus
      | true =>
        have hid : id = ((K.unmarshal s.value).timedOut t).id := ((h id).redis s hs).1.symm
        rw [load_of_overdue hs hover, records_zrem, records_persist, if_pos hid] at hs'
        cases hs'
        rw [K.reread] at hpending
        cases hpending
    · cases hover : (K.unmarshal s.value).overdue t with
      | false =>
        rw [load_of_inTime hs hover]
        exact members_zrem redis hmembers
      | true =>
        rw [load_of_overdue hs hover, (h id).owned s runtimeId hs hmem, ((h id).redis s hs).1]
        exact members_zrem_again (redis.persist t _) hmembers
    · intro n
      rw [attempts]
      simp only [hmembers]
      generalize redis.load t id = loaded at hfst
      obtain ⟨fst, snd⟩ := loaded
      cases hfst
      simp only [if_neg hstatus]

/-- What is first and in line is handed out. -/
theorem attempts_takes (h : Agree K t memory redis born)
    (hmembers : (redis.pendingOf runtimeId).members = id :: rest)
    (hline : inLine memory t runtimeId id = true) (n : Nat) :
    ∃ m r redis', memory id = some m ∧
      attempts t runtimeId (n + 1) redis = (some r, redis') ∧
        (m.started t).shown = r.shown ∧
          Agree K t (Function.update memory id (some (m.started t))) redis' born := by
  obtain ⟨m, s, hm, hs, hmatch, hpending, htime, hmem⟩ := h.listed_of_inLine hline
  have hstate : (K.unmarshal s.value).status = m.status ∧ (K.unmarshal s.value).error = m.error := by
    rcases hmatch.state with hstate | ⟨htimeout, -⟩
    · exact hstate
    · obtain ⟨m', hm', ⟨-, hopen⟩, -⟩ := inLine_iff.mp hline
      rw [hm] at hm'
      cases hm'
      rw [htimeout] at hopen
      cases hopen
  have hstarted := hmatch.started hstate
  have hid := ((h id).redis s hs).1
  refine ⟨m, (K.unmarshal s.value).started t,
    (redis.persist t ((K.unmarshal s.value).started t)).zrem runtimeId id, hm, ?_, hstarted.2, ?_⟩
  · have hload : redis.load t id = (some (K.unmarshal s.value), redis) := by
      refine Prod.ext ?_ (load_of_inTime hs htime)
      rw [load_fst, hs, Option.map_some, aged_of_inTime htime]
    have hclaim : redis.claim t runtimeId ((K.unmarshal s.value).started t) =
        (true, (redis.persist t ((K.unmarshal s.value).started t)).zrem runtimeId id) := by
      have hclaimed : ((K.unmarshal s.value).started t).id = id := hid
      unfold claim
      rw [hclaimed, if_pos hmem]
      rfl
    rw [attempts]
    simp only [hmembers, hload, if_pos hpending, hclaim]
  · have hput : Agree K t (Function.update memory id (some (m.started t)))
        (redis.persist t ((K.unmarshal s.value).started t)) born := by
      refine h.put hs rfl rfl rfl (fun heq => by cases heq) ?_ ?_ ?_
      · exact fun k hk => Function.update_of_ne hk _ _
      · intro req hreq
        rw [Function.update_self] at hreq
        cases hreq
        exact (h id).memory m hm
      · intro b _ _
        exact ⟨m.started t, Function.update_self _ _ _, hstarted.1⟩
    refine hput.zrem ?_
    intro s' hs' hrunning
    have hsame : id = ((K.unmarshal s.value).started t).id := hid.symm
    rw [records_persist, if_pos hsame] at hs'
    cases hs'
    rw [K.reread] at hrunning
    cases hrunning

section

variable (h : Agree K t memory redis born)
  (hswept : ∀ k m, memory k = some m → m.overdue t = false) (n : Nat)
include h hswept n

theorem attempts_none
    (hfirst : (redis.pendingOf runtimeId).members.find? (inLine memory t runtimeId) = none) :
    ∃ redis', attempts t runtimeId n redis = (none, redis') ∧
      Agree K t memory redis' born := by
  induction n generalizing redis with
  | zero => exact ⟨redis, rfl, h⟩
  | succ n ih =>
    cases hmembers : (redis.pendingOf runtimeId).members with
    | nil =>
      refine ⟨redis, ?_, h⟩
      rw [attempts]
      simp only [hmembers]
    | cons k rest =>
      rw [hmembers, find?_eq_none] at hfirst
      have hline : inLine memory t runtimeId k = false :=
        Bool.eq_false_iff.mpr (hfirst k mem_cons_self)
      obtain ⟨redis', hagree, hrest, hturn⟩ := h.attempts_passes hswept hmembers hline
      rw [hturn]
      apply ih hagree
      rw [hrest, find?_eq_none]
      exact fun k' hk' => hfirst k' (mem_cons_of_mem _ hk')

theorem attempts_some
    (hfirst : (redis.pendingOf runtimeId).members.find? (inLine memory t runtimeId) = some id)
    (htried : id ∈ (redis.pendingOf runtimeId).members.take n) :
    ∃ m r redis', memory id = some m ∧ attempts t runtimeId n redis = (some r, redis') ∧
      (m.started t).shown = r.shown ∧
        Agree K t (Function.update memory id (some (m.started t))) redis' born := by
  induction n generalizing redis with
  | zero => cases htried
  | succ n ih =>
    cases hmembers : (redis.pendingOf runtimeId).members with
    | nil =>
      rw [hmembers] at hfirst
      cases hfirst
    | cons k rest =>
      rw [hmembers] at hfirst htried
      cases hline : inLine memory t runtimeId k with
      | true =>
        rw [find?_cons_of_pos hline, Option.some.injEq] at hfirst
        subst hfirst
        exact h.attempts_takes hmembers hline n
      | false =>
        have hne : id ≠ k := by
          rintro rfl
          rw [find?_some hfirst] at hline
          cases hline
        obtain ⟨redis', hagree, hrest, hturn⟩ := h.attempts_passes hswept hmembers hline
        rw [hturn]
        rw [find?_cons_of_neg (by rw [hline]; decide)] at hfirst
        rw [take_succ_cons, mem_cons] at htried
        apply ih hagree
        · rw [hrest]
          exact hfirst
        · rw [hrest]
          exact htried.resolve_left hne

end

/-! ## Handing out a request -/

theorem inLine_swept (memory : InMemoryStore K.Body) (t : Nat) (runtimeId : String) :
    inLine (memory.sweep t) t runtimeId = inLine memory t runtimeId := by
  funext id
  rw [Bool.eq_iff_iff]
  constructor
  · intro hline
    obtain ⟨m, hm, hopen, -⟩ := inLine_iff.mp hline
    exact inLine_sweep.mpr ⟨m, hm, hopen⟩
  · intro hline
    obtain ⟨m, hm, hopen⟩ := inLine_sweep.mp hline
    refine inLine_iff.mpr ⟨m, hm, hopen, ?_⟩
    obtain ⟨old, -, rfl⟩ := Option.map_eq_some_iff.mp hm
    exact aged_inTime old t

theorem pop (h : Agree K t memory redis born) {walk : List String}
    (hwalk : ∀ id, (memory id).isSome = true → id ∈ walk)
    (hpops : PopsOldest memory redis t runtimeId) :
    (memory.popPending t runtimeId walk).1.map shown =
        (redis.popPending t runtimeId).1.map shown ∧
      Agree K t (memory.popPending t runtimeId walk).2 (redis.popPending t runtimeId).2 born := by
  have hswept : ∀ k m, memory.sweep t k = some m → m.overdue t = false := by
    intro k m hm
    obtain ⟨old, -, rfl⟩ := Option.map_eq_some_iff.mp hm
    exact aged_inTime old t
  have hagree : Agree K t (memory.sweep t) (redis.live t) born := h.live.sweep
  have hlisted : ∀ k, inLine memory t runtimeId k = true →
      k ∈ ((redis.live t).pendingOf runtimeId).members := by
    intro k hline
    obtain ⟨-, -, -, -, -, -, -, hmem⟩ := h.live.listed_of_inLine hline
    exact hmem
  have heligible : ∀ m ∈ walk.filterMap (memory.sweep t), Eligible runtimeId m →
      ∃ k, memory.sweep t k = some m ∧ inLine memory t runtimeId k = true := by
    intro m hm hopen
    obtain ⟨k, -, hk⟩ := mem_filterMap.mp hm
    exact ⟨k, hk, inLine_sweep.mpr ⟨m, hk, hopen⟩⟩
  cases hfirst : ((redis.live t).pendingOf runtimeId).members.find? (inLine memory t runtimeId) with
  | none =>
    have holdest : memory.oldest t runtimeId walk = none := by
      apply oldest_none
      intro m hm hopen
      obtain ⟨k, -, hline⟩ := heligible m hm hopen
      exact find?_eq_none.mp hfirst k (hlisted k hline) hline
    rw [← inLine_swept] at hfirst
    obtain ⟨redis', hattempts, hredis⟩ :=
      hagree.attempts_none hswept popMaxRetries hfirst
    unfold InMemoryStore.popPending popPending
    rw [holdest, hattempts]
    exact ⟨rfl, hredis⟩
  | some id =>
    obtain ⟨htried, hoverall⟩ := hpops id hfirst
    obtain ⟨first, hm, hopen⟩ := inLine_sweep.mp (find?_some hfirst)
    obtain ⟨old, hold, rfl⟩ := Option.map_eq_some_iff.mp hm
    have hid := ((h id).memory old hold).1
    have holdest : memory.oldest t runtimeId walk = some (old.aged t) := by
      refine oldest_some _ none hopen ?_ (.inr ⟨?_, fun o ho => by cases ho⟩)
      · intro other hother hother'
        obtain ⟨k, hk, hline⟩ := heligible other hother hother'
        by_cases hne : k = id
        · left
          rw [hne, hm] at hk
          exact (Option.some.inj hk).symm
        · right
          obtain ⟨old', hold', rfl⟩ := Option.map_eq_some_iff.mp hk
          rw [aged_createdAt, aged_createdAt]
          exact hoverall k (hlisted k hline) hne hline old hold old' hold'
      · refine mem_filterMap.mpr ⟨id, hwalk id ?_, hm⟩
        rw [hold]
        rfl
    rw [← inLine_swept] at hfirst
    obtain ⟨m, r, redis', hm', hattempts, hshown, hredis⟩ :=
      hagree.attempts_some hswept popMaxRetries hfirst htried
    rw [hm] at hm'
    cases hm'
    unfold InMemoryStore.popPending popPending
    rw [holdest, hattempts]
    refine ⟨congrArg some hshown, ?_⟩
    show Agree K t (Function.update (memory.sweep t) (old.aged t).id (some ((old.aged t).started t)))
      redis' born
    rw [Request.aged_id, hid]
    exact hredis

end Agree

/-! ## Whole runs -/

/-- What the callers and the clock are bound to: readings do not go back, an id
is used once, a request is asked for within the retention, and a walk over the
map meets each of its ids once. -/
def Allowed (c : Config (World K) (Nat × Call K) (Answers K)) : Nat × Call K → Prop
  | (now, .create id _ _) => c.state.clock ≤ now ∧ c.state.born id = none
  | (now, .get id) => c.state.clock ≤ now ∧ ∀ b, c.state.born id = some b → now ≤ b + storeRetention
  | (now, .popPending _ walk) => c.state.clock ≤ now ∧ walk.Nodup ∧
      ∀ id, id ∈ walk ↔ (c.state.memory id).isSome = true
  | (now, .report id _) =>
    c.state.clock ≤ now ∧ ∀ b, c.state.born id = some b → now ≤ b + storeRetention

/-- What keeps the stores alike at a call. -/
def Alike (w : World K) : Nat × Call K → Prop
  | (_, .create _ _ _) => True
  | (now, .get id) => K.keepsStart = true ∨ ∀ m, w.memory id = some m → ¬ Overran m now
  | (now, .popPending runtimeId _) => PopsOldest w.memory w.redis now runtimeId
  | (now, .report id report) => (K.settlement report).error.isSome = true ∨
      ∀ m, w.memory id = some m → Match.SameMark K now m

theorem World.step_agree {c : Config (World K) (Nat × Call K) (Answers K)} {input : Nat × Call K}
    (h : Agree K c.state.clock c.state.memory c.state.redis c.state.born)
    (hallowed : Allowed c input) (halike : Alike c.state input) :
    ((c.state.step input).1.memory.map shown =
        (c.state.step input).1.redis.map shown) ∧
      Agree K (c.state.step input).2.clock (c.state.step input).2.memory
        (c.state.step input).2.redis (c.state.step input).2.born := by
  obtain ⟨now, call⟩ := input
  cases call with
  | create id runtimeId body =>
    exact ⟨rfl, (h.mono hallowed.1).create hallowed.2⟩
  | get id =>
    have hnow := h.mono hallowed.1
    exact ⟨hnow.get_shown hallowed.2 halike, hnow.get⟩
  | popPending runtimeId walk =>
    have hwalk := hallowed.2.2
    exact (h.mono hallowed.1).pop (fun id hid => (hwalk id).mpr hid) halike
  | report id report =>
    exact ⟨rfl, (h.mono hallowed.1).settle (K.settlement_terminal report) hallowed.2 halike⟩

theorem start_agree (K : Kind) :
    Agree K 0 (World.start K).memory (World.start K).redis (World.start K).born := by
  intro id
  refine ⟨fun _ => ⟨rfl, rfl, fun _ hmem => by cases hmem⟩, ?_, ?_, ?_, ?_, ?_, ?_⟩
  · intro b hb
    cases hb
  · intro req hreq
    cases hreq
  · intro s hs
    cases hs
  · intro b hb
    cases hb
  · intro s hs
    cases hs
  · intro s rt hs
    cases hs

/-- Both stores return the same in every run of calls at which they are alike. -/
theorem stores_alike {c : Config (World K) (Nat × Call K) (Answers K)}
    (h : Reach World.step (fun c input => Allowed c input ∧ Alike c.state input)
      (start (World.start K)) c) :
    ∀ e ∈ c.past, e.2.memory.map shown = e.2.redis.map shown := by
  have hboth : (∀ e ∈ c.past, e.2.memory.map shown = e.2.redis.map shown) ∧
      Agree K c.state.clock c.state.memory c.state.redis c.state.born := by
    refine Reach.invariant (I := fun c => (∀ e ∈ c.past, e.2.memory.map shown =
      e.2.redis.map shown) ∧
        Agree K c.state.clock c.state.memory c.state.redis c.state.born) ?_ h ?_
    · rintro d input ⟨hallowed, halike⟩ ⟨hpast, hagree⟩
      obtain ⟨hanswers, hnext⟩ := World.step_agree hagree hallowed halike
      refine ⟨?_, hnext⟩
      intro e he
      rw [advance_past, mem_append, mem_singleton] at he
      rcases he with he | rfl
      · exact hpast e he
      · exact hanswers
    · exact ⟨fun e he => absurd he not_mem_nil, start_agree K⟩
  exact hboth.1

/-- One id is walked where one request is held. -/
theorem held_alone {α : Type} (x : α) (id : String) :
    id ∈ ["request"] ↔ Option.isSome (Function.update (fun _ => none) "request" (some x) id) = true := by
  rw [mem_singleton, Function.update_apply]
  by_cases h : id = "request"
  · simp [h]
  · simp [h]

/-- An import request is created, handed out, read and completed in time. -/
def importRun : List (Nat × Call (importKind Unit)) :=
  [(0, .create "request" "runtime" (⟨"skill", none, none, "", "", false⟩, "user")),
   (1000000000, .popPending "runtime" ["request"]),
   (50000000000, .get "request"),
   (60000000000, .report "request" (.complete ())),
   (62000000000, .get "request")]

theorem stores_alike_import :
    ((exec World.step (start (World.start (importKind Unit))) importRun).past.map fun e =>
        e.2.memory.map shown) =
      (exec World.step (start (World.start (importKind Unit))) importRun).past.map fun e =>
        e.2.redis.map shown := by
  apply map_congr_left
  apply stores_alike
  apply reach_exec
  have hwalk : ∀ id, id ∈ ["request"] ↔ Option.isSome ((exec World.step
      (start (World.start (importKind Unit))) (importRun.take 1)).state.memory id) = true := by
    exact held_alone _
  refine ⟨⟨⟨Nat.zero_le _, rfl⟩, trivial⟩, ⟨⟨by decide, by decide, hwalk⟩, ?_⟩,
    ⟨⟨by decide, ?_⟩, .inl rfl⟩, ⟨⟨by decide, ?_⟩, .inr ?_⟩, ⟨⟨by decide, ?_⟩, .inl rfl⟩, trivial⟩
  · rintro id ⟨rfl⟩
    refine ⟨mem_cons_self, ?_⟩
    intro k hk hne
    exact absurd (mem_singleton.mp hk) hne
  · rintro b ⟨rfl⟩
    decide
  · rintro b ⟨rfl⟩
    decide
  · rintro m ⟨rfl⟩
    exact ⟨fun h => (by cases h), fun _ => (by decide)⟩
  · rintro b ⟨rfl⟩
    decide

/-- A list request is created, handed out, and asked for a minute later. -/
def listRun : List (Nat × Call (listKind Unit Unit)) :=
  [(0, .create "request" "runtime" ()), (1000000000, .popPending "runtime" ["request"]),
   (62000000000, .get "request")]

/-- The store in memory has timed the request out, the one in Redis never does. -/
theorem listRun_parts : ¬ ∀ c : Config (World (listKind Unit Unit)) (Nat × Call (listKind Unit Unit))
    (Answers (listKind Unit Unit)), Reach World.step Allowed (start (World.start _)) c →
      ∀ e ∈ c.past, e.2.memory.map shown = e.2.redis.map shown := by
  intro hclaim
  have hwalk : ∀ id, id ∈ ["request"] ↔ Option.isSome ((exec World.step
      (start (World.start (listKind Unit Unit))) (listRun.take 1)).state.memory id) = true := by
    exact held_alone _
  have hallowed : AllAllowed World.step Allowed (start (World.start (listKind Unit Unit)))
      listRun := by
    refine ⟨⟨Nat.zero_le _, rfl⟩, ⟨by decide, by decide, hwalk⟩, ⟨by decide, ?_⟩, trivial⟩
    rintro b ⟨rfl⟩
    decide
  have hrun := hclaim _ (reach_exec hallowed)
  have hget := hrun _ (mem_of_getElem? (i := 2) rfl)
  have hstatus := congrArg (Option.map fun shown => shown.2.2.1) hget
  cases hstatus

end ClawMessenger.Ports.LocalSkill
