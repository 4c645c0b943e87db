import ClawMessenger.Ports.LocalSkillStores

/-!
# Where the two local-skill stores behave alike

The store in memory applies a timeout to every request it walks over, the one
in Redis to the request it reads, and what it reads of a list request has no
start.  `Match` says what the two copies of a request have in common at a
reading of the clock, `At` what both stores hold about one id, and each
operation keeps `At` at every id.

The stores part where a timeout is put down by only one of them and something
shows it, and where the sorted set puts another request first than the walk
over the map.  `Alike` says of a call that none of this happens.
-/

namespace ClawMessenger.Ports.LocalSkill

open ClawMessenger.Verified Machine
open Function (update update_apply update_of_ne update_self)
open Request (aged aged_createdAt aged_id aged_inTime aged_of_inTime aged_of_overdue aged_runtimeId
  open_of_overdue overdue_of_pending overdue_of_running)

variable {K : Kind}

/-! ## The two copies of a request -/

/-- What the claims of the two stores about a request are compared by. -/
def Request.shown {β : Type} (req : Request β) : String × String × Status × String × Nat × β :=
  (req.id, req.runtimeId, req.status, req.error, req.createdAt, req.body)

/-- The store in memory has put down a timeout that the other has yet to. -/
def Ahead {β : Type} (t : Nat) (m r : Request β) : Prop :=
  m.status = .timeout ∧
    ((r.status = .pending ∧ m.error = pendingError ∧ pendingTimeout < t - m.createdAt) ∨
      (r.status = .running ∧ m.error = runningError ∧
        ∃ started, m.runStartedAt = some started ∧ runningTimeout < t - started))

structure Match (K : Kind) (t : Nat) (m r : Request K.Body) : Prop where
  id : r.id = m.id
  runtimeId : r.runtimeId = m.runtimeId
  createdAt : r.createdAt = m.createdAt
  body : r.body = m.body
  start : r.runStartedAt = if K.keepsStart then m.runStartedAt else none
  state : (r.status = m.status ∧ r.error = m.error) ∨ Ahead t m r

/-- The request has been running for too long, timed out or not. -/
def Overran {β : Type} (m : Request β) (now : Nat) : Prop :=
  (m.status = .running ∨ m.status = .timeout) ∧
    ∃ started, m.runStartedAt = some started ∧ runningTimeout < now - started

theorem Ahead.mono {β : Type} {t t' : Nat} (ht : t ≤ t') {m r : Request β} (h : Ahead t m r) :
    Ahead t' m r := by
  obtain ⟨hstatus, h⟩ := h
  refine ⟨hstatus, ?_⟩
  rcases h with ⟨hr, herror, hlate⟩ | ⟨hr, herror, started, hstarted, hlate⟩
  · exact .inl ⟨hr, herror, by omega⟩
  · exact .inr ⟨hr, herror, started, hstarted, by omega⟩

namespace Match

variable {t t' : Nat} {m r : Request K.Body}

theorem mono (ht : t ≤ t') (h : Match K t m r) : Match K t' m r :=
  { h with state := h.state.imp (fun h => h) (Ahead.mono ht) }

/-- A new request and what is read of it. -/
theorem reread (m : Request K.Body) : Match K t m (K.unmarshal (K.marshal m)) := by
  rw [K.reread]
  exact ⟨rfl, rfl, rfl, rfl, rfl, .inl ⟨rfl, rfl⟩⟩

/-- Applying the timeout in memory. -/
theorem aged (h : Match K t m r) : Match K t (m.aged t) r := by
  cases hover : m.overdue t with
  | false =>
    rw [aged_of_inTime hover]
    exact h
  | true =>
    have hstate : r.status = m.status := by
      rcases h.state with ⟨hstatus, -⟩ | ⟨htimeout, -⟩
      · exact hstatus
      · rcases open_of_overdue hover with hopen | hopen
        · rw [hopen] at htimeout
          cases htimeout
        · rw [hopen] at htimeout
          cases htimeout
    rw [aged_of_overdue hover]
    refine ⟨h.id, h.runtimeId, h.createdAt, h.body, h.start, .inr ⟨rfl, ?_⟩⟩
    rcases open_of_overdue hover with hopen | hopen
    · rw [overdue_of_pending hopen, decide_eq_true_iff] at hover
      refine .inl ⟨hstate.trans hopen, ?_, hover⟩
      show (if m.status = .pending then pendingError else runningError) = pendingError
      rw [if_pos hopen]
    · rw [overdue_of_running hopen, Option.any_eq_true] at hover
      obtain ⟨started, hstarted, hlate⟩ := hover
      refine .inr ⟨hstate.trans hopen, ?_, started, hstarted, of_decide_eq_true hlate⟩
      show (if m.status = .pending then pendingError else runningError) = runningError
      rw [if_neg (by rw [hopen]; decide)]

/-- What is overdue for Redis is overdue in memory, or has timed out there. -/
theorem overdue (h : Match K t m r) (hover : r.overdue t = true) :
    m.overdue t = true ∨ m.status = .timeout := by
  rcases h.state with ⟨hstatus, -⟩ | ⟨htimeout, -⟩
  · left
    rcases open_of_overdue hover with hopen | hopen
    · rw [overdue_of_pending hopen, h.createdAt] at hover
      rw [overdue_of_pending (hstatus ▸ hopen)]
      exact hover
    · rw [overdue_of_running hopen, h.start] at hover
      rw [overdue_of_running (hstatus ▸ hopen)]
      cases hkeeps : K.keepsStart with
      | true =>
        rw [hkeeps] at hover
        exact hover
      | false =>
        rw [hkeeps] at hover
        cases hover
  · exact .inr htimeout

/-- Redis puts down the timeout that memory has put down. -/
theorem timedOut (h : Match K t m r) (htimeout : m.status = .timeout) (hover : r.overdue t = true) :
    Match K t m (K.unmarshal (K.marshal (r.timedOut t))) ∧ (r.timedOut t).error = m.error := by
  have hopen := open_of_overdue hover
  have herror : (r.timedOut t).error = m.error := by
    show (if r.status = .pending then pendingError else runningError) = m.error
    rcases h.state with ⟨hstatus, -⟩ | ⟨-, ⟨hr, herror, -⟩ | ⟨hr, herror, -⟩⟩
    · rw [htimeout] at hstatus
      rw [hstatus] at hopen
      rcases hopen with hopen | hopen <;> cases hopen
    · rw [if_pos hr, herror]
    · rw [if_neg (by rw [hr]; decide), herror]
  refine ⟨?_, herror⟩
  rw [K.reread]
  refine ⟨h.id, h.runtimeId, h.createdAt, h.body, ?_, .inl ⟨htimeout.symm, herror⟩⟩
  show (if K.keepsStart then r.runStartedAt else none) = if K.keepsStart then m.runStartedAt else none
  cases hkeeps : K.keepsStart with
  | true =>
    rw [if_pos rfl, if_pos rfl, h.start, if_pos hkeeps]
  | false => rfl

/-- What Redis does not find overdue memory does not either, unless only memory
knows since when the request is running. -/
theorem inTime (h : Match K t m r) (hr : r.overdue t = false)
    (hknown : K.keepsStart = true ∨ ¬ Overran m t) :
    m.overdue t = false ∧ r.status = m.status ∧ r.error = m.error := by
  rcases h.state with ⟨hstatus, herror⟩ | ⟨htimeout, ⟨hopen, -, hlate⟩ | ⟨hopen, -, started, hstarted, hlate⟩⟩
  · refine ⟨?_, hstatus, herror⟩
    by_contra hover
    rw [Bool.not_eq_false] at hover
    rcases open_of_overdue hover with hopen | hopen
    · rw [overdue_of_pending hopen, ← h.createdAt,
        ← overdue_of_pending (hstatus.trans hopen), hr] at hover
      cases hover
    · have hover' := hover
      rw [overdue_of_running hopen, Option.any_eq_true] at hover'
      obtain ⟨started, hstarted, hlate⟩ := hover'
      rcases hknown with hkeeps | hknown
      · rw [overdue_of_running (hstatus.trans hopen), h.start, if_pos hkeeps,
          ← overdue_of_running hopen, hover] at hr
        cases hr
      · exact hknown ⟨.inl hopen, started, hstarted, of_decide_eq_true hlate⟩
  · rw [overdue_of_pending hopen, h.createdAt, decide_eq_false_iff_not] at hr
    exact absurd hlate hr
  · exfalso
    rcases hknown with hkeeps | hknown
    · rw [overdue_of_running hopen, h.start, if_pos hkeeps, hstarted, Option.any_some,
        decide_eq_false_iff_not] at hr
      exact hr hlate
    · exact hknown ⟨.inr htimeout, started, hstarted, hlate⟩

/-- The timeout of the request is put down in both stores or in neither, when a
report that brings no error reaches it. -/
def SameMark (K : Kind) (t : Nat) (m : Request K.Body) : Prop :=
  (m.status = .pending → m.overdue t = false) ∧
    if K.keepsStart then m.status = .running → m.overdue t = false
    else m.status = .timeout → m.runStartedAt = none

theorem error_eq (h : Match K t m r) (hmark : SameMark K t m) : m.error = (r.aged t).error := by
  cases hover : r.overdue t with
  | true =>
    have htimeout : m.status = .timeout := by
      rcases h.overdue hover with hlate | htimeout
      · exfalso
        rcases open_of_overdue hlate with hopen | hopen
        · rw [hmark.1 hopen] at hlate
          cases hlate
        · have hstatus : r.status = .running := by
            rcases h.state with ⟨hstatus, -⟩ | ⟨htimeout, -⟩
            · exact hstatus.trans hopen
            · rw [hopen] at htimeout
              cases htimeout
          have hmark := hmark.2
          rw [overdue_of_running hstatus, h.start] at hover
          cases hkeeps : K.keepsStart with
          | true =>
            rw [if_pos hkeeps] at hmark
            rw [hmark hopen] at hlate
            cases hlate
          | false =>
            rw [hkeeps] at hover
            cases hover
      · exact htimeout
    rw [aged_of_overdue hover, (h.timedOut htimeout hover).2]
  | false =>
    rw [aged_of_inTime hover]
    rcases h.state with ⟨-, herror⟩ | ⟨htimeout, ⟨hopen, -, hlate⟩ | ⟨hopen, -, started, hstarted, hlate⟩⟩
    · exact herror.symm
    · rw [overdue_of_pending hopen, h.createdAt, decide_eq_false_iff_not] at hover
      exact absurd hlate hover
    · exfalso
      have hmark := hmark.2
      rw [overdue_of_running hopen, h.start, hstarted] at hover
      cases hkeeps : K.keepsStart with
      | true =>
        rw [if_pos hkeeps, Option.any_some, decide_eq_false_iff_not] at hover
        exact hover hlate
      | false =>
        rw [if_neg (by rw [hkeeps]; decide)] at hmark
        rw [hmark htimeout] at hstarted
        cases hstarted

variable {report : Settlement K.Body}

theorem settled (h : Match K t m r) (hmark : report.error.isSome = true ∨ SameMark K t m) :
    Match K t (m.settled report t) (K.unmarshal (K.marshal ((r.aged t).settled report t))) := by
  rw [K.reread]
  refine ⟨?_, ?_, ?_, ?_, ?_, .inl ⟨rfl, ?_⟩⟩
  · exact aged_id.trans h.id
  · exact aged_runtimeId.trans h.runtimeId
  · exact aged_createdAt.trans h.createdAt
  · show report.body (r.aged t).body = report.body m.body
    rw [Request.aged_body, h.body]
  · show (if K.keepsStart then (r.aged t).runStartedAt else none) =
      if K.keepsStart then m.runStartedAt else none
    rw [Request.aged_runStartedAt, h.start]
    cases K.keepsStart <;> rfl
  · show report.error.getD (r.aged t).error = report.error.getD m.error
    rcases hmark with hsome | hmark
    · obtain ⟨error, herror⟩ := Option.isSome_iff_exists.mp hsome
      rw [herror]
      rfl
    · rw [h.error_eq hmark]

theorem started (h : Match K t m r) (hstatus : r.status = m.status ∧ r.error = m.error) :
    Match K t (m.started t) (K.unmarshal (K.marshal (r.started t))) ∧
      (m.started t).shown = (r.started t).shown := by
  constructor
  · rw [K.reread]
    exact ⟨h.id, h.runtimeId, h.createdAt, h.body, rfl, .inl ⟨rfl, hstatus.2⟩⟩
  · unfold Request.shown Request.started
    simp only [h.id, h.runtimeId, h.createdAt, h.body, hstatus.2]

/-- What the two stores return of a request. -/
theorem shown_eq (h : Match K t m r) (hknown : K.keepsStart = true ∨ ¬ Overran m t) :
    (m.aged t).shown = (r.aged t).shown := by
  cases hover : r.overdue t with
  | true =>
    have htimeout : (m.aged t).status = .timeout := by
      rcases h.aged.overdue hover with hlate | htimeout
      · rw [aged_inTime] at hlate
        cases hlate
      · exact htimeout
    have herror := (h.aged.timedOut htimeout hover).2
    rw [aged_of_overdue hover]
    unfold Request.shown
    rw [herror]
    simp [Request.timedOut, h.id, h.runtimeId, h.createdAt, h.body, htimeout]
  | false =>
    obtain ⟨hm, hstatus, herror⟩ := h.inTime hover hknown
    rw [aged_of_inTime hover, aged_of_inTime hm]
    unfold Request.shown
    rw [h.id, h.runtimeId, h.createdAt, h.body, hstatus, herror]

end Match

/-! ## What both stores hold about an id -/

abbrev Pending := ExpiringStore String (SortedSet Nat String)

def Pending.of (z : Pending) (runtimeId : String) : List String := ((z.get runtimeId).getD ∅).members

/-- The id is in the sorted set of the runtime, and this lives that long. -/
def Lists (z : Pending) (runtimeId id : String) (instant : Nat) : Prop :=
  ∃ s, z runtimeId = some s ∧ id ∈ s.value.members ∧ ∀ deadline, s.deadline = some deadline →
    instant ≤ deadline

structure At (K : Kind) (t : Nat) (id : String) (born : Option Nat) (m : Option (Request K.Body))
    (e : Option (Stored K.Wire)) (z : Pending) : Prop where
  fresh : born = none → m = none ∧ e = none ∧ ∀ runtimeId, id ∉ z.of runtimeId
  past : ∀ b, born = some b → b ≤ t
  memory : ∀ req, m = some req → req.id = id ∧ born = some req.createdAt
  redis : ∀ s, e = some s →
    (K.unmarshal s.value).id = id ∧ born = some (K.unmarshal s.value).createdAt
  paired : ∀ b, born = some b → t ≤ b + storeRetention →
    ∃ req s deadline, m = some req ∧ e = some s ∧ s.deadline = some deadline ∧
      b + storeRetention ≤ deadline ∧ Match K t req (K.unmarshal s.value)
  listed : ∀ s, e = some s → (K.unmarshal s.value).status = .pending →
    t ≤ (K.unmarshal s.value).createdAt + pendingTimeout →
    Lists z (K.unmarshal s.value).runtimeId id ((K.unmarshal s.value).createdAt + storeRetention)
  owned : ∀ s runtimeId, e = some s → id ∈ z.of runtimeId →
    (K.unmarshal s.value).runtimeId = runtimeId

theorem Lists.mem {z : Pending} {runtimeId id : String} {instant : Nat}
    (h : Lists z runtimeId id instant) : id ∈ z.of runtimeId := by
  obtain ⟨s, hs, hmem, -⟩ := h
  unfold Pending.of ExpiringStore.get
  rw [hs]
  exact hmem

namespace At

variable {t t' : Nat} {id : String} {born : Option Nat} {m m' : Option (Request K.Body)}
  {e : Option (Stored K.Wire)} {z z' : Pending}

theorem mono (ht : t ≤ t') (h : At K t id born m e z) : At K t' id born m e z where
  fresh := h.fresh
  past := fun b hb => Nat.le_trans (h.past b hb) ht
  memory := h.memory
  redis := h.redis
  paired := by
    intro b hb hwindow
    obtain ⟨req, s, deadline, hm, he, hdeadline, hlate, hmatch⟩ := h.paired b hb (by omega)
    exact ⟨req, s, deadline, hm, he, hdeadline, hlate, hmatch.mono ht⟩
  listed := fun s hs hstatus htime => h.listed s hs hstatus (by omega)
  owned := h.owned

/-- What is past its deadline was past the retention. -/
theorem purge (h : At K t id born m e z) {records : ExpiringStore String K.Wire}
    (he : e = records id) : At K t id born m (records.purge t id) (z.purge t) where
  fresh := by
    intro hborn
    obtain ⟨hm, hnone, hlist⟩ := h.fresh hborn
    refine ⟨hm, ?_, ?_⟩
    · show (records id).filter _ = none
      rw [← he, hnone]
      rfl
    · intro runtimeId hmem
      apply hlist runtimeId
      unfold Pending.of at hmem ⊢
      rcases ExpiringStore.get_purge z t runtimeId with hsame | ⟨-, hnone⟩
      · rw [← hsame]
        exact hmem
      · rw [hnone] at hmem
        cases hmem
  past := h.past
  memory := h.memory
  redis := by
    intro s hs
    have hthere := (Option.filter_eq_some_iff.mp hs).1
    exact h.redis s (he.trans hthere)
  paired := by
    intro b hb hwindow
    obtain ⟨req, s, deadline, hm, hes, hdeadline, hlate, hmatch⟩ := h.paired b hb hwindow
    refine ⟨req, s, deadline, hm, ?_, hdeadline, hlate, hmatch⟩
    apply Option.filter_eq_some_iff.mpr
    refine ⟨he.symm.trans hes, ?_⟩
    rw [hdeadline, Option.all_some, decide_eq_true_iff]
    omega
  listed := by
    intro s hs hstatus htime
    have hthere := (Option.filter_eq_some_iff.mp hs).1
    obtain ⟨sorted, hsorted, hmem, hdeadline⟩ := h.listed s (he.trans hthere) hstatus htime
    refine ⟨sorted, ?_, hmem, hdeadline⟩
    apply Option.filter_eq_some_iff.mpr
    refine ⟨hsorted, ?_⟩
    cases hd : sorted.deadline with
    | none => rfl
    | some deadline =>
      have hlate := hdeadline deadline hd
      rw [Option.all_some, decide_eq_true_iff]
      unfold pendingTimeout at htime
      unfold storeRetention at hlate
      omega
  owned := by
    intro s runtimeId hs hmem
    have hthere := (Option.filter_eq_some_iff.mp hs).1
    apply h.owned s runtimeId (he.trans hthere)
    unfold Pending.of at hmem ⊢
    rcases ExpiringStore.get_purge z t runtimeId with hsame | ⟨-, hnone⟩
    · rw [← hsame]
      exact hmem
    · rw [hnone] at hmem
      cases hmem

section

variable (h : At K t id born m e z)
  (hmem : ∀ runtimeId, id ∈ z'.of runtimeId → id ∈ z.of runtimeId)
include h hmem

/-- Commands on the sorted sets that concern other ids. -/
theorem pending_congr
    (hlists : ∀ runtimeId instant, instant ≤ t + storeRetention → Lists z runtimeId id instant → Lists z' runtimeId id instant) :
    At K t id born m e z' where
  fresh := by
    intro hborn
    obtain ⟨hm, he, hnone⟩ := h.fresh hborn
    exact ⟨hm, he, fun runtimeId hin => hnone runtimeId (hmem runtimeId hin)⟩
  past := h.past
  memory := h.memory
  redis := h.redis
  paired := h.paired
  listed := by
    intro s hs hstatus htime
    have hpast := h.past _ (h.redis s hs).2
    exact hlists _ _ (by omega) (h.listed s hs hstatus htime)
  owned := fun s runtimeId hs hin => h.owned s runtimeId hs (hmem runtimeId hin)

/-- The id itself leaves the sorted set of a runtime, pending no longer. -/
theorem unlist
    (hdone : ∀ s, e = some s → (K.unmarshal s.value).status = .pending → (K.unmarshal s.value).overdue t = true) :
    At K t id born m e z' where
  fresh := by
    intro hborn
    obtain ⟨hm, he, hnone⟩ := h.fresh hborn
    exact ⟨hm, he, fun runtimeId hin => hnone runtimeId (hmem runtimeId hin)⟩
  past := h.past
  memory := h.memory
  redis := h.redis
  paired := h.paired
  listed := by
    intro s hs hstatus htime
    have hover := hdone s hs hstatus
    rw [overdue_of_pending hstatus, decide_eq_true_iff] at hover
    omega
  owned := fun s runtimeId hs hin => h.owned s runtimeId hs (hmem runtimeId hin)

end

/-- Another copy in memory. -/
theorem remember (h : At K t id born m e z)
    (hm : ∀ req, m' = some req → ∃ old, m = some old ∧ req.id = old.id ∧
      req.createdAt = old.createdAt)
    (hmatch : ∀ b, born = some b → t ≤ b + storeRetention → ∀ old, m = some old → ∀ r,
      Match K t old r → ∃ req, m' = some req ∧ Match K t req r) : At K t id born m' e z where
  fresh := by
    intro hborn
    obtain ⟨hnone, he, hlist⟩ := h.fresh hborn
    refine ⟨?_, he, hlist⟩
    cases hm' : m' with
    | none => rfl
    | some req =>
      obtain ⟨old, hold, -⟩ := hm req hm'
      rw [hnone] at hold
      cases hold
  past := h.past
  memory := by
    intro req hreq
    obtain ⟨old, hold, hid, hcreated⟩ := hm req hreq
    rw [hid, hcreated]
    exact h.memory old hold
  redis := h.redis
  paired := by
    intro b hb hwindow
    obtain ⟨old, s, deadline, hold, hs, hdeadline, hlate, hold'⟩ := h.paired b hb hwindow
    obtain ⟨req, hreq, hmatch'⟩ := hmatch b hb hwindow old hold _ hold'
    exact ⟨req, s, deadline, hreq, hs, hdeadline, hlate, hmatch'⟩
  listed := h.listed
  owned := h.owned

variable {s : Stored K.Wire}

/-- Another copy in Redis that is not pending, and one in memory that goes with it. -/
theorem put (h : At K t id born m e z) (he : e = some s) {r : Request K.Body}
    (hid : r.id = (K.unmarshal s.value).id)
    (hruntime : r.runtimeId = (K.unmarshal s.value).runtimeId)
    (hcreated : r.createdAt = (K.unmarshal s.value).createdAt) (hopen : r.status ≠ .pending)
    (hm : ∀ req, m' = some req → req.id = id ∧ born = some req.createdAt)
    (hmatch : ∀ b, born = some b → t ≤ b + storeRetention → ∃ req, m' = some req ∧ Match K t req (K.unmarshal (K.marshal r))) :
    At K t id born m' (some ⟨K.marshal r, some (t + storeRetention)⟩) z := by
  have hold := h.redis s he
  refine ⟨?_, h.past, hm, ?_, ?_, ?_, ?_⟩
  · intro hborn
    rw [hold.2] at hborn
    cases hborn
  · rintro s' ⟨rfl⟩
    rw [K.reread]
    exact ⟨hid.trans hold.1, by rw [hcreated]; exact hold.2⟩
  · intro b hb hwindow
    obtain ⟨req, hreq, hmatch'⟩ := hmatch b hb hwindow
    exact ⟨req, _, _, hreq, rfl, rfl, Nat.add_le_add_right (h.past b hb) _, hmatch'⟩
  · rintro s' ⟨rfl⟩ hstatus
    rw [K.reread] at hstatus
    exact absurd hstatus hopen
  · rintro s' runtimeId ⟨rfl⟩ hin
    rw [K.reread]
    exact hruntime.trans (h.owned s runtimeId he hin)

end At

/-- Both stores hold the same about every id, at a reading of the clock. -/
def Agree (K : Kind) (t : Nat) (memory : InMemoryStore K.Body) (redis : RedisStore K)
    (born : String → Option Nat) : Prop :=
  ∀ id, At K t id (born id) (memory id) (redis.records id) redis.pending

/-! ## The commands -/

section Commands

variable (s : RedisStore K) (now : Nat) (runtimeId id : String) (req : Request K.Body)

theorem records_persist (k : String) : (s.persist now req).records k =
    if k = req.id then some ⟨K.marshal req, some (now + storeRetention)⟩ else s.records k := by
  show update s.records req.id _ k = _
  rw [update_apply]

@[simp] theorem pending_persist : (s.persist now req).pending = s.pending := rfl

@[simp] theorem records_zrem : (s.zrem runtimeId id).records = s.records := rfl

theorem of_eq (rt : String) : (s.pendingOf rt).members = Pending.of s.pending rt := rfl

theorem of_zrem (rt : String) : Pending.of (s.zrem runtimeId id).pending rt =
    if rt = runtimeId then ((s.pendingOf rt).remove id).members else Pending.of s.pending rt := by
  unfold Pending.of RedisStore.zrem
  rw [ExpiringStore.get_modify]
  by_cases h : rt = runtimeId
  · rw [if_pos h, if_pos h, h]
    rfl
  · rw [if_neg h, if_neg h]

variable {rt k : String}

theorem mem_of_zrem (h : k ∈ Pending.of (s.zrem runtimeId id).pending rt) :
    k ∈ Pending.of s.pending rt := by
  rw [of_zrem] at h
  by_cases hrt : rt = runtimeId
  · rw [if_pos hrt, SortedSet.mem_remove] at h
    exact h.1
  · rw [if_neg hrt] at h
    exact h

theorem lists_zrem {instant : Nat} (hne : k ≠ id) (h : Lists s.pending rt k instant) :
    Lists (s.zrem runtimeId id).pending rt k instant := by
  obtain ⟨z, hz, hmem, hdeadline⟩ := h
  by_cases hrt : rt = runtimeId
  · refine ⟨⟨z.value.remove id, z.deadline⟩, ?_, ?_, hdeadline⟩
    · show update s.pending runtimeId _ rt = _
      rw [update_apply, if_pos hrt, ← hrt, ExpiringStore.get, hz]
      rfl
    · exact SortedSet.mem_remove.mpr ⟨hmem, hne⟩
  · refine ⟨z, ?_, hmem, hdeadline⟩
    show update s.pending runtimeId _ rt = _
    rw [update_apply, if_neg hrt]
    exact hz

end Commands

namespace Agree

variable {t t' now : Nat} {memory memory' : InMemoryStore K.Body} {redis : RedisStore K}
  {born : String → Option Nat} {id runtimeId : String}

theorem mono (ht : t ≤ t') (h : Agree K t memory redis born) : Agree K t' memory redis born :=
  fun id => (h id).mono ht

section

variable (h : Agree K t memory redis born)
include h

theorem live : Agree K t memory (redis.live t) born :=
  fun id => (h id).purge rfl

/-- An id that is not pending in time is dropped from a sorted set. -/
theorem zrem
    (hdone : ∀ s, redis.records id = some s → (K.unmarshal s.value).status = .pending → (K.unmarshal s.value).overdue t = true) :
    Agree K t memory (redis.zrem runtimeId id) born := by
  intro k
  by_cases hk : k = id
  · subst hk
    exact (h k).unlist (fun rt => mem_of_zrem redis runtimeId k) hdone
  · exact (h k).pending_congr (fun rt => mem_of_zrem redis runtimeId id)
      fun rt instant _ => lists_zrem redis runtimeId id hk

/-- One id has another copy in Redis and another one in memory. -/
theorem put (hs : redis.records id = some s) {r : Request K.Body}
    (hid : r.id = (K.unmarshal s.value).id)
    (hruntime : r.runtimeId = (K.unmarshal s.value).runtimeId)
    (hcreated : r.createdAt = (K.unmarshal s.value).createdAt) (hopen : r.status ≠ .pending)
    (hother : ∀ k, k ≠ id → memory' k = memory k)
    (hm : ∀ req, memory' id = some req → req.id = id ∧ born id = some req.createdAt)
    (hmatch : ∀ b, born id = some b → t ≤ b + storeRetention → ∃ req, memory' id = some req ∧ Match K t req (K.unmarshal (K.marshal r))) :
    Agree K t memory' (redis.persist t r) born := by
  have hr : r.id = id := hid.trans ((h id).redis s hs).1
  intro k
  rw [records_persist, pending_persist, hr]
  by_cases hk : k = id
  · subst hk
    rw [if_pos rfl]
    exact (h k).put hs hid hruntime hcreated hopen hm hmatch
  · rw [if_neg hk, hother k hk]
    exact h k

/-- Memory applies timeouts, to whatever it likes. -/
theorem age (hage : ∀ k, memory' k = memory k ∨ memory' k = (memory k).map fun req => req.aged t) :
    Agree K t memory' redis born := by
  intro k
  rcases hage k with hk | hk
  · rw [hk]
    exact h k
  · rw [hk]
    refine (h k).remember ?_ ?_
    · intro req hreq
      obtain ⟨old, hold, rfl⟩ := Option.map_eq_some_iff.mp hreq
      exact ⟨old, hold, aged_id, aged_createdAt⟩
    · intro b _ _ old hold r hmatch
      exact ⟨old.aged t, by rw [hold]; rfl, hmatch.aged⟩

end

theorem load_of_some (hs : redis.records id = some s) : redis.load t id =
    (applyTimeout (K.unmarshal s.value) t).elim (some (K.unmarshal s.value), redis)
      fun req => (some req, (redis.persist t req).zrem req.runtimeId req.id) := by
  unfold RedisStore.load ExpiringStore.get
  rw [hs, Option.map_some]
  dsimp only
  cases applyTimeout (K.unmarshal s.value) t with
  | none | some req => rfl

/-- What a load returns. -/
theorem load_fst (redis : RedisStore K) (t : Nat) (id : String) : (redis.load t id).1 =
    (redis.records id).map fun s => (K.unmarshal s.value).aged t := by
  cases hs : redis.records id with
  | none =>
    unfold RedisStore.load ExpiringStore.get
    rw [hs]
    rfl
  | some s =>
    rw [load_of_some hs, Option.map_some, aged]
    cases applyTimeout (K.unmarshal s.value) t with
    | none | some req => rfl

theorem load_of_inTime (hs : redis.records id = some s)
    (htime : (K.unmarshal s.value).overdue t = false) : (redis.load t id).2 = redis := by
  rw [load_of_some hs, applyTimeout_eq_none_iff.mpr htime]
  rfl

theorem load_of_overdue (hs : redis.records id = some s)
    (hover : (K.unmarshal s.value).overdue t = true) : (redis.load t id).2 =
      (redis.persist t ((K.unmarshal s.value).timedOut t)).zrem (K.unmarshal s.value).runtimeId
        (K.unmarshal s.value).id := by
  rw [load_of_some hs, applyTimeout, if_pos hover]
  rfl

theorem load_of_none (hs : redis.records id = none) : redis.load t id = (none, redis) := by
  unfold RedisStore.load ExpiringStore.get
  rw [hs]
  rfl

/-- A load keeps the stores together where memory has put down the timeout that
the load puts down. -/
theorem load (h : Agree K t memory redis born)
    (hmarked : ∀ m s, memory id = some m → redis.records id = some s →
      (K.unmarshal s.value).overdue t = true → Match K t m (K.unmarshal s.value) →
      m.status = .timeout) : Agree K t memory (redis.load t id).2 born := by
  cases hs : redis.records id with
  | none =>
    rw [load_of_none hs]
    exact h
  | some s =>
    cases hover : (K.unmarshal s.value).overdue t with
    | false =>
      rw [load_of_inTime hs hover]
      exact h
    | true =>
      rw [load_of_overdue hs hover, ((h id).redis s hs).1]
      have hput : Agree K t memory (redis.persist t ((K.unmarshal s.value).timedOut t)) born := by
        refine h.put hs rfl rfl rfl (fun heq => by cases heq) (fun _ _ => rfl)
          (h id).memory ?_
        intro b hb hwindow
        obtain ⟨m, s', deadline, hm, hs', -, -, hmatch⟩ := (h id).paired b hb hwindow
        rw [hs] at hs'
        cases hs'
        exact ⟨m, hm, (hmatch.timedOut (hmarked m s hm hs hover hmatch) hover).1⟩
      refine hput.zrem ?_
      intro s' hs' hstatus
      have hid : id = ((K.unmarshal s.value).timedOut t).id := ((h id).redis s hs).1.symm
      rw [records_persist, if_pos hid] at hs'
      cases hs'
      rw [K.reread] at hstatus
      cases hstatus

/-! ## Creating a request -/

section Create

variable {input : K.Body}

theorem of_created (z : Pending) (runtimeId : String) (score : Nat) (id : String) (deadline : Nat)
    (rt : String) : Pending.of ((z.modify runtimeId fun s => (s.getD ∅).add score id).renew
      runtimeId deadline) rt =
        if rt = runtimeId then (((z.get runtimeId).getD ∅).add score id).members else z.of rt := by
  unfold Pending.of
  rw [ExpiringStore.get_renew, ExpiringStore.get_modify]
  by_cases h : rt = runtimeId
  · rw [if_pos h, if_pos h]
    rfl
  · rw [if_neg h, if_neg h]

theorem created_at (z : Pending) (runtimeId : String) (score : Nat) (id : String) (deadline : Nat) :
    ((z.modify runtimeId fun s => (s.getD ∅).add score id).renew runtimeId deadline) runtimeId =
      some ⟨((z.get runtimeId).getD ∅).add score id, some deadline⟩ := by
  show update _ runtimeId _ runtimeId = _
  rw [update_self]
  show Option.map _ (update z runtimeId _ runtimeId) = _
  rw [update_self]
  rfl

theorem create (h : Agree K t memory redis born) (hfresh : born id = none) :
    Agree K t (memory.create t id runtimeId input).2 (redis.create t id runtimeId input).2
      (update born id (some t)) := by
  have hlive := h.live
  intro k
  show At K t k (update born id (some t) k)
    (update (memory.purge t) id (some (Request.new id runtimeId input t)) k)
    (((redis.live t).persist t (Request.new id runtimeId input t)).records k)
    (((redis.live t).pending.modify runtimeId fun s => (s.getD ∅).add (float64 t) id).renew
      runtimeId (t + storeRetention * 2))
  rw [records_persist]
  by_cases hk : k = id
  · subst hk
    rw [update_self, update_self,
      if_pos (show k = (Request.new k runtimeId input t).id from rfl)]
    refine ⟨?_, ?_, ?_, ?_, ?_, ?_, ?_⟩
    · intro hborn
      cases hborn
    · rintro b ⟨rfl⟩
      exact Nat.le_refl t
    · rintro req ⟨rfl⟩
      exact ⟨rfl, rfl⟩
    · rintro s ⟨rfl⟩
      rw [K.reread]
      exact ⟨rfl, rfl⟩
    · rintro b ⟨rfl⟩ _
      exact ⟨_, _, _, rfl, rfl, rfl, Nat.le_refl _, Match.reread _⟩
    · rintro s ⟨rfl⟩ _ _
      rw [K.reread]
      refine ⟨_, created_at _ _ _ _ _, SortedSet.mem_add.mpr (.inl rfl), ?_⟩
      rintro deadline ⟨rfl⟩
      show t + storeRetention ≤ t + storeRetention * 2
      omega
    · rintro s rt ⟨rfl⟩ hin
      rw [K.reread]
      rw [of_created] at hin
      by_cases hrt : rt = runtimeId
      · exact hrt.symm
      · rw [if_neg hrt] at hin
        exact absurd hin (((hlive k).fresh hfresh).2.2 rt)
  · rw [update_of_ne hk, update_of_ne hk,
      if_neg (show ¬ k = (Request.new id runtimeId input t).id from hk)]
    have hpurged : At K t k (born k) (memory.purge t k) ((redis.live t).records k)
        (redis.live t).pending := by
      refine (hlive k).remember ?_ ?_
      · intro req hreq
        exact ⟨req, (Option.filter_eq_some_iff.mp hreq).1, rfl, rfl⟩
      · intro b hb hwindow old hold r hmatch
        refine ⟨old, ?_, hmatch⟩
        apply Option.filter_eq_some_iff.mpr
        refine ⟨hold, ?_⟩
        have hcreated := ((h k).memory old hold).2
        rw [hb, Option.some.injEq] at hcreated
        rw [decide_eq_true_iff]
        omega
    refine hpurged.pending_congr ?_ ?_
    · intro rt hin
      rw [of_created] at hin
      by_cases hrt : rt = runtimeId
      · rw [if_pos hrt, SortedSet.mem_add] at hin
        rw [hrt]
        exact hin.resolve_left hk
      · rw [if_neg hrt] at hin
        exact hin
    · rintro rt instant hinstant ⟨z, hz, hmem, hdeadline⟩
      by_cases hrt : rt = runtimeId
      · subst hrt
        refine ⟨_, created_at _ _ _ _ _, ?_, ?_⟩
        · refine SortedSet.mem_add.mpr (.inr ?_)
          unfold ExpiringStore.get
          rw [hz]
          exact hmem
        · rintro deadline ⟨rfl⟩
          omega
      · refine ⟨z, ?_, hmem, hdeadline⟩
        show update _ runtimeId _ rt = _
        rw [update_of_ne hrt]
        show update _ runtimeId _ rt = _
        rw [update_of_ne hrt]
        exact hz

end Create

/-! ## Reading a request -/

theorem get (h : Agree K t memory redis born) :
    Agree K t (memory.get t id).2 (redis.get t id).2 born := by
  have htouch : Agree K t (memory.touch t id) (redis.live t) born := by
    refine h.live.age ?_
    intro k
    by_cases hk : k = id
    · right
      subst hk
      exact update_self _ _ _
    · exact .inl (update_of_ne hk _ _)
  refine htouch.load ?_
  intro m s hm _ hover hmatch
  rcases hmatch.overdue hover with hlate | htimeout
  · have haged : memory.touch t id id = (memory id).map fun req => req.aged t :=
      update_self _ _ _
    rw [haged] at hm
    obtain ⟨old, -, rfl⟩ := Option.map_eq_some_iff.mp hm
    rw [aged_inTime] at hlate
    cases hlate
  · exact htimeout

theorem get_shown (h : Agree K t memory redis born)
    (hwindow : ∀ b, born id = some b → t ≤ b + storeRetention)
    (hknown : K.keepsStart = true ∨ ∀ m, memory id = some m → ¬ Overran m t) :
    (memory.get t id).1.map Request.shown = (redis.get t id).1.map Request.shown := by
  show ((memory id).map _).map _ = ((redis.live t).load t id).1.map _
  rw [load_fst]
  have hat := h.live id
  cases hborn : born id with
  | none =>
    obtain ⟨hm, he, -⟩ := hat.fresh hborn
    rw [hm, he]
    rfl
  | some b =>
    obtain ⟨m, s, deadline, hm, he, -, -, hmatch⟩ := hat.paired b hborn (hwindow b hborn)
    rw [hm, he]
    show some (m.aged t).shown = some ((K.unmarshal s.value).aged t).shown
    rw [hmatch.shown_eq (hknown.imp_right fun hknown => hknown m hm)]

/-! ## Reports -/

/-- A report as one write, and what the load before it leaves out of the sorted set. -/
theorem settle_eq (redis : RedisStore K) (t : Nat) (id : String) (report : Settlement K.Body)
    (hs : (redis.live t).records id = some s) :
    redis.settle t id report =
      if (K.unmarshal s.value).overdue t then
        ((redis.live t).persist t (((K.unmarshal s.value).aged t).settled report t)).zrem
          (K.unmarshal s.value).runtimeId (K.unmarshal s.value).id
      else (redis.live t).persist t (((K.unmarshal s.value).aged t).settled report t) := by
  have hfst : ((redis.live t).load t id).1 = some ((K.unmarshal s.value).aged t) := by
    rw [load_fst, hs]
    rfl
  have hsettle : redis.settle t id report =
      ((redis.live t).load t id).2.persist t (((K.unmarshal s.value).aged t).settled report t) := by
    unfold RedisStore.settle
    generalize (redis.live t).load t id = loaded at hfst
    obtain ⟨fst, snd⟩ := loaded
    cases hfst
    rfl
  rw [hsettle]
  cases hover : (K.unmarshal s.value).overdue t with
  | false =>
    rw [load_of_inTime hs hover]
    rfl
  | true =>
    rw [load_of_overdue hs hover, if_pos rfl, aged_of_overdue hover]
    unfold RedisStore.persist RedisStore.zrem ExpiringStore.put
    congr 1
    exact Function.update_idem _ _ _

theorem settle (h : Agree K t memory redis born) (hterminal : report.status.terminal = true)
    (hwindow : ∀ b, born id = some b → t ≤ b + storeRetention)
    (hmark : report.error.isSome = true ∨ ∀ m, memory id = some m → Match.SameMark K t m) :
    Agree K t (memory.settle t id report) (redis.settle t id report) born := by
  have hlive := h.live
  cases hs : (redis.live t).records id with
  | none =>
    have hredis : redis.settle t id report = redis.live t := by
      unfold RedisStore.settle
      rw [load_of_none hs]
    have hmemory : memory.settle t id report = memory := by
      have hnone : memory id = none := by
        cases hborn : born id with
        | none => exact ((h id).fresh hborn).1
        | some b =>
          obtain ⟨m, s, deadline, -, he, -⟩ := (hlive id).paired b hborn (hwindow b hborn)
          rw [hs] at he
          cases he
      unfold InMemoryStore.settle
      rw [hnone, Option.map_none, ← hnone, Function.update_eq_self]
    rw [hredis, hmemory]
    exact hlive
  | some s =>
    have hput : Agree K t (memory.settle t id report)
        ((redis.live t).persist t (((K.unmarshal s.value).aged t).settled report t)) born := by
      refine hlive.put hs aged_id aged_runtimeId aged_createdAt ?_ ?_ ?_ ?_
      · intro hpending
        have hstatus : report.status = .pending := hpending
        rw [hstatus] at hterminal
        cases hterminal
      · intro k hk
        exact update_of_ne hk _ _
      · intro req hreq
        have hmap : memory.settle t id report id = (memory id).map fun m => m.settled report t :=
          update_self _ _ _
        rw [hmap] at hreq
        obtain ⟨m, hm, rfl⟩ := Option.map_eq_some_iff.mp hreq
        exact (h id).memory m hm
      · intro b hborn hlate
        obtain ⟨m, s', deadline, hm, hs', -, -, hmatch⟩ := (hlive id).paired b hborn hlate
        rw [hs] at hs'
        cases hs'
        refine ⟨m.settled report t, ?_, hmatch.settled (hmark.imp_right fun hmark => hmark m hm)⟩
        show update memory id _ id = _
        rw [update_self, hm]
        rfl
    rw [settle_eq redis t id report hs]
    split
    · have hid := ((hlive id).redis s hs).1
      refine hput.zrem ?_
      intro s' hs' hstatus
      have hsame : (K.unmarshal s.value).id =
          (((K.unmarshal s.value).aged t).settled report t).id := aged_id.symm
      rw [records_persist, if_pos hsame] at hs'
      cases hs'
      rw [K.reread] at hstatus
      have hstatus : report.status = .pending := hstatus
      rw [hstatus] at hterminal
      cases hterminal
    · exact hput

end Agree

end ClawMessenger.Ports.LocalSkill
