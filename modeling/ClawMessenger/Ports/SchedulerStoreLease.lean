import ClawMessenger.Ports.SchedulerStore

/-!
# Leases

Any number of runners send statements in any order, with any times; the tokens
that the database generates are new.  A row lives on: its plan, its id and its
limit stay, its attempt goes up by one with each new token, and a success is
left alone (`Step`, `Later`).  The token of a row is that of the latest claim of
it (`Sound`), so that only the holder of that claim can write to it.
-/

namespace ClawMessenger.Ports.SchedulerStore

open Verified Verified.Machine Verified.Rows List

/-! ## What one statement does -/

/-- What a statement may do to a row. -/
structure Step (row row' : Execution) : Prop where
  key : row'.key = row.key
  id : row'.id = row.id
  maxAttempts : row'.maxAttempts = row.maxAttempts
  token : row'.leaseToken = row.leaseToken → row'.attempt = row.attempt
  attempt : row'.leaseToken ≠ row.leaseToken → row'.attempt = row.attempt + 1
  success : row.status = .success → row' = row

theorem Step.refl (row : Execution) : Step row row where
  key := rfl
  id := rfl
  maxAttempts := rfl
  token := fun _ => rfl
  attempt := fun h => absurd rfl h
  success := fun _ => rfl

/-- A write to a row that runs, by whoever has its lease. -/
theorem Step.ofHeld {row row' : Execution} (hkey : row'.key = row.key) (hid : row'.id = row.id)
    (hmax : row'.maxAttempts = row.maxAttempts) (htoken : row'.leaseToken = row.leaseToken)
    (hattempt : row'.attempt = row.attempt) (hstatus : row.status ≠ .success) : Step row row' where
  key := hkey
  id := hid
  maxAttempts := hmax
  token := fun _ => hattempt
  attempt := fun h => absurd htoken h
  success := fun h => absurd h hstatus

theorem holds_iff {id leaseToken : Uuid} {row : Execution} :
    holds id leaseToken row = true ↔
      row.id = id ∧ row.leaseToken = leaseToken ∧ row.status = .running := by
  simp [holds, and_assoc]

theorem status_of_claimable {job : JobSpec} {scope : Scope} {planTime dbTime : Time}
    {row : Execution} (h : claimable job scope planTime dbTime row = true) :
    row.key = planKey job scope planTime ∧ row.attempt < row.maxAttempts ∧
      row.status ≠ .success := by
  simp only [claimable, Bool.and_eq_true, beq_iff_eq, decide_eq_true_eq] at h
  obtain ⟨⟨hkey, hattempt⟩, hstatus⟩ := h
  refine ⟨hkey, hattempt, ?_⟩
  intro hsuccess
  rw [hsuccess] at hstatus
  simp at hstatus

theorem staleFailed_step {jobName : String} {dbTime : Time} {row : Execution}
    (h : stale jobName dbTime row = true) : Step row (staleFailed dbTime row) := by
  simp only [stale, Bool.and_eq_true, beq_iff_eq] at h
  refine Step.ofHeld rfl rfl rfl rfl rfl ?_
  rw [h.1.2]
  simp

/-- Whoever writes with a lease, writes this. -/
inductive HeldWrite : (Execution → Execution) → Prop
  | renewed (now : Time) (staleTimeout : Duration) : HeldWrite (renewed now staleTimeout)
  | succeeded (dbTime : Time) (durationMs rowsAffected : Int) (result : String) :
      HeldWrite (succeeded dbTime durationMs rowsAffected result)
  | failed (dbTime : Time) (durationMs : Int) (errorCode : String) (errorMsg : List UInt8)
      (nextRetryAt : Option Time) :
      HeldWrite (failed dbTime durationMs errorCode errorMsg nextRetryAt)

theorem HeldWrite.step {f : Execution → Execution} (h : HeldWrite f) {row : Execution}
    (hstatus : row.status ≠ .success) : Step row (f row) := by
  cases h with
  | renewed | succeeded | failed => exact Step.ofHeld rfl rfl rfl rfl rfl hstatus

theorem HeldWrite.leaseToken {f : Execution → Execution} (h : HeldWrite f) (row : Execution) :
    (f row).leaseToken = row.leaseToken := by
  cases h with
  | renewed | succeeded | failed => rfl

/-- The lease that a statement writes with. -/
def Statement.lease? : Statement → Option (Uuid × Uuid)
  | .heartbeat id leaseToken _ _ => some (id, leaseToken)
  | .finishSuccess id leaseToken _ _ _ => some (id, leaseToken)
  | .finishFailure id leaseToken _ _ _ _ _ => some (id, leaseToken)
  | _ => none

/-- The token that a statement would give a row. -/
def Statement.newToken? : Statement → Option Uuid
  | .claimInsert _ _ _ _ _ _ leaseToken => some leaseToken
  | .claimSteal _ _ _ _ _ leaseToken => some leaseToken
  | _ => none

/-- A claim that was won or stolen. -/
def Claim.acquired (claim : Claim) : Bool := claim.won || claim.stole

/-- The claim that an answer hands out. -/
def Reply.claim? : Reply → Option Claim
  | .claimed claim => if claim.acquired then some claim else none
  | _ => none

/-- A success whose result cannot be encoded. -/
def Statement.Unencodable : Statement → Prop
  | .finishSuccess _ _ _ _ res => encodeResult res.result = .error ()
  | _ => False

/-- All that a statement can do. -/
inductive Effect (rows : Table) (statement : Statement) : Reply → Table → Prop
  | nothing (reply : Reply) : reply.claim? = none →
      (statement.lease? ≠ none → reply = .refused ∧ statement.Unencodable) → Effect rows statement reply rows
  | inserted (job : JobSpec) (scope : Scope) (planTime dbTime : Time) (runnerId : String)
      (id leaseToken : Uuid) : statement.newToken? = some leaseToken → statement.lease? = none →
      1 ≤ job.maxAttempts → (∀ row ∈ rows, row.key ≠ planKey job scope planTime) →
      (∀ row ∈ rows, row.id ≠ id) →
      Effect rows statement
        (.claimed { id := id, leaseToken := leaseToken, attempt := 1, won := true })
        (rows ++ [freshExecution job scope planTime dbTime runnerId id leaseToken])
  | stolen (job : JobSpec) (scope : Scope) (planTime dbTime : Time) (runnerId : String)
      (leaseToken : Uuid) (row : Execution) : statement.newToken? = some leaseToken →
      statement.lease? = none → row ∈ rows →
      claimable job scope planTime dbTime row = true →
      Effect rows statement
        (.claimed
          { id := row.id, leaseToken := leaseToken, attempt := row.attempt + 1, stole := true })
        (Rows.update rows (claimable job scope planTime dbTime)
          (stolen job dbTime runnerId leaseToken))
  | swept (jobName : String) (dbTime : Time) (affected : Nat) : statement.lease? = none →
      Effect rows statement (.affected affected)
        (Rows.update rows (stale jobName dbTime) (staleFailed dbTime))
  | held (id leaseToken : Uuid) (f : Execution → Execution) :
      statement.lease? = some (id, leaseToken) → HeldWrite f →
      Effect rows statement (updateHeld rows id leaseToken f).1 (updateHeld rows id leaseToken f).2

theorem execute_effect (rows : Table) (statement : Statement) :
    Effect rows statement (execute rows statement).1 (execute rows statement).2 := by
  cases statement with
  | claimInsert job scope planTime dbTime runnerId id leaseToken =>
    show Effect rows _ (claimInsert rows job scope planTime dbTime runnerId id leaseToken).1
      (claimInsert rows job scope planTime dbTime runnerId id leaseToken).2
    unfold claimInsert
    split
    · exact .nothing .refused rfl fun h => absurd rfl h
    · rename_i hmax
      split
      · exact .nothing .noRows rfl fun h => absurd rfl h
      · rename_i hkey
        split
        · exact .nothing .refused rfl fun h => absurd rfl h
        · rename_i hid
          apply Effect.inserted job scope planTime dbTime runnerId id leaseToken rfl rfl (by omega)
          · simpa using hkey
          · simpa using hid
  | claimSteal job scope planTime dbTime runnerId leaseToken =>
    show Effect rows _ (claimSteal rows job scope planTime dbTime runnerId leaseToken).1
      (claimSteal rows job scope planTime dbTime runnerId leaseToken).2
    unfold claimSteal
    split
    · exact .nothing _ rfl fun h => absurd rfl h
    · rename_i row hrow
      exact .stolen job scope planTime dbTime runnerId leaseToken row rfl rfl
        (mem_of_find?_eq_some hrow) (find?_some hrow)
  | markStaleAsFailed jobName dbTime => exact .swept jobName dbTime _ rfl
  | heartbeat id leaseToken staleTimeout now =>
    exact .held id leaseToken _ rfl (.renewed now staleTimeout)
  | finishSuccess id leaseToken dbTime durationMs res =>
    show Effect rows _ (finishSuccess rows id leaseToken dbTime durationMs res).1
      (finishSuccess rows id leaseToken dbTime durationMs res).2
    unfold finishSuccess
    split
    · rename_i hcannot
      exact .nothing .refused rfl fun _ => ⟨rfl, hcannot⟩
    · exact .held id leaseToken _ rfl (.succeeded dbTime durationMs _ _)
  | finishFailure id leaseToken dbTime durationMs errorCode errorMsg nextRetryAt =>
    exact .held id leaseToken _ rfl (.failed dbTime durationMs _ _ _)

/-! ## The invariant -/

/-- The claims handed out in a history. -/
def claims (past : List (Statement × Reply)) : List Claim := past.filterMap fun e => e.2.claim?

/-- The token of the latest claim of a row. -/
def latestClaim (past : List (Statement × Reply)) (id : Uuid) : Option Uuid :=
  ((claims past).filter fun claim => claim.id == id).getLast?.map Claim.leaseToken

/-- `gen_random_uuid()` gives a token that no claim has. -/
def fresh (c : Run) (statement : Statement) : Prop :=
  ∀ leaseToken, statement.newToken? = some leaseToken →
    leaseToken ∉ (claims c.past).map Claim.leaseToken

theorem claims_append (past : List (Statement × Reply)) (e : Statement × Reply) :
    claims (past ++ [e]) = claims past ++ e.2.claim?.toList := by
  unfold claims
  rw [filterMap_append]
  cases h : e.2.claim? <;> simp [h]

theorem latestClaim_append_none {past : List (Statement × Reply)} {e : Statement × Reply}
    (h : e.2.claim? = none) (id : Uuid) : latestClaim (past ++ [e]) id = latestClaim past id := by
  unfold latestClaim
  rw [claims_append, h]
  simp

theorem latestClaim_append_self (past : List (Statement × Reply)) {e : Statement × Reply}
    {claim : Claim} (h : e.2.claim? = some claim) {row : Execution} (hid : row.id = claim.id)
    (htoken : row.leaseToken = claim.leaseToken) :
    latestClaim (past ++ [e]) row.id = some row.leaseToken := by
  rw [hid, htoken]
  unfold latestClaim
  rw [claims_append, h]
  simp

theorem latestClaim_append_ne {past : List (Statement × Reply)} {e : Statement × Reply}
    {claim : Claim} (h : e.2.claim? = some claim) {id : Uuid} (hne : id ≠ claim.id) :
    latestClaim (past ++ [e]) id = latestClaim past id := by
  have hother : (claim.id == id) = false := by simpa using Ne.symm hne
  unfold latestClaim
  rw [claims_append, h, Option.toList_some, filter_append]
  simp [hother]

structure Sound (c : Run) : Prop where
  keys : Keyed Execution.key c.state
  ids : Keyed Execution.id c.state
  attempt : ∀ row ∈ c.state, row.attempt ≤ row.maxAttempts
  latest : ∀ row ∈ c.state, latestClaim c.past row.id = some row.leaseToken
  tokens : ((claims c.past).map Claim.leaseToken).Nodup

theorem Sound.start : Sound (start [] : Run) where
  keys := Keyed.nil
  ids := Keyed.nil
  attempt := by
    intro row hrow
    exact absurd hrow not_mem_nil
  latest := by
    intro row hrow
    exact absurd hrow not_mem_nil
  tokens := nodup_nil

/-- A statement that hands out no claim and changes rows without their tokens. -/
theorem Sound.quiet {c : Run} (h : Sound c) {e : Statement × Reply} (hclaim : e.2.claim? = none)
    {p : Execution → Bool} {f : Execution → Execution}
    (hstep : ∀ row, p row = true → Step row (f row))
    (htoken : ∀ row, (f row).leaseToken = row.leaseToken) :
    Sound ⟨c.past ++ [e], update c.state p f⟩ := by
  have hback : ∀ row ∈ update c.state p f, ∃ old ∈ c.state, row.id = old.id ∧
      row.attempt = old.attempt ∧ row.maxAttempts = old.maxAttempts ∧
      row.leaseToken = old.leaseToken := by
    intro row hrow
    rcases mem_update.mp hrow with ⟨old, hold, hp, heq⟩ | ⟨hold, _⟩
    · have hchange := hstep old hp
      rw [heq]
      exact ⟨old, hold, hchange.id, hchange.token (htoken old), hchange.maxAttempts, htoken old⟩
    · exact ⟨row, hold, rfl, rfl, rfl, rfl⟩
  refine ⟨h.keys.update p fun row hp => (hstep row hp).key,
    h.ids.update p fun row hp => (hstep row hp).id, ?_, ?_, ?_⟩
  · intro row hrow
    obtain ⟨old, hold, _, hattempt, hmax, _⟩ := hback row hrow
    rw [hattempt, hmax]
    exact h.attempt old hold
  · intro row hrow
    obtain ⟨old, hold, hid, _, _, hsame⟩ := hback row hrow
    rw [latestClaim_append_none hclaim, hid, hsame]
    exact h.latest old hold
  · show ((claims (c.past ++ [e])).map Claim.leaseToken).Nodup
    rw [claims_append, hclaim, Option.toList_none, append_nil]
    exact h.tokens

/-- A claim is handed out with a new token. -/
theorem nodup_claims {past : List (Statement × Reply)} {e : Statement × Reply} {claim : Claim}
    (h : ((claims past).map Claim.leaseToken).Nodup) (hclaim : e.2.claim? = some claim)
    (hnew : claim.leaseToken ∉ (claims past).map Claim.leaseToken) :
    ((claims (past ++ [e])).map Claim.leaseToken).Nodup := by
  rw [claims_append, hclaim, Option.toList_some, map_append, nodup_append]
  refine ⟨h, nodup_singleton _, ?_⟩
  intro a ha b hb heq
  rw [map_singleton, mem_singleton] at hb
  rw [heq, hb] at ha
  exact hnew ha

theorem Sound.inserted {c : Run} (h : Sound c) (statement : Statement) {job : JobSpec}
    {scope : Scope} {planTime dbTime : Time} {runnerId : String} {id leaseToken : Uuid}
    (hmax : 1 ≤ job.maxAttempts) (hkey : ∀ row ∈ c.state, row.key ≠ planKey job scope planTime)
    (hid : ∀ row ∈ c.state, row.id ≠ id)
    (hnew : leaseToken ∉ (claims c.past).map Claim.leaseToken) :
    Sound ⟨c.past ++ [(statement,
        .claimed { id := id, leaseToken := leaseToken, attempt := 1, won := true })],
      c.state ++ [freshExecution job scope planTime dbTime runnerId id leaseToken]⟩ := by
  refine ⟨h.keys.insert hkey, h.ids.insert hid, ?_, ?_, nodup_claims h.tokens rfl hnew⟩
  · intro row hrow
    rcases mem_append.mp hrow with hold | hmine
    · exact h.attempt row hold
    · rw [mem_singleton.mp hmine]
      exact hmax
  · intro row hrow
    rcases mem_append.mp hrow with hold | hmine
    · rw [← h.latest row hold]
      exact latestClaim_append_ne rfl (hid row hold)
    · rw [mem_singleton.mp hmine]
      apply latestClaim_append_self c.past
      · rfl
      · rfl
      · rfl

theorem stolen_step (job : JobSpec) (dbTime : Time) (runnerId : String) {leaseToken : Uuid}
    {row : Execution} (hstatus : row.status ≠ .success) (hnew : leaseToken ≠ row.leaseToken) :
    Step row (stolen job dbTime runnerId leaseToken row) where
  key := rfl
  id := rfl
  maxAttempts := rfl
  token := fun h => absurd h hnew
  attempt := fun _ => rfl
  success := fun h => absurd h hstatus

/-- A row has a token that was claimed. -/
theorem Sound.claimed {c : Run} (h : Sound c) {row : Execution} (hrow : row ∈ c.state) :
    row.leaseToken ∈ (claims c.past).map Claim.leaseToken := by
  have hlatest := h.latest row hrow
  obtain ⟨claim, hclaim, htoken⟩ := Option.map_eq_some_iff.mp hlatest
  have hmem := mem_of_getLast? hclaim
  rw [← htoken]
  exact mem_map_of_mem (mem_of_mem_filter hmem)

theorem Sound.stolen {c : Run} (h : Sound c) (statement : Statement) {job : JobSpec}
    {scope : Scope} {planTime dbTime : Time} {runnerId : String} {leaseToken : Uuid}
    {row : Execution} (hrow : row ∈ c.state)
    (hclaimable : claimable job scope planTime dbTime row = true)
    (hnew : leaseToken ∉ (claims c.past).map Claim.leaseToken) :
    Sound ⟨c.past ++ [(statement, .claimed
        { id := row.id, leaseToken := leaseToken, attempt := row.attempt + 1, stole := true })],
      update c.state (claimable job scope planTime dbTime)
        (stolen job dbTime runnerId leaseToken)⟩ := by
  -- the plan key leaves one row that can be claimed
  have honly : ∀ other ∈ c.state, claimable job scope planTime dbTime other = true → other = row := by
    intro other hother hp
    apply h.keys.eq_of_key hother hrow
    rw [(status_of_claimable hp).1, (status_of_claimable hclaimable).1]
  refine ⟨h.keys.update _ fun _ _ => rfl, h.ids.update _ fun _ _ => rfl, ?_, ?_,
    nodup_claims h.tokens rfl hnew⟩
  · intro new hnewRow
    rcases mem_update.mp hnewRow with ⟨old, hold, hp, heq⟩ | ⟨hold, _⟩
    · have hlt := (status_of_claimable hp).2.1
      rw [heq]
      show old.attempt + 1 ≤ old.maxAttempts
      omega
    · exact h.attempt new hold
  · intro new hnewRow
    rcases mem_update.mp hnewRow with ⟨old, hold, hp, heq⟩ | ⟨hold, hp⟩
    · rw [heq, honly old hold hp]
      apply latestClaim_append_self c.past
      · rfl
      · rfl
      · rfl
    · rw [← h.latest new hold]
      apply latestClaim_append_ne rfl
      intro heq
      have hsame := h.ids.eq_of_key hold hrow heq
      rw [hsame, hclaimable] at hp
      exact absurd hp (by simp)

theorem Sound.step {c : Run} (h : Sound c) (statement : Statement) (hfresh : fresh c statement) :
    Sound (advance execute c statement) := by
  have heffect := execute_effect c.state statement
  show Sound ⟨c.past ++ [(statement, (execute c.state statement).1)], (execute c.state statement).2⟩
  generalize (execute c.state statement).1 = reply, (execute c.state statement).2 = rows' at heffect ⊢
  cases heffect with
  | nothing _ hclaim _ =>
    have hquiet := h.quiet (e := (statement, reply)) hclaim (p := fun _ => false) (f := id)
      (fun row hp => absurd hp (by simp)) fun _ => rfl
    rw [update_of_none id fun _ _ => rfl] at hquiet
    exact hquiet
  | inserted job scope planTime dbTime runnerId id leaseToken htoken _ hmax hkey hid =>
    exact h.inserted statement hmax hkey hid (hfresh leaseToken htoken)
  | stolen job scope planTime dbTime runnerId leaseToken row htoken _ hrow hclaimable =>
    exact h.stolen statement hrow hclaimable (hfresh leaseToken htoken)
  | swept jobName dbTime affected _ =>
    apply h.quiet rfl
    · intro row hp
      exact staleFailed_step hp
    · intro _
      rfl
  | held id leaseToken f _ hwrite =>
    apply h.quiet
    · show (if c.state.any (holds id leaseToken) then Reply.ok else .leaseLost).claim? = none
      split <;> rfl
    · intro row hp
      apply hwrite.step
      rw [(holds_iff.mp hp).2.2]
      simp
    · exact hwrite.leaseToken

theorem Sound.reach {c : Run} (h : Machine.Reach execute fresh (Machine.start []) c) : Sound c :=
  Machine.Reach.invariant (fun _ statement hfresh hd => hd.step statement hfresh) h Sound.start

/-! ## Rows along a run -/

theorem execute_grows {c : Run} (h : Sound c) (statement : Statement) (hfresh : fresh c statement) :
    Grows Step c.state (execute c.state statement).2 := by
  have heffect := execute_effect c.state statement
  generalize (execute c.state statement).1 = reply, (execute c.state statement).2 = rows' at heffect ⊢
  cases heffect with
  | nothing _ _ _ => exact Grows.refl Step.refl _
  | inserted => exact Grows.insert Step.refl _ _
  | stolen job scope planTime dbTime runnerId leaseToken row htoken _ _ _ =>
    apply Grows.update Step.refl
    intro old hold hp
    apply stolen_step job dbTime runnerId (status_of_claimable hp).2.2
    intro heq
    apply hfresh leaseToken htoken
    rw [heq]
    exact h.claimed hold
  | swept jobName dbTime affected _ =>
    apply Grows.update Step.refl
    intro row _ hp
    exact staleFailed_step hp
  | held id leaseToken f _ hwrite =>
    apply Grows.update Step.refl
    intro row _ hp
    apply hwrite.step
    rw [(holds_iff.mp hp).2.2]
    simp

/-- What any number of statements may do to a row. -/
structure Later (row row' : Execution) : Prop where
  key : row'.key = row.key
  id : row'.id = row.id
  attempt : row.attempt ≤ row'.attempt
  success : row.status = .success → row' = row

theorem Later.refl (row : Execution) : Later row row where
  key := rfl
  id := rfl
  attempt := Int.le_refl _
  success := fun _ => rfl

theorem Later.trans (a b c : Execution) (h : Later a b) (h' : Later b c) : Later a c where
  key := h'.key.trans h.key
  id := h'.id.trans h.id
  attempt := Int.le_trans h.attempt h'.attempt
  success := by
    intro hsuccess
    have hsame := h.success hsuccess
    rw [← hsame] at hsuccess
    rw [h'.success hsuccess, hsame]

theorem Step.later {row row' : Execution} (h : Step row row') : Later row row' where
  key := h.key
  id := h.id
  attempt := by
    by_cases htoken : row'.leaseToken = row.leaseToken
    · exact Int.le_of_eq (h.token htoken).symm
    · rw [h.attempt htoken]
      omega
  success := h.success

theorem grows_reach {c c' : Run} (hc : Sound c) (h : Reach execute fresh c c') :
    Grows Later c.state c'.state := by
  apply Reach.rel (R := fun d e : Run => Grows Later d.state e.state) (I := Sound)
  · intro d
    exact Grows.refl Later.refl _
  · intro d e f
    exact Grows.trans Later.trans
  · intro d statement hfresh hd
    exact hd.step statement hfresh
  · intro d statement hfresh hd
    exact (execute_grows hd statement hfresh).mono fun _ _ hstep => hstep.later
  · exact h
  · exact hc

/-! ## Writing with a lease -/

/-- The lease is that of a row which runs. -/
def Held (rows : Table) (id leaseToken : Uuid) : Prop :=
  ∃ row ∈ rows, row.id = id ∧ row.leaseToken = leaseToken ∧ row.status = .running

theorem updateHeld_of_not_held {rows : Table} {id leaseToken : Uuid}
    (h : ¬Held rows id leaseToken) (f : Execution → Execution) :
    updateHeld rows id leaseToken f = (.leaseLost, rows) := by
  have hnone : ∀ row ∈ rows, holds id leaseToken row = false := by
    intro row hrow
    by_contra hp
    have hp' : holds id leaseToken row = true := by simpa using hp
    exact h ⟨row, hrow, holds_iff.mp hp'⟩
  have hany : rows.any (holds id leaseToken) = false := by simpa using hnone
  unfold updateHeld
  rw [hany, update_of_none f hnone]
  rfl

theorem updateHeld_of_held {rows : Table} {id leaseToken : Uuid} (h : Held rows id leaseToken)
    (f : Execution → Execution) : (updateHeld rows id leaseToken f).1 = .ok := by
  obtain ⟨row, hrow, hheld⟩ := h
  have hany : rows.any (holds id leaseToken) = true :=
    any_eq_true.mpr ⟨row, hrow, holds_iff.mpr hheld⟩
  unfold updateHeld
  rw [hany]
  rfl

section

variable (rows : Table) {statement : Statement} {id leaseToken : Uuid}
  (hlease : statement.lease? = some (id, leaseToken))
include rows hlease

/-- A write with a lease is refused before it is sent or goes to the row held. -/
theorem lease_effect :
    (statement.Unencodable ∧ execute rows statement = (.refused, rows)) ∨
      ∃ f, execute rows statement = updateHeld rows id leaseToken f := by
  have heffect := execute_effect rows statement
  have heta : execute rows statement = ((execute rows statement).1, (execute rows statement).2) := rfl
  generalize (execute rows statement).1 = reply, (execute rows statement).2 = rows' at heffect heta
  rw [heta]
  cases heffect with
  | nothing _ _ hrefused =>
    obtain ⟨hreply, hcannot⟩ := hrefused (by rw [hlease]; simp)
    rw [hreply]
    exact .inl ⟨hcannot, rfl⟩
  | inserted _ _ _ _ _ _ _ _ hnone =>
    rw [hlease] at hnone
    cases hnone
  | stolen _ _ _ _ _ _ _ _ hnone =>
    rw [hlease] at hnone
    cases hnone
  | swept _ _ _ hnone =>
    rw [hlease] at hnone
    cases hnone
  | held id' leaseToken' f hsame _ =>
    rw [hlease] at hsame
    cases hsame
    exact .inr ⟨f, rfl⟩

/-- A heartbeat or a terminal write: with the lease of a running row it is done,
otherwise it reports the lease lost and changes nothing.  A result that cannot
be encoded is refused before it is sent. -/
theorem lease_write :
    (statement.Unencodable ∧ execute rows statement = (.refused, rows)) ∨
      (Held rows id leaseToken ∧ (execute rows statement).1 = .ok) ∨
      (¬Held rows id leaseToken ∧ execute rows statement = (.leaseLost, rows)) := by
  rcases lease_effect rows hlease with hrefused | ⟨f, heffect⟩
  · exact .inl hrefused
  · rw [heffect]
    by_cases hheld : Held rows id leaseToken
    · exact .inr (.inl ⟨hheld, updateHeld_of_held hheld f⟩)
    · exact .inr (.inr ⟨hheld, updateHeld_of_not_held hheld f⟩)

/-- Such a write leaves every other row alone. -/
theorem lease_write_only {row : Execution} (hrow : row ∈ rows)
    (hgone : row ∉ (execute rows statement).2) :
    row.id = id ∧ row.leaseToken = leaseToken ∧ row.status = .running := by
  rcases lease_effect rows hlease with ⟨_, heffect⟩ | ⟨f, heffect⟩ <;> rw [heffect] at hgone
  · exact absurd hrow hgone
  · by_contra hother
    apply hgone
    apply mem_update.mpr
    refine .inr ⟨hrow, ?_⟩
    by_contra hp
    exact hother (holds_iff.mp (by simpa using hp))

end

/-! ## Lease safety -/

/-- What a lease is good for, in every order of the statements of any runners. -/
theorem lease_safety {c c' : Run} (hc : Machine.Reach execute fresh (Machine.start []) c)
    (hc' : Machine.Reach execute fresh c c') (statement : Statement) (hfresh : fresh c statement) :
    -- one row for each plan, within its attempts
    (c.state.map Execution.key).Nodup ∧
    (∀ row ∈ c.state, row.attempt ≤ row.maxAttempts) ∧
    -- no two claims have one token
    ((claims c.past).map Claim.leaseToken).Nodup ∧
    -- attempts go up by one with each token, and a success is never left
    Grows Step c.state (execute c.state statement).2 ∧
    Grows Later c.state c'.state ∧
    -- only the holder of the latest claim of a running row writes, and to that row
    (∀ id leaseToken, statement.lease? = some (id, leaseToken) →
      (∀ row ∈ c.state, row ∉ (execute c.state statement).2 → row.id = id ∧
        row.leaseToken = leaseToken ∧ row.status = .running ∧
        latestClaim c.past row.id = some leaseToken) ∧
      ((statement.Unencodable ∧ execute c.state statement = (.refused, c.state)) ∨
        (Held c.state id leaseToken ∧ (execute c.state statement).1 = .ok) ∨
        (¬Held c.state id leaseToken ∧ execute c.state statement = (.leaseLost, c.state)))) := by
  have hsound := Sound.reach hc
  refine ⟨hsound.keys, hsound.attempt, hsound.tokens, execute_grows hsound statement hfresh,
    grows_reach hsound hc', ?_⟩
  intro id leaseToken hlease
  refine ⟨?_, lease_write c.state hlease⟩
  intro row hrow hgone
  obtain ⟨hid, htoken, hstatus⟩ := lease_write_only c.state hlease hrow hgone
  refine ⟨hid, htoken, hstatus, ?_⟩
  rw [← htoken]
  exact hsound.latest row hrow

/-- A job of five minutes that may be stolen. -/
def nightlyJob : JobSpec where
  name := "nightly"
  cadence := 300 * second
  scheduleDelay := 0
  catchUpMode := .latestOnly
  catchUpWindow := 3600 * second
  maxPlansPerTick := 1
  runTimeout := 60 * second
  staleTimeout := 120 * second
  heartbeatInterval := 30 * second
  allowStaleReentry := true
  maxAttempts := 3
  retryBackoff := []
  plansForScope := none

/-- The lease of the first runner goes stale and the second one steals it. -/
theorem lease_safety_stolen :
    ((exec execute (start [])
        [.claimInsert nightlyJob scopeGlobal 0 0 "first" 1 11]).state.map Execution.key).Nodup ∧
      execute (exec execute (start [])
          [.claimInsert nightlyJob scopeGlobal 0 0 "first" 1 11,
            .claimSteal nightlyJob scopeGlobal 0 (121 * second) "second" 12]).state
        (.heartbeat 1 11 (120 * second) (122 * second)) =
      (.leaseLost, (exec execute (start [])
          [.claimInsert nightlyJob scopeGlobal 0 0 "first" 1 11,
            .claimSteal nightlyJob scopeGlobal 0 (121 * second) "second" 12]).state) := by
  have hfirst : AllAllowed execute fresh (start [])
      [.claimInsert nightlyJob scopeGlobal 0 0 "first" 1 11] := by
    refine ⟨?_, trivial⟩
    intro leaseToken _
    exact not_mem_nil
  have hboth : AllAllowed execute fresh (start [])
      [.claimInsert nightlyJob scopeGlobal 0 0 "first" 1 11,
        .claimSteal nightlyJob scopeGlobal 0 (121 * second) "second" 12] := by
    refine ⟨hfirst.1, ?_, trivial⟩
    intro leaseToken htoken
    rw [← Option.some.inj htoken]
    decide
  have hquiet : ∀ c : Run, fresh c (.heartbeat 1 11 (120 * second) (122 * second)) := by
    intro c leaseToken htoken
    cases htoken
  have hone := lease_safety (reach_exec hfirst) (Reach.refl _) _ (hquiet _)
  have htwo := lease_safety (reach_exec hboth) (Reach.refl _) _ (hquiet _)
  refine ⟨hone.1, ?_⟩
  rcases (htwo.2.2.2.2.2 1 11 rfl).2 with hrefused | hheld | hlost
  · exact hrefused.1.elim
  · exact absurd hheld.2 (by decide)
  · exact hlost.2

end ClawMessenger.Ports.SchedulerStore
