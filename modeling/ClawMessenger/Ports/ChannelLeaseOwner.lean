import ClawMessenger.Ports.ChannelLease

/-!
# One live connection

A supervisor counts on the lease from the moment an acquisition of its own has
taken effect until its connection is cancelled.  As long as nothing takes the
lease away from a supervisor that counts on it, Redis holds its token for the
time it reckons with (`Backed`), and so two live connections are one.

The token is the supervisor's and not the acquisition's, so a release that was
given up in one round can take the lease of the next round of the same
supervisor (`lateRelease`).  And nothing looks at the clock between `Build` and
`Connect` (`slowBuild`).  `Fenced` says that neither happens.
-/

namespace ClawMessenger.Ports.ChannelLease

open Verified Verified.Machine List

/-! ## Tokens -/

private theorem split_at {c : Char} {xs ys xs' ys' : List Char} (hx : c ∉ xs) (hx' : c ∉ xs')
    (h : xs ++ c :: ys = xs' ++ c :: ys') : xs = xs' ∧ ys = ys' := by
  induction xs generalizing xs' with
  | nil =>
    cases xs' with
    | nil => exact ⟨rfl, (cons.inj h).2⟩
    | cons b xs' =>
      exact absurd (mem_cons.mpr (.inl (cons.inj h).1)) hx'
  | cons a xs ih =>
    cases xs' with
    | nil =>
      exact absurd (mem_cons.mpr (.inl (cons.inj h).1.symm)) hx
    | cons b xs' =>
      obtain ⟨hab, hrest⟩ := cons.inj h
      have htail := ih (fun hmem => hx (mem_cons_of_mem _ hmem))
        (fun hmem => hx' (mem_cons_of_mem _ hmem)) hrest
      exact ⟨by rw [hab, htail.1], htail.2⟩

theorem not_mem_digits (n : Nat) : 'g' ∉ (toString n).toList.reverse := by
  intro hmem
  rw [mem_reverse] at hmem
  have hdigit : ('g' : Char).isDigit = true := by
    apply Nat.isDigit_of_mem_toDigits (b := 10) (n := n) (by decide) (by decide)
    simpa [Nat.repr] using hmem
  cases hdigit

/-- No two supervisors have the same token. -/
theorem leaseToken_injective {p q : Name} (h : leaseToken p = leaseToken q) : p = q := by
  have hlist := congrArg (fun token => token.toList.reverse) h
  simp only [leaseToken, String.toList_append, reverse_append] at hlist
  have hg : ("-g" : String).toList.reverse = ['g', '-'] := by decide
  rw [hg] at hlist
  obtain ⟨hgen, hnode⟩ := split_at (not_mem_digits p.2) (not_mem_digits q.2) hlist
  have hgen' : p.2 = q.2 := by
    apply Nat.repr_injective
    exact String.toList_injective (reverse_injective hgen)
  have hnode' : p.1 = q.1 := by
    apply String.toList_injective
    apply reverse_injective
    exact (cons.inj hnode).2
  exact Prod.ext hnode' hgen'

/-! ## What a supervisor counts on -/

/-- The moments from which on a supervisor takes the lease for granted. -/
def Supervisor.counts (results : OrderedMap Nat Bool) (supervisor : Supervisor) : List Nat :=
  if supervisor.cancelled then []
  else
    match supervisor.phase with
    | .acquiring request started => if results.get? request = some true then [started] else []
    | .building confirmed => [confirmed]
    | .running run =>
      if run.cancelled then []
      else
        match run.renewal with
        | .attempting request started =>
          if results.get? request = some true then [run.confirmed, started] else [run.confirmed]
        | _ => [run.confirmed]
    | _ => []

/-- The request for the lease that a supervisor waits for, and when it was sent. -/
def Supervisor.awaits (supervisor : Supervisor) : Option (Nat × Nat) :=
  match supervisor.phase with
  | .acquiring request started => some (request, started)
  | .running run =>
    match run.renewal with
    | .attempting request started => some (request, started)
    | _ => none
  | _ => none

/-- What is asked of a step.  Time does not run past the lease of a live
connection; a connection starts within its lease; and a release takes effect
while its supervisor does not count on the lease again. -/
def Fenced (cfg : Config) (c : Cfg) : Action → Prop
  | .tick elapsed => ∀ e ∈ c.state.supervisors.entries, ∀ run, e.2.Live run →
      c.state.now + elapsed < run.confirmed + cfg.kept
  | .supervise name ok => ∀ supervisor, c.state.supervisors.get? name = some supervisor →
      ∀ confirmed, supervisor.phase = .building confirmed → ok = true →
        supervisor.cancelled = false → c.state.now < confirmed + cfg.kept
  | .takeEffect request => ∀ r, c.state.requests.get? request = some r →
      r.script = .redisReleaseLease → ∀ supervisor, c.state.supervisors.get? r.sender = some supervisor →
        supervisor.counts c.state.results = []
  | _ => True

structure Good (cfg : Config) (s : State) (name : Name) (supervisor : Supervisor) : Prop where
  awaits : ∀ request started, supervisor.awaits = some (request, started) →
    started ≤ s.now ∧ request < s.nextRequest ∧ ∀ r, s.requests.get? request = some r →
      r.sender = name ∧ r.script ≠ .redisReleaseLease
  backed : ∀ since ∈ supervisor.counts s.results, since ≤ s.now ∧
    Lease.Backed s.key (leaseToken name) since cfg.kept s.now
  inTime : ∀ run, supervisor.Live run → s.now < run.confirmed + cfg.kept
  ordered : ∀ run request started, supervisor.phase = .running run →
    run.renewal = .attempting request started → run.confirmed ≤ started

structure Sound (cfg : Config) (s : State) : Prop where
  fresh : ∀ request, s.nextRequest ≤ request →
    s.requests.get? request = none ∧ s.results.get? request = none
  good : ∀ name supervisor, s.supervisors.get? name = some supervisor → Good cfg s name supervisor

variable {cfg : Config} {s : State} {name : Name} {supervisor : Supervisor}

/-! ## The lease and the requests -/

variable {results : OrderedMap Nat Bool} {run : Run}

theorem counts_live (h : supervisor.Live run) :
    run.confirmed ∈ supervisor.counts results := by
  obtain ⟨hphase, hcancelled, hctx⟩ := h
  rw [Supervisor.counts, hctx, hphase]
  dsimp only
  rw [hcancelled]
  cases run.renewal with
  | waiting | exited => exact mem_singleton_self _
  | attempting request started =>
    by_cases hgranted : results.get? request = some true
    · simp [hgranted]
    · simp [hgranted]

variable {request since : Nat} {granted : Bool}

/-- One more result adds at most what its request was waited for. -/
theorem counts_set (h : since ∈ supervisor.counts (results.set request granted)) :
    since ∈ supervisor.counts results ∨
      (granted = true ∧ supervisor.awaits = some (request, since)) := by
  have hresult : ∀ other, (results.set request granted).get? other = some true →
      results.get? other = some true ∨ (granted = true ∧ other = request) := by
    intro other hother
    rcases OrderedMap.get?_set_cases hother with ⟨heq, hgranted⟩ | ⟨_, hold⟩
    · exact .inr ⟨hgranted.symm, heq⟩
    · exact .inl hold
  unfold Supervisor.counts at h ⊢
  by_cases hctx : supervisor.cancelled = true
  · rw [if_pos hctx] at h
    cases h
  · rw [if_neg hctx] at h ⊢
    cases hphase : supervisor.phase with
    | acquiring other started =>
      rw [hphase] at h
      dsimp only at h ⊢
      by_cases hother : (results.set request granted).get? other = some true
      · rw [if_pos hother] at h
        rcases hresult other hother with hold | ⟨hgranted, heq⟩
        · rw [if_pos hold]
          exact .inl h
        · right
          rw [mem_singleton] at h
          rw [Supervisor.awaits, hphase, h, heq]
          exact ⟨hgranted, rfl⟩
      · rw [if_neg hother] at h
        cases h
    | building confirmed =>
      rw [hphase] at h
      exact .inl h
    | running run =>
      rw [hphase] at h
      dsimp only at h ⊢
      by_cases hcancelled : run.cancelled = true
      · rw [if_pos hcancelled] at h
        cases h
      · rw [if_neg hcancelled] at h ⊢
        cases hrenewal : run.renewal with
        | waiting =>
          rw [hrenewal] at h
          exact .inl h
        | exited =>
          rw [hrenewal] at h
          exact .inl h
        | attempting other started =>
          rw [hrenewal] at h
          dsimp only at h ⊢
          by_cases hother : (results.set request granted).get? other = some true
          · rw [if_pos hother] at h
            rcases hresult other hother with hold | ⟨hgranted, heq⟩
            · rw [if_pos hold]
              exact .inl h
            · rcases mem_cons.mp h with hconfirmed | hstarted
              · left
                rw [hconfirmed]
                by_cases hold : results.get? other = some true
                · rw [if_pos hold]
                  exact mem_cons_self
                · rw [if_neg hold]
                  exact mem_singleton_self _
              · right
                rw [mem_singleton] at hstarted
                rw [Supervisor.awaits, hphase]
                dsimp only
                rw [hrenewal, hstarted, heq]
                exact ⟨hgranted, rfl⟩
          · rw [if_neg hother] at h
            left
            rw [mem_singleton] at h
            rw [h]
            by_cases hold : results.get? other = some true
            · rw [if_pos hold]
              exact mem_cons_self
            · rw [if_neg hold]
              exact mem_singleton_self _
    | top =>
      rw [hphase] at h
      cases h
    | releasing other =>
      rw [hphase] at h
      cases h
    | sleeping =>
      rw [hphase] at h
      cases h
    | exited =>
      rw [hphase] at h
      cases h

theorem Sound.tick (h : Sound cfg s) {elapsed : Nat}
    (hfenced : ∀ e ∈ s.supervisors.entries, ∀ run, e.2.Live run →
      s.now + elapsed < run.confirmed + cfg.kept) :
    Sound cfg { s with now := s.now + elapsed } := by
  refine ⟨h.fresh, ?_⟩
  intro name supervisor hget
  have hgood := h.good name supervisor hget
  apply Good.mk
  · intro request started hawaits
    obtain ⟨hstarted, hrest⟩ := hgood.awaits request started hawaits
    exact ⟨Nat.le_add_right_of_le hstarted, hrest⟩
  · intro since hsince
    obtain ⟨hle, hbacked⟩ := hgood.backed since hsince
    exact ⟨Nat.le_add_right_of_le hle, hbacked.mono (Nat.le_add_right _ _)⟩
  · exact hfenced (name, supervisor) (OrderedMap.get?_eq_some_iff.mp hget)
  · exact hgood.ordered

theorem Sound.expire (h : Sound cfg s) : Sound cfg { s with key := Lease.expire s.key s.now } := by
  refine ⟨h.fresh, ?_⟩
  intro name supervisor hget
  have hgood := h.good name supervisor hget
  refine ⟨hgood.awaits, ?_, hgood.inTime, hgood.ordered⟩
  intro since hsince
  obtain ⟨hle, hbacked⟩ := hgood.backed since hsince
  exact ⟨hle, hbacked.expire⟩

theorem Sound.lose (h : Sound cfg s) (request : Nat) :
    Sound cfg { s with requests := s.requests.erase request } := by
  have hold : ∀ other r, (s.requests.erase request).get? other = some r →
      s.requests.get? other = some r := fun other r hr => (OrderedMap.get?_erase_cases hr).2
  apply Sound.mk
  · intro other hother
    refine ⟨?_, (h.fresh other hother).2⟩
    cases hr : (s.requests.erase request).get? other with
    | none => rfl
    | some r =>
      have hnone := (h.fresh other hother).1
      rw [hold other r hr] at hnone
      cases hnone
  · intro name supervisor hget
    have hgood := h.good name supervisor hget
    refine ⟨?_, hgood.backed, hgood.inTime, hgood.ordered⟩
    intro other started hawaits
    obtain ⟨hstarted, hlt, hrequest⟩ := hgood.awaits other started hawaits
    exact ⟨hstarted, hlt, fun r hr => hrequest r (hold other r hr)⟩

variable {script : Script} {token : String}

/-- What a script leaves of a lease that somebody counts on. -/
theorem backed_run {sender : Name} (hle : since ≤ s.now)
    (hbacked : Lease.Backed s.key token since cfg.kept s.now)
    (hrelease : script = .redisReleaseLease → leaseToken sender ≠ token) :
    Lease.Backed (script.run s.key (leaseToken sender) cfg.kept s.now).2 token since cfg.kept
      s.now := by
  cases script with
  | redisTryAcquireLease => exact hbacked.tryAcquire hle
  | redisRenewLease => exact hbacked.renew hle
  | redisReleaseLease => exact hbacked.release (hrelease rfl)

theorem run_granted {key : Lease.Register String} {now : Nat}
    (hscript : script ≠ .redisReleaseLease)
    (hgranted : (script.run key token cfg.kept now).1 = true) :
    (script.run key token cfg.kept now).2 = some ⟨token, now + cfg.kept⟩ := by
  cases script with
  | redisTryAcquireLease => exact Lease.tryAcquire_granted hgranted
  | redisRenewLease => exact Lease.renew_granted hgranted
  | redisReleaseLease => exact absurd rfl hscript

theorem Sound.takeEffect (h : Sound cfg s) {r : Request} (hr : s.requests.get? request = some r)
    (hfenced : r.script = .redisReleaseLease → ∀ supervisor, s.supervisors.get? r.sender = some supervisor → supervisor.counts s.results = []) :
    Sound cfg (takeEffect cfg s request r) := by
  have hlose := h.lose request
  apply Sound.mk
  · intro other hother
    refine ⟨(hlose.fresh other hother).1, ?_⟩
    have hne : other ≠ request := by
      intro heq
      have hnone := (h.fresh other hother).1
      rw [heq, hr] at hnone
      cases hnone
    show (s.results.set request _).get? other = none
    rw [OrderedMap.get?_set_ne _ _ hne]
    exact (h.fresh other hother).2
  · intro name supervisor hget
    have hgood := h.good name supervisor hget
    refine ⟨(hlose.good name supervisor hget).awaits, ?_, hgood.inTime, hgood.ordered⟩
    intro since hsince
    rcases counts_set hsince with hold | ⟨hgranted, hawaits⟩
    · obtain ⟨hle, hbacked⟩ := hgood.backed since hold
      refine ⟨hle, backed_run hle hbacked ?_⟩
      intro hrelease heq
      have hname := leaseToken_injective heq
      subst hname
      rw [hfenced hrelease supervisor hget] at hold
      cases hold
    · obtain ⟨hle, _, hrequest⟩ := hgood.awaits request since hawaits
      obtain ⟨hsender, hscript⟩ := hrequest r hr
      refine ⟨hle, ?_⟩
      have hkey := run_granted hscript hgranted
      show Lease.Backed (r.script.run s.key (leaseToken r.sender) cfg.kept s.now).2 _ _ _ _
      rw [hkey, hsender]
      exact Lease.backed_granted hle

/-! ## The supervisors -/

theorem Sound.put (h : Sound cfg s) (hgood : Good cfg s name supervisor) :
    Sound cfg (s.put name supervisor) := by
  refine ⟨h.fresh, ?_⟩
  intro name' supervisor' hget
  rcases OrderedMap.get?_set_cases hget with ⟨rfl, rfl⟩ | ⟨_, hold⟩
  · exact ⟨hgood.awaits, hgood.backed, hgood.inTime, hgood.ordered⟩
  · have hgood' := h.good name' supervisor' hold
    exact ⟨hgood'.awaits, hgood'.backed, hgood'.inTime, hgood'.ordered⟩

theorem Sound.replicas (h : Sound cfg s) (replicas : OrderedMap String Replica) :
    Sound cfg { s with replicas := replicas } := by
  refine ⟨h.fresh, ?_⟩
  intro name supervisor hget
  have hgood := h.good name supervisor hget
  exact ⟨hgood.awaits, hgood.backed, hgood.inTime, hgood.ordered⟩

theorem Good.send (h : Good cfg s name supervisor) (script : Script) (sender : Name) :
    Good cfg (s.send script sender) name supervisor := by
  refine ⟨?_, h.backed, h.inTime, h.ordered⟩
  intro request started hawaits
  obtain ⟨hstarted, hlt, hrequest⟩ := h.awaits request started hawaits
  refine ⟨hstarted, Nat.lt_succ_of_lt hlt, ?_⟩
  intro r hr
  rcases OrderedMap.get?_set_cases hr with ⟨heq, _⟩ | ⟨_, hold⟩
  · exact absurd heq (Nat.ne_of_lt hlt)
  · exact hrequest r hold

theorem Sound.send (h : Sound cfg s) (script : Script) (sender : Name) :
    Sound cfg (s.send script sender) := by
  apply Sound.mk
  · intro request hrequest
    have hlt : s.nextRequest < request := hrequest
    have hfresh := h.fresh request (Nat.le_of_lt hlt)
    refine ⟨?_, hfresh.2⟩
    show (s.requests.set s.nextRequest _).get? request = none
    rw [OrderedMap.get?_set_ne _ _ (Nat.ne_of_gt hlt)]
    exact hfresh.1
  · intro name supervisor hget
    exact (h.good name supervisor hget).send script sender

/-- A supervisor without a connection that waits for no lease. -/
theorem Good.idle (hawaits : supervisor.awaits = none) (hcounts : supervisor.counts s.results = [])
    (hphase : ∀ run, supervisor.phase ≠ .running run) : Good cfg s name supervisor := by
  apply Good.mk
  · intro request started h
    rw [hawaits] at h
    cases h
  · intro since h
    rw [hcounts] at h
    cases h
  · intro run h
    exact absurd h.1 (hphase run)
  · intro run _ _ h
    exact absurd h (hphase run)

theorem good_idle {phase : Phase} {cancelled : Bool}
    (h : phase = .top ∨ phase = .sleeping ∨ phase = .exited ∨ ∃ request, phase = .releasing request) :
    Good cfg s name ⟨phase, cancelled⟩ := by
  rcases h with rfl | rfl | rfl | ⟨request, rfl⟩
  · exact Good.idle rfl (by cases cancelled <;> rfl) nofun
  · exact Good.idle rfl (by cases cancelled <;> rfl) nofun
  · exact Good.idle rfl (by cases cancelled <;> rfl) nofun
  · exact Good.idle rfl (by cases cancelled <;> rfl) nofun

theorem Sound.exit (h : Sound cfg s) (name : Name) (supervisor : Supervisor) :
    Sound cfg (s.exit name supervisor) := by
  have hgood : Good cfg s name { supervisor with phase := .exited } :=
    good_idle (.inr (.inr (.inl rfl)))
  exact (h.put hgood).replicas _

theorem Sound.startSupervisor (h : Sound cfg s) (nodeID : String) :
    Sound cfg (startSupervisor s nodeID) := by
  unfold ChannelLease.startSupervisor
  dsimp only
  by_cases hstopped : (s.replica nodeID).stopped = true
  · rw [if_pos hstopped]
    exact h
  · rw [if_neg hstopped]
    by_cases hentry : (s.replica nodeID).entry.isSome = true
    · rw [if_pos hentry]
      exact h
    · rw [if_neg hentry]
      have hgood : Good cfg s (nodeID, (s.replica nodeID).supervisorGen + 1) ⟨.top, false⟩ :=
        good_idle (.inl rfl)
      exact (h.put hgood).replicas _

/-- A cancelled supervisor counts on nothing. -/
theorem Good.cancel (h : Good cfg s name supervisor) :
    Good cfg s name { supervisor with cancelled := true } := by
  refine ⟨h.awaits, ?_, ?_, h.ordered⟩
  · intro since hsince
    cases hsince
  · intro run hlive
    have hctx : true = false := hlive.2.2
    cases hctx

theorem Sound.cancelSupervisor (h : Sound cfg s) (nodeID : String) (stop : Bool) :
    Sound cfg (cancelSupervisor s nodeID stop) := by
  unfold ChannelLease.cancelSupervisor
  dsimp only
  apply Sound.replicas
  cases hentry : (s.replica nodeID).entry with
  | none => exact h
  | some gen =>
    show Sound cfg (s.cancelEntry nodeID gen)
    unfold State.cancelEntry
    cases hget : s.supervisors.get? (nodeID, gen) with
    | none => exact h
    | some supervisor => exact h.put (h.good _ supervisor hget).cancel

/-- A supervisor that goes on, on no more than it counted on before. -/
theorem Good.goOn (h : Good cfg s name supervisor) {supervisor' : Supervisor}
    (hawaits : supervisor'.awaits = none)
    (hcounts : ∀ since ∈ supervisor'.counts s.results, since ∈ supervisor.counts s.results)
    (hlive : ∀ run, supervisor'.Live run → s.now < run.confirmed + cfg.kept)
    (hordered : ∀ run request started, supervisor'.phase = .running run →
      run.renewal ≠ .attempting request started) : Good cfg s name supervisor' := by
  refine ⟨?_, fun since hsince => h.backed since (hcounts since hsince), hlive, ?_⟩
  · intro request started habsurd
    rw [hawaits] at habsurd
    cases habsurd
  · intro run request started hphase habsurd
    exact absurd habsurd (hordered run request started hphase)

variable {ok : Bool}

theorem result_of_reply (h : s.reply request ok = .answer granted) :
    s.results.get? request = some granted := by
  unfold State.reply at h
  cases ok with
  | false => cases h
  | true =>
    cases hr : s.results.get? request with
    | none =>
      rw [hr] at h
      cases h
    | some result =>
      rw [hr] at h
      rw [Reply.answer.inj h]

/-- A supervisor waits for the request that it has just sent. -/
theorem awaits_sent {script : Script} (hscript : script ≠ .redisReleaseLease)
    (h : supervisor.awaits = some (s.nextRequest, s.now)) (request started : Nat)
    (hawaits : supervisor.awaits = some (request, started)) :
    started ≤ s.now ∧ request < s.nextRequest + 1 ∧ ∀ r, (s.send script name).requests.get? request = some r →
      r.sender = name ∧ r.script ≠ .redisReleaseLease := by
  obtain ⟨rfl, rfl⟩ := Prod.mk.inj (Option.some.inj (h.symm.trans hawaits))
  refine ⟨Nat.le_refl _, Nat.lt_succ_self _, ?_⟩
  intro r hr
  cases (OrderedMap.get?_set_self s.requests s.nextRequest _).symm.trans hr
  exact ⟨rfl, hscript⟩

theorem Sound.acquiring (h : Sound cfg s) (cancelled : Bool) :
    Sound cfg ((s.send .redisTryAcquireLease name).put name
      ⟨.acquiring s.nextRequest s.now, cancelled⟩) := by
  have hresult := (h.fresh s.nextRequest (Nat.le_refl _)).2
  apply (h.send .redisTryAcquireLease name).put
  apply Good.mk
  · exact awaits_sent (s := s) (by simp) rfl
  · intro since hsince
    have hnone : (s.send .redisTryAcquireLease name).results.get? s.nextRequest = none := hresult
    cases cancelled with
    | true => cases hsince
    | false =>
      simp only [Supervisor.counts, hnone] at hsince
      cases hsince
  · intro run hlive
    cases hlive.1
  · intro run _ _ hphase
    cases hphase

theorem Sound.supervise (h : Sound cfg s) (hget : s.supervisors.get? name = some supervisor)
    (hfenced : ∀ confirmed, supervisor.phase = .building confirmed → ok = true → supervisor.cancelled = false → s.now < confirmed + cfg.kept) :
    Sound cfg (supervise cfg s name supervisor ok) := by
  have hgood := h.good name supervisor hget
  obtain ⟨phase, cancelled⟩ := supervisor
  unfold supervise
  cases phase with
  | top =>
    dsimp only
    by_cases hctx : cancelled = true
    · rw [if_pos hctx]
      exact h.exit name _
    · rw [if_neg hctx]
      by_cases hmillis : cfg.ttlMillis = 0
      · rw [if_pos hmillis]
        exact h.exit name _
      · rw [if_neg hmillis]
        exact h.acquiring cancelled
  | acquiring request started =>
    dsimp only
    cases hreply : s.reply request ok with
    | waits => exact h
    | failed => exact h.exit name _
    | answer granted =>
      cases granted with
      | false => exact h.exit name _
      | true =>
        have hresult := result_of_reply hreply
        apply h.put
        apply hgood.goOn rfl
        · intro since hsince
          cases cancelled with
          | true => cases hsince
          | false =>
            rw [Supervisor.counts, if_neg (by nofun)]
            dsimp only
            rw [if_pos hresult]
            exact hsince
        · intro run hlive
          cases hlive.1
        · intro run _ _ hphase
          cases hphase
  | building confirmed =>
    cases ok with
    | false => exact (h.send _ name).put (good_idle (.inr (.inr (.inr ⟨_, rfl⟩))))
    | true =>
      apply h.put
      apply hgood.goOn rfl
      · intro since hsince
        cases cancelled with
        | true => cases hsince
        | false => exact hsince
      · intro run hlive
        obtain ⟨hphase, _, hctx⟩ := hlive
        cases hphase
        exact hfenced confirmed rfl rfl hctx
      · intro run _ _ hphase
        cases hphase
        nofun
  | running run =>
    dsimp only
    by_cases hconnected : run.connected = true
    · rw [if_pos hconnected]
      apply h.put
      refine ⟨hgood.awaits, ?_, ?_, ?_⟩
      · intro since hsince
        cases cancelled with
        | true | false => cases hsince
      · intro run' hlive
        have hphase := hlive.1
        cases hphase
        have habsurd : true = false := hlive.2.1
        cases habsurd
      · intro run' request started hphase hrenewal
        cases hphase
        exact hgood.ordered run request started rfl hrenewal
    · rw [if_neg hconnected]
      by_cases hrenewal : run.renewal = .exited
      · rw [if_pos hrenewal]
        exact (h.send _ name).put (good_idle (.inr (.inr (.inr ⟨_, rfl⟩))))
      · rw [if_neg hrenewal]
        exact h
  | releasing request =>
    have hnext : Sound cfg (if cancelled = true then s.exit name ⟨.releasing request, cancelled⟩
        else s.put name ⟨.sleeping, cancelled⟩) := by
      by_cases hctx : cancelled = true
      · rw [if_pos hctx]
        exact h.exit name _
      · rw [if_neg hctx]
        exact h.put (good_idle (.inr (.inl rfl)))
    dsimp only
    cases hreply : s.reply request ok with
    | waits => exact h
    | failed | answer granted => exact hnext
  | sleeping =>
    dsimp only
    by_cases hctx : cancelled = true
    · rw [if_pos hctx]
      exact h.exit name _
    · rw [if_neg hctx]
      exact h.put (good_idle (.inl rfl))
  | exited => exact h

/-! ## The renewal -/

theorem counts_running (results : OrderedMap Nat Bool) (run : Run) (cancelled : Bool)
    (hrenewal : ∀ request started, run.renewal ≠ .attempting request started)
    (h : since ∈ Supervisor.counts results ⟨.running run, cancelled⟩) :
    cancelled = false ∧ run.cancelled = false ∧ since = run.confirmed := by
  unfold Supervisor.counts at h
  cases cancelled with
  | true => cases h
  | false =>
    rw [if_neg (by nofun)] at h
    dsimp only at h
    by_cases hcancelled : run.cancelled = true
    · rw [if_pos hcancelled] at h
      cases h
    · rw [if_neg hcancelled] at h
      refine ⟨rfl, by simpa using hcancelled, ?_⟩
      cases hphase : run.renewal with
      | waiting | exited => simpa [hphase] using h
      | attempting request started => exact absurd hphase (hrenewal request started)

variable {ctx : Bool}

/-- The renewal stops or waits for its next turn, on something counted on before. -/
theorem Good.rest {run' : Run} (h : Good cfg s name ⟨.running run, ctx⟩)
    (hrenewal : ∀ request started, run'.renewal ≠ .attempting request started)
    (hlive : ctx = false → run'.cancelled = false → run'.confirmed ∈ Supervisor.counts s.results ⟨.running run, ctx⟩ ∧ s.now < run'.confirmed + cfg.kept) :
    Good cfg s name ⟨.running run', ctx⟩ := by
  apply h.goOn
  · unfold Supervisor.awaits
    dsimp only
    cases hphase : run'.renewal with
    | waiting | exited => rfl
    | attempting request started => exact absurd hphase (hrenewal request started)
  · intro since hsince
    obtain ⟨hctx, hcancelled, hsince⟩ := counts_running s.results run' ctx hrenewal hsince
    rw [hsince]
    exact (hlive hctx hcancelled).1
  · intro run'' hlive'
    obtain ⟨hphase, hcancelled, hctx⟩ := hlive'
    cases hphase
    exact (hlive hctx hcancelled).2
  · intro run'' request started hphase
    cases hphase
    exact hrenewal request started

theorem Sound.attempting (h : Sound cfg s) (hgood : Good cfg s name ⟨.running run, ctx⟩)
    (hrun : run.cancelled = false) (hctx : ctx = false) :
    Sound cfg ((s.send .redisRenewLease name).put name
      ⟨.running { run with renewal := .attempting s.nextRequest s.now }, ctx⟩) := by
  have hconfirmed : run.confirmed ∈ Supervisor.counts s.results ⟨.running run, ctx⟩ :=
    counts_live ⟨rfl, hrun, hctx⟩
  have hresult := (h.fresh s.nextRequest (Nat.le_refl _)).2
  apply (h.send .redisRenewLease name).put
  apply Good.mk
  · exact awaits_sent (s := s) (by simp) rfl
  · intro since hsince
    have hnone : (s.send .redisRenewLease name).results.get? s.nextRequest = none := hresult
    simp only [Supervisor.counts, hctx, hrun, hnone, Bool.false_eq_true, if_false,
      reduceCtorEq, mem_singleton] at hsince
    rw [hsince]
    exact hgood.backed run.confirmed hconfirmed
  · intro run' hlive
    have hphase := hlive.1
    cases hphase
    exact hgood.inTime run ⟨rfl, hrun, hctx⟩
  · intro run' request started hphase hrenewal
    cases hphase
    cases hrenewal
    exact (hgood.backed run.confirmed hconfirmed).1

theorem Sound.renewLeaseUntil (h : Sound cfg s)
    (hget : s.supervisors.get? name = some ⟨.running run, ctx⟩) (ok : Bool) :
    Sound cfg (renewLeaseUntil cfg s name ⟨.running run, ctx⟩ run ok) := by
  have hgood := h.good name _ hget
  -- After `leaseLost` nothing is counted on.
  have hlost : Sound cfg (s.put name
      ⟨.running { run with renewal := .exited, cancelled := true }, ctx⟩) :=
    h.put (hgood.rest (fun _ _ habsurd => by cases habsurd) nofun)
  unfold ChannelLease.renewLeaseUntil
  cases hrenewal : run.renewal with
  | waiting =>
    dsimp only
    by_cases hdue : cfg.confirmedUntil run.confirmed ≤ s.now
    · rw [if_pos hdue]
      exact hlost
    · rw [if_neg hdue]
      by_cases hdone : (run.cancelled || ctx) = true
      · rw [if_pos hdone]
        apply h.put
        apply hgood.rest (fun _ _ habsurd => by cases habsurd)
        intro hctx hrun
        have hrun' : run.cancelled = false := hrun
        rw [hctx, hrun'] at hdone
        cases hdone
      · rw [if_neg hdone]
        by_cases hmillis : cfg.ttlMillis = 0
        · rw [if_pos hmillis]
          exact h
        · rw [if_neg hmillis]
          simp only [Bool.or_eq_true, not_or, Bool.not_eq_true] at hdone
          exact h.attempting hgood hdone.1 hdone.2
  | attempting request started =>
    dsimp only
    cases hreply : s.reply request ok with
    | waits => exact h
    | failed =>
      apply h.put
      apply hgood.rest (fun _ _ habsurd => by cases habsurd)
      intro hctx hrun
      have hlive : Supervisor.Live ⟨.running run, ctx⟩ run := ⟨rfl, hrun, hctx⟩
      have hconfirmed : run.confirmed ∈ Supervisor.counts s.results ⟨.running run, ctx⟩ :=
        counts_live hlive
      exact ⟨hconfirmed, hgood.inTime run hlive⟩
    | answer granted =>
      cases granted with
      | false => exact hlost
      | true =>
        have hresult := result_of_reply hreply
        apply h.put
        apply hgood.rest (fun _ _ habsurd => by cases habsurd)
        intro hctx hrun
        have hrun' : run.cancelled = false := hrun
        constructor
        · simp [Supervisor.counts, hctx, hrun', hrenewal, hresult]
        · have hintime := hgood.inTime run ⟨rfl, hrun, hctx⟩
          have hordered := hgood.ordered run request started rfl hrenewal
          show s.now < started + cfg.kept
          omega
  | exited => exact h

/-! ## Runs -/

theorem Sound.step {c : Cfg} (h : Sound cfg c.state) {action : Action}
    (hfenced : Fenced cfg c action) : Sound cfg (next cfg c.state action) := by
  cases action with
  | tick elapsed => exact h.tick hfenced
  | expire => exact h.expire
  | takeEffect request =>
    simp only [next]
    cases hr : c.state.requests.get? request with
    | none => exact h
    | some r => exact h.takeEffect hr (hfenced r hr)
  | lose request => exact h.lose request
  | startSupervisor nodeID => exact h.startSupervisor nodeID
  | cancelSupervisor nodeID stop => exact h.cancelSupervisor nodeID stop
  | supervise name ok =>
    simp only [next]
    cases hget : c.state.supervisors.get? name with
    | none => exact h
    | some supervisor => exact h.supervise hget (hfenced supervisor hget)
  | renew name ok =>
    simp only [next]
    cases hget : c.state.supervisors.get? name with
    | none => exact h
    | some supervisor =>
      obtain ⟨phase, ctx⟩ := supervisor
      cases phase with
      | running run => exact h.renewLeaseUntil hget ok
      | _ => exact h

theorem sound_init : Sound cfg init :=
  ⟨fun _ _ => ⟨rfl, rfl⟩, nofun⟩

/-- In a run in which no release takes a lease away that its supervisor counts
on again, and every connection starts within its lease, at most one is live. -/
theorem one_connection (cfg : Config) {c : Cfg}
    (h : Reach (step cfg) (Fenced cfg) (start init) c) {p q : Name}
    (hp : Live c.state p) (hq : Live c.state q) : p = q := by
  have hsound : Sound cfg c.state := by
    apply Reach.invariant (I := fun c => Sound cfg c.state) _ h sound_init
    intro d action hfenced hd
    exact hd.step hfenced
  obtain ⟨supervisor, run, hgetp, hlivep⟩ := hp
  obtain ⟨supervisor', run', hgetq, hliveq⟩ := hq
  have hgoodp := hsound.good p supervisor hgetp
  have hgoodq := hsound.good q supervisor' hgetq
  apply leaseToken_injective
  apply (hgoodp.backed _ (counts_live hlivep)).2.exclusive
    (hgoodq.backed _ (counts_live hliveq)).2
  · exact hgoodp.inTime run hlivep
  · exact hgoodq.inTime run' hliveq

/-! ## Runs to check by evaluation -/

/-- The connection of a supervisor while it is live. -/
def Supervisor.connection (supervisor : Supervisor) : Option Run :=
  match supervisor.phase with
  | .running run => if run.cancelled || supervisor.cancelled then none else some run
  | _ => none

/-- Since when it counts on the lease for a connection it has not started. -/
def Supervisor.built (supervisor : Supervisor) : Option Nat :=
  match supervisor.phase with
  | .building confirmed => some confirmed
  | _ => none

theorem connection_eq_some :
    supervisor.connection = some run ↔ supervisor.Live run := by
  obtain ⟨phase, ctx⟩ := supervisor
  cases phase with
  | running run' =>
    rw [Supervisor.connection, Supervisor.Live]
    dsimp only
    by_cases hdone : (run'.cancelled || ctx) = true
    · rw [if_pos hdone]
      constructor
      · nofun
      · rintro ⟨hphase, hcancelled, hctx⟩
        cases hphase
        rw [hcancelled, hctx] at hdone
        cases hdone
    · rw [if_neg hdone]
      simp only [Bool.or_eq_true, not_or, Bool.not_eq_true] at hdone
      constructor
      · intro h
        cases h
        exact ⟨rfl, hdone.1, hdone.2⟩
      · rintro ⟨hphase, _⟩
        cases hphase
        rfl
  | _ => exact ⟨nofun, fun h => by cases h.1⟩

theorem built_eq_some {confirmed : Nat} :
    supervisor.built = some confirmed ↔ supervisor.phase = .building confirmed := by
  obtain ⟨phase, ctx⟩ := supervisor
  cases phase with
  | building confirmed' | _ => simp [Supervisor.built]

/-- What is given: no connection is live when its lease time has run out. -/
def InTime (cfg : Config) (c : Cfg) : Action → Prop
  | .tick elapsed => Fenced cfg c (.tick elapsed)
  | _ => True

instance decidableTick (cfg : Config) (c : Cfg) (elapsed : Nat) :
    Decidable (Fenced cfg c (.tick elapsed)) :=
  decidable_of_iff
    (∀ e ∈ c.state.supervisors.entries, ∀ run ∈ e.2.connection,
      c.state.now + elapsed < run.confirmed + cfg.kept)
    ⟨fun h e he run hlive => h e he run (connection_eq_some.mpr hlive),
      fun h e he run hlive => h e he run (connection_eq_some.mp hlive)⟩

instance decidableInTime (cfg : Config) (c : Cfg) :
    (action : Action) → Decidable (InTime cfg c action)
  | .tick elapsed => inferInstanceAs (Decidable (Fenced cfg c (.tick elapsed)))
  | .expire | .takeEffect _ | .lose _ | .startSupervisor _ | .cancelSupervisor _ _
  | .supervise _ _ | .renew _ _ => .isTrue trivial

instance decidableFenced (cfg : Config) (c : Cfg) :
    (action : Action) → Decidable (Fenced cfg c action)
  | .tick elapsed => decidableTick cfg c elapsed
  | .supervise name ok =>
    decidable_of_iff
      (∀ supervisor ∈ c.state.supervisors.get? name, ∀ confirmed ∈ supervisor.built, ok = true →
        supervisor.cancelled = false → c.state.now < confirmed + cfg.kept)
      ⟨fun h supervisor hget confirmed hbuilt => h supervisor hget confirmed (built_eq_some.mpr hbuilt),
        fun h supervisor hget confirmed hbuilt => h supervisor hget confirmed (built_eq_some.mp hbuilt)⟩
  | .takeEffect request =>
    inferInstanceAs (Decidable (∀ r ∈ c.state.requests.get? request,
      r.script = .redisReleaseLease → ∀ supervisor ∈ c.state.supervisors.get? r.sender,
        supervisor.counts c.state.results = []))
  | .expire | .lose _ | .startSupervisor _ | .cancelSupervisor _ _ | .renew _ _ => .isTrue trivial

instance decidableLive (s : State) (name : Name) : Decidable (Live s name) :=
  decidable_of_iff (∃ supervisor ∈ s.supervisors.get? name, supervisor.connection.isSome)
    ⟨fun ⟨supervisor, hget, hsome⟩ =>
        have ⟨run, hrun⟩ := Option.isSome_iff_exists.mp hsome
        ⟨supervisor, run, hget, connection_eq_some.mp hrun⟩,
      fun ⟨supervisor, run, hget, hlive⟩ =>
        ⟨supervisor, hget, Option.isSome_iff_exists.mpr ⟨run, connection_eq_some.mpr hlive⟩⟩⟩

/-- The defaults. -/
def defaults : Config :=
  ⟨180000000000, 60000000000, 5000000000, by decide, by decide, by decide, by decide⟩

/-- A supervisor starts and gets its connection, with the request `request`. -/
def connects (nodeID : String) (request : Nat) : List Action :=
  [.supervise (nodeID, 1) true, .takeEffect request, .supervise (nodeID, 1) true,
    .supervise (nodeID, 1) true]

/-- One replica hands the lease over to another. -/
def handover : List Action :=
  .startSupervisor "a" :: .startSupervisor "b" :: connects "a" 0 ++
    [Action.tick 60000000000, .renew ("a", 1) true, .takeEffect 1, .renew ("a", 1) true,
      .cancelSupervisor "a" true, .supervise ("a", 1) true, .renew ("a", 1) true,
      .supervise ("a", 1) true, .takeEffect 2, .supervise ("a", 1) true] ++ connects "b" 3

theorem one_connection_handover :
    ¬ Live (exec (step defaults) (start init) handover).state ("a", 1) := by
  have hreach : Reach (step defaults) (Fenced defaults) (start init)
      (exec (step defaults) (start init) handover) :=
    reach_exec (by decide +kernel)
  have hb : Live (exec (step defaults) (start init) handover).state ("b", 1) := by
    decide +kernel
  intro ha
  exact absurd (one_connection defaults hreach ha hb) (by decide)

/-- A release is given up, the same supervisor acquires again, and the release
takes effect then. -/
def lateRelease : List Action :=
  .startSupervisor "a" :: connects "a" 0 ++
    [Action.supervise ("a", 1) true, .renew ("a", 1) true, .supervise ("a", 1) true,
      .supervise ("a", 1) false, .supervise ("a", 1) true] ++ connects "a" 2 ++
    [Action.takeEffect 1, .startSupervisor "b"] ++ connects "b" 3

/-- `Build` takes longer than the lease lasts. -/
def slowBuild : List Action :=
  [Action.startSupervisor "a", .supervise ("a", 1) true, .takeEffect 0, .supervise ("a", 1) true,
    .tick 180000000000, .expire, .startSupervisor "b"] ++ connects "b" 1 ++
    [Action.supervise ("a", 1) true]

theorem two_connections :
    (AllAllowed (step defaults) (InTime defaults) (start init) lateRelease ∧
      Live (exec (step defaults) (start init) lateRelease).state ("a", 1) ∧
      Live (exec (step defaults) (start init) lateRelease).state ("b", 1)) ∧
    (AllAllowed (step defaults) (InTime defaults) (start init) slowBuild ∧
      Live (exec (step defaults) (start init) slowBuild).state ("a", 1) ∧
      Live (exec (step defaults) (start init) slowBuild).state ("b", 1)) :=
  ⟨⟨by decide +kernel, by decide +kernel, by decide +kernel⟩,
    by decide +kernel, by decide +kernel, by decide +kernel⟩

end ClawMessenger.Ports.ChannelLease
