import ClawMessenger.Ports.SessionStoreEffect

/-!
# Who holds a message

The answers of a run say who holds a message: a granted claim opens a
`Tenure` of its key, an admission renews it once, a release ends it.  `ledger`
replays exactly that from the history, with no look at the store.

`Tracks` ties the two together: every deduplication entry is the tenure of its
key, and a tenure without an entry has run out.  It is kept by pruning and by
each of the three message operations, so every answer of a run agrees with the
ledger of the answers before it (`claim_exclusive`).
-/

namespace ClawMessenger.Ports.SessionStore

open Verified Verified.Machine Verified.JsString List

open Conversation Dedup
open Function (update update_of_ne update_self)

/-! ## Tenures -/

structure Tenure where
  claimId : JsString
  /-- The claim, or the admission once there was one. -/
  since : Nat
  admitted : Bool

def Tenure.Expired (tenure : Tenure) (now : Int) : Prop :=
  (tenure.since : Int) + DEDUP_TTL_MS ≤ now

variable {now : Int} {tenure : Tenure} {entries : List DedupEntry} {ledger : Ledger}
  {entry : DedupEntry} {time : Nat}

theorem Tenure.Expired.mono {now' : Int} (h : tenure.Expired now)
    (hle : now ≤ now') : tenure.Expired now' := Int.le_trans h hle

def Tenure.renew (now : Nat) (tenure : Tenure) : Tenure :=
  if tenure.admitted then tenure else ⟨tenure.claimId, now, true⟩

abbrev Ledger : Type := JsString → Option Tenure

/-- What one answered call says about who holds what. -/
def ledgerStep (ledger : Ledger) : StoreCall × StoreResult → Ledger
  | (⟨now, _, _, .op (.claimMessage ..)⟩, .ok (.claim (.claimed key id))) =>
    update ledger key (some ⟨id, now.toNat, false⟩)
  | (⟨now, _, _, .op (.admitMessage key _)⟩, .ok (.flag true)) =>
    update ledger key ((ledger key).map (Tenure.renew now.toNat))
  | (⟨_, _, _, .op (.releaseMessage key _)⟩, .ok (.flag true)) =>
    update ledger key none
  | _ => ledger

/-- The tenures a history leaves. -/
def ledgerOf (past : List (StoreCall × StoreResult)) : Ledger :=
  past.foldl ledgerStep fun _ => none

theorem ledgerOf_concat (past : List (StoreCall × StoreResult)) (e : StoreCall × StoreResult) :
    ledgerOf (past ++ [e]) = ledgerStep (ledgerOf past) e := by
  rw [ledgerOf, foldl_append]
  rfl

/-! ## The table is the ledger -/

/-- The tenure an entry stands for. -/
def entryTenure (entry : DedupEntry) : Option Tenure :=
  (stateTime entry).map fun time => ⟨entry.claimId, time, decide (entry.state = .admitted)⟩

structure Tracks (ledger : Ledger) (entries : List DedupEntry) (now : Int) : Prop where
  held : ∀ entry ∈ entries, ∃ tenure, entryTenure entry = some tenure ∧
    ledger entry.key = some tenure
  filed : ∀ key tenure, ledger key = some tenure →
    (∃ entry ∈ entries, entry.key = key) ∨ tenure.Expired now

theorem tracks_nil (now : Int) : Tracks (fun _ => none) [] now :=
  ⟨fun _ h => (not_mem_nil h).elim, fun _ _ h => by cases h⟩

theorem Tracks.mono {now' : Int} (h : Tracks ledger entries now)
    (hle : now ≤ now') : Tracks ledger entries now' := by
  refine ⟨h.held, fun key tenure hkey => ?_⟩
  exact (h.filed key tenure hkey).imp id fun hexpired => hexpired.mono hle

/-- An entry that is not live has the tenure of an expired claim. -/
theorem expired_of_not_live (h : entryTenure entry = some tenure)
    (hlive : isLive time entry = false) :
    tenure.Expired time := by
  obtain ⟨since, hsince, rfl⟩ := Option.map_eq_some_iff.mp h
  rw [isLive, hsince, Option.any_some, decide_eq_false_iff_not] at hlive
  show (since : Int) + DEDUP_TTL_MS ≤ time
  omega

theorem not_expired_of_live (h : entryTenure entry = some tenure)
    (hlive : isLive time entry = true) :
    ¬tenure.Expired time := by
  obtain ⟨since, hsince, rfl⟩ := Option.map_eq_some_iff.mp h
  rw [isLive, hsince, Option.any_some, decide_eq_true_eq] at hlive
  show ¬(since : Int) + DEDUP_TTL_MS ≤ time
  omega

theorem Tracks.prune
    (h : Tracks ledger entries time) : Tracks ledger (pruneDedup entries time) time := by
  constructor
  · intro entry hentry
    exact h.held entry (mem_filter.mp hentry).1
  · intro key tenure hkey
    rcases h.filed key tenure hkey with ⟨entry, hmem, rfl⟩ | hexpired
    · cases hlive : isLive time entry with
      | true => exact .inl ⟨entry, mem_filter.mpr ⟨hmem, hlive⟩, rfl⟩
      | false =>
        obtain ⟨tenure', hentry, hledger⟩ := h.held entry hmem
        have heq : tenure' = tenure := Option.some.inj (hledger.symm.trans hkey)
        exact .inr (expired_of_not_live (heq ▸ hentry) hlive)
    · exact .inr hexpired

/-- A claim of a key no entry has. -/
theorem Tracks.claim (h : Tracks ledger entries now) (hfree : ∀ e ∈ entries, e.key ≠ entry.key)
    (hclaimed : entry.state = .claimed) :
    Tracks (update ledger entry.key (some ⟨entry.claimId, entry.claimedAt, false⟩))
      (entries ++ [entry]) now := by
  constructor
  · intro e he
    rcases mem_append.mp he with he | he
    · obtain ⟨tenure, htenure, hledger⟩ := h.held e he
      exact ⟨tenure, htenure, by rw [update_of_ne (hfree e he), hledger]⟩
    · rw [mem_singleton] at he
      subst he
      refine ⟨⟨e.claimId, e.claimedAt, false⟩, ?_, update_self ..⟩
      rw [entryTenure, stateTime, hclaimed]
      rfl
  · intro key tenure hkey
    by_cases heq : key = entry.key
    · exact .inl ⟨entry, mem_append_right _ (mem_singleton_self _), heq.symm⟩
    · rw [update_of_ne heq] at hkey
      rcases h.filed key tenure hkey with ⟨e, hmem, hekey⟩ | hexpired
      · exact .inl ⟨e, mem_append_left _ hmem, hekey⟩
      · exact .inr hexpired

/-- The admission of a claimed entry. -/
theorem Tracks.renew (h : Tracks ledger entries time) (hnd : (entries.map DedupEntry.key).Nodup)
    (hmem : entry ∈ entries) (hclaimed : entry.state = .claimed) :
    Tracks (update ledger entry.key ((ledger entry.key).map (Tenure.renew time)))
      (updateFirst (fun e => e.key == entry.key) (fun e => e.admitted time) entries) time := by
  have hadmitted : (ledger entry.key).map (Tenure.renew time) =
      some ⟨entry.claimId, time, true⟩ := by
    obtain ⟨tenure, htenure, hledger⟩ := h.held entry hmem
    rw [entryTenure, stateTime, hclaimed] at htenure
    cases htenure
    rw [hledger]
    rfl
  rw [hadmitted]
  constructor
  · intro e he
    rcases (mem_updateFirst_key_iff hnd).mp he with ⟨he, hne⟩ | ⟨a, ha, hkey, rfl⟩
    · obtain ⟨tenure, htenure, hledger⟩ := h.held e he
      exact ⟨tenure, htenure, by rw [update_of_ne hne, hledger]⟩
    · have heq : a = entry := inj_on_of_nodup_map hnd ha hmem hkey
      subst heq
      exact ⟨⟨a.claimId, time, true⟩, rfl, update_self ..⟩
  · intro key tenure hkey
    by_cases heq : key = entry.key
    · exact .inl ⟨entry.admitted time,
        (mem_updateFirst_key_iff hnd).mpr (.inr ⟨entry, hmem, rfl, rfl⟩), heq.symm⟩
    · rw [update_of_ne heq] at hkey
      rcases h.filed key tenure hkey with ⟨e, he, hekey⟩ | hexpired
      · exact .inl ⟨e, (mem_updateFirst_key_iff hnd).mpr (.inl ⟨he, hekey ▸ heq⟩), hekey⟩
      · exact .inr hexpired

/-- Forgetting the only entry of a key. -/
theorem Tracks.release {key : JsString} {p : DedupEntry → Bool} (h : Tracks ledger entries now)
    (hnd : (entries.map DedupEntry.key).Nodup) (hp : ∀ e, p e = true → e.key = key)
    (hex : ∃ e ∈ entries, p e = true) :
    Tracks (update ledger key none) (entries.eraseP p) now := by
  constructor
  · intro e he
    obtain ⟨hmem, hne⟩ := (mem_eraseP_key_iff hnd hp hex).mp he
    obtain ⟨tenure, htenure, hledger⟩ := h.held e hmem
    exact ⟨tenure, htenure, by rw [update_of_ne hne, hledger]⟩
  · intro k tenure hkey
    by_cases heq : k = key
    · rw [heq, update_self] at hkey
      cases hkey
    · rw [update_of_ne heq] at hkey
      rcases h.filed k tenure hkey with ⟨e, he, rfl⟩ | hexpired
      · exact .inl ⟨e, (mem_eraseP_key_iff hnd hp hex).mpr ⟨he, heq⟩, rfl⟩
      · exact .inr hexpired

/-! ## Answers agree with the ledger -/

/-- What an answer promises, given who held what before it. -/
def Agrees (ledger : Ledger) : StoreCall × StoreResult → Prop
  | (⟨now, _, _, .op (.claimMessage runtime messageUid claimId)⟩,
      .ok (.claim (.claimed key id))) =>
      key = dedupKey runtime messageUid ∧ id = claimId ∧
        ∀ tenure, ledger key = some tenure → tenure.Expired now
  | (⟨now, _, _, .op (.admitMessage key claimId)⟩, .ok (.flag true)) =>
    ∃ tenure, ledger key = some tenure ∧ tenure.claimId = claimId ∧ ¬tenure.Expired now
  | (⟨now, _, _, .op (.releaseMessage key claimId)⟩, .ok (.flag true)) =>
    ∃ tenure, ledger key = some tenure ∧ tenure.claimId = claimId ∧ ¬tenure.Expired now ∧
      tenure.admitted = false
  | _ => True

theorem ledgerStep_error (ledger : Ledger) (call : StoreCall) (e : RouterStateError) :
    ledgerStep ledger (call, .error e) = ledger := by
  unfold ledgerStep
  split <;> first | rfl | (next heq => simp at heq)

theorem ledgerStep_done (ledger : Ledger) (call : StoreCall) :
    ledgerStep ledger (call, .ok .done) = ledger := by
  unfold ledgerStep
  split <;> first | rfl | (next heq => simp at heq)

theorem agrees_error (ledger : Ledger) (call : StoreCall) (e : RouterStateError) :
    Agrees ledger (call, .error e) := by
  unfold Agrees
  split <;> first | trivial | (next heq => simp at heq)

theorem agrees_done (ledger : Ledger) (call : StoreCall) : Agrees ledger (call, .ok .done) := by
  unfold Agrees
  split <;> first | trivial | (next heq => simp at heq)

theorem checkTime_ok (h : checkTime now = .ok time) :
    now = time ∧ now.toNat = time := by
  unfold checkTime at h
  split at h
  · cases h
  · next hrange =>
      cases h
      constructor
      · omega
      · rfl

theorem entryTenure_claimId (h : entryTenure entry = some tenure) :
    tenure.claimId = entry.claimId ∧ tenure.admitted = decide (entry.state = .admitted) := by
  obtain ⟨since, _, rfl⟩ := Option.map_eq_some_iff.mp h
  exact ⟨rfl, rfl⟩

section Step

variable {ledger : Ledger} {state : RouterState} {time : Nat} {readOk writeOk : Bool}

private theorem claim_step {runtime messageUid claimId : JsString} {t : Transition ClaimResult}
    (h : claimMessage runtime messageUid claimId (state.pruned time) time = .ok t)
    (htracks : Tracks ledger (pruneDedup state.dedup time) time) :
    let e : StoreCall × StoreResult :=
      (⟨time, readOk, writeOk, .op (.claimMessage runtime messageUid claimId)⟩, .ok (.claim t.value))
    Agrees ledger e ∧ Tracks (ledgerStep ledger e) t.state.dedup time := by
  rcases claimMessage_ok h with ⟨_, hvalue, hstate⟩ | ⟨_, hvalue, hclaimable, hstate⟩
  · rw [hvalue, hstate]
    refine ⟨trivial, ?_⟩
    rw [pruned_dedup, pruned_dedup, pruneDedup_idem]
    exact htracks
  · rw [hvalue, hstate]
    have hfree := hclaimable.free
    rw [pruned_dedup, pruneDedup_idem] at hfree
    constructor
    · refine ⟨rfl, rfl, fun tenure htenure => ?_⟩
      rcases htracks.filed _ tenure htenure with ⟨entry, hmem, hkey⟩ | hexpired
      · exact absurd hkey (hfree entry hmem)
      · exact hexpired
    · have hdedup : (((state.pruned time).pushClaim runtime messageUid claimId time)).dedup =
          pruneDedup state.dedup time ++
            [⟨dedupKey runtime messageUid, runtime, messageUid, claimId, .claimed, time, none⟩] := by
        rw [RouterState.pushClaim, pruned_dedup, pruneDedup_idem]
      have hnew : ∀ e ∈ pruneDedup state.dedup time, e.key ≠ DedupEntry.key
          ⟨dedupKey runtime messageUid, runtime, messageUid, claimId, .claimed, time, none⟩ := hfree
      rw [hdedup]
      exact htracks.claim hnew rfl

variable {t : Transition Bool}

private theorem admit_step {key claimId : JsString}
    (h : admitMessage key claimId (state.pruned time) time = .ok t)
    (hnd : (state.dedup.map DedupEntry.key).Nodup)
    (htracks : Tracks ledger (pruneDedup state.dedup time) time) :
    let e : StoreCall × StoreResult :=
      (⟨time, readOk, writeOk, .op (.admitMessage key claimId)⟩, .ok (.flag t.value))
    Agrees ledger e ∧ Tracks (ledgerStep ledger e) t.state.dedup time := by
  have hnd' : ((pruneDedup state.dedup time).map DedupEntry.key).Nodup :=
    (filter_sublist.map DedupEntry.key).nodup hnd
  have hholds : ∀ entry, (pruneDedup state.dedup time).find? (fun e => e.key == key) = some entry →
      entry.claimId = claimId → ∃ tenure, ledger key = some tenure ∧ tenure.claimId = claimId ∧
        ¬tenure.Expired time ∧ tenure.admitted = decide (entry.state = .admitted) := by
    intro entry hfind hid
    obtain ⟨hmem, hkey⟩ := (find?_key_eq_some_iff hnd').mp hfind
    obtain ⟨tenure, htenure, hledger⟩ := htracks.held entry hmem
    have hlive : isLive time entry = true := (mem_filter.mp hmem).2
    obtain ⟨htid, hadmitted⟩ := entryTenure_claimId htenure
    exact ⟨tenure, hkey ▸ hledger, htid.trans hid, not_expired_of_live htenure hlive, hadmitted⟩
  rcases admitMessage_ok h with ⟨_, hstate, hvalue⟩ | ⟨_, hvalue, entry, hfind, hid, hclaimed, hstate⟩
  · rw [hstate]
    cases hflag : t.value with
    | false => exact ⟨trivial, htracks⟩
    | true =>
      obtain ⟨entry, hfind, hid, hadmitted⟩ := hvalue hflag
      obtain ⟨tenure, hledger, htid, hexpired, hflagged⟩ := hholds entry hfind hid
      refine ⟨⟨tenure, hledger, htid, hexpired⟩, ?_⟩
      have hsame : ledgerStep ledger (⟨time, readOk, writeOk, .op (.admitMessage key claimId)⟩,
          .ok (.flag true)) = ledger := by
        show update ledger key ((ledger key).map (Tenure.renew _)) = ledger
        have htrue : tenure.admitted = true := hflagged.trans (decide_eq_true hadmitted)
        rw [Function.update_eq_self_iff, hledger, Option.map_some, Tenure.renew, if_pos htrue]
      rw [hsame]
      exact htracks
  · rw [hvalue, hstate]
    obtain ⟨tenure, hledger, htid, hexpired, _⟩ := hholds entry hfind hid
    refine ⟨⟨tenure, hledger, htid, hexpired⟩, ?_⟩
    obtain ⟨hmem, hkey⟩ := (find?_key_eq_some_iff hnd').mp hfind
    subst hkey
    exact htracks.renew hnd' hmem hclaimed

private theorem release_step {key claimId : JsString}
    (h : releaseMessage key claimId (state.pruned time) = .ok t)
    (hnd : (state.dedup.map DedupEntry.key).Nodup)
    (htracks : Tracks ledger (pruneDedup state.dedup time) time) :
    let e : StoreCall × StoreResult :=
      (⟨time, readOk, writeOk, .op (.releaseMessage key claimId)⟩, .ok (.flag t.value))
    Agrees ledger e ∧ Tracks (ledgerStep ledger e) t.state.dedup time := by
  rcases releaseMessage_ok h with ⟨_, hvalue, hstate⟩ | ⟨_, hvalue, entry, hfind, hclaimed, hstate⟩
  · rw [hvalue, hstate]
    exact ⟨trivial, htracks⟩
  · rw [hvalue, hstate]
    have hnd' : ((pruneDedup state.dedup time).map DedupEntry.key).Nodup :=
      (filter_sublist.map DedupEntry.key).nodup hnd
    have hmem : entry ∈ pruneDedup state.dedup time := mem_of_find?_eq_some hfind
    have hboth : entry.key = key ∧ entry.claimId = claimId := by
      simpa using find?_some hfind
    obtain ⟨tenure, htenure, hledger⟩ := htracks.held entry hmem
    obtain ⟨htid, hadmitted⟩ := entryTenure_claimId htenure
    have hlive : isLive time entry = true := (mem_filter.mp hmem).2
    refine ⟨⟨tenure, hboth.1 ▸ hledger, htid.trans hboth.2, not_expired_of_live htenure hlive, ?_⟩,
      ?_⟩
    · rw [hadmitted, hclaimed]
      rfl
    · refine htracks.release hnd' (fun e he => ?_) ⟨entry, hmem, by simp [hboth]⟩
      rw [Bool.and_eq_true, beq_iff_eq] at he
      exact he.1

/-- An answered operation agrees with the ledger, and the ledger goes on
tracking the table. -/
theorem transition_agrees {op : StoreOp} {t : Transition StoreAnswer}
    (h : op.transition (state.pruned time) time = .ok t)
    (hnd : (state.dedup.map DedupEntry.key).Nodup) (htracks : Tracks ledger state.dedup time) :
    let e : StoreCall × StoreResult := (⟨time, readOk, writeOk, .op op⟩, .ok t.value)
    Agrees ledger e ∧ Tracks (ledgerStep ledger e) t.state.dedup time := by
  have hpruned := htracks.prune
  by_cases hop : op.isMessage = true
  · cases op with
    | claimMessage runtime messageUid claimId =>
      rw [StoreOp.transition] at h
      obtain ⟨t', ht, rfl⟩ := map_eq_ok.mp h
      exact claim_step ht hpruned
    | admitMessage key claimId =>
      rw [StoreOp.transition] at h
      obtain ⟨t', ht, rfl⟩ := map_eq_ok.mp h
      exact admit_step ht hnd hpruned
    | releaseMessage key claimId =>
      rw [StoreOp.transition] at h
      obtain ⟨t', ht, rfl⟩ := map_eq_ok.mp h
      exact release_step ht hnd hpruned
    | _ => cases hop
  · have hfalse : op.isMessage = false := by simpa using hop
    rw [transition_dedup h hfalse, pruned_dedup]
    cases op with
    | claimMessage | admitMessage | releaseMessage => cases hfalse
    | _ => exact ⟨trivial, hpruned⟩

end Step

/-! ## Runs -/

/-- At every later reading of the clock, the ledger of the history tracks the
table on disk. -/
structure Recorded (c : StoreRun) : Prop where
  inv : c.state.Inv
  tracks : ∀ now : Int, (∀ e ∈ c.past, e.1.now ≤ now) →
    Tracks (ledgerOf c.past) c.state.persisted.dedup now

theorem recorded_start : Recorded (start Store.fresh) :=
  ⟨inv_fresh, fun now _ => tracks_nil now⟩

variable {c : StoreRun}

theorem Recorded.step {call : StoreCall} (h : Recorded c) (hclock : ClockOrdered c call) :
    Agrees (ledgerOf c.past) (call, (c.state.call call).1) ∧
      Recorded (advance Store.call c call) := by
  obtain ⟨heffect, hinv⟩ := call_effect h.inv call
  have htracks := h.tracks call.now hclock
  have hnd := h.inv.valid.dedup_nodup
  suffices hstep : Agrees (ledgerOf c.past) (call, (c.state.call call).1) ∧
      Tracks (ledgerStep (ledgerOf c.past) (call, (c.state.call call).1))
        (c.state.call call).2.persisted.dedup call.now by
    refine ⟨hstep.1, hinv, fun now hnow => ?_⟩
    rw [advance_past] at hnow ⊢
    rw [ledgerOf_concat]
    exact hstep.2.mono (hnow _ (mem_append_right _ (mem_singleton_self _)))
  have hmessage : ∀ (op : StoreOp) (time : Nat) (t : Transition StoreAnswer),
      call.input = .op op → checkTime call.now = .ok time →
      op.transition (c.state.persisted.pruned time) time = .ok t →
      Agrees (ledgerOf c.past) (call, .ok t.value) ∧
        Tracks (ledgerStep (ledgerOf c.past) (call, .ok t.value)) t.state.dedup call.now := by
    intro op time t hinput htime ht
    obtain ⟨htime, _⟩ := checkTime_ok htime
    obtain ⟨now, readOk, writeOk, input⟩ := call
    cases hinput
    cases htime
    exact transition_agrees ht hnd htracks
  generalize (c.state.call call).1 = result at heffect ⊢
  generalize (c.state.call call).2.persisted = next at heffect ⊢
  cases heffect with
  | error e hresult =>
    rw [hresult, ledgerStep_error]
    exact ⟨agrees_error .., htracks⟩
  | idle hidle hresult =>
    rw [hresult, ledgerStep_done]
    exact ⟨agrees_done .., htracks⟩
  | prunes time hinput htime hresult hvalid =>
    rw [hresult, ledgerStep_done]
    rw [(checkTime_ok htime).1] at htracks ⊢
    exact ⟨agrees_done .., htracks.prune⟩
  | reads op time t hinput htime ht hchanged hlength hsame hresult =>
    have ht' : op.transition (c.state.persisted.pruned time) time = .ok t := by rw [hsame, ht]
    have hdedup : t.state.dedup = c.state.persisted.dedup := by
      rw [unchanged_dedup ht' hchanged, ← pruned_dedup, hsame]
    rw [hresult, ← hdedup]
    exact hmessage op time t hinput htime ht'
  | writes op time t hinput htime ht hvalid hbytes hresult =>
    rw [hresult]
    exact hmessage op time t hinput htime ht

theorem recorded_of_reach (h : Reach Store.call ClockOrdered (start Store.fresh) c) :
    Recorded c :=
  Reach.invariant (fun _ _ hclock hd => (hd.step hclock).2) h recorded_start

/-- Whoever is granted a claim holds the message until a release or a day after
the claim, or after the admission once there was one; only the holder's claim id
admits or releases, and nothing releases an admitted message. -/
theorem claim_exclusive {c : StoreRun}
    (h : Reach Store.call ClockOrdered (start Store.fresh) c) (k : Nat) :
    ∀ e ∈ c.past[k]?, Agrees (ledgerOf (c.past.take k)) e := by
  intro e he
  obtain ⟨d, hd, hpast, hclock, hresult⟩ := Reach.before h he
  have hagrees := ((recorded_of_reach hd).step hclock).1
  rw [← hpast]
  rw [← hresult] at hagrees
  exact hagrees

/-- The call was granted its claim. -/
def grants : StoreCall × StoreResult → Bool
  | (_, .ok (.claim (.claimed ..))) => true
  | _ => false

/-- A message claimed, admitted two milliseconds later, and claimed again a day
after that. -/
def oneMessage : List StoreCall :=
  let runtime := js "rt_00000000000000000000000000000000"
  let claimId := js "0123456789abcdef0123456789abcdef"
  [⟨0, true, true, .initializeStore⟩,
    ⟨5, true, true, .op (.claimMessage runtime (js "m") claimId)⟩,
    ⟨7, true, true, .op (.admitMessage (dedupKey runtime (js "m")) claimId)⟩,
    ⟨DEDUP_TTL_MS + 6, true, true, .op (.claimMessage runtime (js "m") claimId)⟩,
    ⟨DEDUP_TTL_MS + 7, true, true, .op (.claimMessage runtime (js "m") claimId)⟩]

theorem claim_exclusive_oneMessage :
    (exec Store.call (start Store.fresh) oneMessage).past.map grants =
        [false, true, false, false, true] ∧
      ∀ k, ∀ e ∈ (exec Store.call (start Store.fresh) oneMessage).past[k]?,
        Agrees (ledgerOf
          ((exec Store.call (start Store.fresh) oneMessage).past.take k)) e := by
  have hallowed : AllAllowed Store.call ClockOrdered (start Store.fresh) oneMessage := by
    simp [AllAllowed, oneMessage, ClockOrdered, DEDUP_TTL_MS]
  constructor
  · decide +kernel
  · exact claim_exclusive (reach_exec hallowed)

end ClawMessenger.Ports.SessionStore
