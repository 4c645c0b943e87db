import ClawMessenger.Ports.CommentResolution

/-!
# One resolution in a thread

An open `ResolveComment` covers its thread: every other resolution is one that
it has cleared or has still to visit.  A resolve that commits meanwhile breaks
this for the others of its thread, which have looked at its row before; where no
resolve does (`Meets`), a thread never has two resolutions.
-/

namespace ClawMessenger.Ports.CommentResolution

open ClawMessenger.Verified Machine List
open Function (update update_apply)

variable {s : State} {comments : List Comment} {r : Resolve} {n : Nat}

/-! ## Threads -/

/-- Replies are below a comment of their issue. -/
structure WellFormed (comments : List Comment) : Prop where
  forest : Tree.Forest Comment.id Comment.parentId comments
  together : ∀ c ∈ comments, ∀ p ∈ comments, c.parentId = some p.id →
    c.issueId = p.issueId ∧ c.workspaceId = p.workspaceId

def SameThread (comments : List Comment) (id id' : Nat) : Prop :=
  ∃ root, rootOf comments id = some root ∧ rootOf comments id' = some root

/-- A thread has at most one resolved comment. -/
def Single (comments : List Comment) : Prop :=
  ∀ c ∈ comments, ∀ d ∈ comments, c.resolvedAt.isSome = true → d.resolvedAt.isSome = true →
    SameThread comments c.id d.id → c = d

variable {id id' : Nat}

theorem SameThread.symm (h : SameThread comments id id') : SameThread comments id' id := by
  obtain ⟨root, hid, hid'⟩ := h
  exact ⟨root, hid', hid⟩

/-- An issue and a workspace belong to a whole thread. -/
theorem climb_issue (h : WellFormed comments) {k root : Nat} {c : Comment} (hc : c ∈ comments)
    (hk : c.id = k) (hclimb : Tree.climb Comment.id Comment.parentId comments n k = some root) :
    ∃ top ∈ comments, top.id = root ∧ top.issueId = c.issueId ∧ top.workspaceId = c.workspaceId := by
  induction n generalizing k c with
  | zero => cases hclimb
  | succ n ih =>
    obtain ⟨m, row, hm, hrow, hcase⟩ := Tree.climb_cases hclimb
    have hmn : m = n := by omega
    have hmem := mem_of_find?_eq_some hrow
    have hid := find?_some hrow
    rw [decide_eq_true_iff] at hid
    have heq : row = c := h.forest.keyed.eq_of_key hmem hc (hid.trans hk.symm)
    rcases hcase with ⟨-, rfl⟩ | ⟨p, hparent, hp⟩
    · exact ⟨c, hc, hk, rfl, rfl⟩
    · rw [hmn] at hp
      obtain ⟨m', prow, -, hprow, -⟩ := Tree.climb_cases hp
      have hpmem := mem_of_find?_eq_some hprow
      have hpid := find?_some hprow
      rw [decide_eq_true_iff] at hpid
      obtain ⟨top, htop, htopid, hissue, hworkspace⟩ := ih hpmem hpid hp
      have hsame := h.together c hc prow hpmem (by rw [← heq, hparent, hpid])
      exact ⟨top, htop, htopid, hissue.trans hsame.1.symm, hworkspace.trans hsame.2.symm⟩

/-- The first statement finds every other resolution of the thread. -/
theorem mem_otherResolutions (h : WellFormed comments) {c target : Comment} (hc : c ∈ comments)
    (htarget : target ∈ comments) (hthread : SameThread comments c.id target.id)
    (hne : c.id ≠ target.id) (hresolved : c.resolvedAt.isSome = true) :
    c.id ∈ otherResolutions comments target := by
  obtain ⟨root, hroot, hroot'⟩ := hthread
  obtain ⟨top, htop, htopid, hissue, hworkspace⟩ := climb_issue h hc rfl hroot
  obtain ⟨top', htop', htopid', hissue', hworkspace'⟩ := climb_issue h htarget rfl hroot'
  have heq : top = top' := h.forest.keyed.eq_of_key htop htop' (htopid.trans htopid'.symm)
  have hbelow : c.id ∈ descendants comments target := by
    unfold descendants
    rw [hroot']
    apply Tree.mem_descend _ _ hroot
    · intro row hrow hkeep p hp hparent
      have hsame := h.together row hrow p hp hparent
      simp only [Bool.and_eq_true, decide_eq_true_iff] at hkeep ⊢
      exact ⟨hsame.1.symm.trans hkeep.1, hsame.2.symm.trans hkeep.2⟩
    · intro row hrow
      have hid := find?_some hrow
      rw [decide_eq_true_iff] at hid
      rw [h.forest.keyed.eq_of_key (mem_of_find?_eq_some hrow) hc hid]
      simp only [Bool.and_eq_true, decide_eq_true_iff]
      rw [← heq] at hissue' hworkspace'
      exact ⟨hissue.symm.trans hissue', hworkspace.symm.trans hworkspace'⟩
  refine mem_map.mpr ⟨c, mem_filter.mpr ⟨hc, ?_⟩, rfl⟩
  rw [decide_eq_true hbelow, decide_eq_true hne, hresolved]
  rfl

variable {f : Comment → Comment}

/-- An update of resolutions leaves the threads alone. -/
theorem sameThread_map (hid : ∀ c, (f c).id = c.id) (hparent : ∀ c, (f c).parentId = c.parentId) :
    SameThread (comments.map f) id id' ↔ SameThread comments id id' := by
  unfold SameThread rootOf
  rw [Tree.root_map hid hparent, Tree.root_map hid hparent]

theorem WellFormed.map (h : WellFormed comments) (hid : ∀ c, (f c).id = c.id)
    (hparent : ∀ c, (f c).parentId = c.parentId) (hissue : ∀ c, (f c).issueId = c.issueId)
    (hworkspace : ∀ c, (f c).workspaceId = c.workspaceId) : WellFormed (comments.map f) where
  forest := h.forest.map hid hparent
  together := by
    intro c hc p hp heq
    obtain ⟨c', hc', rfl⟩ := mem_map.mp hc
    obtain ⟨p', hp', rfl⟩ := mem_map.mp hp
    rw [hparent, hid] at heq
    rw [hissue, hissue, hworkspace, hworkspace]
    exact h.together c' hc' p' hp' heq

/-- A reply leaves the threads of the comments that are there alone. -/
theorem sameThread_append (h : WellFormed comments) (c : Comment) {d e : Comment} (hd : d ∈ comments)
    (he : e ∈ comments) (hthread : SameThread (comments ++ [c]) d.id e.id) :
    SameThread comments d.id e.id := by
  obtain ⟨root, hroot, hroot'⟩ := hthread
  obtain ⟨rd, hrd⟩ := h.forest.root_isSome hd
  obtain ⟨re, hre⟩ := h.forest.root_isSome he
  have hd' := Tree.root_append [c] hrd
  have he' := Tree.root_append [c] hre
  unfold rootOf at hroot hroot'
  rw [hroot] at hd'
  rw [hroot'] at he'
  cases hd'
  cases he'
  exact ⟨root, hrd, hre⟩

/-! ## The order of steps -/

def Resolve.waiting (r : Resolve) : List Nat :=
  match r.phase with
  | .clearing rest => rest
  | _ => []

/-- The rows that a transaction has written. -/
def Resolve.holds (r : Resolve) (id : Nat) : Prop :=
  id ∈ r.cleared ∨ match r.phase with
    | .resolved => id = r.target.id
    | _ => False

/-- A row is written when no other transaction holds its lock. -/
def Allowed (c : Config State Event Unit) : Event → Prop
  | .reply comment => (∀ old ∈ c.state.comments, old.id ≠ comment.id) ∧ comment.resolvedAt = none ∧
      ∀ parentId, comment.parentId = some parentId → ∃ p ∈ c.state.comments, p.id = parentId ∧
        p.issueId = comment.issueId ∧ p.workspaceId = comment.workspaceId
  | .unresolve id _ => ∀ n r, c.state.resolves n = some r → ¬ r.holds id
  | .begin n _ _ _ _ => c.state.resolves n = none
  | .clear n => ∀ r id rest, c.state.resolves n = some r → r.phase = .clearing (id :: rest) →
      ∀ m r', m ≠ n → c.state.resolves m = some r' → ¬ r'.holds id
  | .resolve n => ∀ r, c.state.resolves n = some r → ∀ m r', m ≠ n → c.state.resolves m = some r' →
      ¬ r'.holds r.target.id
  | _ => True

/-- A resolve commits when no other of its thread is open that is about another
comment, or the other has still to visit its row. -/
def Meets (c : Config State Event Unit) : Event → Prop
  | .commit n => ∀ r, c.state.resolves n = some r → r.phase = .resolved →
      ∀ m r', m ≠ n → c.state.resolves m = some r' → r'.target.id ≠ r.target.id →
        SameThread c.state.comments r.target.id r'.target.id → r.target.id ∈ r'.waiting
  | _ => True

/-! ## The invariant -/

structure Sound (s : State) : Prop where
  wellFormed : WellFormed s.comments
  single : Single s.comments
  target : ∀ n r, s.resolves n = some r → ∃ c ∈ s.comments, c.id = r.target.id
  covers : ∀ n r, s.resolves n = some r → ∀ c ∈ s.comments, c.resolvedAt.isSome = true →
    SameThread s.comments c.id r.target.id → c.id ≠ r.target.id → c.id ∈ r.waiting ∨ c.id ∈ r.cleared

section

variable (h : Sound s)
include h

/-- A resolve opens, goes on or closes, and covers its thread as it does. -/
theorem Sound.setResolve (new : Option Resolve)
    (htarget : ∀ r, new = some r → ∃ c ∈ s.comments, c.id = r.target.id)
    (hcovers : ∀ r, new = some r → ∀ c ∈ s.comments, c.resolvedAt.isSome = true → SameThread s.comments c.id r.target.id → c.id ≠ r.target.id → c.id ∈ r.waiting ∨ c.id ∈ r.cleared) :
    Sound (s.setResolve n new) := by
  have hresolves : ∀ m r, (s.setResolve n new).resolves m = some r →
      new = some r ∨ s.resolves m = some r := by
    intro m r hr
    change update s.resolves n new m = some r at hr
    rw [update_apply] at hr
    split at hr
    · exact .inl hr
    · exact .inr hr
  refine ⟨h.wellFormed, h.single, ?_, ?_⟩
  · intro m r hr
    rcases hresolves m r hr with hnew | hold
    · exact htarget r hnew
    · exact h.target m r hold
  · intro m r hr
    rcases hresolves m r hr with hnew | hold
    · exact hcovers r hnew
    · exact h.covers m r hold

theorem Sound.reply {comment : Comment} (hnew : ∀ old ∈ s.comments, old.id ≠ comment.id)
    (hunresolved : comment.resolvedAt = none)
    (hparent : ∀ parentId, comment.parentId = some parentId → ∃ p ∈ s.comments, p.id = parentId ∧ p.issueId = comment.issueId ∧ p.workspaceId = comment.workspaceId) :
    Sound { s with comments := s.comments ++ [comment] } := by
  have hold : ∀ c ∈ s.comments ++ [comment], c.resolvedAt.isSome = true → c ∈ s.comments := by
    intro c hc hresolved
    rcases mem_append.mp hc with hc | hc
    · exact hc
    · rw [mem_singleton.mp hc, hunresolved] at hresolved
      cases hresolved
  refine ⟨⟨?_, ?_⟩, ?_, ?_, ?_⟩
  · refine .snoc h.wellFormed.forest hnew fun k hk => ?_
    obtain ⟨p, hp, hid, -⟩ := hparent k hk
    exact ⟨p, hp, hid⟩
  · intro c hc p hp heq
    rcases mem_append.mp hc with hc | hc
    · rcases mem_append.mp hp with hp | hp
      · exact h.wellFormed.together c hc p hp heq
      · rw [mem_singleton.mp hp] at heq
        obtain ⟨root, hroot⟩ := h.wellFormed.forest.root_isSome hc
        obtain ⟨m, row, -, hrow, hcase⟩ := Tree.climb_cases hroot
        have hid := find?_some hrow
        rw [decide_eq_true_iff] at hid
        have hrowc := h.wellFormed.forest.keyed.eq_of_key (mem_of_find?_eq_some hrow) hc hid
        rcases hcase with ⟨hnone, -⟩ | ⟨q, hq, hclimb⟩
        · rw [hrowc, heq] at hnone
          cases hnone
        · obtain ⟨m', prow, -, hprow, -⟩ := Tree.climb_cases hclimb
          have hpid := find?_some hprow
          rw [decide_eq_true_iff] at hpid
          rw [hrowc, heq] at hq
          exact absurd (hpid.trans (Option.some.inj hq).symm)
            (hnew prow (mem_of_find?_eq_some hprow))
    · rw [mem_singleton.mp hc] at heq ⊢
      obtain ⟨q, hq, hid, hissue, hworkspace⟩ := hparent p.id heq
      rcases mem_append.mp hp with hp | hp
      · rw [h.wellFormed.forest.keyed.eq_of_key hp hq hid.symm]
        exact ⟨hissue.symm, hworkspace.symm⟩
      · rw [mem_singleton.mp hp] at hid
        exact absurd hid (hnew q hq)
  · intro c hc d hd hresolved hresolved' hthread
    have hc' := hold c hc hresolved
    have hd' := hold d hd hresolved'
    exact h.single c hc' d hd' hresolved hresolved'
      (sameThread_append h.wellFormed comment hc' hd' hthread)
  · intro n r hr
    obtain ⟨c, hc, hid⟩ := h.target n r hr
    exact ⟨c, mem_append_left _ hc, hid⟩
  · intro n r hr c hc hresolved hthread hne
    have hc' := hold c hc hresolved
    obtain ⟨d, hd, hid⟩ := h.target n r hr
    rw [← hid] at hthread
    have hbefore := sameThread_append h.wellFormed comment hc' hd hthread
    rw [hid] at hbefore
    exact h.covers n r hr c hc' hresolved hbefore hne

/-- Resolutions that are taken away. -/
theorem Sound.unresolve (hid : ∀ c, (f c).id = c.id) (hparent : ∀ c, (f c).parentId = c.parentId)
    (hissue : ∀ c, (f c).issueId = c.issueId)
    (hworkspace : ∀ c, (f c).workspaceId = c.workspaceId)
    (hresolved : ∀ c, (f c).resolvedAt.isSome = true → c.resolvedAt.isSome = true) :
    Sound { s with comments := s.comments.map f } := by
  refine ⟨h.wellFormed.map hid hparent hissue hworkspace, ?_, ?_, ?_⟩
  · intro c hc d hd hc' hd' hthread
    obtain ⟨old, hold, rfl⟩ := mem_map.mp hc
    obtain ⟨old', hold', rfl⟩ := mem_map.mp hd
    rw [sameThread_map hid hparent, hid, hid] at hthread
    rw [h.single old hold old' hold' (hresolved old hc') (hresolved old' hd') hthread]
  · intro n r hr
    obtain ⟨c, hc, heq⟩ := h.target n r hr
    exact ⟨f c, mem_map_of_mem hc, (hid c).trans heq⟩
  · intro n r hr c hc hc' hthread hne
    obtain ⟨old, hold, rfl⟩ := mem_map.mp hc
    rw [sameThread_map hid hparent, hid] at hthread
    rw [hid] at hne ⊢
    exact h.covers n r hr old hold (hresolved old hc') hthread hne

theorem Sound.commit {r : Resolve} (hr : s.resolves n = some r) (hphase : r.phase = .resolved)
    (hmeets : ∀ m r', m ≠ n → s.resolves m = some r' → r'.target.id ≠ r.target.id → SameThread s.comments r.target.id r'.target.id → r.target.id ∈ r'.waiting) :
    Sound (({ s with comments := r.commit s.comments }).setResolve n none) := by
  have hmap : r.commit s.comments = s.comments.map fun c =>
      if c.id = r.target.id then c.resolve r.actorType r.actorId r.now
      else if c.id ∈ r.cleared then c.clear r.now else c := rfl
  generalize hf : (fun c : Comment => if c.id = r.target.id then c.resolve r.actorType r.actorId r.now
    else if c.id ∈ r.cleared then c.clear r.now else c) = f at hmap
  have hsame : ∀ c, (f c).id = c.id ∧ (f c).parentId = c.parentId ∧ (f c).issueId = c.issueId ∧
      (f c).workspaceId = c.workspaceId := by
    intro c
    rw [← hf]
    dsimp only
    split
    · exact ⟨rfl, rfl, rfl, rfl⟩
    · split <;> exact ⟨rfl, rfl, rfl, rfl⟩
  have hid : ∀ c, (f c).id = c.id := fun c => (hsame c).1
  have hparent : ∀ c, (f c).parentId = c.parentId := fun c => (hsame c).2.1
  -- what is resolved afterwards is the target, or was resolved and not cleared
  have hafter : ∀ c, (f c).resolvedAt.isSome = true → c.id = r.target.id ∨
      (c.id ≠ r.target.id ∧ c.id ∉ r.cleared ∧ c.resolvedAt.isSome = true) := by
    intro c hc
    rw [← hf] at hc
    dsimp only at hc
    split at hc
    · rename_i htarget
      exact .inl htarget
    · rename_i hne
      split at hc
      · cases hc
      · rename_i hcleared
        exact .inr ⟨hne, hcleared, hc⟩
  -- the resolve has cleared every other resolution of the thread
  have hnone : ∀ c ∈ s.comments, c.id ≠ r.target.id → c.id ∉ r.cleared → c.resolvedAt.isSome = true →
      ¬ SameThread s.comments c.id r.target.id := by
    intro c hc hne hcleared hresolved hthread
    rcases h.covers n r hr c hc hresolved hthread hne with hwaiting | hmem
    · unfold Resolve.waiting at hwaiting
      rw [hphase] at hwaiting
      cases hwaiting
    · exact hcleared hmem
  rw [hmap]
  refine ⟨h.wellFormed.map hid hparent (fun c => (hsame c).2.2.1) (fun c => (hsame c).2.2.2), ?_, ?_, ?_⟩
  · intro c hc d hd hc' hd' hthread
    obtain ⟨old, hold, rfl⟩ := mem_map.mp hc
    obtain ⟨old', hold', rfl⟩ := mem_map.mp hd
    change SameThread (s.comments.map f) _ _ at hthread
    rw [sameThread_map hid hparent, hid, hid] at hthread
    rcases hafter old hc' with htarget | ⟨hne, hcleared, hresolved⟩
    · rcases hafter old' hd' with htarget' | ⟨hne', hcleared', hresolved'⟩
      · rw [h.wellFormed.forest.keyed.eq_of_key hold hold' (htarget.trans htarget'.symm)]
      · rw [htarget] at hthread
        exact absurd hthread.symm (hnone old' hold' hne' hcleared' hresolved')
    · rcases hafter old' hd' with htarget' | ⟨hne', hcleared', hresolved'⟩
      · rw [htarget'] at hthread
        exact absurd hthread (hnone old hold hne hcleared hresolved)
      · rw [h.single old hold old' hold' hresolved hresolved' hthread]
  · intro m r' hr'
    change update s.resolves n none m = some r' at hr'
    rw [update_apply] at hr'
    split at hr'
    · cases hr'
    · obtain ⟨c, hc, heq⟩ := h.target m r' hr'
      exact ⟨f c, mem_map_of_mem hc, (hid c).trans heq⟩
  · intro m r' hr' c hc hc' hthread hne
    change update s.resolves n none m = some r' at hr'
    rw [update_apply] at hr'
    split at hr'
    · cases hr'
    · rename_i hmn
      obtain ⟨old, hold, rfl⟩ := mem_map.mp hc
      change SameThread (s.comments.map f) _ _ at hthread
      rw [sameThread_map hid hparent, hid] at hthread
      rw [hid] at hne ⊢
      rcases hafter old hc' with htarget | ⟨-, -, hresolved⟩
      · rw [htarget] at hthread hne ⊢
        exact .inl (hmeets m r' hmn hr' (Ne.symm hne) hthread)
      · exact h.covers m r' hr' old hold hresolved hthread hne

theorem Sound.clear {r : Resolve} {rest : List Nat} (hr : s.resolves n = some r)
    (hphase : r.phase = .clearing (id :: rest)) :
    Sound (s.setResolve n (some (r.visit s.comments id rest))) := by
  have htarget : (r.visit s.comments id rest).target = r.target := by
    unfold Resolve.visit
    split <;> rfl
  refine h.setResolve _ ?_ ?_
  · rintro r' ⟨rfl⟩
    rw [htarget]
    exact h.target n r hr
  · rintro r' ⟨rfl⟩ c hc hresolved hthread hne
    rw [htarget] at hthread hne
    have hcovered := h.covers n r hr c hc hresolved hthread hne
    unfold Resolve.waiting at hcovered
    rw [hphase] at hcovered
    unfold Resolve.visit
    split
    · rcases hcovered with hwaiting | hcleared
      · rcases mem_cons.mp hwaiting with heq | hrest
        · exact .inr (heq ▸ mem_cons_self)
        · exact .inl hrest
      · exact .inr (mem_cons_of_mem _ hcleared)
    · rename_i hgone
      rcases hcovered with hwaiting | hcleared
      · rcases mem_cons.mp hwaiting with heq | hrest
        · refine absurd (any_eq_true.mpr ⟨c, hc, ?_⟩) hgone
          rw [heq, decide_eq_true rfl, hresolved]
          rfl
        · exact .inl hrest
      · exact .inr hcleared

/-- A phase without rows to visit. -/
theorem Sound.advance {r : Resolve} (hr : s.resolves n = some r) (hwaiting : r.waiting = [])
    (phase : Phase) : Sound (s.setResolve n (some { r with phase := phase })) := by
  refine h.setResolve _ ?_ ?_
  · rintro r' ⟨rfl⟩
    exact h.target n r hr
  · rintro r' ⟨rfl⟩ c hc hresolved hthread hne
    rcases h.covers n r hr c hc hresolved hthread hne with hmem | hcleared
    · rw [hwaiting] at hmem
      cases hmem
    · exact .inr hcleared

end

theorem Sound.step {c : Config State Event Unit} {event : Event} (h : Sound c.state)
    (hallowed : Allowed c event) (hmeets : Meets c event) : Sound (Machine.advance State.step c event).state := by
  show Sound (c.state.step event).2
  cases event with
  | reply comment => exact h.reply hallowed.1 hallowed.2.1 hallowed.2.2
  | unresolve id now =>
    apply h.unresolve
    · intro c
      split <;> rfl
    · intro c
      split <;> rfl
    · intro c
      split <;> rfl
    · intro c
      split <;> rfl
    · intro c hc
      split at hc
      · cases hc
      · exact hc
  | begin n id actorType actorId now =>
    simp only [State.step]
    cases hfind : c.state.comments.find? fun c => c.id = id with
    | none => exact h
    | some target =>
      have htarget := mem_of_find?_eq_some hfind
      refine h.setResolve _ ?_ ?_
      · rintro r ⟨rfl⟩
        exact ⟨target, htarget, rfl⟩
      · rintro r ⟨rfl⟩ comment hcomment hresolved hthread hne
        exact .inl (mem_otherResolutions h.wellFormed hcomment htarget hthread hne hresolved)
  | clear n =>
    simp only [State.step]
    cases hr : c.state.resolves n with
    | none => exact h
    | some r =>
      dsimp only
      split
      · rename_i hphase
        refine h.advance hr ?_ .resolving
        unfold Resolve.waiting
        rw [hphase]
      · rename_i id rest hphase
        exact h.clear hr hphase
      · exact h
  | resolve n =>
    simp only [State.step]
    cases hr : c.state.resolves n with
    | none => exact h
    | some r =>
      dsimp only
      split
      · rename_i hphase
        refine h.advance hr ?_ .resolved
        unfold Resolve.waiting
        rw [hphase]
      · exact h
  | commit n =>
    simp only [State.step]
    cases hr : c.state.resolves n with
    | none => exact h
    | some r =>
      dsimp only
      split
      · rename_i hphase
        exact h.commit hr hphase (hmeets r hr hphase)
      · exact h
  | rollback n =>
    refine h.setResolve none ?_ ?_
    · intro r hr
      cases hr
    · intro r hr
      cases hr

/-- Where every commit of a resolve meets the condition, a thread keeps at most
one resolution. -/
theorem single_resolution {s : State} (hwellFormed : WellFormed s.comments) (hsingle : Single s.comments)
    (hidle : ∀ n, s.resolves n = none) {c : Config State Event Unit}
    (h : Reach State.step (fun c event => Allowed c event ∧ Meets c event) (start s) c) :
    Single c.state.comments := by
  have hstart : Sound s := by
    refine ⟨hwellFormed, hsingle, ?_, ?_⟩
    · intro n r hr
      rw [hidle n] at hr
      cases hr
    · intro n r hr
      rw [hidle n] at hr
      cases hr
  exact (h.invariant (I := fun c => Sound c.state)
    (fun _ _ hallowed hd => hd.step hallowed.1 hallowed.2) hstart).single

/-! ## Two resolves at once -/

def root : Comment := ⟨1, 0, 0, none, none, none, none, 1, 0⟩

def reply : Comment := ⟨2, 0, 0, some 1, none, none, none, 1, 0⟩

/-- A thread of two comments. -/
def thread : State := ⟨[root, reply], fun _ => none⟩

theorem thread_wellFormed : WellFormed thread.comments where
  forest := by
    refine .snoc (.snoc .nil ?_ ?_) ?_ ?_
    · decide
    · intro k hk
      cases hk
    · decide
    · intro k hk
      cases hk
      exact ⟨root, mem_singleton_self _, rfl⟩
  together := by decide

theorem thread_single : Single thread.comments := by
  intro c hc d hd hresolved
  have hnone : ∀ c ∈ thread.comments, c.resolvedAt.isSome = false := by decide
  rw [hnone c hc] at hresolved
  cases hresolved

/-- The reply is resolved, and then the root, which clears it. -/
def oneThenTheOther : List Event :=
  [.begin 0 2 "member" 9 5, .clear 0, .resolve 0, .commit 0, .begin 1 1 "member" 9 6, .clear 1,
    .clear 1, .resolve 1, .commit 1]

theorem single_resolution_one :
    let c := exec State.step (start thread) oneThenTheOther
    c.state.comments.map Comment.resolvedAt = [some 6, none] ∧ Single c.state.comments := by
  refine ⟨by decide, ?_⟩
  apply single_resolution thread_wellFormed thread_single fun _ => rfl
  refine reach_exec ⟨⟨rfl, trivial⟩, ⟨?_, trivial⟩, ⟨?_, trivial⟩, ⟨trivial, ?_⟩, ⟨rfl, trivial⟩,
    ⟨?_, trivial⟩, ⟨?_, trivial⟩, ⟨?_, trivial⟩, ⟨trivial, ?_⟩, trivial⟩
  -- No other resolve is open.
  · intro r id rest _ _ m r' hm hr'
    rcases m with _ | m
    · exact absurd rfl hm
    · cases hr'
  · intro r _ m r' hm hr'
    rcases m with _ | m
    · exact absurd rfl hm
    · cases hr'
  · intro r _ _ m r' hm hr'
    rcases m with _ | m
    · exact absurd rfl hm
    · cases hr'
  · intro r id rest _ _ m r' hm hr'
    rcases m with _ | _ | m
    · cases hr'
    · exact absurd rfl hm
    · cases hr'
  · intro r id rest _ _ m r' hm hr'
    rcases m with _ | _ | m
    · cases hr'
    · exact absurd rfl hm
    · cases hr'
  · intro r _ m r' hm hr'
    rcases m with _ | _ | m
    · cases hr'
    · exact absurd rfl hm
    · cases hr'
  · intro r _ _ m r' hm hr'
    rcases m with _ | _ | m
    · cases hr'
    · exact absurd rfl hm
    · cases hr'

/-- Two resolves of a thread that look for other resolutions before either commits. -/
def twice : List Event :=
  [.begin 0 1 "member" 9 5, .clear 0, .begin 1 2 "member" 9 6, .clear 1, .resolve 0, .resolve 1,
    .commit 0, .commit 1]

theorem resolve_twice : ¬ ∀ (s : State) (c : Config State Event Unit), WellFormed s.comments →
    Single s.comments → (∀ n, s.resolves n = none) → Reach State.step Allowed (start s) c →
      Single c.state.comments := by
  intro h
  have hallowed : AllAllowed State.step Allowed (start thread) twice := by
    refine ⟨rfl, ?_, rfl, ?_, ?_, ?_, trivial, trivial, trivial⟩
    · intro r id rest _ _ m r' hm hr'
      change update (fun _ => none) 0 _ m = some r' at hr'
      simp [hm] at hr'
    · intro r id rest hr hphase
      cases hr
      cases hphase
    · intro r hr m r' hm hr'
      by_cases hone : m = 1
      · subst hone
        cases hr'
        rintro (hcleared | hfalse)
        · cases hcleared
        · exact hfalse
      · change update (update (update (update (fun _ => none) 0 _) 0 _)
          1 _) 1 _ m = some r' at hr'
        simp [hm, hone] at hr'
    · intro r hr m r' hm hr'
      by_cases hzero : m = 0
      · subst hzero
        cases hr
        cases hr'
        rintro (hcleared | htarget)
        · cases hcleared
        · cases htarget
      · change update (update (update (update (update
          (fun _ => none) 0 _) 0 _) 1 _) 1 _) 0 _ m = some r' at hr'
        simp [hm, hzero] at hr'
  have htwo := h thread (exec State.step (start thread) twice) thread_wellFormed thread_single
    (fun _ => rfl) (reach_exec hallowed)
  have hcomments : (exec State.step (start thread) twice).state.comments =
      [root.resolve "member" 9 5, reply.resolve "member" 9 6] := by decide
  rw [hcomments] at htwo
  have hsame := htwo (root.resolve "member" 9 5) (by decide) (reply.resolve "member" 9 6) (by decide) rfl rfl
    ⟨1, by decide, by decide⟩
  cases hsame

end ClawMessenger.Ports.CommentResolution
