import ClawMessenger.Ports.ChatTranscript

/-!
# Two rows of the transcript

What `Effect` says of one step is carried along a run for two rows.  The claim of a
turn puts its input behind every visible row, and from then on neither that input nor
the row of a turn that has left the queue moves (`Behind`).  A row that is no input of
a queued turn stays as it is (`Fixed`), and an input of a queued turn only goes down.
-/

namespace ClawMessenger.Ports.ChatTurns

open Verified Verified.Machine List
open TaskQueue (Status)

/-! ## Turns -/

/-- The turn has left the queue, as it does with its first claim. -/
def Claimed (σ : State) (turn : Nat) : Prop :=
  ∃ t ∈ σ.tasks, t.id = turn ∧ t.chatInputTaskId = turn ∧ t.status ≠ .queued

/-- Nothing of the turn is unfinished, marked, or in the hands of an open call. -/
def Over (σ : State) (turn : Nat) : Prop := ∀ t ∈ σ.tasks, t.chatInputTaskId = turn → ¬ Live σ t

/-- The row was written by a task of the turn. -/
def OfTurn (tasks : List Task) (turn : Nat) (m : Message) : Prop :=
  ∃ t ∈ tasks, t.id = m.taskId ∧ t.chatInputTaskId = turn

/-- The row is no input that waits in the queue, or it is the newest one that is visible. -/
def InPlace (σ : State) (m : Message) : Prop :=
  QueuedInput σ.tasks m → ∀ n ∈ listChatMessages σ, n.key ≤ m.key

theorem mem_listChatMessages {σ : State} {m : Message} :
    m ∈ listChatMessages σ ↔ m ∈ σ.messages ∧ hidden σ.tasks m = false := by
  unfold listChatMessages
  rw [(SortOrder.sort_perm _ _).mem_iff, mem_filter, Bool.not_eq_true']

theorem Tidy.keys_nodup {σ : State} (h : Tidy σ) (p : Message → Bool) :
    ((σ.messages.filter p).map Message.key).Nodup := by
  have hids : ((σ.messages.filter p).map Message.id).Nodup := h.messageIds.sublist (filter_sublist.map _)
  apply Nodup.of_map fun key : Lex (Nat × Nat) => (ofLex key).2
  rw [map_map]
  exact hids

/-- One visible row stands before another. -/
theorem Tidy.stands_before {σ : State} (h : Tidy σ) {x y : Message} (hx : x ∈ listChatMessages σ)
    (hy : y ∈ listChatMessages σ) : [x, y].Sublist (listChatMessages σ) ↔ x.key < y.key := by
  unfold listChatMessages at hx hy ⊢
  rw [SortOrder.pair_sublist_sort (h.keys_nodup _)]
  rw [(SortOrder.sort_perm _ _).mem_iff] at hx hy
  exact ⟨fun hpair => hpair.2.2, fun hlt => ⟨hx, hy, hlt⟩⟩

theorem key_lt_of_createdAt {x y : Message} (h : x.createdAt < y.createdAt) : x.key < y.key :=
  Prod.Lex.toLex_lt_toLex.mpr (.inl h)

theorem key_le_of_later {x y : Message} (hid : y.id = x.id) (h : x.createdAt ≤ y.createdAt) : x.key ≤ y.key := by
  unfold Message.key
  rw [hid, Prod.Lex.toLex_le_toLex]
  rcases Nat.lt_or_eq_of_le h with hlt | heq
  · exact .inl hlt
  · exact .inr ⟨heq, le_refl _⟩

theorem Tidy.eq_of_id {σ : State} (h : Tidy σ) {x y : Message} (hx : x ∈ σ.messages) (hy : y ∈ σ.messages)
    (hid : x.id = y.id) : x = y := inj_on_of_nodup_map h.messageIds hx hy hid

/-! ## What a step leaves -/

theorem Effect.task {σ σ' : State} (h : Tidy σ) (heffect : Effect σ σ') {t t' : Task} (ht : t ∈ σ.tasks)
    (ht' : t' ∈ σ'.tasks) (hid : t'.id = t.id) : Lives σ t t' := by
  rcases heffect.tasks t' ht' with ⟨u, hu, hlives⟩ | hborn
  · rw [h.keyed.eq_of_key ht hu (hid.symm.trans hlives.id)]
    exact hlives
  · exact absurd (mem_map.mpr ⟨t, ht, hid.symm⟩) hborn.new

theorem Claimed.step {σ σ' : State} (h : Tidy σ) (heffect : Effect σ σ') {turn : Nat} (hclaimed : Claimed σ turn) :
    Claimed σ' turn := by
  obtain ⟨t, ht, hid, howner, hstatus⟩ := hclaimed
  obtain ⟨t', ht', hid'⟩ := mem_map.mp (heffect.persist _ (mem_map.mpr ⟨t, ht, rfl⟩))
  have hlives : Lives σ t t' := heffect.task h ht ht' hid'
  refine ⟨t', ht', hid'.trans hid, hlives.owner.trans howner, ?_⟩
  intro hqueued
  rcases hlives.queued hqueued with hold | hdeferred
  · exact hstatus hold
  · exact h.roots t ht hdeferred (howner.trans hid.symm)

theorem Over.step {σ σ' : State} (heffect : Effect σ σ') {turn : Nat} (hover : Over σ turn)
    (hturn : turn ∈ σ.tasks.map Task.id) (h : Tidy σ) : Over σ' turn := by
  intro t' ht' howner hlive
  rcases heffect.tasks t' ht' with ⟨t, ht, hlives⟩ | hborn
  · have hold : t.chatInputTaskId = turn := hlives.owner.symm.trans howner
    apply hover t ht hold
    rcases hlive with hunfinished | hmarked | howed
    · exact hlives.live (.inl hunfinished)
    · exact hlives.live (.inr hmarked)
    · obtain ⟨u, hu, hid, hlive⟩ := heffect.calls t'.id howed
      rw [← h.keyed.eq_of_key hu ht (hid.trans hlives.id)]
      exact hlive
  · rcases hborn.owner with hroot | ⟨t, ht, hold, hlive⟩
    · exact hborn.new (hroot ▸ howner ▸ hturn)
    · exact hover t ht (hold.trans howner) hlive

theorem Claimed.turn {σ : State} {turn : Nat} (h : Claimed σ turn) : turn ∈ σ.tasks.map Task.id := by
  obtain ⟨t, ht, hid, _⟩ := h
  exact mem_map.mpr ⟨t, ht, hid⟩

theorem Claimed.not_queuedInput {σ : State} (h : Tidy σ) {turn : Nat} (hclaimed : Claimed σ turn) {m : Message}
    (hm : m.taskId = turn) : ¬ QueuedInput σ.tasks m := by
  obtain ⟨t, ht, hid, _, hstatus⟩ := hclaimed
  rintro ⟨_, u, hu, huid, hqueued, _⟩
  apply hstatus
  rw [h.keyed.eq_of_key ht hu (hid.trans (hm.symm.trans huid.symm))]
  exact hqueued

/-- The input of a turn that has left the queue is an old row. -/
theorem Claimed.input_old {σ σ' : State} (h : Tidy σ) (heffect : Effect σ σ') {turn : Nat}
    (hclaimed : Claimed σ turn) {m' : Message} (hm' : m' ∈ σ'.messages) (hinput : isInput turn m' = true) :
    m' ∈ σ.messages := by
  unfold isInput at hinput
  rw [Bool.and_eq_true, beq_iff_eq, beq_iff_eq] at hinput
  obtain ⟨hrole, htask⟩ := hinput
  rcases heffect.messages m' hm' with hold | ⟨m, _, hmoves⟩ | hwritten
  · exact hold
  · exact absurd hmoves.queued (hclaimed.not_queuedInput h (hmoves.taskId.symm.trans htask))
  · rcases hwritten.turn with ⟨_, hnew⟩ | ⟨hassistant, _⟩
    · exact absurd (htask ▸ hclaimed.turn) hnew
    · rw [hrole] at hassistant
      cases hassistant

/-- A row of a turn that is over is an old row of it. -/
theorem Over.row_old {σ σ' : State} (h : Tidy σ) (heffect : Effect σ σ') {turn : Nat} (hover : Over σ turn)
    (hturn : turn ∈ σ.tasks.map Task.id) {m' : Message} (hm' : m' ∈ σ'.messages) (hof : OfTurn σ'.tasks turn m') :
    m' ∈ σ.messages ∧ OfTurn σ.tasks turn m' := by
  obtain ⟨t', ht', hid, howner⟩ := hof
  rcases heffect.tasks t' ht' with ⟨t, ht, hlives⟩ | hborn
  · have hdead : ¬ Live σ t := hover t ht (hlives.owner.symm.trans howner)
    have htid : t.id = m'.taskId := hlives.id.symm.trans hid
    refine ⟨?_, t, ht, htid, hlives.owner.symm.trans howner⟩
    rcases heffect.messages m' hm' with hold | ⟨m, _, hmoves⟩ | hwritten
    · exact hold
    · obtain ⟨_, u, hu, huid, hqueued, _⟩ := hmoves.queued
      have hut : u = t := h.keyed.eq_of_key hu ht (huid.trans (hmoves.taskId.symm.trans htid.symm))
      exact absurd (.inl (by rw [← hut, hqueued]; rfl)) hdead
    · rcases hwritten.turn with ⟨_, hnew⟩ | ⟨_, u, hu, huid, hlive⟩
      · exact absurd (mem_map.mpr ⟨t, ht, htid⟩) hnew
      · rw [h.keyed.eq_of_key hu ht (huid.trans htid.symm)] at hlive
        exact absurd hlive hdead
  · rcases hborn.owner with hroot | ⟨t, ht, hold, hlive⟩
    · exact absurd (hroot ▸ howner ▸ hturn) hborn.new
    · exact absurd hlive (hover t ht (hold.trans howner))

/-! ## A claim -/

/-- A row that is no input of a queued turn is visible. -/
theorem hidden_of_not_queued {tasks : List Task} {m : Message}
    (h : ∀ t ∈ tasks, t.id = m.taskId → m.role = .user → t.status ≠ .queued) : hidden tasks m = false := by
  unfold hidden
  rw [Bool.and_eq_false_imp]
  intro hrole
  rw [any_eq_false]
  intro t ht
  rw [Bool.and_eq_true, Bool.and_eq_true, beq_iff_eq, beq_iff_eq]
  rintro ⟨⟨hqueued, hid⟩, _⟩
  exact h t ht hid (by simpa using hrole) hqueued

theorem latestVisible_le {tasks : List Task} {messages : List Message} {inputId : Nat} {x : Message}
    (hx : x ∈ messages) (hid : x.id ≠ inputId) (hvisible : hidden tasks x = false) :
    ∃ prior, latestVisible tasks messages inputId = some prior ∧ x.createdAt ≤ prior.createdAt := by
  have hmem : x ∈ messages.filter fun m => m.id != inputId && !hidden tasks m := by
    rw [mem_filter]
    exact ⟨hx, by simp [hid, hvisible]⟩
  cases hlatest : latestVisible tasks messages inputId with
  | none =>
    unfold latestVisible at hlatest
    rw [argmax_eq_none.mp hlatest] at hmem
    cases hmem
  | some prior =>
    refine ⟨prior, rfl, ?_⟩
    have hle : x.key ≤ prior.key := le_of_mem_argmax hmem hlatest
    unfold Message.key at hle
    rw [Prod.Lex.toLex_le_toLex] at hle
    rcases hle with hlt | ⟨heq, _⟩
    · exact Nat.le_of_lt hlt
    · exact Nat.le_of_eq heq

/-- The claim puts its input behind what is visible. -/
theorem reanchorClaimed_behind {tasks : List Task} {messages : List Message} {taskId now : Nat} {x y : Message}
    (hnodup : (messages.map Message.id).Nodup) (hx : x ∈ messages) (hvisible : hidden tasks x = false)
    (hother : isInput taskId x = false) (hy : y ∈ reanchorClaimed tasks messages taskId now)
    (hinput : isInput taskId y = true) : x.createdAt < y.createdAt := by
  obtain ⟨m, hm, heq⟩ := mem_map.mp hy
  unfold isInput at hother hinput
  have hcase : (m.role == .user && m.taskId == taskId) = true := by
    by_contra hnot
    rw [if_neg hnot] at heq
    exact hnot (heq ▸ hinput)
  have hid : x.id ≠ m.id := by
    intro hid
    rw [inj_on_of_nodup_map hnodup hx hm hid, hcase] at hother
    cases hother
  obtain ⟨prior, hlatest, hle⟩ := latestVisible_le hx hid hvisible
  rw [if_pos hcase, hlatest] at heq
  subst heq
  exact Nat.lt_of_le_of_lt hle (reanchor_spec m prior now).2.2.2.2

/-- The rows of `turn` that are settled stand before the input of `root`: its input, and
all that it has where it was over. -/
structure Behind (ended : Prop) (turn root : Nat) (σ : State) : Prop where
  tidy : Tidy σ
  earlier : Claimed σ turn
  later : Claimed σ root
  done : ended → Over σ turn
  order : ∀ x ∈ σ.messages, ∀ y ∈ σ.messages, isInput turn x = true ∨ ended ∧ OfTurn σ.tasks turn x →
    isInput root y = true → x.createdAt < y.createdAt

theorem Behind.step {ended : Prop} {turn root : Nat} {σ σ' : State} (h : Behind ended turn root σ)
    (heffect : Effect σ σ') : Behind ended turn root σ' := by
  refine ⟨h.tidy.step heffect, h.earlier.step h.tidy heffect, h.later.step h.tidy heffect, ?_, ?_⟩
  · intro hended
    exact (h.done hended).step heffect h.earlier.turn h.tidy
  · intro x hx y hy hrow hinput
    have hyold : y ∈ σ.messages := h.later.input_old h.tidy heffect hy hinput
    rcases hrow with hxinput | ⟨hended, hof⟩
    · exact h.order x (h.earlier.input_old h.tidy heffect hx hxinput) y hyold (.inl hxinput) hinput
    · obtain ⟨hxold, hofold⟩ := (h.done hended).row_old h.tidy heffect h.earlier.turn hx hof
      exact h.order x hxold y hyold (.inr ⟨hended, hofold⟩) hinput

theorem claim_eq {σ : State} {locked : List Nat} {t : Task} (hfound : claimable σ.tasks locked = some t)
    (hroot : t.chatInputTaskId = t.id) (now : Nat) :
    claim σ now locked =
      { σ with
        tasks := updateTask σ.tasks t.id (Task.setStatus .dispatched)
        messages := reanchorClaimed (updateTask σ.tasks t.id (Task.setStatus .dispatched)) σ.messages t.id now } := by
  unfold claim
  rw [hfound]
  dsimp only
  rw [if_pos hroot]

theorem Over.visible {σ : State} (h : Tidy σ) {turn : Nat} (hover : Over σ turn) {x : Message}
    (hof : OfTurn σ.tasks turn x) : ∀ t ∈ σ.tasks, t.id = x.taskId → x.role = .user → t.status ≠ .queued := by
  intro t ht hid _ hqueued
  obtain ⟨u, hu, huid, howner⟩ := hof
  apply hover u hu howner
  rw [← h.keyed.eq_of_key ht hu (hid.trans huid.symm)]
  exact .inl (by rw [hqueued]; rfl)

theorem Claimed.visible {σ : State} (h : Tidy σ) {turn : Nat} (hclaimed : Claimed σ turn) {x : Message}
    (hinput : isInput turn x = true) : ∀ t ∈ σ.tasks, t.id = x.taskId → x.role = .user → t.status ≠ .queued := by
  intro t ht hid hrole
  obtain ⟨u, hu, huid, _, hstatus⟩ := hclaimed
  unfold isInput at hinput
  rw [Bool.and_eq_true, beq_iff_eq, beq_iff_eq] at hinput
  rw [h.keyed.eq_of_key ht hu (hid.trans (hinput.2.trans huid.symm))]
  exact hstatus

/-- After the claim of a turn every turn that has left the queue before stands before it. -/
theorem Behind.of_claim {σ : State} (h : Tidy σ) {now : Nat} {locked : List Nat} {t : Task}
    (hfound : claimable σ.tasks locked = some t) (hroot : t.chatInputTaskId = t.id) {turn : Nat}
    (hclaimed : Claimed σ turn) : Behind (Over σ turn) turn t.id (claim σ now locked) := by
  have heffect : Effect σ (claim σ now locked) := h.effect_claim now locked
  obtain ⟨ht, hqueued, _⟩ := claimable_eq hfound
  have hne : turn ≠ t.id := by
    rintro rfl
    obtain ⟨u, hu, hid, _, hstatus⟩ := hclaimed
    exact hstatus (h.keyed.eq_of_key hu ht hid ▸ hqueued)
  have hstatus : ∀ u ∈ updateTask σ.tasks t.id (Task.setStatus .dispatched), u.status = .queued → u ∈ σ.tasks := by
    intro u hu hstatus
    rcases Rows.mem_update.mp hu with ⟨v, _, _, rfl⟩ | ⟨hold, _⟩
    · cases hstatus
    · exact hold
  refine ⟨h.step heffect, hclaimed.step h heffect, ?_, fun hover => hover.step heffect hclaimed.turn h, ?_⟩
  · rw [claim_eq hfound hroot]
    refine ⟨Task.setStatus .dispatched t, ?_, rfl, hroot, fun heq => by cases heq⟩
    exact Rows.mem_update.mpr (.inl ⟨t, ht, by simp, rfl⟩)
  · intro x hx y hy hrow hinput
    have hold : x ∈ σ.messages ∧ isInput t.id x = false ∧
        ∀ u ∈ σ.tasks, u.id = x.taskId → x.role = .user → u.status ≠ .queued := by
      rcases hrow with hxinput | ⟨hover, hof⟩
      · refine ⟨hclaimed.input_old h heffect hx hxinput, ?_, hclaimed.visible h hxinput⟩
        unfold isInput at hxinput ⊢
        rw [Bool.and_eq_true, beq_iff_eq, beq_iff_eq] at hxinput
        rw [Bool.and_eq_false_imp]
        intro _
        rw [hxinput.2]
        simpa using hne
      · obtain ⟨hxold, hofold⟩ := hover.row_old h heffect hclaimed.turn hx hof
        refine ⟨hxold, ?_, hover.visible h hofold⟩
        unfold isInput
        rw [Bool.and_eq_false_imp]
        intro hrole
        by_contra hid
        have hid' : x.taskId = t.id := by simpa using hid
        exact hover.visible h hofold t ht hid'.symm (by simpa using hrole) hqueued
    rw [claim_eq hfound hroot] at hy
    apply reanchorClaimed_behind h.messageIds hold.1 _ hold.2.1 hy hinput
    apply hidden_of_not_queued
    intro u hu hid hrole hqueued'
    exact hold.2.2 u (hstatus u hu hqueued') hid hrole hqueued'

/-! ## Places -/

/-- What a run keeps of a row that is no input of a queued turn. -/
structure Fixed (m : Message) (σ : State) : Prop where
  tidy : Tidy σ
  known : m.id ∈ σ.issued
  author : m.taskId ∈ σ.tasks.map Task.id
  settled : ¬ QueuedInput σ.tasks m
  same : ∀ m' ∈ σ.messages, m'.id = m.id → m' = m

theorem Fixed.step {m : Message} {σ σ' : State} (h : Fixed m σ) (heffect : Effect σ σ') : Fixed m σ' := by
  refine ⟨h.tidy.step heffect, heffect.issued _ h.known, heffect.persist _ h.author, ?_, ?_⟩
  · rintro ⟨hrole, t', ht', hid, hqueued, hroot⟩
    obtain ⟨t, ht, htid⟩ := mem_map.mp h.author
    have hlives : Lives σ t t' := heffect.task h.tidy ht ht' (hid.trans htid.symm)
    have hroot' : t.chatInputTaskId = t.id := by rw [← hlives.owner, ← hlives.id, hroot]
    rcases hlives.queued hqueued with hold | hdeferred
    · exact h.settled ⟨hrole, t, ht, htid, hold, hroot'⟩
    · exact h.tidy.roots t ht hdeferred hroot'
  · intro m' hm' hid
    rcases heffect.messages m' hm' with hold | ⟨m₀, hm₀, hmoves⟩ | hwritten
    · exact h.same m' hold hid
    · have heq : m₀ = m := h.same m₀ hm₀ (hmoves.id.symm.trans hid)
      exact absurd (heq ▸ hmoves.queued) h.settled
    · exact absurd (hid ▸ h.known) hwritten.new

/-- What a run keeps of any row: it goes down only. -/
structure Lowered (m : Message) (σ : State) : Prop where
  tidy : Tidy σ
  known : m.id ∈ σ.issued
  later : ∀ m' ∈ σ.messages, m'.id = m.id → m.createdAt ≤ m'.createdAt

theorem Lowered.step {m : Message} {σ σ' : State} (h : Lowered m σ) (heffect : Effect σ σ') : Lowered m σ' := by
  refine ⟨h.tidy.step heffect, heffect.issued _ h.known, ?_⟩
  intro m' hm' hid
  rcases heffect.messages m' hm' with hold | ⟨m₀, hm₀, hmoves⟩ | hwritten
  · exact h.later m' hold hid
  · exact le_trans (h.later m₀ hm₀ (hmoves.id.symm.trans hid)) hmoves.later
  · exact absurd (hid ▸ h.known) hwritten.new

/-! ## Runs -/

abbrev Run : Config State Action Unit → Config State Action Unit → Prop := Reach step fun _ _ => True

theorem tidy_run {c : Config State Action Unit} (h : Run (Machine.start start) c) : Tidy c.state := by
  apply h.invariant (I := fun c => Tidy c.state)
  · intro d a _ htidy
    exact htidy.step (htidy.effect_step a)
  · exact tidy_start

theorem Behind.run {ended : Prop} {turn root : Nat} {c c' : Config State Action Unit} (h : Run c c')
    (hc : Behind ended turn root c.state) : Behind ended turn root c'.state := by
  apply h.invariant (I := fun c => Behind ended turn root c.state)
  · intro d a _ hd
    exact hd.step (hd.tidy.effect_step a)
  · exact hc

theorem Fixed.run {m : Message} {c c' : Config State Action Unit} (h : Run c c') (hc : Fixed m c.state) :
    Fixed m c'.state := by
  apply h.invariant (I := fun c => Fixed m c.state)
  · intro d a _ hd
    exact hd.step (hd.tidy.effect_step a)
  · exact hc

theorem Lowered.run {m : Message} {c c' : Config State Action Unit} (h : Run c c') (hc : Lowered m c.state) :
    Lowered m c'.state := by
  apply h.invariant (I := fun c => Lowered m c.state)
  · intro d a _ hd
    exact hd.step (hd.tidy.effect_step a)
  · exact hc

theorem Tidy.fixed {σ : State} (h : Tidy σ) {m : Message} (hm : m ∈ σ.messages) (hsettled : ¬ QueuedInput σ.tasks m) :
    Fixed m σ := ⟨h, h.known m hm, h.authors m hm, hsettled, fun _ hm' hid => h.eq_of_id hm' hm hid⟩

theorem Tidy.lowered {σ : State} (h : Tidy σ) {m : Message} (hm : m ∈ σ.messages) : Lowered m σ :=
  ⟨h, h.known m hm, fun _ hm' hid => Nat.le_of_eq (congrArg Message.createdAt (h.eq_of_id hm' hm hid).symm)⟩

/-- Of two rows in place, the first stands still and the second goes down at most. -/
theorem place_kept {c c' : Config State Action Unit} (hc : Tidy c.state) (h : Run c c') {x y x' y' : Message}
    (hx : x ∈ listChatMessages c.state) (hy : y ∈ listChatMessages c.state) (hxplace : InPlace c.state x)
    (hx' : x' ∈ c'.state.messages) (hy' : y' ∈ c'.state.messages) (hxid : x'.id = x.id) (hyid : y'.id = y.id)
    (hlt : x.key < y.key) : x'.key < y'.key := by
  have hsettled : ¬ QueuedInput c.state.tasks x := by
    intro hqueued
    exact absurd (hxplace hqueued y hy) (not_le_of_gt hlt)
  have hfixed : Fixed x c'.state := (hc.fixed (mem_listChatMessages.mp hx).1 hsettled).run h
  have hlowered : Lowered y c'.state := (hc.lowered (mem_listChatMessages.mp hy).1).run h
  rw [hfixed.same x' hx' hxid]
  exact lt_of_lt_of_le hlt (key_le_of_later hyid (hlowered.later y' hy' hyid))

/-- In every run, once a turn has been claimed the input of each turn that left the queue
before it stands before its input, with the outcome where that turn was over; and two
visible rows in place keep their order. -/
theorem transcript_order {c : Config State Action Unit} (h : Run (Machine.start start) c) :
    (∀ now locked t turn, claimable c.state.tasks locked = some t → t.chatInputTaskId = t.id → Claimed c.state turn →
      ∀ c', Run (advance step c (.claim now locked)) c' →
        ∀ x ∈ listChatMessages c'.state, ∀ y ∈ listChatMessages c'.state,
          isInput turn x = true ∨ Over c.state turn ∧ OfTurn c'.state.tasks turn x → isInput t.id y = true →
            [x, y].Sublist (listChatMessages c'.state)) ∧
      ∀ c', Run c c' → ∀ x ∈ listChatMessages c.state, ∀ y ∈ listChatMessages c.state,
        InPlace c.state x → InPlace c.state y →
          ∀ x' ∈ listChatMessages c'.state, ∀ y' ∈ listChatMessages c'.state, x'.id = x.id → y'.id = y.id →
            ([x', y'].Sublist (listChatMessages c'.state) ↔ [x, y].Sublist (listChatMessages c.state)) := by
  have htidy : Tidy c.state := tidy_run h
  constructor
  · intro now locked t turn hfound hroot hclaimed c' hrun x hx y hy hrow hinput
    have hstep : (advance step c (.claim now locked)).state = claim c.state now locked := by
      rw [advance_state]
      rfl
    have hbehind : Behind (Over c.state turn) turn t.id c'.state := by
      apply Behind.run hrun
      rw [hstep]
      exact Behind.of_claim htidy hfound hroot hclaimed
    rw [hbehind.tidy.stands_before hx hy]
    apply key_lt_of_createdAt
    exact hbehind.order x (mem_listChatMessages.mp hx).1 y (mem_listChatMessages.mp hy).1 hrow hinput
  · intro c' hrun x hx y hy hxplace hyplace x' hx' y' hy' hxid hyid
    have htidy' : Tidy c'.state := tidy_run (h.trans hrun)
    have hxmem := (mem_listChatMessages.mp hx').1
    have hymem := (mem_listChatMessages.mp hy').1
    rw [htidy.stands_before hx hy, htidy'.stands_before hx' hy']
    constructor
    · intro hlt
      rcases lt_trichotomy x.key y.key with hxy | heq | hyx
      · exact hxy
      · have hid : x.id = y.id := congrArg (fun key : Lex (Nat × Nat) => (ofLex key).2) heq
        rw [htidy'.eq_of_id hxmem hymem (hxid.trans (hid.trans hyid.symm))] at hlt
        exact absurd hlt (lt_irrefl _)
      · exact absurd hlt (lt_asymm (place_kept htidy hrun hy hx hyplace hymem hxmem hyid hxid hyx))
    · intro hlt
      exact place_kept htidy hrun hx hy hxplace hxmem hymem hxid hyid hlt

def after (actions : List Action) : Config State Action Unit := exec step (Machine.start start) actions

theorem run_after (actions : List Action) : Run (Machine.start start) (after actions) :=
  reach_exec (allAllowed_of_forall (fun _ _ => trivial) _ actions)

/-- A turn that completes before the follow-up behind it is claimed. -/
def answeredRun : List Action := [.send 1 1 1, .claim 2 [], .start 1, .send 3 2 2, .complete 4 1 3]

theorem transcript_order_answeredRun :
    [(⟨3, 4, .assistant, 1⟩ : Message), ⟨2, 5, .user, 2⟩].Sublist
        (listChatMessages (advance step (after answeredRun) (.claim 6 [])).state) ∧
      ([(⟨1, 1, .user, 1⟩ : Message), ⟨3, 4, .assistant, 1⟩].Sublist
          (listChatMessages (advance step (after answeredRun) (.claim 6 [])).state) ↔
        [(⟨1, 1, .user, 1⟩ : Message), ⟨3, 4, .assistant, 1⟩].Sublist (listChatMessages (after answeredRun).state)) := by
  obtain ⟨hclaim, hplaces⟩ := transcript_order (run_after answeredRun)
  have hover : Over (after answeredRun).state 1 := by
    have hdead : ∀ t ∈ (after answeredRun).state.tasks, t.chatInputTaskId = 1 →
        t.status.unfinished = false ∧ t.finalizeDeferred = false := by decide +kernel
    have hcalls : owedBy (after answeredRun).state.calls = [] := by decide +kernel
    rintro t ht howner (hunfinished | hmarked | howed)
    · rw [(hdead t ht howner).1] at hunfinished
      cases hunfinished
    · rw [(hdead t ht howner).2] at hmarked
      cases hmarked
    · rw [hcalls] at howed
      cases howed
  have hfixed : ∀ m : Message, m.taskId = 1 → ¬ QueuedInput (after answeredRun).state.tasks m := by
    rintro m hm ⟨_, t, ht, hid, hqueued, _⟩
    have hdone : ∀ t ∈ (after answeredRun).state.tasks, t.id = 1 → t.status ≠ .queued := by decide +kernel
    exact hdone t ht (hid.trans hm) hqueued
  constructor
  · refine hclaim 6 [] (directTask 3 2) 1 (by decide +kernel) rfl ?_ _ (Reach.refl _) _ (by decide +kernel) _
      (by decide +kernel) (.inr ⟨hover, ?_⟩) (by decide +kernel)
    · unfold Claimed
      decide +kernel
    · unfold OfTurn
      decide +kernel
  · exact hplaces _ (Reach.tail (Reach.refl _) _ trivial) _ (by decide +kernel) _ (by decide +kernel)
      (fun hqueued => absurd hqueued (hfixed _ rfl)) (fun hqueued => absurd hqueued (hfixed _ rfl)) _ (by decide +kernel) _
      (by decide +kernel) rfl rfl

/-- A turn is stopped without output, the next one is claimed, and a late batch of
messages makes the stopped turn write its outcome. -/
def stoppedRun : List Action :=
  [.send 1 1 1, .send 2 2 2, .claim 3 [], .start 1, .cancel 1 1 true, .finalize 4 1 3, .claim 5 [], .taskMessage 1,
    .finalizeDeferred 6 1 4]

/-- A cancellation makes a follow-up the visible head before anything has moved it. -/
def movedRun : List Action :=
  [.send 1 1 1, .claim 2 [], .start 1, .send 3 2 2, .send 4 3 3, .complete 5 1 4, .claim 6 [], .start 2,
    .cancel 1 2 true, .finalize 7 1 5, .claim 8 []]

theorem transcript_disorder :
    (Run (Machine.start start) (after stoppedRun) ∧ (claimable (after (stoppedRun.take 2)).state.tasks []).map Task.id = some 1 ∧
      (claimable (after (stoppedRun.take 6)).state.tasks []).map Task.id = some 2 ∧
      ∃ x ∈ listChatMessages (after stoppedRun).state, ∃ y ∈ listChatMessages (after stoppedRun).state,
        isInput 2 x = true ∧ y.role = .assistant ∧ y.taskId = 1 ∧ [x, y].Sublist (listChatMessages (after stoppedRun).state)) ∧
      Run (Machine.start start) (after (movedRun.take 10)) ∧ Run (after (movedRun.take 10)) (after movedRun) ∧
        ∃ x ∈ listChatMessages (after (movedRun.take 10)).state, ∃ y ∈ listChatMessages (after (movedRun.take 10)).state,
          ∃ x' ∈ listChatMessages (after movedRun).state, ∃ y' ∈ listChatMessages (after movedRun).state,
            x.role = .user ∧ x'.id = x.id ∧ y'.id = y.id ∧
              [x, y].Sublist (listChatMessages (after (movedRun.take 10)).state) ∧
              [y', x'].Sublist (listChatMessages (after movedRun).state) := by
  refine ⟨⟨run_after _, ?_⟩, run_after _, ?_, ?_⟩
  · decide +kernel
  · exact Reach.tail (Reach.refl _) (Action.claim 8 []) trivial
  · decide +kernel

/-! ## What the rows name -/

/-- In every run the ids of tasks and messages are distinct, and what a row or an open call names
is there; a task that waits for its time is a retry. -/
theorem rows_refer {c : Config State Action Unit} (h : Run (Machine.start start) c) :
    (c.state.messages.map Message.id).Nodup ∧
      (∀ m ∈ c.state.messages, ∃! t, t ∈ c.state.tasks ∧ t.id = m.taskId) ∧
      (∀ t ∈ c.state.tasks, (∃! turn, turn ∈ c.state.tasks ∧ turn.id = t.chatInputTaskId) ∧
        (t.status = .deferred → t.chatInputTaskId ≠ t.id)) ∧
      ∀ taskId ∈ owedBy c.state.calls, ∃! t, t ∈ c.state.tasks ∧ t.id = taskId := by
  have htidy := tidy_run h
  have hone : ∀ taskId ∈ c.state.tasks.map Task.id, ∃! t, t ∈ c.state.tasks ∧ t.id = taskId := by
    intro taskId hid
    obtain ⟨t, ht, rfl⟩ := mem_map.mp hid
    refine ⟨t, ⟨ht, rfl⟩, ?_⟩
    intro u hu
    exact htidy.keyed.eq_of_key hu.1 ht hu.2
  refine ⟨htidy.messageIds, ?_, ?_, ?_⟩
  · exact fun m hm => hone _ (htidy.authors m hm)
  · exact fun t ht => ⟨hone _ (htidy.owners t ht), htidy.roots t ht⟩
  · exact fun taskId howed => hone _ (htidy.calls taskId howed)

/-- A task fails and its retry waits for the runtime; the follow-up is cancelled meanwhile. -/
def waitingRun : List Action :=
  [.send 1 1 1, .claim 2 [], .start 1, .send 3 4 2, .fail 4 1 2 3 "runtime_offline", .cancel 1 4 true]

/-- The retry names the turn that failed, and the open call the task that it cancelled. -/
theorem rows_refer_waitingRun :
    (∃ t ∈ (after waitingRun).state.tasks, t.status = .deferred ∧ t.chatInputTaskId ≠ t.id ∧
      ∃! turn, turn ∈ (after waitingRun).state.tasks ∧ turn.id = t.chatInputTaskId) ∧
      ∃! t, t ∈ (after waitingRun).state.tasks ∧ t.id = 4 := by
  obtain ⟨_, _, htasks, hcalls⟩ := rows_refer (run_after waitingRun)
  have hdeferred : ∃ t ∈ (after waitingRun).state.tasks, t.status = .deferred := by decide +kernel
  obtain ⟨t, ht, hstatus⟩ := hdeferred
  exact ⟨⟨t, ht, hstatus, (htasks t ht).2 hstatus, (htasks t ht).1⟩, hcalls 4 (by decide +kernel)⟩

end ClawMessenger.Ports.ChatTurns
